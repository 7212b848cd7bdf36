import Leitstand.RunEvents

namespace Leitstand
open TxM

/-- What the bus holds for the topic after the event: the payload latched last, until the topic is
unlatched. -/
def latch (topic : Topic) (held : Option Payload) : Event → Option Payload
  | .publish topic' payload true => if topic' = topic then some payload else held
  | .publish _ _ false => held
  | .unlatch topic' => if topic' = topic then none else held

def latched (topic : Topic) (bus : List Event) : Option Payload := bus.foldl (latch topic) none

theorem latched_append (topic : Topic) (bus events : List Event) :
    latched topic (bus ++ events) = events.foldl (latch topic) (latched topic bus) :=
  List.foldl_append

/-- What a run announces leaves the bus with a view of the run for its mission, or changes nothing. -/
theorem latch_of {r : StoredRun} {events : List Event} (h : ∀ e ∈ events, e.Of r)
    (missionId : UUID) (held : Option Payload) :
    events.foldl (latch (.missionState missionId)) held = held ∨ r.missionId = missionId ∧
      ∃ rows errors, events.foldl (latch (.missionState missionId)) held =
        some (.state (r.view rows errors)) := by
  induction events generalizing held with
  | nil => exact .inl rfl
  | cons e events ih =>
    obtain ⟨he, hrest⟩ := List.forall_mem_cons.mp h
    rw [List.foldl_cons]
    obtain ⟨rows, errors, rfl⟩ | ⟨status, trigger, reason, rfl⟩ := he
    · by_cases hm : r.missionId = missionId
      · have hstep : latch (.missionState missionId) held (r.stateEvent rows errors) =
            some (.state (r.view rows errors)) := if_pos (by rw [hm])
        rw [hstep]
        obtain hsame | hview := ih hrest (some (.state (r.view rows errors)))
        · exact .inr ⟨hm, rows, errors, hsame⟩
        · exact .inr hview
      · have hstep : latch (.missionState missionId) held (r.stateEvent rows errors) = held :=
          if_neg fun he => hm (Topic.missionState.inj he)
        rw [hstep]
        exact ih hrest held
    · exact ih hrest held

theorem latch_aboutRobot {events : List Event} (h : ∀ e ∈ events, e.AboutRobot) (missionId : UUID)
    (held : Option Payload) : events.foldl (latch (.missionState missionId)) held = held := by
  induction events generalizing held with
  | nil => rfl
  | cons e events ih =>
    obtain ⟨he, hrest⟩ := List.forall_mem_cons.mp h
    rw [List.foldl_cons, ih hrest]
    unfold Event.AboutRobot at he
    split at he
    · rename_i b
      cases b <;> rfl
    · rename_i b
      cases b <;> rfl
    · exact he.elim

theorem latch_deletionEvents (runs : Table StoredRun.runId) (r : StoredRun) (missionId : UUID)
    (held : Option Payload) :
    (deletionEvents runs r).foldl (latch (.missionState missionId)) held =
      if r.missionId = missionId ∧
        (runs.erase r.runId).rows.filter (fun q => q.missionId = r.missionId) = [] then none
      else held := by
  unfold deletionEvents
  split_ifs with hlast hm hm
  · exact if_pos (by rw [hm.1])
  · exact if_neg fun he => hm ⟨Topic.missionState.inj he, hlast⟩
  · exact absurd hm.2 hlast
  · rfl

namespace System
variable {s s' : System} {a : Action}

/-- The frame a late subscriber of the mission's state is given. -/
def latchedFrame (s : System) (missionId : UUID) : Option Payload :=
  latched (.missionState missionId) s.world.bus

/-- The run that the mission's latched frame names. -/
def shownRun (s : System) (missionId : UUID) : Option UUID :=
  match s.latchedFrame missionId with
  | some (.state view) => some view.runId
  | _ => none

/-- A latched frame names a stored run of its mission, and a mission without runs has none. -/
structure FramesCurrent (s : System) : Prop where
  stored : ∀ missionId frame, s.latchedFrame missionId = some frame → ∃ view r,
    frame = .state view ∧ s.runs.find? view.runId = some r ∧ r.missionId = missionId
  unlatched : ∀ missionId, (∀ r ∈ s.runs.rows, r.missionId ≠ missionId) →
    s.latchedFrame missionId = none

/-- No run is deleted that its mission's frame names, unless it is the mission's only one. -/
def sparesFrame (s : System) : Action → Bool
  | .deleteRun runId => (s.runs.find? runId).all fun r =>
      isTerminal r.status && s.shownRun r.missionId = some runId →
        (s.runs.erase runId).rows.all fun q => q.missionId ≠ r.missionId
  | _ => true

theorem sparesFrame_deleteRun {runId : UUID} : s.sparesFrame (.deleteRun runId) = true ↔
    ∀ r, s.runs.find? runId = some r → isTerminal r.status = true →
      s.shownRun r.missionId = some runId → ∀ q ∈ (s.runs.erase runId).rows,
        q.missionId ≠ r.missionId := by
  simp [sparesFrame, Option.all_eq_true, or_iff_not_imp_left]

/-- What is latched is a state view, for a mission that has a run. -/
def FramesKept (s : System) : Prop :=
  ∀ missionId frame, s.latchedFrame missionId = some frame →
    (∃ view, frame = .state view) ∧ ∃ r ∈ s.runs.rows, r.missionId = missionId

/-- What a step does to a mission's frame. -/
inductive FrameStep (s : System) (s' : System) (missionId : UUID) : Prop
  | same (frame : s'.latchedFrame missionId = s.latchedFrame missionId)
      (others : ∀ r, s.runs.find? r.runId = some r → r.missionId = missionId →
        s'.runs.find? r.runId = none →
        s'.runs = s.runs.erase r.runId ∧ ∃ q ∈ s'.runs.rows, q.missionId = missionId)
  | shown (r r' : StoredRun) (rows : List StageStateRecord) (errors : Option (List MissionError))
      (found : s'.runs.find? r.runId = some r') (mission : r'.missionId = missionId)
      (frame : s'.latchedFrame missionId = some (.state (r.view rows errors)))
  | dropped (frame : s'.latchedFrame missionId = none)

theorem RunsStep.frameStep (h : RunsStep s a s') (missionId : UUID) : FrameStep s s' missionId := by
  have hbus : ∀ events, s'.world.bus = s.world.bus ++ events → s'.latchedFrame missionId =
      events.foldl (latch (.missionState missionId)) (s.latchedFrame missionId) := by
    intro events hb
    rw [latchedFrame, hb, latched_append]
    rfl
  cases h with
  | idle events runs bus quiet =>
    refine .same ((hbus _ bus).trans (latch_aboutRobot quiet _ _)) fun r hr _ hnone => ?_
    rw [runs, hr] at hnone
    cases hnone
  | responded r input found cause runs bus =>
    have hkey := r.runId_respond input
    have hstays : ∀ k q, s.runs.find? k = some q → s'.runs.find? k ≠ none := by
      intro k q hq
      rw [runs, Table.find?_replace]
      split_ifs <;> simp [hq]
    obtain hsame | ⟨hm, rows, errors, hframe⟩ :=
      latch_of (r.of_respond input) missionId (s.latchedFrame missionId)
    · exact .same ((hbus _ bus).trans hsame) fun q hq _ hnone => absurd hnone (hstays _ q hq)
    · have hfound : s'.runs.find? r.runId = some (r.respond input).row := by
        rw [runs]
        exact hkey ▸ Table.find?_replace_self (hkey.symm ▸ found)
      have hmission : (r.respond input).row.missionId = missionId :=
        (congrArg FrozenRun.missionId (r.frozen_respond input)).trans hm
      exact .shown r _ rows errors hfound hmission ((hbus _ bus).trans hframe)
  | created p runId dispatch cause fresh absent free drawn runs bus =>
    have hstays : ∀ k q, s.runs.find? k = some q → s'.runs.find? k ≠ none := by
      intro k q hq
      rw [runs, Table.find?_insert]
      split_ifs <;> simp [hq]
    obtain hsame | ⟨hm, rows, errors, hframe⟩ := @latch_of (freshRun s.digests runId p) _
      (List.forall_mem_singleton.mpr (.inl ⟨_, _, rfl⟩)) missionId (s.latchedFrame missionId)
    · exact .same ((hbus _ bus).trans hsame) fun q hq _ hnone => absurd hnone (hstays _ q hq)
    · have hfound : s'.runs.find? (freshRun s.digests runId p).runId =
          some (freshRun s.digests runId p) := by
        rw [runs, Table.find?_insert, if_pos rfl]
      exact .shown _ _ rows errors hfound hm ((hbus _ bus).trans hframe)
  | deleted r found cause ended runs bus =>
    have hframe := (hbus _ bus).trans (latch_deletionEvents _ _ _ _)
    split_ifs at hframe with hlast
    · exact .dropped hframe
    · refine .same hframe fun q hq hm hnone => ?_
      rw [runs, Table.find?_erase] at hnone
      split_ifs at hnone with hid
      · obtain rfl : r = q := Option.some.inj (found.symm.trans (hid ▸ hq))
        refine ⟨runs, ?_⟩
        have hne : (s.runs.erase r.runId).rows.filter (fun q => q.missionId = r.missionId) ≠ [] :=
          fun hnil => hlast ⟨hm, hnil⟩
        obtain ⟨q, hq⟩ := List.exists_mem_of_ne_nil _ hne
        obtain ⟨hmem, hqm⟩ := List.mem_filter.mp hq
        exact ⟨q, runs ▸ hmem, (of_decide_eq_true hqm).trans hm⟩
      · rw [hq] at hnone
        cases hnone

/-- A run that the step does not delete is still there, of the same mission. -/
theorem RunStep.find?_kept {r : StoredRun} (h : RunStep s a s' r)
    (hk : a ≠ .deleteRun r.runId ∨ s'.runs.find? r.runId ≠ none) :
    ∃ r', s'.runs.find? r.runId = some r' ∧ r'.missionId = r.missionId := by
  cases h with
  | same found => exact ⟨r, found, rfl⟩
  | took input cause found =>
    exact ⟨_, found, congrArg FrozenRun.missionId (r.frozen_respond input)⟩
  | gone cause ended found => exact absurd cause (hk.resolve_right fun hne => hne found)

theorem FramesKept.step (hk : s.FramesKept) (h : RunsStep s a s') : s'.FramesKept := by
  intro missionId frame hframe
  cases h.frameStep missionId with
  | same hsame others =>
    obtain ⟨hview, r, hr, hm⟩ := hk missionId frame (hsame ▸ hframe)
    refine ⟨hview, ?_⟩
    have hfound := Table.find?_of_mem hr
    cases hr' : s'.runs.find? r.runId with
    | none => exact (others r hfound hm hr').2
    | some r' =>
      have hkept : a ≠ .deleteRun r.runId ∨ s'.runs.find? r.runId ≠ none := .inr (by simp [hr'])
      obtain ⟨q, hq, hqm⟩ := (h.of_run hfound).find?_kept hkept
      exact ⟨q, Table.mem_of_find? hq, hqm.trans hm⟩
  | shown r r' rows errors found mission hshown =>
    obtain rfl := Option.some.inj (hframe.symm.trans hshown)
    exact ⟨⟨_, rfl⟩, r', Table.mem_of_find? found, mission⟩
  | dropped hnone =>
    rw [hnone] at hframe
    cases hframe

theorem FramesCurrent.of_stored (h : ∀ missionId frame, s.latchedFrame missionId = some frame →
    ∃ view r, frame = .state view ∧ s.runs.find? view.runId = some r ∧ r.missionId = missionId) :
    s.FramesCurrent := by
  refine ⟨h, fun missionId hnone => ?_⟩
  cases hframe : s.latchedFrame missionId with
  | none => rfl
  | some frame =>
    obtain ⟨view, r, -, hr, hm⟩ := h missionId frame hframe
    exact absurd hm (hnone r (Table.mem_of_find? hr))

theorem shownRun_eq_some {missionId runId : UUID} : s.shownRun missionId = some runId ↔
    ∃ view, s.latchedFrame missionId = some (.state view) ∧ view.runId = runId := by
  unfold shownRun
  split
  · rename_i view hframe
    simp [hframe]
  · rename_i hframe
    simp only [reduceCtorEq, false_iff, not_exists, not_and]
    exact fun view hview => absurd hview (hframe view)

theorem FramesCurrent.step (hc : s.FramesCurrent) (h : RunsStep s a s')
    (hspares : s.sparesFrame a = true) : s'.FramesCurrent := by
  apply FramesCurrent.of_stored
  intro missionId frame hframe
  cases h.frameStep missionId with
  | same hsame others =>
    obtain ⟨view, r, rfl, hr, hm⟩ := hc.stored missionId frame (hsame ▸ hframe)
    have hid : r.runId = view.runId := Table.key_of_find? hr
    rw [← hid] at hr
    have hstep := h.of_run hr
    suffices hkept : a ≠ .deleteRun r.runId ∨ s'.runs.find? r.runId ≠ none by
      obtain ⟨r', hr', hm'⟩ := hstep.find?_kept hkept
      exact ⟨view, r', rfl, hid ▸ hr', hm'.trans hm⟩
    by_contra hgone
    obtain ⟨hcause, hnone⟩ := not_or.mp hgone
    obtain rfl := not_not.mp hcause
    have hnone := not_not.mp hnone
    -- The run is gone, and another of the mission is left.
    obtain ⟨hruns, q, hq, hqm⟩ := others r hr hm hnone
    have hended : isTerminal r.status = true := by
      cases hstep with
      | same found => simp [found] at hnone
      | took input cause found => simp [found] at hnone
      | gone cause ended => exact ended
    have hshown : s.shownRun r.missionId = some r.runId := by
      rw [hm]
      exact shownRun_eq_some.mpr ⟨view, hsame ▸ hframe, hid.symm⟩
    exact sparesFrame_deleteRun.mp hspares r hr hended hshown q (hruns ▸ hq) (hqm.trans hm.symm)
  | shown r r' rows errors found mission hshown =>
    obtain rfl := Option.some.inj (hframe.symm.trans hshown)
    exact ⟨_, r', rfl, found, mission⟩
  | dropped hnone =>
    rw [hnone] at hframe
    cases hframe

/-- An ended run is deleted when asked. -/
theorem deleteRun_succeeds {r : StoredRun} {tx : Tx Store Event Command}
    (hr : tx.store.runs.find? r.runId = some r) (ht : isTerminal r.status = true) :
    ∃ tx', (RunService.delete r.runId).exec tx = (.ok (), tx') := by
  unfold RunService.delete
  simp only [Runs.getForUpdate, exec_bind, exec_get, hr, Option.map_some, exec_check,
    isActive_eq_not_isTerminal, StoredRun.toRun_status, ht, raiseIf, Bool.not_true,
    Bool.false_eq_true, if_false, Runs.delete, exec_setStore, Runs.countByMission, exec_store,
    exec_pure]
  split_ifs <;> exact ⟨_, rfl⟩

/-- Deleting the run that the frame names leaves the frame, when the mission has another run. -/
theorem FramesCurrent.spares (hc : s'.FramesCurrent) (h : s.step a = some s') :
    s.sparesFrame a = true := by
  cases a with
  | deleteRun runId =>
    obtain rfl := Option.some.inj h
    rw [sparesFrame_deleteRun]
    intro r hr ht hshown q hq hqm
    obtain rfl : r.runId = runId := Table.key_of_find? hr
    obtain ⟨tx, hx⟩ := @deleteRun_succeeds r { store := s.store } hr ht
    obtain ⟨r', hr', -, hst, hqueued, -⟩ := deleteRun_ok hx
    obtain rfl : r = r' := Option.some.inj (hr.symm.trans hr')
    rw [perform_ok hx] at hc
    -- The frame still names the run, whose row is gone.
    obtain ⟨view, hframe, hid⟩ := shownRun_eq_some.mp hshown
    have hkept : latched (.missionState r.missionId) (s.world.bus ++ tx.queued) =
        some (.state view) := by
      have hq' : tx.queued = deletionEvents s.runs r := hqueued
      rw [latched_append, hq', latch_deletionEvents, if_neg]
      · exact hframe
      · rintro ⟨-, hnil⟩
        exact List.filter_eq_nil_iff.mp hnil q hq (decide_eq_true hqm)
    obtain ⟨view', q', hview, hq', -⟩ := hc.stored r.missionId _ hkept
    obtain rfl := Payload.state.inj hview
    have hnone : tx.store.runs.find? view.runId = none := by
      rw [hst, hid, Table.find?_erase, if_pos rfl]
    have hgone := hnone.symm.trans hq'
    cases hgone
  | _ => rfl

theorem Initial.latchedFrame (h : s.Initial) (missionId : UUID) :
    s.latchedFrame missionId = none := by
  rw [System.latchedFrame, h.bus]
  rfl

/-- Whatever runs are deleted, a mission that has none left has no frame. -/
theorem Reachable.framesKept (h : s.Reachable) : s.FramesKept := by
  have hall : Snapshots s ∧ s.FramesKept := by
    refine h.invariant (I := fun s => Snapshots s ∧ s.FramesKept) ?_ ?_
    · intro s hi
      refine ⟨Reachable.snapshots ⟨s, [], hi, rfl⟩, fun missionId frame hframe => ?_⟩
      rw [hi.latchedFrame] at hframe
      cases hframe
    · rintro s a s' ⟨hs, hk⟩ hstep
      exact ⟨hs.step hstep, hk.step (step_runs hs hstep)⟩
  exact hall.2

end System

open StepSystem in
/-- The latched frames name stored runs all along a run of the system just when no run is deleted
that its mission's frame names while the mission has another. -/
theorem latched_frame_current_iff {s₀ s : System} {acts : List Action} (h₀ : s₀.Initial)
    (h : exec System.step s₀ acts = some s) :
    ((∀ pre post m, acts = pre ++ post → exec System.step s₀ pre = some m → m.FramesCurrent) ↔
      Throughout System.step (fun _ s a => s.sparesFrame a = true) [] s₀ acts) ∧
    ∀ missionId, (∀ r ∈ s.runs.rows, r.missionId ≠ missionId) → s.latchedFrame missionId = none := by
  have hreach : ∀ pre m, exec System.step s₀ pre = some m → m.Reachable := fun pre m hm =>
    ⟨s₀, pre, h₀, hm⟩
  refine ⟨⟨fun hall => ?_, fun hspares pre post m he hm => ?_⟩, fun missionId hnone => ?_⟩
  · rw [throughout_iff]
    intro pre a post m he hm
    have hsplit : acts = (pre ++ [a]) ++ post := by simp [he]
    obtain ⟨m', hm', -⟩ := exec_append_iff.mp (hsplit ▸ h)
    obtain ⟨m₁, hm₁, ha⟩ := exec_snoc_iff.mp hm'
    obtain rfl := Option.some.inj (hm.symm.trans hm₁)
    exact (hall _ post m' hsplit hm').spares ha
  · subst he
    have hpre := hspares.of_append
    refine exec_history (I := fun past s => Throughout System.step
      (fun _ s a => s.sparesFrame a = true) [] s₀ past → s.FramesCurrent) ?_ ?_ hm hpre
    · intro _
      apply System.FramesCurrent.of_stored
      intro missionId frame hframe
      rw [h₀.latchedFrame] at hframe
      cases hframe
    · intro past t a t' hpast hI ha hpast'
      obtain ⟨hbefore, hspare⟩ := (throughout_snoc hpast).mp hpast'
      exact (hI hbefore).step ((hreach past t hpast).runsStep ha) hspare
  · cases hframe : s.latchedFrame missionId with
    | none => rfl
    | some frame =>
      obtain ⟨-, r, hr, hm⟩ := (hreach acts s h).framesKept missionId frame hframe
      exact absurd hm (hnone r hr)

section Demo

/-- The demo's mission is dispatched and rejected as run 7, and again as run 8. -/
def demoTwice : List Action :=
  demoDispatch ++ [demoSettle .rejected,
    .dispatch { missionId := 1, origin := { kind := .manual, actor := "operator" } }, .insert 0 8,
    .settle { runId := 8, outcome := .rejected, repliedAt := 0 }]

theorem latched_frame_current_iff_oldest_first : ∃ s,
    StepSystem.exec System.step demo (demoTwice ++ [.deleteRun 7, .deleteRun 8]) = some s ∧
      s.FramesCurrent ∧ s.latchedFrame 1 = none := by
  have hrun : ((StepSystem.exec System.step demo (demoTwice ++ [.deleteRun 7, .deleteRun 8])).any
      fun s => s.runs.rows.isEmpty) = true := by
    decide +kernel
  obtain ⟨s, hs, hnil⟩ := (Option.any_eq_true _ _).mp hrun
  have hiff := latched_frame_current_iff (System.boot_initial _ _ _) hs
  have hcurrent := hiff.1.mpr (by decide +kernel) _ [] s (List.append_nil _).symm hs
  refine ⟨s, hs, hcurrent, hiff.2 1 ?_⟩
  rw [List.isEmpty_iff.mp hnil]
  exact fun r hr => by cases hr

/-- The newer run is deleted first, and the frame goes on naming it. -/
theorem latched_frame_names_deleted_run : ∃ (s : System) (view : RunStateView), s.Reachable ∧
    s.latchedFrame 1 = some (.state view) ∧ s.runs.find? view.runId = none := by
  obtain ⟨s, hs, hp⟩ := demo_reaches
    (fun s => (s.shownRun 1).any fun runId => (s.runs.find? runId).isNone)
    (demoTwice ++ [.deleteRun 8]) (by decide +kernel)
  obtain ⟨runId, hshown, hnone⟩ := (Option.any_eq_true _ _).mp hp
  obtain ⟨view, hframe, rfl⟩ := System.shownRun_eq_some.mp hshown
  exact ⟨s, view, hs, hframe, Option.isNone_iff_eq_none.mp hnone⟩

end Demo

end Leitstand
