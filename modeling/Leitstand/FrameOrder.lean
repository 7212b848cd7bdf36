import Leitstand.RunHistory

namespace Leitstand
open MissionStateService

/-- The status a report stands for. -/
def reportedStatus : MissionExecStatus → RunStatus
  | .running => .running
  | .paused => .paused
  | .succeeded => .succeeded
  | .failed => .failed
  | .cancelled => .cancelled

/-- A live report that finds a run in this status moves it. -/
def givesWay : RunStatus → MissionExecStatus → Bool
  | .pending, .running | .dispatched, .running | .paused, .running | .resuming, .running => true
  | .dispatched, .paused | .running, .paused | .pausing, .paused => true
  | _, _ => false

theorem allowedTransitions_report {exec : MissionExecStatus} (hl : isOutcome exec = false)
    (s : RunStatus) : allowedTransitions s (triggerForReport s exec) =
      if givesWay s exec then some (reportedStatus exec) else none := by
  cases exec <;> cases hl <;> cases s <;> rfl

theorem reportedStatus_ne {s : RunStatus} {exec : MissionExecStatus}
    (h : givesWay s exec = true) : reportedStatus exec ≠ s := by
  rintro rfl
  cases exec <;> cases h

/-- Outside a pause or resume a live report leaves the run in the status it stands for. -/
theorem givesWay_or_reported {s : RunStatus} (hs : s = .dispatched ∨ s = .running ∨ s = .paused)
    {exec : MissionExecStatus} (hl : isOutcome exec = false) :
    givesWay s exec = true ∨ s = reportedStatus exec := by
  obtain rfl | rfl | rfl := hs <;> cases exec <;> cases hl <;> simp [givesWay, reportedStatus]

namespace StoredRun
variable (r : StoredRun) (state : MissionStateMessage)

/-- The frame does not reach back behind a pending pause or resume. -/
def predates : Bool :=
  predatesRequest r.toRun state.headerId (triggerForReport r.status state.execStatus)

/-- The frame finds the run in a status that gives way to it, and no pending request holds it off. -/
def Moves : Prop := givesWay r.status state.execStatus = true ∧ r.predates state = false

variable {r state}

theorem predates_idle (hp : r.status ≠ .pausing) (hr : r.status ≠ .resuming) :
    r.predates state = false := by
  unfold predates predatesRequest
  rw [if_pos ⟨hp, hr⟩]

theorem status_report_live (hl : isOutcome state.execStatus = false) (now : Datetime) :
    (r.report now state).row.status = if givesWay r.status state.execStatus ∧ ¬ r.predates state
      then reportedStatus state.execStatus else r.status := by
  have ht : reportTarget r.toRun state = if r.predates state then none else
      if givesWay r.status state.execStatus then some (reportedStatus state.execStatus)
        else none := by
    rw [← allowedTransitions_report hl]
    rfl
  rw [status_report, reportUpdate, ht]
  by_cases hp : r.predates state = true <;>
    by_cases hg : givesWay r.status state.execStatus = true <;> simp [hp, hg]

/-- A live frame without stage states is never refused. -/
theorem refusesReport_bare (hl : isOutcome state.execStatus = false) (hs : state.stageStates = [])
    {now : Datetime} : r.refusesReport now state = false := by
  have hlive : liveRecords state r.plan = [] := by
    unfold liveRecords
    rw [hs]
    rfl
  unfold refusesReport
  rw [hlive]
  cases hu : reportUpdate r.toRun state with
  | none => rfl
  | some u =>
    dsimp only
    rw [if_neg (by simp [reportUpdate_live hl hu])]
    rfl

/-- A live frame changes the status exactly when it moves the run. -/
theorem status_report_ne_iff (hl : isOutcome state.execStatus = false) (now : Datetime) :
    (r.report now state).row.status ≠ r.status ↔ r.Moves state := by
  rw [status_report_live hl, Moves]
  constructor
  · intro hne
    by_contra hn
    rw [if_neg (by simpa using hn)] at hne
    exact hne rfl
  · rintro ⟨hg, hp⟩
    rw [if_pos ⟨hg, by simp [hp]⟩]
    exact reportedStatus_ne hg

end StoredRun

namespace System
variable {s s' : System} {r : StoredRun} {state : MissionStateMessage}

theorem recordFrame_run (hr : s.runs.find? state.runId = some r) :
    (s.recordFrame r.robotId state).runs.find? state.runId =
      some (if r.refusesReport s.clock state then r else (r.report s.clock state).row) := by
  have hid := Table.key_of_find? hr
  rw [recordFrame_eq hr rfl]
  split_ifs
  · exact hr
  · have hkey := r.runId_respond (.reported s.clock state)
    have hself := Table.find?_replace_self (a := (r.report s.clock state).row)
      (b := r) (t := s.runs) (hkey.trans hid ▸ hr)
    exact (hkey.trans hid) ▸ hself

/-- A live frame with a header below that of a frame of the run taken before. -/
structure Stale (s : System) (r : StoredRun) (state : MissionStateMessage) : Prop where
  live : isOutcome state.execStatus = false
  overtaken : ∃ earlier ∈ s.framesOf r, state.headerId < earlier.headerId

/-- A stale frame of the run, if this is one, leaves its status as it was. -/
def StaleKeeps (runId : UUID) (s : System) (a : Action) : Prop :=
  ∀ (r : StoredRun) (state : MissionStateMessage) (r' : StoredRun), a = .record r.robotId state →
    state.runId = runId → s.runs.find? runId = some r → s.Stale r state →
    (s.recordFrame r.robotId state).runs.find? runId = some r' → r'.status = r.status

/-- A stale frame of the run, if this is one, is refused or finds the run in a status that does not
give way to it. -/
def StaleYields (runId : UUID) (s : System) (a : Action) : Prop :=
  ∀ (r : StoredRun) (state : MissionStateMessage), a = .record r.robotId state →
    state.runId = runId → s.runs.find? runId = some r → s.Stale r state →
    r.refusesReport s.clock state = true ∨ ¬ r.Moves state

theorem staleKeeps_iff {runId : UUID} {a : Action} :
    s.StaleKeeps runId a ↔ s.StaleYields runId a := by
  constructor
  · rintro h r state rfl rfl hr hstale
    have hkeep := h r state _ rfl rfl hr hstale (recordFrame_run hr)
    by_cases href : r.refusesReport s.clock state = true
    · exact .inl href
    · rw [if_neg href] at hkeep
      exact .inr fun hm => (StoredRun.status_report_ne_iff hstale.live s.clock).mpr hm hkeep
  · rintro h r state r' rfl rfl hr hstale hr'
    rw [recordFrame_run hr] at hr'
    obtain rfl := Option.some.inj hr'
    split_ifs with href
    · rfl
    · have hn := (h r state rfl rfl hr hstale).resolve_left href
      by_contra hne
      exact hn ((StoredRun.status_report_ne_iff hstale.live s.clock).mp hne)

end System

/-- Time passes and frames come in, of the run none but live ones. -/
def Action.LiveFrames (runId : UUID) : Action → Prop
  | .tick _ => True
  | .record _ state => state.runId = runId → isOutcome state.execStatus = false
  | _ => False

theorem Action.LiveFrames.input {a : Action} {r : StoredRun} {input : RunInput}
    (ha : a.LiveFrames r.runId) (hc : a.Causes r input) :
    ∃ now state, input = .reported now state ∧ isOutcome state.execStatus = false := by
  cases a with
  | tick duration => exact hc.input.elim
  | record robotId state =>
    obtain ⟨-, hid, now, rfl⟩ := hc.input
    exact ⟨now, state, rfl, ha hid⟩
  | _ => cases ha

theorem reportedStatus_inj {exec exec' : MissionExecStatus} :
    reportedStatus exec = reportedStatus exec' ↔ exec = exec' := by
  cases exec <;> cases exec' <;> simp [reportedStatus]

namespace System
variable {s s' : System} {r : StoredRun}

/-- A dispatched run that only takes live frames ends up where the last of them put it. -/
theorem status_after_frames {acts : List Action} (h : s.Reachable)
    (hr : s.runs.find? r.runId = some r) (hd : r.status = .dispatched)
    (hacts : ∀ a ∈ acts, a.LiveFrames r.runId) (hx : StepSystem.exec step s acts = some s') :
    ∃ r' frames, s'.runs.find? r.runId = some r' ∧ s'.framesOf r' = s.framesOf r ++ frames ∧
      r'.frozen = r.frozen ∧
      (r'.status = .dispatched ∨ r'.status = .running ∨ r'.status = .paused) ∧
      r'.status = frames.getLast?.elim .dispatched fun last => reportedStatus last.execStatus := by
  induction acts using List.reverseRecOn generalizing s' with
  | nil =>
    cases hx
    exact ⟨r, [], hr, (List.append_nil _).symm, rfl, .inl hd, hd⟩
  | append_singleton acts a ih =>
    obtain ⟨m, hm, ha⟩ := StepSystem.exec_snoc_iff.mp hx
    obtain ⟨q, frames, hq, hframes, hf, hst, hlast⟩ :=
      ih (fun b hb => hacts b (List.mem_append_left _ hb)) hm
    have hmr : m.Reachable := StepSystem.exec_invariant (fun _ _ _ => Reachable.step) h hm
    have hid : q.runId = r.runId := congrArg FrozenRun.runId hf
    have hact : a.LiveFrames q.runId := hid ▸ hacts a (by simp)
    rw [← hid] at hq ⊢
    cases hmr.runStep ha hq with
    | same found hsame => exact ⟨q, frames, found, hsame.trans hframes, hf, hst, hlast⟩
    | gone cause =>
      rw [cause] at hact
      cases hact
    | took input cause found htook =>
      obtain ⟨now, state, rfl, hl⟩ := hact.input cause
      have hfr := q.frozen_respond (.reported now state)
      have hrow : (q.report now state).row.status = reportedStatus state.execStatus := by
        have hidle : q.predates state = false := by
          apply StoredRun.predates_idle <;>
            obtain hst | hst | hst := hst <;> rw [hst] <;> simp
        rw [StoredRun.status_report_live hl]
        obtain hg | he := givesWay_or_reported hst hl
        · simp [hg, hidle]
        · split_ifs
          · rfl
          · exact he
      refine ⟨_, frames ++ [state], found, ?_, hfr.trans hf, ?_, ?_⟩
      · rw [framesOf_congr hfr, htook, hframes, List.append_assoc]
        rfl
      · change (q.report now state).row.status = _ ∨ (q.report now state).row.status = _ ∨
          (q.report now state).row.status = _
        rw [hrow]
        cases he : state.execStatus <;> rw [he] at hl <;> cases hl <;> simp [reportedStatus]
      · rw [List.getLast?_concat]
        exact hrow

end System

open StepSystem

/-- The stale frames of a run leave its status alone as long as none of them finds it in a status
that gives way; and where the frames of a dispatched run leave it is decided by the last one taken,
not by the newest. -/
theorem stale_frames_keep_status_iff {s s' : System} {runId : UUID} {acts : List Action}
    (h : s.Reachable) (hx : exec System.step s acts = some s') :
    (Throughout System.step (fun _ m a => m.StaleKeeps runId a) [] s acts ↔
      Throughout System.step (fun _ m a => m.StaleYields runId a) [] s acts) ∧
    ∀ (r r' : StoredRun) (frames : List MissionStateMessage) (last newest : MissionStateMessage),
      s.runs.find? runId = some r → r.status = .dispatched →
      (∀ a ∈ acts, a.LiveFrames runId) → s'.runs.find? runId = some r' →
      s'.framesOf r' = s.framesOf r ++ frames → frames.getLast? = some last → newest ∈ frames →
      (∀ frame ∈ frames, frame.headerId ≤ newest.headerId) →
      (r'.status = reportedStatus newest.execStatus ↔ last.execStatus = newest.execStatus) := by
  constructor
  · exact throughout_congr (I := fun _ _ => True) (fun _ _ _ _ _ _ => trivial)
      (fun _ m a _ => m.staleKeeps_iff) trivial
  · intro r r' frames last newest hr hd hacts hr' hframes hlast _ _
    obtain rfl : r.runId = runId := Table.key_of_find? hr
    obtain ⟨q, taken, hq, htaken, -, -, hst⟩ := System.status_after_frames h hr hd hacts hx
    obtain rfl : q = r' := Option.some.inj (hq.symm.trans hr')
    obtain rfl : taken = frames := List.append_cancel_left (htaken.symm.trans hframes)
    rw [hst, hlast]
    exact reportedStatus_inj

section Demo

def demoMessage (headerId : Nat) (execStatus : MissionExecStatus) : MissionStateMessage :=
  { runId := 7, headerId, timestamp := 0, execStatus }

/-- The demo's run once it is dispatched, and once it has taken these frames in this order. -/
theorem demo_takes (frames : List MissionStateMessage) (status : RunStatus)
    (h : (exec System.step demo (demoDispatch ++ [demoSettle .accepted])).any (fun s =>
      (s.runs.find? 7).any fun r => r.status = .dispatched &&
        (exec System.step s (frames.map (.record "r1"))).any fun s' =>
          (s'.runs.find? 7).any fun r' => s'.framesOf r' = s.framesOf r ++ frames &&
            r'.status = status) = true) :
    ∃ (s s' : System) (r r' : StoredRun), s.Reachable ∧
      exec System.step s (frames.map (.record "r1")) = some s' ∧ s.runs.find? 7 = some r ∧
      r.status = .dispatched ∧ s'.runs.find? 7 = some r' ∧
      s'.framesOf r' = s.framesOf r ++ frames ∧ r'.status = status := by
  obtain ⟨s, hs, hp⟩ := demo_reaches _ _ h
  obtain ⟨r, hr, hp⟩ := (Option.any_eq_true _ _).mp hp
  obtain ⟨hd, hp⟩ := Bool.and_eq_true_iff.mp hp
  obtain ⟨s', hx, hp⟩ := (Option.any_eq_true _ _).mp hp
  obtain ⟨r', hr', hp⟩ := (Option.any_eq_true _ _).mp hp
  obtain ⟨hframes, hst⟩ := Bool.and_eq_true_iff.mp hp
  exact ⟨s, s', r, r', hs, hx, hr, of_decide_eq_true hd, hr', of_decide_eq_true hframes,
    of_decide_eq_true hst⟩

theorem stale_frames_keep_status_iff_swapped : ∃ s s' : System, ∃ r' : StoredRun,
    s'.runs.find? 7 = some r' ∧
    (Throughout System.step (fun _ m a => m.StaleKeeps 7 a) [] s
        [.record "r1" (demoMessage 2 .running), .record "r1" (demoMessage 1 .paused)] ↔
      Throughout System.step (fun _ m a => m.StaleYields 7 a) [] s
        [.record "r1" (demoMessage 2 .running), .record "r1" (demoMessage 1 .paused)]) ∧
    (r'.status = .running ↔ MissionExecStatus.paused = .running) := by
  obtain ⟨s, s', r, r', hs, hx, hr, hd, hr', hframes, -⟩ :=
    demo_takes [demoMessage 2 .running, demoMessage 1 .paused] .paused (by decide)
  have hmain := @stale_frames_keep_status_iff s s' 7 _ hs hx
  refine ⟨s, s', r', hr', hmain.1, ?_⟩
  exact hmain.2 r r' _ (demoMessage 1 .paused) (demoMessage 2 .running) hr hd
    (by simp [Action.LiveFrames, demoMessage, isOutcome]) hr' hframes rfl (by simp)
    (by simp [demoMessage])

/-- The frame that says the robot paused comes in after the later one that says it runs, and pauses
the run. -/
theorem stale_frame_moves_run : (¬ ∀ (s s' : System) (runId : UUID) (acts : List Action),
      s.Reachable → exec System.step s acts = some s' →
      Throughout System.step (fun _ m a => m.StaleKeeps runId a) [] s acts) ∧
    ¬ ∀ (s s' : System) (runId : UUID) (acts : List Action) (r r' : StoredRun)
      (frames : List MissionStateMessage) (newest : MissionStateMessage), s.Reachable →
      exec System.step s acts = some s' → s.runs.find? runId = some r → r.status = .dispatched →
      (∀ a ∈ acts, a.LiveFrames runId) → s'.runs.find? runId = some r' →
      s'.framesOf r' = s.framesOf r ++ frames → (frames.map (·.headerId)).Nodup →
      newest ∈ frames → (∀ frame ∈ frames, frame.headerId ≤ newest.headerId) →
      r'.status = reportedStatus newest.execStatus := by
  constructor
  · intro hall
    obtain ⟨s, s₁, r, r₁, hs, hx, hr, -, hr₁, hframes, hst⟩ :=
      demo_takes [demoMessage 2 .running] .running (by decide)
    have hs₁ : s₁.Reachable := exec_invariant (fun _ _ _ => System.Reachable.step) hs hx
    have hkeeps := (hall s₁ _ 7 [.record r₁.robotId (demoMessage 1 .paused)] hs₁ rfl).1
    have hstale : s₁.Stale r₁ (demoMessage 1 .paused) :=
      ⟨rfl, demoMessage 2 .running, by rw [hframes]; simp, by decide⟩
    have hyields := System.staleKeeps_iff.mp hkeeps r₁ _ rfl rfl hr₁ hstale
    obtain href | hn := hyields
    · rw [StoredRun.refusesReport_bare rfl rfl] at href
      cases href
    · exact hn ⟨by rw [hst]; rfl, StoredRun.predates_idle (by simp [hst]) (by simp [hst])⟩
  · intro hall
    obtain ⟨s, s', r, r', hs, hx, hr, hd, hr', hframes, hst⟩ :=
      demo_takes [demoMessage 2 .running, demoMessage 1 .paused] .paused (by decide)
    have hclaim := hall s s' 7 _ r r' _ (demoMessage 2 .running) hs hx hr hd
      (by simp [Action.LiveFrames, demoMessage, isOutcome]) hr' hframes (by decide) (by simp)
      (by simp [demoMessage])
    rw [hst] at hclaim
    cases hclaim

end Demo
end Leitstand
