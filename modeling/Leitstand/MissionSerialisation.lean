import Leitstand.MissionLocks

namespace Leitstand
open TxM RunService

namespace System
variable {s s' : System} {a : Action}

theorem clock_step (h : s.step a = some s') : s.clock ≤ s'.clock := by
  cases a with
  | tick duration =>
    cases h
    exact Int.le_add_of_nonneg_right (Int.natCast_nonneg duration)
  | _ => exact ((step_frame h).clock (by simp)).ge

theorem locked_eq_false {missionId : UUID} (h : s.locked missionId = false) :
    missionId ∉ s.dispatches.map (·.command.missionId) ∧ missionId ∉ s.deletions.map (·.1) := by
  simp only [locked, Bool.or_eq_false_iff, List.any_eq_false, decide_eq_true_eq] at h
  exact ⟨fun hp => by
    obtain ⟨p, hp, he⟩ := List.mem_map.mp hp
    exact h.1 p hp he, fun hd => by
    obtain ⟨d, hd, he⟩ := List.mem_map.mp hd
    exact h.2 d hd he⟩

/-- A restore keeps every mission, the restored one unarchived. -/
theorem restore_missions {missionId : UUID} (h : s.step (.restoreMission missionId) = some s')
    {id : UUID} {m : Mission} (hf : s.store.missions.find? id = some m) :
    ∃ m', s'.store.missions.find? id = some m' ∧ (m' = m ∨ m'.archivedAt = none) := by
  obtain ⟨-, rfl⟩ := command_some h
  rcases hx : (MissionManagement.restore s.clock missionId).exec { store := s.store } with
    ⟨e | restored, tx⟩
  · rw [perform_error hx]
    exact ⟨m, hf, .inl rfl⟩
  · obtain ⟨m₀, -, -, -, hst⟩ := restore_ok hx
    rw [perform_ok hx]
    change ∃ m', tx.store.missions.find? id = some m' ∧ _
    rw [hst]
    dsimp only
    rw [Table.find?_replace]
    split_ifs
    · exact ⟨_, by rw [hf, Option.map_some], .inr rfl⟩
    · exact ⟨m, hf, .inl rfl⟩

theorem finishDeletion_some {i : Nat} (h : s.finishDeletion i = some s') :
    ∃ missionId hasRuns, s.deletions[i]? = some (missionId, some hasRuns) ∧
      s'.dispatches = s.dispatches ∧ s'.deletions = s.deletions.eraseIdx i ∧ s'.runs = s.runs ∧
      DeletedMissions s.clock s.store missionId hasRuns s'.store.missions := by
  obtain ⟨missionId, hasRuns, hi, rfl⟩ := finishDeletion_eq_some.mp h
  refine ⟨missionId, hasRuns, hi, rfl, rfl, ?_⟩
  rcases hx : (MissionManagement.deleteFinish s.clock missionId hasRuns).exec
      { store := s.store } with ⟨e | u, tx⟩
  · obtain rfl := deleteFinish_error hx
    rw [perform_error hx]
    exact ⟨rfl, .refused⟩
  · obtain ⟨-, -, entry, missions, hst, hm⟩ := deleteFinish_ok hx
    rw [perform_ok hx]
    have hruns : tx.store.runs = s.runs := by rw [hst]; rfl
    have hmissions : tx.store.missions = missions := by rw [hst]
    exact ⟨hruns, hmissions ▸ hm⟩

namespace Serialised

theorem initial (h : Initial s) : Serialised s where
  locks := by simp [h.dispatches, h.deletions]
  dispatching := by simp [h.dispatches]
  latest := by simp [h.dispatches]
  deleting := by simp [h.deletions]
  stored := by simp [h.runs, Table.empty]
  ordered := by simp [h.runs, Table.empty]

/-- A step that edits no mission and holds no lock the state before it did not hold. -/
theorem other (h : Serialised s) (hr : RunsStep s a s') (hc : s.clock ≤ s'.clock)
    (ha : ∀ i runId, a ≠ .insert i runId) (hm : a.editsMissions = false)
    (hp : s'.dispatches.Sublist s.dispatches) (hd : s'.deletions.Sublist s.deletions) :
    Serialised s' := by
  have hmissions := hr.frame.missions hm
  refine h.shrink hc hr.frame.audit (hr.shrinks ha) hp hd ?_ ?_
  · exact fun missionId ho _ => by unfold Open at ho ⊢; rwa [hmissions]
  · exact fun missionId hs _ => by rwa [hmissions]

theorem restore (h : Serialised s) {missionId : UUID}
    (hstep : s.step (.restoreMission missionId) = some s') : Serialised s' := by
  have hp := (step_frame hstep).dispatches rfl
  have hd := (step_frame hstep).deletions rfl
  have hr : RunsStep s (.restoreMission missionId) s' := by
    obtain ⟨-, rfl⟩ := command_some hstep
    exact restore_runsStep missionId
  refine h.shrink (clock_step hstep) hr.frame.audit (hr.shrinks (by simp)) (hp ▸ .refl _)
    (hd ▸ .refl _) (fun id ho _ => ?_) fun id hs _ => ?_
  · obtain ⟨m, hf, harch⟩ := ho
    obtain ⟨m', hf', rfl | harch'⟩ := restore_missions hstep hf
    · exact ⟨m', hf', harch⟩
    · exact ⟨m', hf', harch'⟩
  · obtain ⟨m, hf⟩ := Option.isSome_iff_exists.mp hs
    obtain ⟨m', hf', -⟩ := restore_missions hstep hf
    exact Option.isSome_iff_exists.mpr ⟨m', hf'⟩

theorem startDispatch (h : Serialised s) {command : StartRunCommand}
    (hstep : s.startDispatch command = some s') : Serialised s' := by
  unfold System.startDispatch at hstep
  split_ifs at hstep with hl
  obtain ⟨hnp, hnd⟩ := locked_eq_false (by simpa using hl)
  rw [outcome_eq] at hstep
  rcases hx : (prepareRead s.digests s.factsheets s.clock command).exec { store := s.store } with
    ⟨e | p, tx⟩
  · rw [hx] at hstep
    cases hstep
    exact h
  · rw [hx] at hstep
    cases hstep
    obtain ⟨rfl, hnow, hm, harch, hone, -, -⟩ := prepareRead_ok hx
    have hopen : Open s.store p.command.missionId := ⟨p.mission, hm, harch⟩
    refine ⟨?_, ?_, ?_, h.deleting, h.stored, h.ordered⟩
    · simp only [List.map_append, List.map_cons, List.map_nil, List.append_assoc,
        List.singleton_append]
      refine List.perm_middle.nodup_iff.mpr (List.nodup_cons.mpr ⟨fun he => ?_, h.locks⟩)
      exact (List.mem_append.mp he).elim hnp hnd
    · intro q hq
      obtain hq | hq := List.mem_append.mp hq
      · exact h.dispatching q hq
      · obtain rfl := List.mem_singleton.mp hq
        exact ⟨Table.key_of_find? hm, hopen, hnow.le⟩
    · intro q hq r hr hmi
      obtain hq | hq := List.mem_append.mp hq
      · exact h.latest q hq r hr hmi
      · obtain rfl := List.mem_singleton.mp hq
        exact ⟨hnow ▸ (h.stored r hr).2.1, fun hno => hone hno r hr hmi⟩

theorem startDeletion (h : Serialised s) {missionId : UUID}
    (hstep : s.startDeletion missionId = some s') : Serialised s' := by
  unfold System.startDeletion at hstep
  split_ifs at hstep with hl
  obtain ⟨hnp, hnd⟩ := locked_eq_false (by simpa using hl)
  rw [outcome_eq] at hstep
  rcases hx : (MissionManagement.deleteRead missionId).exec { store := s.store } with ⟨e | u, tx⟩
  · rw [hx] at hstep
    cases hstep
    exact h
  · rw [hx] at hstep
    cases hstep
    obtain ⟨-, hm, hina⟩ := deleteRead_ok hx
    refine ⟨?_, h.dispatching, h.latest, ?_, h.stored, h.ordered⟩
    · rw [List.map_append, ← List.append_assoc]
      refine (List.perm_append_singleton missionId _).nodup_iff.mpr
        (List.nodup_cons.mpr ⟨fun he => ?_, h.locks⟩)
      exact (List.mem_append.mp he).elim hnp hnd
    · intro d hd
      obtain hd | hd := List.mem_append.mp hd
      · exact h.deleting d hd
      · obtain rfl := List.mem_singleton.mp hd
        exact ⟨hm, fun r hr hmi => ⟨hina r hr hmi, by simp⟩⟩

theorem countRuns (h : Serialised s) {i : Nat} (hstep : s.countRuns i = some s') :
    Serialised s' := by
  unfold System.countRuns at hstep
  split at hstep
  · rename_i missionId hi
    rw [outcome_eq] at hstep
    rcases hx : (MissionManagement.deleteCount missionId).exec { store := s.store } with
      ⟨e | hasRuns, tx⟩
    · rw [hx] at hstep
      cases hstep
    · rw [hx] at hstep
      cases hstep
      obtain ⟨-, hnone⟩ := deleteCount_ok hx
      have hmem := List.mem_of_getElem? hi
      obtain ⟨hlt, hget⟩ := List.getElem?_eq_some_iff.mp hi
      have hkeys : (s.deletions.set i (missionId, some hasRuns)).map (·.1) =
          s.deletions.map (·.1) := by
        rw [List.map_set]
        refine List.ext_getElem (by simp) fun j hj hj' => ?_
        rw [List.getElem_set]
        split_ifs with hij
        · subst hij
          simp [hget]
        · rfl
      refine ⟨?_, h.dispatching, h.latest, ?_, h.stored, h.ordered⟩
      · change (_ ++ (s.deletions.set i (missionId, some hasRuns)).map (·.1)).Nodup
        rw [hkeys]
        exact h.locks
      · intro d hd
        obtain hd | rfl := List.mem_or_eq_of_mem_set hd
        · exact h.deleting d hd
        · obtain ⟨hs, hall⟩ := h.deleting _ hmem
          refine ⟨hs, fun r hr hmi => ⟨(hall r hr hmi).1, ?_⟩⟩
          intro he
          exact hnone (Option.some.inj he) r hr hmi
  · cases hstep

/-- A lock is held once. -/
theorem unlocked_eraseIdx (h : Serialised s) {i : Nat} {d : UUID × Option Bool}
    (hi : s.deletions[i]? = some d) : d.1 ∉ s.dispatches.map (·.command.missionId) ++
      (s.deletions.eraseIdx i).map (·.1) := by
  obtain ⟨hlt, rfl⟩ := List.getElem?_eq_some_iff.mp hi
  have hperm := (List.getElem_cons_eraseIdx_perm hlt).map (·.1)
  have hnd := (List.Perm.append_left (s.dispatches.map (·.command.missionId)) hperm).nodup_iff.mpr
    h.locks
  exact (List.nodup_cons.mp (List.perm_middle.nodup_iff.mp hnd)).1

/-- A mission that is being deleted is archived with its runs ended, or had none to keep. -/
theorem finishDeletion (h : Serialised s) {i : Nat} (hstep : s.finishDeletion i = some s') :
    Serialised s' := by
  have hr : RunsStep s (.finishDeletion i) s' := finishDeletion_runsStep hstep
  have hc : s.clock ≤ s'.clock := clock_step (a := .finishDeletion i) hstep
  obtain ⟨missionId, hasRuns, hi, hp, hd, hruns, hm⟩ := finishDeletion_some hstep
  have hlocks := h.unlocked_eraseIdx hi
  obtain ⟨-, hall⟩ := h.deleting _ (List.mem_of_getElem? hi)
  have hpre : Shrinks s.runs.rows s'.runs.rows := hruns ▸ .refl _
  refine h.shrink hc hr.frame.audit hpre (hp ▸ .refl _) (hd ▸ List.eraseIdx_sublist _ _) ?_ ?_
  · intro id ho hneed
    have hid : id ≠ missionId := by
      rintro rfl
      obtain ⟨p, hpm, he⟩ | ⟨r, hrm, he, ha⟩ := hneed
      · exact hlocks (List.mem_append_left _ (List.mem_map.mpr ⟨p, hp ▸ hpm, he⟩))
      · simp [(hall r (hruns ▸ hrm) he).1] at ha
    obtain ⟨m, hf, harch⟩ := ho
    exact ⟨m, (hm.find?_ne hid).trans hf, harch⟩
  · intro id hs hneed
    by_cases hid : id = missionId
    · subst hid
      obtain ⟨d, hdm, he⟩ | ⟨r, hrm, he⟩ := hneed
      · exact absurd (List.mem_append_right _ (List.mem_map.mpr ⟨d, hd ▸ hdm, he⟩)) hlocks
      · have hmem : r ∈ s.runs.rows := hruns ▸ hrm
        exact hm.kept hs hmem he
    · rwa [hm.find?_ne hid]

theorem insertRun_some {i : Nat} {runId : UUID} (h : s.insertRun i runId = some s') :
    ∃ p, s.dispatches[i]? = some p ∧ s'.dispatches = s.dispatches.eraseIdx i ∧
      s'.deletions = s.deletions ∧ s'.clock = s.clock ∧ (s'.world = s.world ∨
        s'.store.missions = s.store.missions ∧
        s'.runs.rows = s.runs.rows ++ [freshRun s.digests runId p] ∧ s'.store.audit =
          s.store.audit ++
            [.dispatch p.mission.missionId runId p.robotId p.command.allowConcurrent]) := by
  obtain ⟨p, hp, -, rfl⟩ := insertRun_eq_some.mp h
  refine ⟨p, hp, rfl, rfl, rfl, ?_⟩
  rcases hx : (prepareInsert s.digests runId p).exec { store := s.store } with ⟨e | run, tx⟩
  · left
    rw [perform_error hx, prepareInsert_error hx]
    simp
  · obtain ⟨habs, -, -, -, rfl⟩ := prepareInsert_ok hx
    rw [perform_ok hx]
    exact .inr ⟨rfl, rfl, rfl⟩

theorem unlocked_dispatch (h : Serialised s) {i : Nat} {p : Prepared}
    (hi : s.dispatches[i]? = some p) : p.command.missionId ∉
      (s.dispatches.eraseIdx i).map (·.command.missionId) ++ s.deletions.map (·.1) := by
  obtain ⟨hlt, rfl⟩ := List.getElem?_eq_some_iff.mp hi
  have hperm := (List.getElem_cons_eraseIdx_perm hlt).map (·.command.missionId)
  have hnd := (List.Perm.append_right (s.deletions.map (·.1)) hperm).nodup_iff.mpr h.locks
  exact (List.nodup_cons.mp hnd).1

/-- A dispatch inserts its run while its mission is as it read it: open, and without another active
run where it allows none. -/
theorem insert (h : Serialised s) {i : Nat} {runId : UUID}
    (hstep : s.insertRun i runId = some s') : Serialised s' := by
  obtain ⟨p, hi, hp, hd, hc, hw | ⟨hm, hruns, haudit⟩⟩ := insertRun_some hstep
  · have hst : s'.store = s.store := congrArg World.store hw
    have hrows : s'.runs = s.runs := congrArg Store.runs hst
    exact h.shrink hc.ge (hst ▸ List.prefix_rfl) (hrows ▸ .refl _) (hp ▸ List.eraseIdx_sublist _ _)
      (hd ▸ .refl _) (fun _ ho _ => hst ▸ ho) fun _ hs _ => hst ▸ hs
  · obtain ⟨hmission, hopen, hnow⟩ := h.dispatching p (List.mem_of_getElem? hi)
    have hlatest := h.latest p (List.mem_of_getElem? hi)
    have hsub := List.eraseIdx_sublist s.dispatches i
    have hOpen : ∀ id, Open s'.store id ↔ Open s.store id := fun id => by rw [Open, hm, Open]
    have hfresh : (freshRun s.digests runId p).missionId = p.command.missionId := hmission
    have hrow : ∀ r ∈ s'.runs.rows, r ∈ s.runs.rows ∨ r = freshRun s.digests runId p := by
      intro r hr
      rw [hruns] at hr
      exact (List.mem_append.mp hr).imp_right List.mem_singleton.mp
    have hunlocked : ∀ id ∈ (s.dispatches.eraseIdx i).map (·.command.missionId) ++
        s.deletions.map (·.1), (freshRun s.digests runId p).missionId ≠ id := by
      intro id hid he
      rw [← he, hfresh] at hid
      exact h.unlocked_dispatch hi hid
    refine ⟨?_, ?_, ?_, ?_, ?_, ?_⟩
    · rw [hp, hd]
      exact h.locks.sublist ((hsub.map _).append (.refl _))
    · intro q hq
      rw [hp] at hq
      rw [hOpen, hc]
      exact h.dispatching q (hsub.subset hq)
    · intro q hq r hr hmi
      rw [hp] at hq
      obtain hr | rfl := hrow r hr
      · exact h.latest q (hsub.subset hq) r hr hmi
      · exact absurd hmi (hunlocked _ (List.mem_append_left _ (List.mem_map_of_mem hq)))
    · intro d hdm
      rw [hd] at hdm
      rw [hm]
      obtain ⟨hs, hall⟩ := h.deleting d hdm
      refine ⟨hs, fun r hr hmi => ?_⟩
      obtain hr | rfl := hrow r hr
      · exact hall r hr hmi
      · exact absurd hmi (hunlocked _ (List.mem_append_right _ (List.mem_map_of_mem hdm)))
    · intro r hr
      rw [hOpen, hm, hc]
      obtain hr | rfl := hrow r hr
      · exact h.stored r hr
      · rw [hfresh]
        obtain ⟨m, hf, -⟩ := id hopen
        exact ⟨by rw [hf]; rfl, hnow, fun _ => hopen⟩
    · rw [hruns, List.pairwise_append]
      refine ⟨?_, List.pairwise_singleton _ _, ?_⟩
      · refine h.ordered.imp fun {r q} hrq hmi => ?_
        obtain ⟨hcr, hcon⟩ := hrq hmi
        exact ⟨hcr, fun hr hq => (hcon hr hq).congr rfl (haudit ▸ List.prefix_append _ _)⟩
      · intro r hr q hq hmi
        obtain rfl := List.mem_singleton.mp hq
        obtain ⟨hcr, hone⟩ := hlatest r hr (hmi.trans hfresh)
        refine ⟨hcr, fun hact _ => ?_⟩
        have hallow : p.command.allowConcurrent = true := by
          by_contra hno
          rw [Bool.not_eq_true] at hno
          simp [hone hno] at hact
        rw [Concurrent, haudit]
        exact List.mem_append_right _ (List.mem_singleton.mpr (by rw [hallow]; rfl))

theorem step (hs : Snapshots s) (h : Serialised s) (hstep : s.step a = some s') :
    Serialised s' := by
  have hr := step_runs hs hstep
  have hc := clock_step hstep
  cases a with
  | dispatch command => exact h.startDispatch hstep
  | insert i runId => exact h.insert hstep
  | deleteMission missionId => exact h.startDeletion hstep
  | countRuns i => exact h.countRuns hstep
  | finishDeletion i => exact h.finishDeletion hstep
  | restoreMission missionId => exact h.restore hstep
  | abandonDispatch i =>
    cases hstep
    exact h.other hr hc (by simp) rfl (List.eraseIdx_sublist _ _) (.refl _)
  | abandonDeletion i =>
    cases hstep
    exact h.other hr hc (by simp) rfl (.refl _) (List.eraseIdx_sublist _ _)
  | _ =>
    have hp := (step_frame hstep).dispatches rfl
    have hd := (step_frame hstep).deletions rfl
    exact h.other hr hc (by simp) rfl (hp ▸ .refl _) (hd ▸ .refl _)

end Serialised

theorem Reachable.serialised (h : Reachable s) : Serialised s := by
  refine (h.invariant (I := fun s => Snapshots s ∧ Serialised s) ?_ ?_).2
  · exact fun s hi => ⟨Reachable.snapshots ⟨s, [], hi, rfl⟩, .initial hi⟩
  · exact fun s a s' ⟨hs, h⟩ hstep => ⟨hs.step hstep, h.step hs hstep⟩

end System

theorem System.Reachable.mission_kept {s s' : System} {a : Action} (h : s.Reachable)
    (hstep : s.step a = some s') {r : StoredRun} (hr : r ∈ s.runs.rows) :
    (s'.store.missions.find? r.missionId).isSome := by
  obtain ⟨hs, -⟩ := h.serialised.stored r hr
  cases hm : a.editsMissions with
  | false => rwa [(h.runsStep hstep).frame.missions hm]
  | true =>
    cases a with
    | finishDeletion i =>
      obtain ⟨missionId, hasRuns, -, -, -, -, hdel⟩ := finishDeletion_some hstep
      by_cases hid : r.missionId = missionId
      · subst hid
        exact hdel.kept hs hr rfl
      · rwa [hdel.find?_ne hid]
    | restoreMission missionId =>
      obtain ⟨m, hf⟩ := Option.isSome_iff_exists.mp hs
      obtain ⟨m', hf', -⟩ := restore_missions hstep hf
      exact Option.isSome_iff_exists.mpr ⟨m', hf'⟩
    | _ => cases hm

/-- The deletion of a mission that has a run archives it. -/
theorem System.Reachable.deletion_archives {s s' : System} {i : Nat} {missionId : UUID}
    {hasRuns : Bool} (h : s.Reachable) (hstep : s.step (.finishDeletion i) = some s')
    (hi : s.deletions[i]? = some (missionId, some hasRuns)) {r : StoredRun} (hr : r ∈ s.runs.rows)
    (hid : r.missionId = missionId) : ∃ m, s.store.missions.find? missionId = some m ∧
      s'.store.missions.find? missionId =
        some { m with archivedAt := some s.clock, updatedAt := s.clock } := by
  obtain ⟨hs, hall⟩ := h.serialised.deleting _ (List.mem_of_getElem? hi)
  have htrue : hasRuns = true := by
    have hne := (hall r hr hid).2
    cases hasRuns with
    | true => rfl
    | false => exact absurd rfl hne
  obtain ⟨missionId', hasRuns', hi', -, -, -, hdel⟩ := finishDeletion_some hstep
  obtain ⟨rfl, rfl⟩ : missionId = missionId' ∧ hasRuns = hasRuns' := by
    simpa using hi.symm.trans hi'
  subst htrue
  generalize hms : s'.store.missions = missions at hdel
  cases hdel with
  | archived m hf =>
    have hm : m.missionId = missionId := Table.key_of_find? hf
    refine ⟨m, hf, ?_⟩
    rw [Table.find?_replace, if_pos hm.symm, hf, Option.map_some]
  | absent gone =>
    have hs' : (s.store.missions.find? missionId).isSome := hs
    rw [gone] at hs'
    cases hs'

/-- An archived mission has no active run and a removed one no run; of a mission's active runs only
the earliest was not allowed beside others; a mission with a run is archived, not removed. -/
structure MissionsSerialised (s : System) : Prop where
  archived : ∀ r ∈ s.runs.rows, ∃ m, s.store.missions.find? r.missionId = some m ∧
    (m.archivedAt ≠ none → isActive r.status = false)
  concurrent : ∀ pre r post, s.runs.rows = pre ++ r :: post → isActive r.status = true →
    Concurrent s.store r ∨ (∀ q ∈ pre, q.missionId = r.missionId → isActive q.status = false) ∧
      ∀ q ∈ post, q.missionId = r.missionId → r.run.createdAt ≤ q.run.createdAt
  kept : ∀ a s' r, s.step a = some s' → r ∈ s.runs.rows →
    (s'.store.missions.find? r.missionId).isSome
  archives : ∀ i s' missionId hasRuns r, s.step (.finishDeletion i) = some s' →
    s.deletions[i]? = some (missionId, some hasRuns) → r ∈ s.runs.rows →
    r.missionId = missionId → ∃ m, s.store.missions.find? missionId = some m ∧
      s'.store.missions.find? missionId =
        some { m with archivedAt := some s.clock, updatedAt := s.clock }

theorem missions_are_serialised {s : System} (h : s.Reachable) : MissionsSerialised s where
  archived := by
    intro r hr
    obtain ⟨hs, -, hopen⟩ := h.serialised.stored r hr
    obtain ⟨m, hf⟩ := Option.isSome_iff_exists.mp hs
    refine ⟨m, hf, fun harch => ?_⟩
    by_contra hact
    obtain ⟨m', hf', hnone⟩ := hopen (by simpa using hact)
    obtain rfl := Option.some.inj (hf.symm.trans hf')
    exact harch hnone
  concurrent := by
    intro pre r post he hact
    have hpair := h.serialised.ordered
    rw [he, List.pairwise_append] at hpair
    obtain ⟨-, hpost, hpre⟩ := hpair
    by_cases hearlier : ∃ q ∈ pre, q.missionId = r.missionId ∧ isActive q.status = true
    · obtain ⟨q, hq, hmi, hqact⟩ := hearlier
      exact .inl ((hpre q hq r List.mem_cons_self hmi).2 hqact hact)
    · refine .inr ⟨fun q hq hmi => ?_, fun q hq hmi => ?_⟩
      · exact Bool.eq_false_iff.mpr fun hqact => hearlier ⟨q, hq, hmi, hqact⟩
      · exact ((List.pairwise_cons.mp hpost).1 q hq hmi.symm).1
  kept := fun _ _ _ hstep hr => h.mission_kept hstep hr
  archives := fun _ _ _ _ _ hstep hi hr hid => h.deletion_archives hstep hi hr hid

theorem missions_are_serialised_deleting : ∃ s : System, s.Reachable ∧
    s.runs.rows.length = 1 ∧ s.deletions = [(1, some true)] ∧ MissionsSerialised s := by
  obtain ⟨s, hs, hp⟩ := demo_reaches
    (fun s => s.runs.rows.length = 1 ∧ s.deletions = [(1, some true)])
    (demoDispatch ++ [demoSettle .rejected, .deleteMission 1, .countRuns 0]) (by decide)
  obtain ⟨hrows, hdel⟩ := of_decide_eq_true hp
  exact ⟨s, hs, hrows, hdel, missions_are_serialised hs⟩

end Leitstand
