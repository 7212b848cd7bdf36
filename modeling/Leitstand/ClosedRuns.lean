import Leitstand.StageRows

namespace Leitstand

/-- Nothing that reaches a run that has ended changes its status, its stage rows or its errors, or is
announced. -/
structure StoredRun.Unmoved (r : StoredRun) (response : Response) : Prop where
  status : response.row.status = r.status
  stageRuns : response.row.stageRuns = r.stageRuns
  errors : response.row.errors = r.errors
  events : response.events = []

theorem StoredRun.respond_terminal {r : StoredRun} (ht : isTerminal r.status = true)
    (input : RunInput) : r.Unmoved (r.respond input) := by
  have hne : ∀ status, isTerminal status = false → r.status ≠ status := by
    rintro status hs rfl
    simp [ht] at hs
  cases input with
  | settled now command =>
    have hp := hne .pending rfl
    have hc := hne .cancelling rfl
    dsimp only [respond, settle, lateReply]
    split
    · rw [if_neg hp]
      exact ⟨rfl, rfl, rfl, rfl⟩
    · rw [if_neg (not_or.mpr ⟨hp, hc⟩)]
      exact ⟨rfl, rfl, rfl, rfl⟩
    all_goals
      rw [if_neg hp]
      exact ⟨rfl, rfl, rfl, rfl⟩
  | cancelled now mode offline reply =>
    dsimp only [respond, cancel]
    rw [if_pos ht]
    exact ⟨rfl, rfl, rfl, rfl⟩
  | closed now =>
    dsimp only [respond, close]
    rw [if_pos ht]
    exact ⟨rfl, rfl, rfl, rfl⟩
  | paused now | resumed now =>
    dsimp only [respond, steer]
    rw [allowedTransitions_terminal ht]
    exact ⟨rfl, rfl, rfl, rfl⟩
  | reported now state =>
    dsimp only [respond, report, touched]
    rw [if_pos ht]
    cases hu : MissionStateService.reportUpdate r.toRun state with
    | none =>
      have hex : ¬ (MissionStateService.liveRecords state r.plan ≠ [] ∧
          isExecuting r.status = true) := by
        rintro ⟨-, he⟩
        simp [isTerminal_of_isExecuting he] at ht
      dsimp only [recordLive]
      rw [if_neg hex]
      exact ⟨rfl, rfl, rfl, rfl⟩
    | some u => exact absurd (ht.symm.trans (reportUpdate_expected hu).2) (by simp)
  | unclaimed now judged =>
    dsimp only [respond, unclaimed]
    rw [if_neg (by simp [ht])]
    exact ⟨rfl, rfl, rfl, rfl⟩
  | annotated now notes => exact ⟨rfl, rfl, rfl, rfl⟩

/-- An ended run is still there, as it ended, until it is deleted. -/
theorem System.RunsStep.ended_stays {s s' : System} {a : Action} (h : RunsStep s a s')
    {r : StoredRun} (hr : s.runs.find? r.runId = some r) (ht : isTerminal r.status = true)
    (ha : a ≠ .deleteRun r.runId) : ∃ r', s'.runs.find? r.runId = some r' ∧
      r'.status = r.status ∧ r'.stageRuns = r.stageRuns := by
  cases h.of_run hr with
  | same found => exact ⟨r, found, rfl, rfl⟩
  | took input cause found =>
    have hsame := StoredRun.respond_terminal ht input
    exact ⟨_, found, hsame.status, hsame.stageRuns⟩
  | gone cause => exact absurd cause ha

/-- What the stage rows of an ended run are: one settled row for each stage of the plan, and beside
them only reported cleanup stages. -/
structure ClosedOut (frames : List MissionStateMessage) (r : StoredRun) : Prop where
  stages : ∀ (index : Nat) (stage : Stage), r.plan[index]? = some stage →
    ∃! row, row ∈ r.stageRuns.rows ∧ row.stageId = stage.stageId
  settled : ∀ (index : Nat) (stage : Stage), r.plan[index]? = some stage → ∀ row ∈ r.stageRuns.rows,
    row.stageId = stage.stageId → row.stageIndex = index ∧ isFinal row.status
  others : ∀ row ∈ r.stageRuns.rows, (∀ stage ∈ r.plan, row.stageId ≠ stage.stageId) →
    ∃ parent, r.plan[row.stageIndex]? = some parent ∧
      row.parentStageId = some parent.stageId ∧
      (∃ child ∈ parent.children, child.stageId = row.stageId) ∧ Reported frames row.stageId

namespace StageRows
variable {frames : List MissionStateMessage} {r : StoredRun}

/-- The row of a top-level stage stands at that stage's position and has no parent. -/
theorem top (h : StageRows frames r) {index : Nat} {stage : Stage}
    (hi : r.plan[index]? = some stage) {row : StageStateRecord} (hrow : row ∈ r.stageRuns.rows)
    (hid : row.stageId = stage.stageId) : row.stageIndex = index ∧ row.parentStageId = none := by
  obtain ⟨stage', hj, ⟨hp, he⟩ | ⟨-, child, hc, he⟩⟩ := h.placed row hrow
  · have hmem : stage'.stageId ∈ stage.ids := by
      rw [← he, hid]
      exact stage.stageId_mem_ids
    exact ⟨Plan.index_unique (p := r.run.stages) hj hi stage'.stageId_mem_ids hmem, hp⟩
  · exact absurd (he.trans hid) (Plan.child_ne_stage (p := r.run.stages) hi hj hc)

theorem closedOut (h : StageRows frames r) (ht : isTerminal r.status = true) :
    ClosedOut frames r where
  stages := by
    intro index stage hi
    obtain ⟨row, hrow, hid⟩ := h.complete ht stage (List.mem_of_getElem? hi)
    refine ⟨row, ⟨hrow, hid⟩, ?_⟩
    rintro row' ⟨hrow', hid'⟩
    exact List.inj_on_of_nodup_map r.stageRuns.nodup hrow' hrow (hid'.trans hid.symm)
  settled := by
    intro index stage hi row hrow hid
    obtain ⟨hindex, hp⟩ := h.top hi hrow hid
    exact ⟨hindex, h.final ht row hrow hp⟩
  others := by
    intro row hrow hne
    obtain ⟨parent, hi, ⟨-, he⟩ | ⟨hp, hchild⟩⟩ := h.placed row hrow
    · exact absurd he (hne parent (List.mem_of_getElem? hi))
    · exact ⟨parent, hi, hp, hchild, h.reported row hrow (.inr (by simp [hp]))⟩

end StageRows

namespace System
variable {s t : System}

theorem Reachable.ended_stays (h : s.Reachable) {acts : List Action}
    (hx : StepSystem.exec System.step s acts = some t) {r : StoredRun} (hr : r ∈ s.runs.rows)
    (ht : isTerminal r.status = true) (hd : .deleteRun r.runId ∉ acts) :
    ∃ r' ∈ t.runs.rows, r'.runId = r.runId ∧ r'.status = r.status ∧
      r'.stageRuns = r.stageRuns := by
  have hall : t.Reachable ∧ (.deleteRun r.runId ∉ acts → ∃ r', t.runs.find? r.runId = some r' ∧
      r'.status = r.status ∧ r'.stageRuns = r.stageRuns) := by
    refine StepSystem.exec_history (I := fun past u => u.Reachable ∧ (.deleteRun r.runId ∉ past →
      ∃ r', u.runs.find? r.runId = some r' ∧ r'.status = r.status ∧ r'.stageRuns = r.stageRuns))
      ⟨h, fun _ => ⟨r, Table.find?_of_mem hr, rfl, rfl⟩⟩ ?_ hx
    rintro past u a u' - ⟨hu, hkept⟩ ha
    refine ⟨hu.step ha, fun hnot => ?_⟩
    rw [List.mem_append, not_or, List.mem_singleton] at hnot
    obtain ⟨q, hq, hs, hrows⟩ := hkept hnot.1
    have hid := Table.key_of_find? hq
    rw [← hid] at hq hnot ⊢
    obtain ⟨q', hq', hs', hrows'⟩ :=
      (hu.runsStep ha).ended_stays hq (hs ▸ ht) fun he => hnot.2 he.symm
    exact ⟨q', hq', hs'.trans hs, hrows'.trans hrows⟩
  obtain ⟨r', hr', hsame⟩ := hall.2 hd
  exact ⟨r', Table.mem_of_find? hr', Table.key_of_find? hr', hsame⟩

end System

/-- A run that has ended is closed out, for good; a live one has rows of reported stages only. -/
theorem ended_run_is_closed_out {s t : System} (h : s.Reachable) {acts : List Action}
    (hx : StepSystem.exec System.step s acts = some t) {r : StoredRun} (hr : r ∈ s.runs.rows) :
    if isTerminal r.status then
      ClosedOut (s.framesOf r) r ∧ (.deleteRun r.runId ∉ acts → ∃ r' ∈ t.runs.rows,
        r'.runId = r.runId ∧ r'.status = r.status ∧ r'.stageRuns = r.stageRuns)
    else ∀ row ∈ r.stageRuns.rows, PlacedAt r.plan row ∧ Reported (s.framesOf r) row.stageId := by
  have hrows := h.stageRows hr
  split_ifs with ht
  · exact ⟨hrows.closedOut ht, fun hd => h.ended_stays hx hr ht hd⟩
  · intro row hrow
    exact ⟨hrows.placed row hrow, hrows.reported row hrow (.inl (by simpa using ht))⟩

theorem ended_run_is_closed_out_failed : ∃ s t : System, ∃ r ∈ s.runs.rows,
    s.Reachable ∧ r.status = .failed ∧ r.stageRuns.rows.length = 3 ∧
    if isTerminal r.status then
      ClosedOut (s.framesOf r) r ∧
        (.deleteRun r.runId ∉ [demoFrame 9 .running [{ stageId := 12, status := .running }]] →
          ∃ r' ∈ t.runs.rows, r'.runId = r.runId ∧ r'.status = r.status ∧
            r'.stageRuns = r.stageRuns)
    else ∀ row ∈ r.stageRuns.rows, PlacedAt r.plan row ∧ Reported (s.framesOf r) row.stageId := by
  obtain ⟨s, hs, hp⟩ := demo_reaches
    (fun s => s.runs.rows.any fun r => r.status = .failed ∧ r.stageRuns.rows.length = 3)
    (demoDispatch ++ [demoSettle .accepted,
      demoFrame 1 .running [{ stageId := 10, status := .running }],
      demoFrame 2 .failed [{ stageId := 11, status := .failed }]])
    (by decide)
  obtain ⟨r, hr, ht⟩ := List.any_eq_true.mp hp
  obtain ⟨hfailed, hrows⟩ := of_decide_eq_true ht
  exact ⟨s, _, r, hr, hs, hfailed, hrows, ended_run_is_closed_out hs rfl hr⟩

end Leitstand
