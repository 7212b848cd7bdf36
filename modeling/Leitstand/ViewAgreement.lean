import Leitstand.LatchedView

namespace Leitstand
open RunService

/-- Two views that differ at most in the order of stages that share an index. -/
structure Agree (v w : RunStateView) : Prop where
  runId : v.runId = w.runId
  missionId : v.missionId = w.missionId
  order : v.stageStates.map (·.stageIndex) = w.stageStates.map (·.stageIndex)
  stages : v.stageStates.Perm w.stageStates

instance (v w : RunStateView) : Decidable (Agree v w) :=
  decidable_of_iff (v.runId = w.runId ∧ v.missionId = w.missionId ∧
    v.stageStates.map (·.stageIndex) = w.stageStates.map (·.stageIndex) ∧
    v.stageStates.Perm w.stageStates)
    ⟨fun ⟨h₁, h₂, h₃, h₄⟩ => ⟨h₁, h₂, h₃, h₄⟩, fun ⟨h₁, h₂, h₃, h₄⟩ => ⟨h₁, h₂, h₃, h₄⟩⟩

section Attribution
variable {rows rows' : List StageStateRecord} {errors errors' : Option (List MissionError)}

theorem referencedStageId_perm (h : rows.Perm rows') (error : MissionError) :
    referencedStageId error (rows.map (·.stageId)) =
      referencedStageId error (rows'.map (·.stageId)) := by
  unfold referencedStageId
  split
  · rfl
  · congr 1
    funext stageId
    rw [decide_eq_decide]
    exact (h.map _).mem_iff

theorem soleFailed_perm (h : rows.Perm rows') : soleFailed rows = soleFailed rows' := by
  have hf := h.filter fun record => decide (record.status = .failed)
  unfold soleFailed
  split
  · rename_i record he
    rw [he] at hf
    rw [← List.singleton_perm.mp hf]
  · rename_i hn
    split
    · rename_i record he
      rw [he] at hf
      exact absurd (List.perm_singleton.mp hf) (hn record)
    · rfl

/-- The errors shown at a stage depend on the rows, not on their order. -/
theorem attributeErrors_perm (h : rows.Perm rows') (stageId : UUID) :
    attributeErrors errors rows stageId = attributeErrors errors rows' stageId := by
  unfold attributeErrors
  rw [soleFailed_perm h]
  simp only [referencedStageId_perm h]

theorem attributeErrors_congr (h : errors.getD [] = errors'.getD []) (stageId : UUID) :
    attributeErrors errors rows stageId = attributeErrors errors' rows stageId := by
  unfold attributeErrors
  rw [h]

/-- A warning names no stage, so it is shown at the one that failed. -/
theorem attributeErrors_warning (h : DispatchWarned errors) (stageId : UUID) :
    attributeErrors errors rows stageId ≠ [] ↔ soleFailed rows = some stageId := by
  obtain ⟨type, description, rfl⟩ := h
  have hn : referencedStageId (dispatchWarning type description) (rows.map (·.stageId)) = none :=
    rfl
  simp [attributeErrors, hn]

theorem attributeErrors_none (h : errors.getD [] = []) (stageId : UUID) :
    attributeErrors errors rows stageId = [] := by
  unfold attributeErrors
  rw [h]
  rfl

theorem mem_of_soleFailed {stageId : UUID} (h : soleFailed rows = some stageId) :
    ∃ row ∈ rows, row.stageId = stageId := by
  unfold soleFailed at h
  split at h
  · rename_i row he
    have hmem : row ∈ rows.filter fun record => record.status = .failed :=
      he ▸ List.mem_singleton_self _
    exact ⟨row, List.mem_of_mem_filter hmem, Option.some.inj h⟩
  · cases h

end Attribution

section Views
variable {r : StoredRun} {rows rows' : List StageStateRecord}
  {errors errors' : Option (List MissionError)}

theorem map_stageIndex_view (rows : List StageStateRecord) (errors : Option (List MissionError)) :
    (r.view rows errors).stageStates.map (·.stageIndex) = rows.map (·.stageIndex) := by
  simp [StoredRun.view, buildRunStateView, stageStateView, Function.comp_def]

/-- Views over the same rows agree once the same errors stand behind them. -/
theorem view_agree (hperm : rows.Perm rows')
    (hs : rows.Pairwise fun a b => a.stageIndex ≤ b.stageIndex)
    (hs' : rows'.Pairwise fun a b => a.stageIndex ≤ b.stageIndex)
    (he : errors.getD [] = errors'.getD []) : Agree (r.view rows errors) (r.view rows' errors') where
  runId := rfl
  missionId := rfl
  order := by
    rw [map_stageIndex_view, map_stageIndex_view]
    refine (hperm.map _).eq_of_pairwise (fun a b _ _ hab hba => Nat.le_antisymm hab hba) ?_ ?_
    · exact List.pairwise_map.mpr hs
    · exact List.pairwise_map.mpr hs'
  stages := by
    have hmap : (fun record : StageStateRecord =>
        stageStateView (attributeErrors errors rows record.stageId) record) =
          fun record => stageStateView (attributeErrors errors' rows' record.stageId) record := by
      funext record
      rw [attributeErrors_perm hperm, attributeErrors_congr he]
    change (rows.map _).Perm (rows'.map _)
    rw [hmap]
    exact hperm.map _

/-- A view that shows no error disagrees with one that shows some. -/
theorem view_disagree (he : errors.getD [] = []) {row : StageStateRecord} (hrow : row ∈ rows')
    (hr : attributeErrors errors' rows' row.stageId ≠ []) :
    ¬ Agree (r.view rows errors) (r.view rows' errors') := by
  intro h
  have hmem : stageStateView (attributeErrors errors' rows' row.stageId) row ∈
      (r.view rows' errors').stageStates := List.mem_map.mpr ⟨row, hrow, rfl⟩
  obtain ⟨other, -, hother⟩ := List.mem_map.mp (h.stages.mem_iff.mpr hmem)
  have herrors := congrArg StageStateView.errors hother
  exact hr (herrors.symm.trans (attributeErrors_none he other.stageId))

end Views

/-- The run stores a dispatch's warning, has not failed, and has one failed stage to show the warning
at. -/
def HidesWarning (r : StoredRun) : Prop := Warned r ∧ (soleFailed r.readRows).isSome

/-- The view read and the last one published of a run agree as long as it hides no warning. -/
theorem rest_view_agrees_with_latched {s : System} (h : s.Reachable) {r : StoredRun}
    (hr : r ∈ s.runs.rows) : ∃ published rest, (s.viewsOf r.runId).getLast? = some published ∧
      s.outcome (getRunState r.runId) = .ok (some rest) ∧
      (Agree published rest ↔ ¬ HidesWarning r) := by
  obtain ⟨hlive, rows, errors, hlast, hperm, hsorted, hnone, hsome⟩ := h.latched hr
  have hread : s.outcome (getRunState r.runId) = .ok (some r.restView) := by
    have hf : ({ store := s.store } : Tx Store Event Command).store.runs.find? r.runId = some r :=
      Table.find?_of_mem hr
    rw [System.outcome_eq, getRunState_eq hf]
  refine ⟨_, _, hlast, hread, ?_⟩
  by_cases hw : Warned r
  · have herrors := hnone (.inr hw)
    constructor
    · rintro hagree ⟨-, hsole⟩
      obtain ⟨stageId, hid⟩ := Option.isSome_iff_exists.mp hsole
      obtain ⟨row, hrow, rfl⟩ := mem_of_soleFailed hid
      have hshown := (attributeErrors_warning hw.2 row.stageId).mpr hid
      exact view_disagree herrors hrow hshown hagree
    · intro hhides
      have hsole : soleFailed r.readRows = none := by
        simpa [HidesWarning, hw] using hhides
      have hmute : ∀ stageId, attributeErrors r.errors r.readRows stageId = [] := by
        intro stageId
        by_contra hne
        have hsome := (attributeErrors_warning hw.2 stageId).mp hne
        rw [hsole] at hsome
        cases hsome
      have hnone : (none : Option (List MissionError)).getD [] = [] := rfl
      have hsame : r.restView = r.view r.readRows none := by
        unfold StoredRun.restView StoredRun.view buildRunStateView
        simp only [hmute, attributeErrors_none hnone]
      rw [hsame]
      exact view_agree hperm hsorted (readRows_sorted r) herrors
  · have herrors : errors.getD [] = r.errors.getD [] := by
      cases ht : isTerminal r.status with
      | true => exact hsome ht hw
      | false =>
        have hnf : r.status ≠ .failed := fun hf => by simp [hf] at ht
        obtain hnil | hdw := hlive ht
        · exact (hnone (.inl ht)).trans hnil.symm
        · exact absurd ⟨hnf, hdw⟩ hw
    have hagree := @view_agree r _ _ _ _ hperm hsorted (readRows_sorted r) herrors
    exact iff_of_true hagree fun hhides => hw hhides.1

theorem rest_view_agrees_with_latched_closed : ∃ s : System, s.Reachable ∧ ∃ r ∈ s.runs.rows,
    r.status = .succeeded ∧ ∃ published rest, (s.viewsOf r.runId).getLast? = some published ∧
      s.outcome (getRunState r.runId) = .ok (some rest) ∧
      (Agree published rest ↔ ¬ HidesWarning r) := by
  obtain ⟨s, hs, hp⟩ := demo_reaches (fun s => s.runs.rows.any (·.status = .succeeded))
    (demoDispatch ++ [demoSettle .timeout, demoFrame 1 .running, demoFrame 2 .succeeded])
    (by decide)
  obtain ⟨r, hr, ht⟩ := List.any_eq_true.mp hp
  exact ⟨s, hs, r, hr, by simpa using ht, rest_view_agrees_with_latched hs hr⟩

/-- The view read at this moment is not the one last published. -/
def System.disagreesOn (s : System) (runId : UUID) : Bool :=
  match (s.viewsOf runId).getLast?, s.outcome (getRunState runId) with
  | some published, .ok (some rest) => !decide (Agree published rest)
  | _, _ => false

/-- A cancelling run whose dispatch went unanswered shows the warning where its one stage failed,
and the frame that reported the failure did not. -/
theorem rest_view_disagrees_after_timeout : ¬ ∀ s : System, s.Reachable → ∀ r ∈ s.runs.rows,
    ∀ published rest, (s.viewsOf r.runId).getLast? = some published →
      s.outcome (getRunState r.runId) = .ok (some rest) → Agree published rest := by
  intro hall
  obtain ⟨s, hs, hp⟩ := demo_reaches (fun s => s.runs.rows.any fun r => s.disagreesOn r.runId)
    (demoDispatch ++ [demoSettle .timeout,
      .cancel { missionId := 1 } { applied := some true },
      demoFrame 1 .running [{ stageId := 10, status := .failed }]]) (by decide)
  obtain ⟨r, hr, hd⟩ := List.any_eq_true.mp hp
  unfold System.disagreesOn at hd
  split at hd
  · rename_i published rest hlast hread
    have hagree := hall s hs r hr published rest hlast hread
    simp [hagree] at hd
  · cases hd

end Leitstand
