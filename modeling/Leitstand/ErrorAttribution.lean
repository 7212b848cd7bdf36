import Leitstand.StageStateRecord

namespace Leitstand

/-- The stages an error's `stage_id` references name, whether or not they have a row. -/
def namedStageIds (error : MissionError) : List UUID :=
  (error.references.filter fun ref => ref.key = "stage_id").filterMap fun ref => UUID.parse ref.value

/-- The stage its first `stage_id` reference names, the only one the code reads. -/
def firstStageId (error : MissionError) : Option UUID :=
  (error.references.find? fun ref => ref.key = "stage_id").bind fun ref => UUID.parse ref.value

/-- An error has no first `stage_id` reference, or one that names no stage with a row. -/
def Unplaced (rows : List StageStateRecord) (error : MissionError) : Prop :=
  ∀ x, firstStageId error = some x → x ∉ rows.map (·.stageId)

/-- The stage an error is put on, if any. -/
def errorTarget (rows : List StageStateRecord) (error : MissionError) : Option UUID :=
  (referencedStageId error (rows.map (·.stageId))).or (soleFailed rows)

/-- An error stands on one stage at most, in the list's order; on a planned stage that it names, by
whichever reference, wherever that has a row, and on no other stage; and where it has no reference
to a stage, on the one stage that failed. -/
structure RightlyAttributed (stages : List Stage) (failureErrors : Option (List MissionError))
    (rows : List StageStateRecord) : Prop where
  once : ∀ error x y, error ∈ attributeErrors failureErrors rows x →
    error ∈ attributeErrors failureErrors rows y → x = y
  ordered : ∀ x, (attributeErrors failureErrors rows x).Sublist (failureErrors.getD [])
  named : ∀ error ∈ failureErrors.getD [], ∀ x ∈ stageIds stages, x ∈ namedStageIds error →
    (x ∈ rows.map (·.stageId) → error ∈ attributeErrors failureErrors rows x) ∧
      ∀ y, error ∈ attributeErrors failureErrors rows y → y = x ∧ x ∈ rows.map (·.stageId)
  unreferenced : ∀ error ∈ failureErrors.getD [],
    (∀ ref ∈ error.references, ref.key ≠ "stage_id") → ∀ x,
      error ∈ attributeErrors failureErrors rows x ↔
        ∃ row, (rows.filter fun record => record.status = .failed) = [row] ∧ row.stageId = x

section Attribution
variable {failureErrors : Option (List MissionError)} {rows : List StageStateRecord}
  {error : MissionError} {x : UUID}

theorem referencedStageId_eq (error : MissionError) (ids : List UUID) :
    referencedStageId error ids = (firstStageId error).filter fun x => x ∈ ids := by
  unfold referencedStageId firstStageId
  cases error.references.find? fun ref => ref.key = "stage_id" with
  | none => rw [Option.bind_none, Option.filter_none]
  | some ref => rw [Option.bind_some]

theorem mem_attributeErrors : error ∈ attributeErrors failureErrors rows x ↔
    error ∈ failureErrors.getD [] ∧ errorTarget rows error = some x := by
  simp [attributeErrors, errorTarget]

theorem soleFailed_eq_some : soleFailed rows = some x ↔
    ∃ row, (rows.filter fun record => record.status = .failed) = [row] ∧ row.stageId = x := by
  unfold soleFailed
  constructor
  · intro h
    split at h
    · rename_i row hrow
      exact ⟨row, hrow, Option.some.inj h⟩
    · cases h
  · rintro ⟨row, hrow, rfl⟩
    rw [hrow]

theorem soleFailed_eq_none : soleFailed rows = none ↔
    (rows.filter fun record => record.status = .failed).length ≠ 1 := by
  rw [← not_iff_not, not_not, List.length_eq_one_iff, ← ne_eq, Option.ne_none_iff_exists']
  constructor
  · rintro ⟨x, hx⟩
    obtain ⟨row, hrow, -⟩ := soleFailed_eq_some.mp hx
    exact ⟨row, hrow⟩
  · rintro ⟨row, hrow⟩
    exact ⟨row.stageId, soleFailed_eq_some.mpr ⟨row, hrow, rfl⟩⟩

theorem errorTarget_of_row (hn : firstStageId error = some x) (hx : x ∈ rows.map (·.stageId)) :
    errorTarget rows error = some x := by
  rw [errorTarget, referencedStageId_eq, hn, Option.filter_some, if_pos (decide_eq_true hx)]
  rfl

/-- An error that names a stage without a row counts as one that names no stage. -/
theorem errorTarget_of_unplaced (h : Unplaced rows error) :
    errorTarget rows error = soleFailed rows := by
  rw [errorTarget, referencedStageId_eq]
  cases hn : firstStageId error with
  | none => rfl
  | some x =>
    rw [Option.filter_some, if_neg (by simpa using h x hn)]
    rfl

theorem placed_or_unplaced (rows : List StageStateRecord) (error : MissionError) :
    (∃ x, firstStageId error = some x ∧ x ∈ rows.map (·.stageId)) ∨ Unplaced rows error := by
  by_cases h : Unplaced rows error
  · exact .inr h
  · unfold Unplaced at h
    push Not at h
    exact .inl h

theorem errorTarget_eq_some_iff : errorTarget rows error = some x ↔
    (firstStageId error = some x ∧ x ∈ rows.map (·.stageId)) ∨
      Unplaced rows error ∧ soleFailed rows = some x := by
  obtain ⟨y, hy, hrow⟩ | hfree := placed_or_unplaced rows error
  · rw [errorTarget_of_row hy hrow, hy, Option.some_inj]
    constructor
    · rintro rfl
      exact .inl ⟨rfl, hrow⟩
    · rintro (⟨he, -⟩ | ⟨hfree, -⟩)
      · exact he
      · exact absurd hrow (hfree y hy)
  · rw [errorTarget_of_unplaced hfree]
    constructor
    · intro hx
      exact .inr ⟨hfree, hx⟩
    · rintro (⟨hy, hrow⟩ | ⟨-, hx⟩)
      · exact absurd hrow (hfree x hy)
      · exact hx

theorem errorTarget_eq_none_iff :
    errorTarget rows error = none ↔ Unplaced rows error ∧ soleFailed rows = none := by
  obtain ⟨y, hy, hrow⟩ | hfree := placed_or_unplaced rows error
  · rw [errorTarget_of_row hy hrow]
    constructor
    · intro h
      cases h
    · rintro ⟨hfree, -⟩
      exact absurd hrow (hfree y hy)
  · rw [errorTarget_of_unplaced hfree]
    exact (and_iff_right hfree).symm

theorem unplaced_of_unreferenced (h : ∀ ref ∈ error.references, ref.key ≠ "stage_id") :
    Unplaced rows error := by
  have hn : (error.references.find? fun ref => ref.key = "stage_id") = none := by
    rw [List.find?_eq_none]
    simpa using h
  intro x hx
  rw [firstStageId, hn] at hx
  cases hx

/-- What is asked of a stage an error names: to have the error where it has a row, and where it has
none that no other has it. -/
theorem rightly_placed_iff (herror : error ∈ failureErrors.getD []) :
    ((x ∈ rows.map (·.stageId) → error ∈ attributeErrors failureErrors rows x) ∧
      ∀ y, error ∈ attributeErrors failureErrors rows y → y = x ∧ x ∈ rows.map (·.stageId)) ↔
    if x ∈ rows.map (·.stageId) then errorTarget rows error = some x
      else errorTarget rows error = none := by
  simp only [mem_attributeErrors, herror, true_and]
  split_ifs with hrow
  · constructor
    · intro h
      exact h.1 hrow
    · intro htarget
      refine ⟨fun _ => htarget, fun y hy => ⟨?_, hrow⟩⟩
      exact Option.some.inj (hy.symm.trans htarget)
  · constructor
    · intro h
      exact Option.eq_none_iff_forall_ne_some.mpr fun y hy => hrow (h.2 y hy).2
    · intro htarget
      refine ⟨fun hrow' => absurd hrow' hrow, fun y hy => ?_⟩
      rw [htarget] at hy
      cases hy

/-- Errors are attributed as they should be in just the cases where each planned stage an error
names is the one its first reference leads to: the stage named there, if that has a row, and else
the one stage that failed, or none where there is no such stage. -/
theorem rightlyAttributed_iff (stages : List Stage) (failureErrors : Option (List MissionError))
    (rows : List StageStateRecord) : RightlyAttributed stages failureErrors rows ↔
      ∀ error ∈ failureErrors.getD [], ∀ x ∈ stageIds stages, x ∈ namedStageIds error →
        if x ∈ rows.map (·.stageId) then
          firstStageId error = some x ∨ Unplaced rows error ∧
            ∃ row, (rows.filter fun record => record.status = .failed) = [row] ∧ row.stageId = x
        else
          Unplaced rows error ∧
            (rows.filter fun record => record.status = .failed).length ≠ 1 := by
  have hplaced : ∀ error ∈ failureErrors.getD [], ∀ x,
      ((x ∈ rows.map (·.stageId) → error ∈ attributeErrors failureErrors rows x) ∧
        ∀ y, error ∈ attributeErrors failureErrors rows y → y = x ∧ x ∈ rows.map (·.stageId)) ↔ _ :=
    fun error herror x => rightly_placed_iff herror
  simp only [errorTarget_eq_some_iff, errorTarget_eq_none_iff, soleFailed_eq_some,
    soleFailed_eq_none] at hplaced
  constructor
  · intro h error herror x hx hn
    have hright := (hplaced error herror x).mp (h.named error herror x hx hn)
    split_ifs at hright ⊢ with hrow
    · exact hright.imp_left And.left
    · exact hright
  · intro h
    refine ⟨?_, ?_, ?_, ?_⟩
    · intro error x y hx hy
      have htarget := (mem_attributeErrors.mp hx).2
      rw [(mem_attributeErrors.mp hy).2] at htarget
      exact (Option.some.inj htarget).symm
    · intro x
      exact List.filter_sublist
    · intro error herror x hx hn
      have hleads := h error herror x hx hn
      refine (hplaced error herror x).mpr ?_
      split_ifs at hleads ⊢ with hrow
      · exact hleads.imp_left fun hfirst => ⟨hfirst, hrow⟩
      · exact hleads
    · intro error herror hfree x
      rw [mem_attributeErrors, errorTarget_of_unplaced (unplaced_of_unreferenced hfree),
        soleFailed_eq_some]
      exact and_iff_right herror

end Attribution

/-- An error of the cleanup stage 11, which the robot has sent no state of, is blamed on stage 10. -/
theorem attributeErrors_blames_failed : ¬ ∀ stages failureErrors rows,
    RightlyAttributed stages failureErrors rows := by
  intro hall
  let stages : List Stage := [.mk 10 (some [.mk 11 none (.navigation [])]) (.navigation [])]
  let error : MissionError :=
    { origin := .robot, severity := .fatal, type := "cleanup",
      references := [⟨"stage_id", UUID.str 11⟩], description := "" }
  let row : StageStateRecord := { stageId := 10, stageIndex := 0, status := .failed, sourceTs := 0 }
  have hput : error ∈ attributeErrors (some [error]) [row] 10 := by decide
  have hnamed : 11 ∈ namedStageIds error := by decide
  have hright := (hall stages (some [error]) [row]).named error (by simp) 11 (by decide) hnamed
  exact absurd (hright.2 10 hput).1 (by decide)

end Leitstand
