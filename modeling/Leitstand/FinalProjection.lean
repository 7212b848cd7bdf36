import Leitstand.FinalRows

universe u v w
variable {α : Type u} {β : Type v} {γ : Type w}

/-- Of the parts of a list of distinct keys, a key picks out its own. -/
theorem List.flatMap_ite_key [DecidableEq β] {key : α → β} {f : α → List γ} {xs : List α} {x : α}
    (h : (xs.map key).Nodup) (hx : x ∈ xs) :
    (xs.flatMap fun y => if key y = key x then f y else []) = f x := by
  induction xs with
  | nil => cases hx
  | cons y xs ih =>
    rw [List.map_cons, List.nodup_cons] at h
    rw [List.flatMap_cons]
    obtain rfl | hx := List.mem_cons.mp hx
    · have hrest : (xs.flatMap fun y => if key y = key x then f y else []) = [] := by
        rw [List.flatMap_eq_nil_iff]
        intro y hy
        exact if_neg fun he => h.1 (List.mem_map.mpr ⟨y, hy, he⟩)
      rw [if_pos rfl, hrest, List.append_nil]
    · have hne : key y ≠ key x := fun he => h.1 (List.mem_map.mpr ⟨x, hx, he.symm⟩)
      rw [if_neg hne, List.nil_append, ih h.2 hx]

namespace Leitstand

theorem projectStatus_idem (status : StageStatus) (runStatus : RunStatus) :
    projectStatus (projectStatus status runStatus) runStatus = projectStatus status runStatus := by
  cases status <;> by_cases hs : runStatus = .succeeded <;> by_cases hc : runStatus = .cancelled <;>
    simp [projectStatus, hs, hc]

/-- What the robot said of a stage and the run's outcome leaves as it is. -/
def KeepsStatus (status : StageStatus) (runStatus : RunStatus) : Prop :=
  status = .cancelled ∨ status = .skipped ∨
    runStatus ≠ .succeeded ∧ (status = .finished ∨ status = .failed)

theorem projectStatus_of_keeps {status : StageStatus} {runStatus : RunStatus}
    (h : KeepsStatus status runStatus) : projectStatus status runStatus = status := by
  obtain rfl | rfl | ⟨hs, rfl | rfl⟩ := h <;> simp [projectStatus]
  intro he
  exact absurd he hs

/-- The rows of the plan's own stages, without those of their cleanup. -/
def plannedRows (rows : List StageStateRecord) : List StageStateRecord :=
  rows.filter fun row => row.parentStageId = none

/-- `rows` are the final rows of the plan's stages, as the live rows and the run's end make them. -/
structure FinallyProjected (p : Plan) (liveById : StageRuns) (status : RunStatus)
    (rows : List StageStateRecord) : Prop where
  planned : (plannedRows rows).map (·.stageId) = p.stages.map (·.stageId)
  indexed : (plannedRows rows).map (·.stageIndex) = List.range p.stages.length
  final : ∀ row ∈ plannedRows rows, isFinal row.status
  kept : ∀ row ∈ plannedRows rows, ∀ live, liveById.find? row.stageId = some live →
    KeepsStatus live.status status →
      row.status = live.status ∧ row.statusSource = live.statusSource
  marked : ∀ row ∈ plannedRows rows,
    (∀ live, liveById.find? row.stageId = some live → row.status ≠ live.status) →
      row.statusSource = .backend
  cleanup : ∀ row ∈ liveById.rows, row.parentStageId ≠ none → rows.count row = 1 ∧
    ∃ before parent own after, rows = before ++ parent :: own ++ after ∧ row ∈ own ∧
      parent.parentStageId = none ∧ row.parentStageId = some parent.stageId ∧
      ∀ other ∈ own, other.parentStageId ≠ none
  distinct : (rows.map (·.stageId)).Nodup
  unstarted : ∀ row ∈ plannedRows rows, row.startedAt = none → row.endedAt = none
  ended : ∀ row ∈ plannedRows rows, row.startedAt ≠ none → row.status ≠ .skipped →
    row.endedAt ≠ none
  again : ∀ now, (finalStageStatuses p.stages (.ofRows rows) status now).map
      (fun row => (row.stageId, row.status, row.statusSource, row.endedAt)) =
    rows.map fun row => (row.stageId, row.status, row.statusSource, row.endedAt)

section Projection
variable {p : Plan} {liveById : StageRuns} {status : RunStatus} {now : Datetime}

/-- The final rows of one stage and of the cleanup under it. -/
def stageFinalRows (liveById : StageRuns) (status : RunStatus) (now : Datetime)
    (stage : Stage × Nat) : List StageStateRecord :=
  finalStageStatus stage.2 stage.1 (liveById.find? stage.1.stageId) status now ::
    liveById.rows.filter fun record => record.parentStageId = some stage.1.stageId

theorem finalStageStatuses_eq (stages : List Stage) (liveById : StageRuns) (status : RunStatus)
    (now : Datetime) : finalStageStatuses stages liveById status now =
      stages.zipIdx.flatMap (stageFinalRows liveById status now) := by
  unfold finalStageStatuses
  rw [List.mapIdx_eq_zipIdx_map, List.flatMap_def]
  rfl

theorem filter_stageFinalRows (liveById : StageRuns) (status : RunStatus) (now : Datetime)
    (stage : Stage × Nat) : (stageFinalRows liveById status now stage).filter
      (fun row => row.parentStageId = none) =
      [finalStageStatus stage.2 stage.1 (liveById.find? stage.1.stageId) status now] := by
  unfold stageFinalRows
  rw [List.filter_cons_of_pos (by rfl), List.filter_filter]
  refine congrArg _ (List.filter_eq_nil_iff.mpr ?_)
  intro row _ h
  simp only [Bool.and_eq_true, decide_eq_true_eq] at h
  rw [h.1] at h
  exact absurd h.2 (by simp)

theorem plannedRows_final (stages : List Stage) (liveById : StageRuns) (status : RunStatus)
    (now : Datetime) : plannedRows (finalStageStatuses stages liveById status now) =
      stages.mapIdx fun index stage =>
        finalStageStatus index stage (liveById.find? stage.stageId) status now := by
  rw [plannedRows, finalStageStatuses_eq, List.filter_flatMap]
  simp only [filter_stageFinalRows]
  rw [← List.map_eq_flatMap, List.mapIdx_eq_zipIdx_map]

theorem mem_plannedRows {stages : List Stage} {row : StageStateRecord}
    (h : row ∈ plannedRows (finalStageStatuses stages liveById status now)) :
    ∃ index stage, stages[index]? = some stage ∧
      row = finalStageStatus index stage (liveById.find? stage.stageId) status now := by
  rw [plannedRows_final] at h
  obtain ⟨index, hi, rfl⟩ := List.mem_mapIdx.mp h
  exact ⟨index, stages[index], List.getElem?_eq_getElem hi, rfl⟩

theorem Plan.nodup_stages (p : Plan) : (p.stages.map (·.stageId)).Nodup := by
  rw [List.nodup_iff_pairwise_ne, List.pairwise_map, List.pairwise_iff_getElem]
  intro i j hi hj hlt he
  have hindex := Plan.index_unique (List.getElem?_eq_getElem hi) (List.getElem?_eq_getElem hj)
    (p.stages[i].stageId_mem_ids) (he ▸ p.stages[j].stageId_mem_ids)
  omega

/-- What a later projection does to a row: the one of a stage of the plan gets a new time. -/
def restamped (now : Datetime) (row : StageStateRecord) : StageStateRecord :=
  if row.parentStageId = none then { row with sourceTs := now } else row

theorem finalStageStatus_again (index : Nat) (stage : Stage) (live : Option StageStateRecord)
    (status : RunStatus) (now now' : Datetime) :
    finalStageStatus index stage (some (finalStageStatus index stage live status now)) status now' =
      restamped now' (finalStageStatus index stage live status now) := by
  have hstatus := projectStatus_idem (live.elim .waiting (·.status)) status
  unfold restamped
  rw [if_pos (by rfl)]
  unfold finalStageStatus
  simp only [Option.elim_some, Option.bind_some, hstatus, ↓reduceIte]
  refine congrArg₂ (fun ended source => StageStateRecord.mk _ _ _ _ _ _ ended _ _ source none) ?_ rfl
  split_ifs <;> simp_all

/-- The cleanup under a stage is found in the final rows as it was in the live ones. -/
theorem filter_final {stage : Stage × Nat} (hs : stage ∈ p.stages.zipIdx) :
    ((finalStageStatuses p.stages liveById status now).filter
      fun row => row.parentStageId = some stage.1.stageId) =
        liveById.rows.filter fun row => row.parentStageId = some stage.1.stageId := by
  have hnd : (p.stages.zipIdx.map fun s => s.1.stageId).Nodup := by
    have hmap := congrArg (List.map Stage.stageId) (List.zipIdx_map_fst 0 p.stages)
    rw [List.map_map] at hmap
    exact hmap.symm ▸ p.nodup_stages
  have hown : ∀ other : Stage × Nat, (stageFinalRows liveById status now other).filter
      (fun row => row.parentStageId = some stage.1.stageId) =
        if other.1.stageId = stage.1.stageId then
          liveById.rows.filter fun row => row.parentStageId = some other.1.stageId
        else [] := by
    intro other
    unfold stageFinalRows
    rw [List.filter_cons_of_neg (by simp [finalStageStatus]), List.filter_filter]
    split_ifs with he
    · simp [he]
    · rw [List.filter_eq_nil_iff]
      intro row _ h
      simp only [Bool.and_eq_true, decide_eq_true_eq] at h
      exact he (Option.some.inj (h.2.symm.trans h.1))
  rw [finalStageStatuses_eq, List.filter_flatMap]
  simp only [hown]
  let cleanup : Stage × Nat → List StageStateRecord := fun s =>
    liveById.rows.filter fun row => row.parentStageId = some s.1.stageId
  exact List.flatMap_ite_key (f := cleanup) hnd hs

/-- A projection of the projected rows changes nothing but the time they are of. -/
theorem finalStageStatuses_again (hplaced : ∀ row ∈ liveById.rows, PlacedAt p.stages row)
    (now' : Datetime) :
    finalStageStatuses p.stages (.ofRows (finalStageStatuses p.stages liveById status now)) status
      now' = (finalStageStatuses p.stages liveById status now).map (restamped now') := by
  have hpair := finalStageStatuses_pairwise status now hplaced
  have hnd : ((finalStageStatuses p.stages liveById status now).map (·.stageId)).Nodup :=
    List.pairwise_map.mpr (hpair.imp fun hab => hab.1)
  have hrows := Table.rows_ofRows hnd
  have hown : ∀ stage ∈ p.stages.zipIdx,
      stageFinalRows (.ofRows (finalStageStatuses p.stages liveById status now)) status now' stage =
        (stageFinalRows liveById status now stage).map (restamped now') := by
    intro stage hs
    have hmem : finalStageStatus stage.2 stage.1 (liveById.find? stage.1.stageId) status now ∈
        finalStageStatuses p.stages liveById status now :=
      finalStageStatus_mem (List.mk_mem_zipIdx_iff_getElem?.mp hs)
    rw [← hrows] at hmem
    have hfind := Table.find?_of_mem hmem
    have hcleanup : ∀ row ∈ liveById.rows.filter
        (fun record => record.parentStageId = some stage.1.stageId), restamped now' row = row := by
      intro row hrow
      have hp : row.parentStageId = some stage.1.stageId := by simpa using (List.mem_filter.mp hrow).2
      exact if_neg (by simp [hp])
    unfold stageFinalRows
    rw [List.map_cons, List.map_congr_left hcleanup, List.map_id', hrows, filter_final hs]
    refine congrArg (· :: _) ?_
    exact (congrArg (finalStageStatus _ _ · _ _) hfind).trans (finalStageStatus_again _ _ _ _ _ _)
  rw [finalStageStatuses_eq, List.flatMap_def, List.map_congr_left hown, ← List.flatMap_def,
    finalStageStatuses_eq, List.map_flatMap]

theorem finalStageStatuses_distinct (hplaced : ∀ row ∈ liveById.rows, PlacedAt p.stages row) :
    ((finalStageStatuses p.stages liveById status now).map (·.stageId)).Nodup :=
  List.pairwise_map.mpr ((finalStageStatuses_pairwise status now hplaced).imp fun hab => hab.1)

/-- A cleanup row stands once, unchanged, between its parent's row and the next stage's. -/
theorem finalStageStatuses_cleanup (hplaced : ∀ row ∈ liveById.rows, PlacedAt p.stages row)
    {row : StageStateRecord} (hrow : row ∈ liveById.rows) (hp : row.parentStageId ≠ none) :
    (finalStageStatuses p.stages liveById status now).count row = 1 ∧
    ∃ before parent own after, finalStageStatuses p.stages liveById status now =
        before ++ parent :: own ++ after ∧ row ∈ own ∧
      parent.parentStageId = none ∧ row.parentStageId = some parent.stageId ∧
      ∀ other ∈ own, other.parentStageId ≠ none := by
  obtain ⟨stage, hi, ⟨hnone, -⟩ | ⟨hparent, -⟩⟩ := hplaced row hrow
  · exact absurd hnone hp
  · obtain ⟨before, after, hsplit⟩ := List.append_of_mem (List.mk_mem_zipIdx_iff_getElem?.mpr hi)
    have hown : row ∈ liveById.rows.filter fun record => record.parentStageId = some stage.stageId :=
      List.mem_filter.mpr ⟨hrow, decide_eq_true hparent⟩
    have heq : finalStageStatuses p.stages liveById status now =
        before.flatMap (stageFinalRows liveById status now) ++
          finalStageStatus row.stageIndex stage (liveById.find? stage.stageId) status now ::
            (liveById.rows.filter fun record => record.parentStageId = some stage.stageId) ++
          after.flatMap (stageFinalRows liveById status now) := by
      rw [finalStageStatuses_eq, hsplit, List.flatMap_append, List.flatMap_cons, List.append_assoc]
      rfl
    constructor
    · refine List.count_eq_one_of_mem (List.Nodup.of_map _ (finalStageStatuses_distinct hplaced)) ?_
      rw [heq]
      simp only [List.mem_append, List.mem_cons]
      exact .inl (.inr (.inr hown))
    · refine ⟨_, _, _, _, heq, hown, rfl, hparent, ?_⟩
      intro other hother
      have hother' := (List.mem_filter.mp hother).2
      simp [of_decide_eq_true hother']

section OneRow
variable {index : Nat} {stage : Stage} {live : Option StageStateRecord}

/-- A status that the projection changed is one of the backend's own. -/
theorem finalStageStatus_marked
    (h : ∀ record, live = some record →
      (finalStageStatus index stage live status now).status ≠ record.status) :
    (finalStageStatus index stage live status now).statusSource = .backend := by
  cases live with
  | none => rfl
  | some record => exact if_neg (h record rfl)

theorem finalStageStatus_unstarted
    (h : ∀ record, live = some record → record.endedAt ≠ none → record.startedAt ≠ none)
    (hstarted : (finalStageStatus index stage live status now).startedAt = none) :
    (finalStageStatus index stage live status now).endedAt = none := by
  cases live with
  | none => rfl
  | some record =>
    have hstarted' : record.startedAt = none := hstarted
    have hended : record.endedAt = none := by
      by_contra hended
      exact h record rfl hended hstarted'
    simp [finalStageStatus, hstarted', hended]

/-- The end is stamped where the robot gave none. -/
theorem finalStageStatus_ended
    (hstarted : (finalStageStatus index stage live status now).startedAt ≠ none)
    (hskipped : (finalStageStatus index stage live status now).status ≠ .skipped) :
    (finalStageStatus index stage live status now).endedAt ≠ none := by
  intro hended
  dsimp only [finalStageStatus] at hstarted hskipped hended
  split_ifs at hended with hstamp
  refine hstamp ⟨?_, ?_, hskipped⟩
  · simp [hended]
  · exact Option.isSome_iff_ne_none.mpr hstarted

end OneRow

/-- The final rows are as they should be just if no stage of the plan is reported as ended and not
as started. -/
theorem finallyProjected_iff (hplaced : ∀ row ∈ liveById.rows, PlacedAt p.stages row)
    (status : RunStatus) (now : Datetime) :
    FinallyProjected p liveById status (finalStageStatuses p.stages liveById status now) ↔
      ∀ stage ∈ p.stages, ∀ live, liveById.find? stage.stageId = some live →
        live.endedAt ≠ none → live.startedAt ≠ none := by
  constructor
  · intro h stage hstage live hlive hended hstarted
    obtain ⟨index, hi⟩ := List.mem_iff_getElem?.mp hstage
    have hrow : finalStageStatus index stage (liveById.find? stage.stageId) status now ∈
        plannedRows (finalStageStatuses p.stages liveById status now) :=
      List.mem_filter.mpr ⟨finalStageStatus_mem hi, rfl⟩
    have hnone := h.unstarted _ hrow
    rw [hlive] at hnone
    simp [finalStageStatus, hstarted, hended] at hnone
  · intro h
    refine ⟨?_, ?_, ?_, ?_, ?_, ?_, finalStageStatuses_distinct hplaced, ?_, ?_, ?_⟩
    · rw [plannedRows_final]
      exact List.ext_getElem (by simp) fun i _ _ => by simp [finalStageStatus]
    · rw [plannedRows_final]
      exact List.ext_getElem (by simp) fun i _ _ => by simp [finalStageStatus]
    · intro row hrow
      obtain ⟨index, stage, -, rfl⟩ := mem_plannedRows hrow
      exact projectStatus_isFinal _ _
    · intro row hrow live hlive hkeeps
      obtain ⟨index, stage, -, rfl⟩ := mem_plannedRows hrow
      have hlive' : liveById.find? stage.stageId = some live := hlive
      have hsame := projectStatus_of_keeps hkeeps
      simp [finalStageStatus, hlive', hsame]
    · intro row hrow hchanged
      obtain ⟨index, stage, -, rfl⟩ := mem_plannedRows hrow
      exact finalStageStatus_marked hchanged
    · intro row hrow hp
      exact finalStageStatuses_cleanup hplaced hrow hp
    · intro row hrow hstarted
      obtain ⟨index, stage, hi, rfl⟩ := mem_plannedRows hrow
      exact finalStageStatus_unstarted (h stage (List.mem_of_getElem? hi)) hstarted
    · intro row hrow hstarted hskipped
      obtain ⟨index, stage, -, rfl⟩ := mem_plannedRows hrow
      exact finalStageStatus_ended hstarted hskipped
    · intro now'
      rw [finalStageStatuses_again hplaced, List.map_map]
      refine List.map_congr_left fun row _ => ?_
      dsimp only [Function.comp_apply, restamped]
      split_ifs <;> rfl

end Projection

section Demo
open MissionStateService

def demoStage : Plan :=
  { stages := [.mk 10 none (.navigation [])], nonempty := by simp, nodup := by decide }

/-- The robot's last frame: it skipped the one stage at some time and had not started it. -/
def demoSkipped : MissionStateMessage :=
  { runId := 7, headerId := 1, timestamp := 5, execStatus := .cancelled
    stageStates := [{ stageId := 10, status := .skipped, endedAt := some 5 }] }

def demoSkippedRows : StageRuns := .ofRows (liveRecords demoSkipped demoStage.stages)

theorem demoSkippedRows_placed : ∀ row ∈ demoSkippedRows.rows, PlacedAt demoStage.stages row :=
  fun _ hrow => (mem_liveRecords (Table.mem_ofRows hrow)).1

theorem finallyProjected_iff_skipped :
    FinallyProjected demoStage demoSkippedRows .cancelled
        (finalStageStatuses demoStage.stages demoSkippedRows .cancelled 7) ↔
      ∀ stage ∈ demoStage.stages, ∀ live, demoSkippedRows.find? stage.stageId = some live →
        live.endedAt ≠ none → live.startedAt ≠ none :=
  finallyProjected_iff demoSkippedRows_placed .cancelled 7

/-- The skipped stage keeps the end it was reported with, though it was never started. -/
theorem finalStageStatuses_keeps_end : ¬ ∀ (p : Plan) (liveById : StageRuns) (status : RunStatus)
    (now : Datetime), isTerminal status = true →
    (∀ row ∈ liveById.rows, PlacedAt p.stages row) →
    FinallyProjected p liveById status (finalStageStatuses p.stages liveById status now) := by
  intro hall
  have hclaim := hall demoStage demoSkippedRows .cancelled 7 rfl demoSkippedRows_placed
  let row : StageStateRecord :=
    { stageId := 10, headerId := 1, stageIndex := 0, status := .skipped, endedAt := some 5,
      sourceTs := 7 }
  have hnone : row.endedAt = none := hclaim.unstarted row (by decide) rfl
  cases hnone

end Demo
end Leitstand
