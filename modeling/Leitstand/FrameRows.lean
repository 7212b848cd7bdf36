import Leitstand.FinalRows
import Leitstand.FrameOrder
import Leitstand.VersionedTable

namespace Leitstand
open MissionStateService

/-- The stages a frame can have rows of: the plan's own, and the cleanup stages right under them. -/
def Indexed (stages : List Stage) (stageId : UUID) : Prop :=
  ∃ stage ∈ stages, stage.stageId = stageId ∨ ∃ child ∈ stage.children, child.stageId = stageId

section Records
variable {stages : List Stage} {frame : MissionStateMessage} {stageId : UUID}

theorem lookupIndex_isSome : (lookupIndex stages stageId).isSome ↔ Indexed stages stageId := by
  constructor
  · intro h
    obtain ⟨found, hfound⟩ := Option.isSome_iff_exists.mp h
    obtain ⟨stage, hi, ⟨-, hid⟩ | ⟨-, hchild⟩⟩ := placed_of_lookupIndex hfound
    · exact ⟨stage, List.mem_of_getElem? hi, .inl hid.symm⟩
    · exact ⟨stage, List.mem_of_getElem? hi, .inr hchild⟩
  · rintro ⟨stage, hstage, hid⟩
    obtain ⟨index, hi, rfl⟩ := List.mem_iff_getElem.mp hstage
    have hentry : ∃ entry ∈ indexById stages, entry.1 = stageId := by
      unfold indexById
      simp only [List.mem_flatten, List.mem_mapIdx]
      obtain hid | ⟨child, hchild, hid⟩ := hid
      · exact ⟨_, ⟨_, ⟨index, hi, rfl⟩, List.mem_cons_self⟩, hid⟩
      · exact ⟨_, ⟨_, ⟨index, hi, rfl⟩, List.mem_cons_of_mem _ (List.mem_map.mpr ⟨child, hchild, rfl⟩)⟩,
          hid⟩
    obtain ⟨entry, hmem, hid⟩ := hentry
    unfold lookupIndex
    rw [Option.isSome_map, List.find?_isSome]
    exact ⟨entry, List.mem_reverse.mpr hmem, decide_eq_true hid⟩

theorem headerId_liveRecords {row : StageStateRecord} (h : row ∈ liveRecords frame stages) :
    row.headerId = frame.headerId := by
  obtain ⟨stageState, -, hrow⟩ := List.mem_filterMap.mp h
  obtain ⟨found, -, rfl⟩ := Option.map_eq_some_iff.mp hrow
  rfl

/-- Of the stages a frame mentions it has rows of just those that are indexed. -/
theorem exists_liveRecord : (∃ row ∈ liveRecords frame stages, row.stageId = stageId) ↔
    stageId ∈ frame.stageStates.map (·.stageId) ∧ Indexed stages stageId := by
  rw [← lookupIndex_isSome, List.mem_map]
  constructor
  · rintro ⟨row, hrow, rfl⟩
    obtain ⟨stageState, hs, hrow⟩ := List.mem_filterMap.mp hrow
    obtain ⟨found, hfound, rfl⟩ := Option.map_eq_some_iff.mp hrow
    exact ⟨⟨stageState, hs, rfl⟩, Option.isSome_of_eq_some hfound⟩
  · rintro ⟨⟨stageState, hs, rfl⟩, h⟩
    obtain ⟨found, hfound⟩ := Option.isSome_iff_exists.mp h
    exact ⟨_, List.mem_filterMap.mpr ⟨stageState, hs, by rw [hfound]; rfl⟩, rfl⟩

/-- A frame's rows are of the stages that it mentions, but for those that are not indexed. -/
theorem map_liveRecords : (liveRecords frame stages).map (·.stageId) =
    (frame.stageStates.map (·.stageId)).filter fun id => (lookupIndex stages id).isSome := by
  unfold liveRecords
  generalize frame.stageStates = stageStates
  induction stageStates with
  | nil => rfl
  | cons stageState rest ih =>
    rw [List.filterMap_cons, List.map_cons, List.filter_cons]
    cases lookupIndex stages stageState.stageId with
    | none => exact ih
    | some found => exact congrArg _ ih

/-- A frame that mentions no stage twice has no two rows of one stage. -/
theorem nodup_liveRecords (h : (frame.stageStates.map (·.stageId)).Nodup) :
    ((liveRecords frame stages).map (·.stageId)).Nodup := by
  rw [map_liveRecords]
  exact h.filter _

end Records

/-- A frame of the run that mentions no stage twice. -/
structure FrameOf (r : StoredRun) (frame : MissionStateMessage) : Prop where
  run : frame.runId = r.runId
  once : (frame.stageStates.map (·.stageId)).Nodup

theorem FrameOf.congr {r q : StoredRun} {frame : MissionStateMessage} (h : FrameOf r frame)
    (hf : q.frozen = r.frozen) : FrameOf q frame where
  run := h.run.trans (congrArg FrozenRun.runId hf).symm
  once := h.once

theorem isExecuting_reportedStatus {exec : MissionExecStatus} (hl : isOutcome exec = false) :
    isExecuting (reportedStatus exec) = true := by
  cases exec <;> first | rfl | cases hl

theorem reportUpdate_executing {run : MissionRun} {frame : MissionStateMessage} {u : StatusUpdate}
    (hl : isOutcome frame.execStatus = false) (h : reportUpdate run frame = some u) :
    isExecuting u.newStatus = true := by
  obtain ⟨-, target, htarget, rfl⟩ := reportUpdate_eq_some.mp h
  rw [allowedTransitions_report hl] at htarget
  split_ifs at htarget
  exact Option.some.inj htarget ▸ isExecuting_reportedStatus hl

theorem allowedTransitions_outcome {s : RunStatus} {exec : MissionExecStatus}
    (ho : isOutcome exec = true) (ht : isTerminal s = false) :
    allowedTransitions s (triggerForReport s exec) = some (reportedStatus exec) := by
  cases exec <;> cases ho <;> simp [allowedTransitions, outcomeTransitions, triggerForReport,
    outcomes, reportedStatus, ht]

/-- An outcome ends any run that has not ended. -/
theorem reportUpdate_outcome {run : MissionRun} {frame : MissionStateMessage}
    (ho : isOutcome frame.execStatus = true) (ht : isTerminal run.status = false) :
    ∃ u, reportUpdate run frame = some u ∧ u.newStatus = reportedStatus frame.execStatus := by
  have hpredates : predatesRequest run frame.headerId
      (triggerForReport run.status frame.execStatus) = false := by
    have htrigger : triggerForReport run.status frame.execStatus ≠ .pause ∧
        triggerForReport run.status frame.execStatus ≠ .ack := by
      generalize frame.execStatus = exec at ho
      cases exec <;> cases ho <;> simp [triggerForReport]
    simp [predatesRequest, htrigger]
  exact ⟨_, reportUpdate_eq_some.mpr ⟨hpredates, _, allowedTransitions_outcome ho ht, rfl⟩, rfl⟩

theorem isTerminal_reportedStatus {exec : MissionExecStatus} (ho : isOutcome exec = true) :
    isTerminal (reportedStatus exec) = true := by
  cases exec <;> first | rfl | cases ho

namespace StoredRun
variable {r : StoredRun} {frame : MissionStateMessage}

theorem advances_true : advances true = fun new old : StageStateRecord =>
    decide (old.headerId < new.headerId) := by
  funext new old
  simp [advances]

theorem recordLive_executing (he : isExecuting r.status = true) (live : List StageStateRecord) :
    (r.recordLive live).row = r.withStageRows live true := by
  unfold recordLive
  split_ifs with h
  · rfl
  · have hnil : live = [] := by
      by_contra hne
      exact h ⟨hne, he⟩
    rw [hnil]
    rfl

theorem refusesLive_of_nodup {live : List StageStateRecord} (h : (live.map (·.stageId)).Nodup) :
    r.refusesLive live = false := by
  rw [refusesLive, rewritesRow_of_nodup r.stageRuns [] h (by simp), Bool.and_false]

/-- A live frame is not refused, leaves the run executing, and writes the rows it is newer than. -/
theorem report_live (hframe : FrameOf r frame) (hl : isOutcome frame.execStatus = false)
    (he : isExecuting r.status = true) (now : Datetime) :
    r.refusesReport now frame = false ∧ isExecuting (r.report now frame).row.status = true ∧
      (r.report now frame).row.stageRuns =
        r.stageRuns.advanceAll (·.headerId) (liveRecords frame r.plan) := by
  obtain ⟨hf, hs, hrows⟩ := @touched_same r now frame
  have hnd : ((liveRecords frame r.plan).map (·.stageId)).Nodup := nodup_liveRecords hframe.once
  have hwrite : ∀ q : StoredRun, q.stageRuns = r.stageRuns →
      (q.withStageRows (liveRecords frame r.plan) true).stageRuns =
        r.stageRuns.advanceAll (·.headerId) (liveRecords frame r.plan) := by
    intro q hq
    rw [← hq]
    exact congrArg (q.stageRuns.upsertAll (liveRecords frame r.plan)) advances_true
  unfold refusesReport report
  dsimp only
  cases hu : reportUpdate r.toRun frame with
  | none =>
    have he' : isExecuting (r.touched now frame).status = true := hs ▸ he
    dsimp only
    rw [recordLive_executing he']
    exact ⟨refusesLive_of_nodup hnd, he', hwrite _ hrows⟩
  | some u =>
    have he' : isExecuting ((r.touched now frame).withStatus now u).status = true :=
      reportUpdate_executing hl hu
    dsimp only
    rw [if_neg (by simp [reportUpdate_live hl hu]), if_neg (by simp [reportUpdate_live hl hu]),
      recordLive_executing he']
    exact ⟨refusesLive_of_nodup hnd, he', hwrite _ hrows⟩

/-- An outcome ends the run on its own rows over those that were there. -/
theorem report_outcome {frames : List MissionStateMessage} (h : StageRows frames r)
    (ho : isOutcome frame.execStatus = true) (ht : isTerminal r.status = false) (now : Datetime) :
    r.refusesReport now frame = false ∧ ∃ u, isTerminal u.newStatus = true ∧
      reportUpdate r.toRun frame = some u ∧ r.report now frame =
        (r.touched now frame).ending now u (liveRecords frame r.plan) none := by
  obtain ⟨hf, hs, hrows⟩ := @touched_same r now frame
  obtain ⟨u, hu, hstatus⟩ := @reportUpdate_outcome r.toRun frame ho ht
  have hterm : isTerminal u.newStatus = true := hstatus ▸ isTerminal_reportedStatus ho
  have hplan : (r.touched now frame).plan = r.plan := congrArg (fun f => f.stages.stages) hf
  have hover : ∀ row ∈ liveRecords frame r.plan, PlacedAt (r.touched now frame).plan row := by
    intro row hrow
    exact hplan ▸ (mem_liveRecords hrow).1
  have hq : StageRows frames (r.touched now frame) := h.of_same hplan (congrArg isTerminal hs) hrows
  unfold refusesReport report
  dsimp only
  rw [hu]
  dsimp only
  rw [if_pos hterm, if_pos hterm]
  exact ⟨ends_cleanly hq.placed hover now u.newStatus _, u, hterm, rfl, rfl⟩

end StoredRun
end Leitstand
