import Leitstand.MissionStateService
import Leitstand.RecordedTransaction
import Leitstand.RunReconciliation

namespace Leitstand
namespace StageWrites
open TxM NotingM

/-- The service as it runs, each list of records that reaches `writeStageRows` noted. -/
abbrev WritingM (β : Type) :=
  NotingM (List StageStateRecord) Store Event Command ServiceError β

def writeStageRows (runId : UUID) (records : List StageStateRecord) (versioned : Bool) :
    WritingM Unit := do
  note records
  quiet (Runs.writeStageRows runId records versioned)

def upsertStageRuns (runId : UUID) (records : List StageStateRecord) : WritingM Unit :=
  if records = [] then return () else writeStageRows runId records true

def overwriteStageRuns (runId : UUID) (records : List StageStateRecord) : WritingM Unit :=
  if records = [] then return () else writeStageRows runId records false

def settleStageState (now : Datetime) (run : MissionRun) (status : RunStatus)
    (failureErrors : Option (List MissionError)) (overlay : List StageStateRecord) :
    WritingM (List StageStateRecord) := do
  let stored : StageRuns := .ofRows (← quiet (Runs.getStageRuns run.runId))
  let stored := stored.upsertAll overlay fun _ _ => true
  let resolved := finalStageStatuses run.stages.stages stored status now
  overwriteStageRuns run.runId resolved
  quiet (publishRunState run resolved failureErrors)
  return resolved

section Record
open MissionStateService hiding recordLive recordStages applyReport record

def recordLive (run : MissionRun) (status : RunStatus) (live : List StageStateRecord) :
    WritingM Unit := do
  if live ≠ [] ∧ isExecuting status then
    upsertStageRuns run.runId live
    let rows ← quiet (Runs.getStageRuns run.runId)
    quiet (publishRunState run rows none)

def recordStages (now : Datetime) (run : MissionRun) (update : StatusUpdate)
    (live : List StageStateRecord) : WritingM Unit := do
  if isTerminal update.newStatus then
    let _ ← settleStageState now run update.newStatus update.errors live
  else recordLive run update.newStatus live

def applyReport (now : Datetime) (run : MissionRun) (state : MissionStateMessage) :
    WritingM Unit := do
  let live := liveRecords state run.stages.stages
  match reportUpdate run state with
  | none => recordLive run run.status live
  | some update =>
    match ← quiet (Runs.updateStatus now run.runId update) with
    | none => recordLive run run.status live
    | some _ =>
      recordStages now run update live
      quiet (emitRunLifecycle run.missionId run.runId run.robotId update.newStatus update.trigger)

def record (now : Datetime) (robotId : RobotId) (state : MissionStateMessage) : WritingM Unit := do
  match ← quiet (Runs.getForUpdate state.runId) with
  | none => return ()
  | some run =>
    if run.robotId ≠ robotId then return ()
    else
      quiet (touchReport now run state)
      applyReport now run state

end Record

section Reconcile
open RunReconciliation hiding closeUnclaimed reconcileEach reconcileRobotRuns

def closeUnclaimed (now : Datetime) (run : MissionRun) : WritingM (Option UUID) := do
  let target : RunStatus := if run.status = .cancelling then .cancelled else .failed
  match ← quiet (Runs.updateStatus now run.runId
      { newStatus := target, expected := run.status, trigger := .reconcile,
        detail := some [("reason", some unclaimedReason)], errors := some [unclaimedError] }) with
  | none => return none
  | some _ =>
    let _ ← settleStageState now run target (some [unclaimedError]) []
    quiet (emitRunLifecycle run.missionId run.runId run.robotId target .reconcile
      (some unclaimedReason))
    return some run.runId

def reconcileEach (now : Datetime) (claim : Claim) : List UUID → WritingM (List UUID)
  | [] => return []
  | runId :: rest => do
    let ended ← match ← quiet (judge now claim runId) with
      | none => pure none
      | some run => closeUnclaimed now run
    return ended.toList ++ (← reconcileEach now claim rest)

def reconcileRobotRuns (now : Datetime) (robotId : RobotId) (claim : Claim) :
    WritingM (List UUID) := do
  let live ← quiet (Runs.listActiveByRobot robotId)
  let ended ← reconcileEach now claim (live.map (·.runId))
  quiet (stopClaim robotId claim)
  return ended

end Reconcile

section Erasure
variable {now : Datetime}

theorem writeStageRows_erases (runId : UUID) (records : List StageStateRecord) (versioned : Bool) :
    Erases (writeStageRows runId records versioned)
      (Runs.writeStageRows runId records versioned) := (Erases.quiet _).noted records

theorem upsertStageRuns_erases (runId : UUID) (records : List StageStateRecord) :
    Erases (upsertStageRuns runId records) (Runs.upsertStageRuns runId records) := by
  unfold upsertStageRuns Runs.upsertStageRuns
  split_ifs
  · exact .pure ()
  · exact writeStageRows_erases runId records true

theorem overwriteStageRuns_erases (runId : UUID) (records : List StageStateRecord) :
    Erases (overwriteStageRuns runId records) (Runs.overwriteStageRuns runId records) := by
  unfold overwriteStageRuns Runs.overwriteStageRuns
  split_ifs
  · exact .pure ()
  · exact writeStageRows_erases runId records false

theorem settleStageState_erases (run : MissionRun) (status : RunStatus)
    (errors : Option (List MissionError)) (overlay : List StageStateRecord) :
    Erases (settleStageState now run status errors overlay)
      (Leitstand.settleStageState now run status errors overlay) := by
  refine (Erases.quiet _).bind fun rows => ?_
  refine (overwriteStageRuns_erases run.runId _).bind fun _ => ?_
  exact (Erases.quiet _).bind fun _ => .pure _

theorem recordLive_erases (run : MissionRun) (status : RunStatus) (live : List StageStateRecord) :
    Erases (recordLive run status live) (MissionStateService.recordLive run status live) := by
  unfold recordLive MissionStateService.recordLive
  split_ifs
  · refine (upsertStageRuns_erases run.runId live).bind fun _ => ?_
    exact (Erases.quiet _).bind fun rows => .quiet _
  · exact .pure ()

theorem recordStages_erases (run : MissionRun) (update : StatusUpdate)
    (live : List StageStateRecord) :
    Erases (recordStages now run update live)
      (MissionStateService.recordStages now run update live) := by
  unfold recordStages MissionStateService.recordStages
  split_ifs
  · exact (settleStageState_erases run update.newStatus update.errors live).bind fun _ => .pure ()
  · exact recordLive_erases run update.newStatus live

theorem applyReport_erases (run : MissionRun) (state : MissionStateMessage) :
    Erases (applyReport now run state) (MissionStateService.applyReport now run state) := by
  unfold applyReport MissionStateService.applyReport
  dsimp only
  cases MissionStateService.reportUpdate run state with
  | none => exact recordLive_erases run run.status _
  | some update =>
    refine (Erases.quiet _).bind fun updated => ?_
    cases updated with
    | none => exact recordLive_erases run run.status _
    | some updated => exact (recordStages_erases run update _).bind fun _ => .quiet _

/-- A frame is recorded as it would be without the notes. -/
theorem record_erases (robotId : RobotId) (state : MissionStateMessage) :
    Erases (record now robotId state) (MissionStateService.record now robotId state) := by
  refine (Erases.quiet _).bind fun run => ?_
  cases run with
  | none => exact .pure ()
  | some run =>
    dsimp only
    split_ifs
    · exact .pure ()
    · exact (Erases.quiet _).bind fun _ => applyReport_erases run state

theorem closeUnclaimed_erases (run : MissionRun) :
    Erases (closeUnclaimed now run) (RunReconciliation.closeUnclaimed now run) := by
  refine (Erases.quiet _).bind fun updated => ?_
  cases updated with
  | none => exact .pure none
  | some updated =>
    refine (settleStageState_erases run _ _ []).bind fun _ => ?_
    exact (Erases.quiet _).bind fun _ => .pure _

theorem reconcileEach_erases (claim : Claim) (ids : List UUID) :
    Erases (reconcileEach now claim ids) (RunReconciliation.reconcileEach now claim ids) := by
  induction ids with
  | nil => exact .pure []
  | cons runId ids ih =>
    refine (Erases.quiet _).bind fun run => ?_
    cases run with
    | none => exact (Erases.pure none).bind fun _ => ih.bind fun _ => .pure _
    | some run => exact (closeUnclaimed_erases run).bind fun _ => ih.bind fun _ => .pure _

/-- A robot's runs are reconciled as they would be without the notes. -/
theorem reconcileRobotRuns_erases (robotId : RobotId) (claim : Claim) :
    Erases (reconcileRobotRuns now robotId claim)
      (RunReconciliation.reconcileRobotRuns now robotId claim) := by
  refine (Erases.quiet _).bind fun live => ?_
  refine (reconcileEach_erases claim _).bind fun _ => ?_
  exact (Erases.quiet _).bind fun _ => .pure _

end Erasure
end StageWrites
end Leitstand
