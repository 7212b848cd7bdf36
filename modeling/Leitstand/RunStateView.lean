import Leitstand.RunRepository

namespace Leitstand

def publishRunState (run : MissionRun) (records : List StageStateRecord)
    (failureErrors : Option (List MissionError)) : ServiceM Unit :=
  publish (.missionState run.missionId)
    (.state (buildRunStateView run.runId run.missionId records failureErrors)) true

/-- Resolve, persist and publish every stage's final state; `overlay` carries the records of the
frame the run ends on. -/
def settleStageState (now : Datetime) (run : MissionRun) (status : RunStatus)
    (failureErrors : Option (List MissionError)) (overlay : List StageStateRecord) :
    ServiceM (List StageStateRecord) := do
  let stored : StageRuns := .ofRows (← Runs.getStageRuns run.runId)
  let stored := stored.upsertAll overlay fun _ _ => true
  let resolved := finalStageStatuses run.stages.stages stored status now
  Runs.overwriteStageRuns run.runId resolved
  publishRunState run resolved failureErrors
  return resolved

/-- What the REST route reads: every stage as `WAITING` while the robot has reported none. -/
def getRunState (runId : UUID) : ServiceM (Option RunStateView) := do
  match ← Runs.get runId with
  | none => return none
  | some run =>
    let rows ← Runs.getStageRuns runId
    let rows := if rows = [] then waitingStageStatuses run.stages.stages run.createdAt else rows
    return some (buildRunStateView run.runId run.missionId rows run.failureErrors)

def emitRunLifecycle (missionId runId : UUID) (robotId : RobotId) (status : RunStatus)
    (trigger : RunTrigger) (reason : Option String := none) : ServiceM Unit :=
  publish (.missionLifecycle missionId) (.lifecycle missionId runId robotId status trigger reason)
    false

end Leitstand
