import Leitstand.RunStateView

namespace Leitstand

/-- What a reconnected robot said of its runs: `claimReported` where it answered, with the run it
claims or none. -/
structure Claim where
  since : Datetime
  claimedRunId : Option String := none
  claimReported : Bool := false
  deriving DecidableEq

namespace RunReconciliation
open TxM

def unclaimedReason : String := "the robot reconnected without reporting this run"

def dispatchWindow : Datetime := seconds 10

def unclaimedError : MissionError :=
  { origin := .backend, severity := .fatal, type := "run_unclaimed_after_reconnect",
    description := unclaimedReason }

/-- The reconnection cannot judge the run. -/
def exempt (now : Datetime) (claim : Claim) (run : MissionRun) : Bool :=
  isTerminal run.status
    -- Started after the robot answered again.
    || decide (claim.since ≤ run.createdAt)
    || (claim.claimReported && decide (some run.runId.str = claim.claimedRunId))
    -- Its dispatch may still be in flight.
    || (decide (run.status = .pending) && decide (now - run.createdAt < dispatchWindow))
    -- Without a claim a report is as good as one.
    || (!claim.claimReported && run.lastReport.any fun report => claim.since ≤ report.receivedAt)

/-- The run as it is judged, its cancel sent; `none` where it is left alone. -/
def judge (now : Datetime) (claim : Claim) (runId : UUID) : ServiceM (Option MissionRun) := do
  match ← Runs.get runId with
  | none => return none
  | some run =>
    if exempt now claim run then return none
    else
      -- The cancel goes first: the one harmful mistake is a robot that is still moving.
      send (.cancel run.runId run.robotId .graceful)
      return some run

/-- Close a judged run, unless it has moved on since. -/
def closeUnclaimed (now : Datetime) (run : MissionRun) : ServiceM (Option UUID) := do
  let target : RunStatus := if run.status = .cancelling then .cancelled else .failed
  match ← Runs.updateStatus now run.runId
      { newStatus := target, expected := run.status, trigger := .reconcile,
        detail := some [("reason", some unclaimedReason)], errors := some [unclaimedError] } with
  | none => return none
  | some _ =>
    let _ ← settleStageState now run target (some [unclaimedError]) []
    emitRunLifecycle run.missionId run.runId run.robotId target .reconcile (some unclaimedReason)
    return some run.runId

/-- Tell a robot to drop a run the backend ended while it was away. -/
def stopAClosedClaim (robotId : RobotId) (claimed : String) : ServiceM Unit := do
  match UUID.parse claimed with
  | none => return ()
  | some runId =>
    match ← Runs.get runId with
    | none => return ()
    | some run =>
      if isTerminal run.status ∧ run.robotId = robotId then
        send (.cancel run.runId robotId .immediate)

def stopClaim (robotId : RobotId) (claim : Claim) : ServiceM Unit :=
  match claim.claimReported, claim.claimedRunId with
  | true, some claimed => stopAClosedClaim robotId claimed
  | _, _ => return ()

def reconcileEach (now : Datetime) (claim : Claim) : List UUID → ServiceM (List UUID)
  | [] => return []
  | runId :: rest => do
    let ended ← match ← judge now claim runId with
      | none => pure none
      | some run => closeUnclaimed now run
    return ended.toList ++ (← reconcileEach now claim rest)

/-- Close the robot's live runs it does not hold, and return their ids. -/
def reconcileRobotRuns (now : Datetime) (robotId : RobotId) (claim : Claim) :
    ServiceM (List UUID) := do
  let live ← Runs.listActiveByRobot robotId
  let ended ← reconcileEach now claim (live.map (·.runId))
  stopClaim robotId claim
  return ended

end RunReconciliation
end Leitstand
