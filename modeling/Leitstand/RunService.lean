import Leitstand.RunStateView

namespace Leitstand

inductive DispatchOutcome where
  | accepted | rejected | timeout | error
  deriving DecidableEq

structure StartRunCommand where
  missionId : UUID
  robotId : Option RobotId := none
  allowConcurrent : Bool := false
  origin : RunOrigin
  notes : Option String := none

structure SettleRunCommand where
  runId : UUID
  outcome : DispatchOutcome
  repliedAt : Datetime
  reason : Option String := none

/-- A control request addressed to a mission's run; without an id it means the one active run. -/
structure ControlRunCommand where
  missionId : UUID
  runId : Option UUID := none

structure CancelRunCommand extends ControlRunCommand where
  mode : CancelMode := .graceful

/-- What a dispatch has checked and read before it inserts its run. -/
structure Prepared where
  command : StartRunCommand
  mission : Mission
  robotId : RobotId
  siteAnchors : Option (List (String × RunSiteAnchor))
  now : Datetime

/-- The latest factsheet each robot has sent. -/
abbrev Factsheets := Table RobotFactsheet.robotId

namespace RunService
open TxM

/-- Python's `text or fallback`. -/
def orText (text : Option String) (fallback : String) : String :=
  (text.filter (· ≠ "")).getD fallback

/-- The fleet holds the robot and its liveliness token is absent. -/
def offline (robotId : RobotId) : ServiceM Bool := do
  match ← Robots.get robotId with
  | none => return false
  | some robot => return !robot.online

/-- The checks a dispatch makes under the mission's lock, up to the insert. -/
def prepareRead (digests : Digests) (factsheets : Factsheets) (now : Datetime)
    (command : StartRunCommand) : ServiceM Prepared := do
  let some mission ← Missions.getForUpdate command.missionId
    | throw (.missionNotFound command.missionId)
  check (raiseIf (mission.archivedAt ≠ none) (.missionArchived command.missionId))
  let some robotId := (command.robotId.filter (· ≠ "")).or mission.assignedRobotId
    | throw (.noRobotAssigned command.missionId)
  -- This read only names the mission in the way; the index refuses a second run.
  let holders ← Runs.listActiveByRobot robotId
  check (holders.head?.elim (.ok ()) fun holder => .error (.robotBusy robotId holder.missionId))
  let active ← Runs.listActiveByMission command.missionId
  check (raiseIf (active ≠ [] ∧ command.allowConcurrent = false)
    (.missionRunInProgress command.missionId (active.map (·.runId))))
  check (raiseIf ((← offline robotId) = true) (.robotOffline robotId))
  let some factsheet := factsheets.find? robotId
    | throw (.robotFactsheetMissing robotId)
  check (validateAgainstFactsheet mission.stages.stages robotId factsheet)
  check (validatePlanFitsRobot robotId mission.stages.stages factsheet)
  let tables ← store
  check (requireCurrentBoundary digests tables.fields mission.stages.stages)
  let siteAnchors ← check (freezeSiteAnchors tables.sites mission.stages.stages)
  return { command, mission, robotId, siteAnchors, now }

/-- The insert, and what a dispatch does after it. -/
def prepareInsert (digests : Digests) (runId : UUID) (p : Prepared) : ServiceM MissionRun := do
  let run ← Runs.create
    { runId := runId
      missionId := p.mission.missionId
      robotId := p.robotId
      status := .pending
      stages := p.mission.stages
      stagesDigest := digests.stagesDigest p.mission.stages.stages
      siteAnchors := p.siteAnchors
      origin := p.command.origin
      notes := p.command.notes
      createdAt := p.now
      updatedAt := p.now }
  publishRunState run (waitingStageStatuses run.stages.stages p.now) none
  audit (.dispatch p.mission.missionId run.runId p.robotId p.command.allowConcurrent)
  return run

/-- `runId` is the fresh id the source draws. -/
def prepare (digests : Digests) (factsheets : Factsheets) (now : Datetime) (runId : UUID)
    (command : StartRunCommand) : ServiceM MissionRun := do
  prepareInsert digests runId (← prepareRead digests factsheets now command)

def dispatchWarning (errorType description : String) : MissionError :=
  { origin := .backend, severity := .warning, type := errorType, description := description }

def dispatchRejection (description : String) : MissionError :=
  { origin := .backend, severity := .fatal, type := "dispatch_rejected",
    description := description }

/-- The error type and text an unanswered dispatch is recorded with. -/
def unconfirmedCause (command : SettleRunCommand) : String × String :=
  if command.outcome = .error then
    ("dispatch_error", orText command.reason "The dispatch could not be sent.")
  else ("dispatch_timeout", "The robot did not answer the dispatch in time.")

def finalize (now : Datetime) (run : MissionRun) (failureErrors : Option (List MissionError)) :
    ServiceM Unit := do
  let _ ← settleStageState now run run.status failureErrors []

def settleAccepted (now : Datetime) (command : SettleRunCommand) (run : MissionRun) :
    ServiceM MissionRun := do
  let updated ← Runs.updateStatus now run.runId
    { newStatus := .dispatched, expected := .pending, trigger := .accept,
      dispatchedAt := some command.repliedAt }
  match updated.filter (·.status = .dispatched) with
  | some updated =>
    emitRunLifecycle run.missionId run.runId run.robotId .dispatched .accept
    return updated
  | none =>
    -- A frame or a cancel came before the reply; the robot has the goal either way.
    Runs.markDispatchedAt run.runId command.repliedAt
    let current := (← Runs.get run.runId).getD run
    if current.status = .cancelling then
      send (.cancel run.runId run.robotId .graceful)
      return current
    else return current

/-- No reply is not a refusal: the run stays live until a frame or a reconciliation settles it. -/
def settleUnconfirmed (now : Datetime) (command : SettleRunCommand) (run : MissionRun) :
    ServiceM MissionRun := do
  let (errorType, description) := unconfirmedCause command
  if run.status = .pending then
    let unsettled ← Runs.updateStatus now run.runId
      { newStatus := .pending, expected := .pending, trigger := .dispatchUnconfirmed,
        detail := some [("error_type", some errorType), ("reason", some description)],
        errors := some [dispatchWarning errorType description] }
    audit (.dispatchUnconfirmed run.missionId run.runId run.robotId errorType description)
    return unsettled.getD run
  else
    -- The run moved on while the reply was in flight, so the robot has the goal.
    Runs.markDispatchedAt run.runId command.repliedAt
    if run.status = .cancelling then
      send (.cancel run.runId run.robotId .graceful)
      return (← Runs.get run.runId).getD run
    else return (← Runs.get run.runId).getD run

def settleRejected (now : Datetime) (command : SettleRunCommand) (run : MissionRun) :
    ServiceM MissionRun := do
  let description := orText command.reason "The robot rejected the dispatch."
  let error := dispatchRejection description
  -- A run cancelled in flight that the robot never took ends as the operator wished.
  let target : RunStatus := if run.status = .cancelling then .cancelled else .rejected
  let updated ← if run.status = .pending ∨ run.status = .cancelling then
      Runs.updateStatus now run.runId
        { newStatus := target, expected := run.status, trigger := .reject, errors := some [error] }
    else pure none
  match updated with
  | some updated =>
    finalize now updated (some [error])
    emitRunLifecycle run.missionId run.runId run.robotId target .reject (some description)
    audit (.dispatchFailed run.missionId run.runId run.robotId "dispatch_rejected" description target)
    return updated
  | none => return (← Runs.get run.runId).getD run

/-- Record the robot's answer to the dispatch. -/
def settle (now : Datetime) (command : SettleRunCommand) : ServiceM MissionRun := do
  let some run ← Runs.getForUpdate command.runId | throw (.runNotFound command.runId false)
  match command.outcome with
  | .accepted => settleAccepted now command run
  | .rejected => settleRejected now command run
  | .timeout | .error => settleUnconfirmed now command run

/-- The run a mission-addressed command means: a named one must be this mission's and active. -/
def target (missionId : UUID) (runId : Option UUID) : ServiceM MissionRun := do
  let some _ ← Missions.getForUpdate missionId | throw (.missionNotFound missionId)
  match runId with
  | some runId =>
    let some run ← Runs.getForUpdate runId | throw (.runNotFound runId false)
    check (raiseIf (run.missionId ≠ missionId) (.runNotFound runId false))
    check (raiseIf (isActive run.status = false) (.invalidMissionTransition run.status "steer"))
    return run
  | none =>
    match ← Runs.listActiveByMission missionId with
    | [summary] =>
      let some run ← Runs.getForUpdate summary.runId | throw (.runNotFound summary.runId false)
      return run
    | [] =>
      match ← Runs.latestByMission missionId with
      | none => throw (.runNotFound missionId true)
      | some summary => throw (.invalidMissionTransition summary.status "steer")
    | active => throw (.ambiguousRun missionId (active.map (·.runId)))

def nextState (current : RunStatus) (trigger : RunTrigger) : ServiceM RunStatus :=
  check (orRaise (.invalidMissionTransition current trigger.value) (tryNextState current trigger))

/-- Close a cancelling run whose robot says it does not hold it. -/
def closeRefused (now : Datetime) (run : MissionRun) (reason : Option String) : ServiceM Unit := do
  match ← Runs.updateStatus now run.runId
      { newStatus := .cancelled, expected := .cancelling, trigger := .reconcile,
        detail := some [("reason", reason)] } with
  | none => return ()
  | some closed =>
    finalize now closed none
    emitRunLifecycle run.missionId run.runId run.robotId .cancelled .reconcile reason

/-- Send the cancel and record what the robot answered. -/
def forwardCancel (now : Datetime) (run : MissionRun) (mode : CancelMode) (reply : ControlReply) :
    ServiceM Unit := do
  send (.cancel run.runId run.robotId mode)
  match reply.applied with
  | some true => Runs.setAcknowledged run.runId true none
  | none => Runs.setAcknowledged run.runId false none
  | some false =>
    Runs.setAcknowledged run.runId false (some [("reason", reply.reason)])
    -- A pending run's robot has not received the goal yet; its refusal says nothing about it.
    if reply.refusal = some .notExecutingRun ∧ run.status ≠ .pending then
      closeRefused now run reply.reason

def announceCancel (run : MissionRun) : ServiceM Unit :=
  if run.status ≠ .cancelling then
    emitRunLifecycle run.missionId run.runId run.robotId .cancelling .cancelRequest
  else return ()

/-- `reply` is the robot's answer; the request is written before it is sent. -/
def cancel (now : Datetime) (command : CancelRunCommand) (reply : ControlReply) :
    ServiceM MissionRun := do
  let run ← target command.missionId command.runId
  let target ← nextState run.status .cancelRequest
  match ← Runs.updateStatus now run.runId
      { newStatus := target, expected := run.status, trigger := .cancelRequest,
        reportHeaderId := some (lastHeaderId run),
        detail := some [("mode", some command.mode.value)] } with
  | none => return run
  | some updated =>
    announceCancel run
    audit (.cancel run.missionId run.runId command.mode)
    if ← offline run.robotId then
      -- Nothing can answer now; the cancel is sent when the robot is back.
      Runs.setAcknowledged run.runId false (some [("deferred", some "robot offline")])
      return (← Runs.get run.runId).getD updated
    else
      forwardCancel now run command.mode reply
      return (← Runs.get run.runId).getD updated

def closedOffline : String := "closed by the operator while the robot was offline"

/-- End a run on the operator's word while its robot cannot answer. -/
def close (now : Datetime) (command : ControlRunCommand) : ServiceM MissionRun := do
  let run ← target command.missionId command.runId
  let target ← nextState run.status .close
  check (raiseIf ((← offline run.robotId) = false) (.robotOnline run.robotId))
  match ← Runs.updateStatus now run.runId
      { newStatus := target, expected := run.status, trigger := .close,
        detail := some [("reason", some closedOffline)] } with
  | none => return run
  | some closed =>
    finalize now closed none
    emitRunLifecycle run.missionId run.runId run.robotId target .close (some closedOffline)
    audit (.close run.missionId run.runId)
    return closed

/-- Send a pause or resume and record it only if the robot took it. -/
def steer (now : Datetime) (command : ControlRunCommand) (trigger : RunTrigger) (action : String)
    (dispatch : UUID → RobotId → Command) (entry : UUID → UUID → AuditEntry)
    (reply : ControlReply) : ServiceM MissionRun := do
  let run ← target command.missionId command.runId
  let target ← nextState run.status trigger
  check (raiseIf ((← offline run.robotId) = true) (.robotOffline run.robotId))
  send (dispatch run.runId run.robotId)
  -- Silence and refusal leave the run as it was.
  check (raiseIf (reply.applied = none) (.robotUnreachable run.robotId action))
  check (raiseIf (reply.applied = some false) (.robotRefusedControl run.robotId action reply.reason))
  match ← Runs.updateStatus now run.runId
      { newStatus := target, expected := run.status, trigger := trigger,
        reportHeaderId := some (lastHeaderId run), acknowledged := some true } with
  | none => return run
  | some updated =>
    emitRunLifecycle run.missionId run.runId run.robotId target trigger
    audit (entry run.missionId run.runId)
    return updated

def pause (now : Datetime) (command : ControlRunCommand) (reply : ControlReply) :
    ServiceM MissionRun :=
  steer now command .pauseRequest "pause" .pause .pause reply

def resume (now : Datetime) (command : ControlRunCommand) (reply : ControlReply) :
    ServiceM MissionRun :=
  steer now command .resumeRequest "resume" .resume .resume reply

def annotate (now : Datetime) (runId : UUID) (notes : Option String) : ServiceM MissionRun := do
  let some updated ← Runs.setNotes now runId notes | throw (.runNotFound runId false)
  audit (.annotate updated.missionId updated.runId)
  return updated

/-- Only a run that has ended is deleted; with a mission's last run its latched frame goes too. -/
def delete (runId : UUID) : ServiceM Unit := do
  let some run ← Runs.getForUpdate runId | throw (.runNotFound runId false)
  check (raiseIf (isActive run.status = true) (.invalidMissionTransition run.status "delete"))
  Runs.delete run.runId
  if (← Runs.countByMission run.missionId) = 0 then
    unlatch (.missionState run.missionId)
  audit (.deleteRun run.missionId run.runId run.status run.robotId)

end RunService
end Leitstand
