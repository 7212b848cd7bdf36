import Leitstand.RunService

namespace Leitstand
namespace MissionManagement
open TxM

/-- Set the default robot, running every check a dispatch would, as an early warning. -/
def assign (digests : Digests) (factsheets : Factsheets) (now : Datetime) (missionId : UUID)
    (robotId : RobotId) : ServiceM Mission := do
  let some mission ← Missions.getForUpdate missionId | throw (.missionNotFound missionId)
  check (raiseIf (mission.archivedAt ≠ none) (.missionArchived missionId))
  let holders ← Runs.listActiveByRobot robotId
  check ((holders.find? fun other => other.missionId ≠ missionId).elim (.ok ()) fun other =>
    .error (.robotBusy robotId other.missionId))
  let some factsheet := factsheets.find? robotId | throw (.robotFactsheetMissing robotId)
  check (validateAgainstFactsheet mission.stages.stages robotId factsheet)
  check (validatePlanFitsRobot robotId mission.stages.stages factsheet)
  check (requireCurrentBoundary digests (← store).fields mission.stages.stages)
  Missions.setAssignedRobot now missionId (some robotId)
  audit (.assign missionId robotId)
  return (← Missions.get missionId).getD mission

/-- Clear the default robot. A run already under way keeps the robot it was given. -/
def unassign (now : Datetime) (missionId : UUID) : ServiceM Mission := do
  let some mission ← Missions.getForUpdate missionId | throw (.missionNotFound missionId)
  check (raiseIf (mission.archivedAt ≠ none) (.missionArchived missionId))
  Missions.setAssignedRobot now missionId none
  audit (.unassign missionId)
  return (← Missions.get missionId).getD mission

/-- The lock and the refusal of a mission with an active run. -/
def deleteRead (missionId : UUID) : ServiceM Unit := do
  let some _ ← Missions.getForUpdate missionId | throw (.missionNotFound missionId)
  let active ← Runs.listActiveByMission missionId
  check (raiseIf (active ≠ []) (.missionRunInProgress missionId (active.map (·.runId))))

def deleteCount (missionId : UUID) : ServiceM Bool := do
  return (← Runs.countByMission missionId) ≠ 0

def deleteFinish (now : Datetime) (missionId : UUID) (hasRuns : Bool) : ServiceM Unit := do
  -- What has run is kept for its runs' sake.
  if hasRuns then
    let _ ← Missions.archive now missionId
    audit (.archiveMission missionId)
  else
    Missions.delete missionId
    audit (.deleteMission missionId)

/-- Delete a mission that never ran, archive one that did, refuse one with an active run. -/
def delete (now : Datetime) (missionId : UUID) : ServiceM Unit := do
  deleteRead missionId
  deleteFinish now missionId (← deleteCount missionId)

def restore (now : Datetime) (missionId : UUID) : ServiceM Mission := do
  let some mission ← Missions.getForUpdate missionId | throw (.missionNotFound missionId)
  check (raiseIf (mission.archivedAt = none) (.missionNotArchived missionId))
  let some restored ← Missions.restore now missionId | throw (.missionNotFound missionId)
  audit (.restoreMission missionId)
  return restored

end MissionManagement
end Leitstand
