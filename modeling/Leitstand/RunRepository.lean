import Mathlib.Data.List.ModifyLast
import Leitstand.Store

namespace Leitstand

/-- The arguments of one status change; what is left out keeps its column. -/
structure StatusUpdate where
  newStatus : RunStatus
  expected : RunStatus
  trigger : RunTrigger
  reportHeaderId : Option Nat := none
  acknowledged : Option Bool := none
  detail : Option Detail := none
  errors : Option (List MissionError) := none
  dispatchedAt : Option Datetime := none

def StatusUpdate.transition (u : StatusUpdate) (now : Datetime) : RunTransition :=
  { fromStatus := u.expected, toStatus := u.newStatus, trigger := u.trigger, at_ := now,
    actor := actorOf u.trigger, reportHeaderId := u.reportHeaderId,
    acknowledged := u.acknowledged, detail := u.detail }

namespace StoredRun

def transitions (r : StoredRun) : List RunTransition := r.run.transitions

def withStatus (r : StoredRun) (now : Datetime) (u : StatusUpdate) : StoredRun :=
  { r with run := { r.run with
      status := u.newStatus
      updatedAt := now
      -- A column that the call leaves out keeps its value.
      failureErrors := u.errors.or r.run.failureErrors
      dispatchedAt := u.dispatchedAt.or r.run.dispatchedAt
      startedAt :=
        if u.newStatus = .running then r.run.startedAt.or (some now) else r.run.startedAt
      endedAt := if isTerminal u.newStatus then some now else r.run.endedAt
      transitions := r.run.transitions ++ [u.transition now] } }

/-- An empty or absent detail leaves the stored one as it is. -/
def acknowledge (acknowledged : Bool) (detail : Option Detail) (t : RunTransition) : RunTransition :=
  { t with
    acknowledged := some acknowledged
    detail := match detail with
      | none | some [] => t.detail
      | some d => some ((t.detail.getD []).merge d) }

def withAcknowledged (r : StoredRun) (acknowledged : Bool) (detail : Option Detail) : StoredRun :=
  { r with run := { r.run with
      transitions := r.run.transitions.modifyLast (acknowledge acknowledged detail) } }

def withDispatchedAt (r : StoredRun) (when_ : Datetime) : StoredRun :=
  { r with run := { r.run with dispatchedAt := r.run.dispatchedAt.or (some when_) } }

def withNotes (r : StoredRun) (now : Datetime) (notes : Option String) : StoredRun :=
  { r with run := { r.run with notes := notes, updatedAt := now } }

def withReport (r : StoredRun) (report : LastReport) : StoredRun :=
  { r with run := { r.run with lastReport := some report } }

/-- When `versioned`, a row advances only on a strictly higher header. -/
def advances (versioned : Bool) (new old : StageStateRecord) : Bool :=
  !versioned || decide (old.headerId < new.headerId)

def withStageRows (r : StoredRun) (records : List StageStateRecord) (versioned : Bool) : StoredRun :=
  { r with stageRuns := r.stageRuns.upsertAll records (advances versioned) }

/-- A run as an update returns it, without its transitions. -/
def returned (r : StoredRun) : MissionRun := { r.toRun with transitions := [] }

def stageRows (r : StoredRun) : List StageStateRecord :=
  r.stageRuns.rows.insertionSort fun a b => a.stageIndex ≤ b.stageIndex

end StoredRun

/-- A row written twice by one statement is refused, and a row the guard holds back is not
written. -/
def rewritesRow (versioned : Bool) : StageRuns → List UUID → List StageStateRecord → Bool
  | _, _, [] => false
  | rows, written, record :: rest =>
    decide (record.stageId ∈ written) ||
      let lands := (rows.find? record.stageId).all (StoredRun.advances versioned record)
      rewritesRow versioned (rows.upsert record (StoredRun.advances versioned record))
        (if lands then record.stageId :: written else written) rest

namespace Runs
open TxM

def saveRun (r : StoredRun) (store : Store) : Store := { store with runs := store.runs.replace r }

def find (runId : UUID) : ServiceM (Option StoredRun) := do return (← store).runs.find? runId

def get (runId : UUID) : ServiceM (Option MissionRun) := do
  return (← find runId).map StoredRun.toRun

def getForUpdate (runId : UUID) : ServiceM (Option MissionRun) := get runId

/-- The active runs that pass, newest first. -/
def listActive (p : StoredRun → Bool) (store : Store) : List MissionRunSummary :=
  ((store.runs.rows.filter fun r => p r && isActive r.status).map
    (·.run.toMissionRunSummary)).insertionSort fun a b => b.createdAt ≤ a.createdAt

def listActiveByMission (missionId : UUID) : ServiceM (List MissionRunSummary) := do
  return listActive (fun r => r.missionId = missionId) (← store)

def listActiveByRobot (robotId : RobotId) : ServiceM (List MissionRunSummary) := do
  return listActive (fun r => r.robotId = robotId) (← store)

def latestByMission (missionId : UUID) : ServiceM (Option MissionRunSummary) := do
  let runs := (← store).runs.rows.filter fun r => r.missionId = missionId
  return ((runs.map (·.run.toMissionRunSummary)).insertionSort
    fun a b => b.createdAt ≤ a.createdAt).head?

def countByMission (missionId : UUID) : ServiceM Nat := do
  return ((← store).runs.rows.filter fun r => r.missionId = missionId).length

/-- The compare-and-set. -/
def updateStatus (now : Datetime) (runId : UUID) (u : StatusUpdate) :
    ServiceM (Option MissionRun) := do
  match ← find runId with
  | none => return none
  | some r =>
    if r.status = u.expected ∧ isTerminal r.status = false then
      setStore (saveRun (r.withStatus now u))
      return some (r.withStatus now u).returned
    else return none

/-- An update of the one row under the id, of none where there is none. -/
def updateRow (runId : UUID) (f : StoredRun → StoredRun) : ServiceM Unit := do
  match ← find runId with
  | none => return ()
  | some r => setStore (saveRun (f r))

def setAcknowledged (runId : UUID) (acknowledged : Bool) (detail : Option Detail) : ServiceM Unit :=
  updateRow runId fun r => r.withAcknowledged acknowledged detail

def markDispatchedAt (runId : UUID) (when_ : Datetime) : ServiceM Unit :=
  updateRow runId fun r => r.withDispatchedAt when_

def touchLastReport (runId : UUID) (report : LastReport) : ServiceM Unit :=
  updateRow runId fun r => r.withReport report

def setNotes (now : Datetime) (runId : UUID) (notes : Option String) :
    ServiceM (Option MissionRun) := do
  updateRow runId fun r => r.withNotes now notes
  return (← find runId).map StoredRun.returned

def writeStageRows (runId : UUID) (records : List StageStateRecord) (versioned : Bool) :
    ServiceM Unit := do
  match ← find runId with
  | none => throw (.foreignKeyViolation "stage_runs_run_id_fkey")
  | some r =>
    if rewritesRow versioned r.stageRuns [] records then throw .cardinalityViolation
    else setStore (saveRun (r.withStageRows records versioned))

def upsertStageRuns (runId : UUID) (records : List StageStateRecord) : ServiceM Unit :=
  if records = [] then return () else writeStageRows runId records true

def overwriteStageRuns (runId : UUID) (records : List StageStateRecord) : ServiceM Unit :=
  if records = [] then return () else writeStageRows runId records false

def getStageRuns (runId : UUID) : ServiceM (List StageStateRecord) := do
  return (← find runId).elim [] StoredRun.stageRows

/-- The run that holds the robot's entry in the partial unique index `uq_run_robot_active`. -/
def robotIndex (store : Store) (robotId : RobotId) : Option StoredRun :=
  store.runs.rows.find? fun r => r.robotId = robotId && isActive r.status

def create (run : MissionRun) : ServiceM MissionRun := do
  let tables ← store
  match h : tables.runs.find? run.runId with
  | some _ => throw (.uniqueViolation "mission_runs_pkey")
  | none =>
    -- The index is checked at the insert itself, whatever the caller has read before.
    if isActive run.status ∧ (robotIndex tables run.robotId).isSome then
      let holders ← listActiveByRobot run.robotId
      throw (.robotBusy run.robotId (holders.head?.elim run.missionId (·.missionId)))
    else if (tables.missions.find? run.missionId).isNone then
      throw (.foreignKeyViolation "mission_runs_mission_id_fkey")
    else
      let stored : StoredRun :=
        { run := { run with
            siteAnchors := orNone run.siteAnchors, failureErrors := none, transitions := [] } }
      setStore fun s => { s with runs := tables.runs.insert stored h }
      return stored.toRun

def delete (runId : UUID) : ServiceM Unit :=
  setStore fun store => { store with runs := store.runs.erase runId }

end Runs

namespace Missions
open TxM

def getForUpdate (missionId : UUID) : ServiceM (Option Mission) := do
  return (← store).missions.find? missionId

def get (missionId : UUID) : ServiceM (Option Mission) := do
  return (← store).missions.find? missionId

def setAssignedRobot (now : Datetime) (missionId : UUID) (robotId : Option RobotId) :
    ServiceM Unit :=
  setStore fun store => match store.missions.find? missionId with
    | none => store
    | some mission => { store with
        missions := store.missions.replace
          { mission with assignedRobotId := robotId, updatedAt := now } }

def setArchived (now : Datetime) (missionId : UUID) (when_ : Option Datetime) :
    ServiceM (Option Mission) := do
  match (← store).missions.find? missionId with
  | none => return none
  | some mission =>
    let mission := { mission with archivedAt := when_, updatedAt := now }
    setStore fun s => { s with missions := s.missions.replace mission }
    return some mission

def archive (now : Datetime) (missionId : UUID) : ServiceM (Option Mission) :=
  setArchived now missionId (some now)

def restore (now : Datetime) (missionId : UUID) : ServiceM (Option Mission) :=
  setArchived now missionId none

def delete (missionId : UUID) : ServiceM Unit := do
  if (← store).runs.rows.any fun r => r.missionId = missionId then
    throw (.foreignKeyViolation "mission_runs_mission_id_fkey")
  else setStore fun s => { s with missions := s.missions.erase missionId }

end Missions

namespace Robots
open TxM

def get (robotId : RobotId) : ServiceM (Option RobotRow) := do
  return (← store).robots.find? robotId

def recordOnline (now : Datetime) (robotId : RobotId) (metadata : Metadata) : ServiceM RobotRow := do
  let row : RobotRow := match (← store).robots.find? robotId with
    | none => { id := robotId, metadata, firstSeenAt := now, lastSeenAt := now, online := true }
    | some row => { row with metadata, lastSeenAt := now, online := true }
  setStore fun s => { s with robots := s.robots.upsert row fun _ => true }
  return row

def recordOffline (robotId : RobotId) : ServiceM (Option RobotRow) := do
  match (← store).robots.find? robotId with
  | none => return none
  | some row =>
    let row := { row with online := false }
    setStore fun s => { s with robots := s.robots.replace row }
    return some row

end Robots
end Leitstand
