import Mathlib.Data.List.Sort
import Leitstand.RobotFit
import Leitstand.Transaction

namespace Leitstand

/-- One stage's runtime state plus the errors attributed to it. -/
structure StageStateView where
  stageId : UUID
  stageIndex : Nat
  status : StageStatus
  progress : Rat
  startedAt : Option Datetime
  endedAt : Option Datetime
  result : Option (List (String × String))
  errors : List MissionError
  statusSource : StatusSource
  parentStageId : Option UUID
  deriving DecidableEq

/-- A run's per-stage state, the one read shape for REST and the live frame. -/
structure RunStateView where
  runId : UUID
  missionId : UUID
  stageStates : List StageStateView
  deriving DecidableEq

def stageStateView (errors : List MissionError) (record : StageStateRecord) : StageStateView :=
  { stageId := record.stageId, stageIndex := record.stageIndex, status := record.status,
    progress := record.progress, startedAt := record.startedAt, endedAt := record.endedAt,
    result := record.result, errors := errors, statusSource := record.statusSource,
    parentStageId := record.parentStageId }

def buildRunStateView (runId missionId : UUID) (stageStates : List StageStateRecord)
    (failureErrors : Option (List MissionError)) : RunStateView :=
  { runId, missionId,
    stageStates := stageStates.map fun record =>
      stageStateView (attributeErrors failureErrors stageStates record.stageId) record }

inductive Topic where
  | registry
  | missionState (missionId : UUID)
  | missionLifecycle (missionId : UUID)
  deriving DecidableEq

inductive Payload where
  | state (view : RunStateView)
  | lifecycle (missionId runId : UUID) (robotId : RobotId) (status : RunStatus)
      (trigger : RunTrigger) (reason : Option String)
  | robotOnline (robotId : RobotId)
  | robotOffline (robotId : RobotId)
  deriving DecidableEq

inductive Event where
  | publish (topic : Topic) (payload : Payload) (latch : Bool)
  | unlatch (topic : Topic)
  deriving DecidableEq

/-- A command handed to the robot; a rollback does not take it back. -/
inductive Command where
  | cancel (runId : UUID) (robotId : RobotId) (mode : CancelMode)
  | pause (runId : UUID) (robotId : RobotId)
  | resume (runId : UUID) (robotId : RobotId)
  deriving DecidableEq

inductive AuditEntry where
  | dispatch (missionId runId : UUID) (robotId : RobotId) (allowConcurrent : Bool)
  | dispatchUnconfirmed (missionId runId : UUID) (robotId : RobotId) (errorType reason : String)
  | dispatchFailed (missionId runId : UUID) (robotId : RobotId) (errorType reason : String)
      (status : RunStatus)
  | cancel (missionId runId : UUID) (mode : CancelMode)
  | close (missionId runId : UUID)
  | pause (missionId runId : UUID)
  | resume (missionId runId : UUID)
  | annotate (missionId runId : UUID)
  | deleteRun (missionId runId : UUID) (status : RunStatus) (robotId : RobotId)
  | assign (missionId : UUID) (robotId : RobotId)
  | unassign (missionId : UUID)
  | archiveMission (missionId : UUID)
  | deleteMission (missionId : UUID)
  | restoreMission (missionId : UUID)
  deriving DecidableEq

/-- Python's `xs or None`. -/
def orNone {β : Type} : Option (List β) → Option (List β)
  | some [] => none
  | xs => xs

/-- The rows of one run: its own, its transitions in id order and its stage rows. -/
structure StoredRun where
  run : MissionRun
  stageRuns : StageRuns := .empty

namespace StoredRun

def runId (r : StoredRun) : UUID := r.run.runId

def robotId (r : StoredRun) : RobotId := r.run.robotId

def missionId (r : StoredRun) : UUID := r.run.missionId

def status (r : StoredRun) : RunStatus := r.run.status

def plan (r : StoredRun) : List Stage := r.run.stages.stages

/-- The stored errors as they are read back. -/
def errors (r : StoredRun) : Option (List MissionError) := orNone r.run.failureErrors

def toRun (r : StoredRun) : MissionRun := { r.run with failureErrors := r.errors }

end StoredRun

structure Metadata where
  id : String
  deriving DecidableEq

structure RobotRow where
  id : RobotId
  metadata : Metadata
  firstSeenAt : Datetime
  lastSeenAt : Datetime
  online : Bool
  deriving DecidableEq

structure Store where
  missions : Table Mission.missionId
  runs : Table StoredRun.runId := .empty
  robots : Table RobotRow.id := .empty
  sites : Table Site.siteId := .empty
  fields : Table Field.id := .empty
  audit : List AuditEntry := []

abbrev ServiceM := TxM Store Event Command ServiceError

abbrev Backend := World Store Event Command

def audit (entry : AuditEntry) : ServiceM Unit :=
  TxM.setStore fun store => { store with audit := store.audit ++ [entry] }

def publish (topic : Topic) (payload : Payload) (latch : Bool) : ServiceM Unit :=
  TxM.enqueue (.publish topic payload latch)

def unlatch (topic : Topic) : ServiceM Unit := TxM.enqueue (.unlatch topic)

end Leitstand
