import Leitstand.RunStarts

namespace Leitstand

/-- The text of an error answer: one of the route's own, or the raised error's. -/
inductive ErrorDetail where
  | text (text : String)
  | str (exc : StartError)
  deriving DecidableEq

structure HTTPException where
  statusCode : Nat
  detail : ErrorDetail
  deriving DecidableEq

/-- What a route's `except` clauses make of an error; `none` is one that none of them catches. -/
abbrev ErrorHandler := ServiceError → Option HTTPException

namespace Routes

def missionNotFound : HTTPException := { statusCode := 404, detail := .text "mission not found" }

def runNotFound : HTTPException := { statusCode := 404, detail := .text "run not found" }

/-- Answered with the error's own text. -/
def answered (statusCode : Nat) (exc : ServiceError) : HTTPException :=
  { statusCode, detail := .str (.service exc) }

/-- `_ROBOT_FIT_ERRORS`; nothing raises the ninth of them, `UnknownSiteForRobot`. -/
def isRobotFitError : ServiceError → Bool
  | .stageNotHomogeneous _ _ | .unsupportedStageKind _ _ _ | .unsupportedWaypointFrame _ _ _
  | .incompatibleTurningRadius _ _ _ | .implementNarrowerThanRobot _ _ _
  | .robotPhysicalParametersMissing _ | .staleCoverageBoundary _ _ => true
  | _ => false

def deleteMission : ErrorHandler
  | .missionNotFound _ => some missionNotFound
  | .missionRunInProgress missionId active =>
    some (answered 409 (.missionRunInProgress missionId active))
  | _ => none

def restoreMission : ErrorHandler
  | .missionNotFound _ => some missionNotFound
  | .missionNotArchived missionId => some (answered 409 (.missionNotArchived missionId))
  | _ => none

def assignMission : ErrorHandler
  | .missionNotFound _ => some missionNotFound
  | exc@(.invalidMissionTransition _ _) | exc@(.robotBusy _ _) | exc@(.missionArchived _) =>
    some (answered 409 exc)
  | exc@(.robotFactsheetMissing _) => some (answered 422 exc)
  | exc => if isRobotFitError exc then some (answered 422 exc) else none

def unassignMission : ErrorHandler
  | .missionNotFound _ => some missionNotFound
  | exc@(.invalidMissionTransition _ _) | exc@(.missionArchived _) => some (answered 409 exc)
  | _ => none

def dispatchMission : StartError → Option HTTPException
  | .service (.missionNotFound _) => some missionNotFound
  | .service (exc@(.invalidMissionTransition _ _)) | .service (exc@(.robotBusy _ _))
  | .service (exc@(.robotOffline _)) | .service (exc@(.missionRunInProgress _ _))
  | .service (exc@(.missionArchived _)) => some (answered 409 exc)
  | .service (exc@(.noRobotAssigned _)) | .service (exc@(.robotFactsheetMissing _))
  | .service (exc@(.unknownSite _)) => some (answered 422 exc)
  | .service exc => if isRobotFitError exc then some (answered 422 exc) else none
  | exc@(.missionRejectedByRobot _ _ _) => some { statusCode := 422, detail := .str exc }
  | exc@(.missionDispatchTimeout _ _) => some { statusCode := 504, detail := .str exc }
  | exc@(.missionDispatchFailed _ _ _) => some { statusCode := 502, detail := .str exc }

/-- `_steer_errors`. -/
def steerErrors : ServiceError → HTTPException
  | .missionNotFound _ => missionNotFound
  | .runNotFound _ _ => runNotFound
  | exc@(.robotUnreachable _ _) => answered 504 exc
  | exc => answered 409 exc

/-- `_STEER_ERRORS`. -/
def isSteerError : ServiceError → Bool
  | .missionNotFound _ | .runNotFound _ _ | .robotOffline _ | .invalidMissionTransition _ _
  | .ambiguousRun _ _ | .robotUnreachable _ _ | .robotRefusedControl _ _ _ => true
  | _ => false

def isRobotOnline : ServiceError → Bool
  | .robotOnline _ => true
  | _ => false

def cancelMission : ErrorHandler := fun exc =>
  if isSteerError exc then some (steerErrors exc) else none

def closeMissionRun : ErrorHandler := fun exc =>
  if isSteerError exc || isRobotOnline exc then some (steerErrors exc) else none

def pauseMission : ErrorHandler := cancelMission

def resumeMission : ErrorHandler := cancelMission

def annotateRun : ErrorHandler
  | .runNotFound _ _ => some runNotFound
  | _ => none

def deleteRun : ErrorHandler
  | .runNotFound _ _ => some runNotFound
  | .invalidMissionTransition current trigger =>
    some (answered 409 (.invalidMissionTransition current trigger))
  | _ => none

end Routes

/-- A command of a client: a step of the backend, or a change of a mission's default robot. -/
inductive Request where
  | step (a : Action)
  | assign (missionId : UUID) (robotId : RobotId)
  | unassign (missionId : UUID)

/-- The error a service call ended in. -/
def raisedBy {β : Type} : Except ServiceError β → Option ServiceError
  | .error e => some e
  | .ok _ => none

namespace Request

/-- The route's answer to an error. A dispatch is prepared, inserted and settled under one route,
and a deletion's three steps are under one too; what no client asked for has no route. -/
def answer : Request → ErrorHandler
  | .step (.dispatch _) | .step (.insert _ _) | .step (.settle _) =>
    fun exc => Routes.dispatchMission (.service exc)
  | .step (.cancel _ _) => Routes.cancelMission
  | .step (.close _) => Routes.closeMissionRun
  | .step (.pause _ _) => Routes.pauseMission
  | .step (.resume _ _) => Routes.resumeMission
  | .step (.annotate _ _) => Routes.annotateRun
  | .step (.deleteRun _) => Routes.deleteRun
  | .step (.deleteMission _) | .step (.countRuns _) | .step (.finishDeletion _) =>
    Routes.deleteMission
  | .step (.restoreMission _) => Routes.restoreMission
  | .assign _ _ => Routes.assignMission
  | .unassign _ => Routes.unassignMission
  | .step _ => fun _ => none

end Request

namespace System

/-- The request can be taken up: the mission's lock is free where it needs it. -/
def accepts (s : System) : Request → Bool
  | .step a => (s.step a).isSome
  | .assign missionId _ | .unassign missionId => !s.locked missionId

/-- What the service behind a request raises as it is taken up. -/
def raises (s : System) : Request → Option ServiceError
  | .step (.dispatch command) =>
    raisedBy (s.outcome (RunService.prepareRead s.digests s.factsheets s.clock command))
  | .step (.insert i runId) => do
    let p ← s.dispatches[i]?
    raisedBy (s.outcome (RunService.prepareInsert s.digests runId p))
  | .step (.settle command) => raisedBy (s.outcome (RunService.settle s.clock command))
  | .step (.cancel command reply) => raisedBy (s.outcome (RunService.cancel s.clock command reply))
  | .step (.close command) => raisedBy (s.outcome (RunService.close s.clock command))
  | .step (.pause command reply) => raisedBy (s.outcome (RunService.pause s.clock command reply))
  | .step (.resume command reply) => raisedBy (s.outcome (RunService.resume s.clock command reply))
  | .step (.annotate runId notes) =>
    raisedBy (s.outcome (RunService.annotate s.clock runId notes))
  | .step (.deleteRun runId) => raisedBy (s.outcome (RunService.delete runId))
  | .step (.deleteMission missionId) =>
    raisedBy (s.outcome (MissionManagement.deleteRead missionId))
  | .step (.countRuns i) => do
    let d ← s.deletions[i]?
    raisedBy (s.outcome (MissionManagement.deleteCount d.1))
  | .step (.finishDeletion i) => do
    let d ← s.deletions[i]?
    let hasRuns ← d.2
    raisedBy (s.outcome (MissionManagement.deleteFinish s.clock d.1 hasRuns))
  | .step (.restoreMission missionId) =>
    raisedBy (s.outcome (MissionManagement.restore s.clock missionId))
  | .assign missionId robotId => raisedBy (s.outcome
      (MissionManagement.assign s.digests s.factsheets s.clock missionId robotId))
  | .unassign missionId =>
    raisedBy (s.outcome (MissionManagement.unassign s.clock missionId))
  | .step _ => none

end System
end Leitstand
