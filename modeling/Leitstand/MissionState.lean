import Leitstand.Uuid

namespace Leitstand

inductive StageStatus where
  | waiting | initializing | running | paused | finished | failed | cancelled | skipped
  deriving DecidableEq

inductive MissionExecStatus where
  | running | paused | succeeded | failed | cancelled
  deriving DecidableEq

inductive ErrorSeverity where
  | warning | fatal
  deriving DecidableEq

inductive ErrorOrigin where
  | robot | backend
  deriving DecidableEq

structure ErrorReference where
  key : String
  value : String
  deriving DecidableEq

structure MissionError where
  origin : ErrorOrigin
  severity : ErrorSeverity
  type : String
  references : List ErrorReference := []
  description : String
  deriving DecidableEq

structure StageState where
  stageId : UUID
  status : StageStatus
  startedAt : Option Datetime := none
  endedAt : Option Datetime := none
  progress : Rat := 0
  result : Option (List (String × String)) := none
  deriving DecidableEq

/-- A robot's snapshot of a run; `headerId` grows with every report the robot makes of it. -/
structure MissionStateMessage where
  runId : UUID
  headerId : Nat
  timestamp : Datetime
  execStatus : MissionExecStatus
  stageStates : List StageState := []
  errors : List MissionError := []
  deriving DecidableEq

inductive CancelMode where
  | graceful | immediate
  deriving DecidableEq

def CancelMode.value : CancelMode → String
  | .graceful => "graceful"
  | .immediate => "immediate"

inductive ControlRefusal where
  | notExecutingRun | other | unspecified
  deriving DecidableEq

/-- The robot's receipt for a command; `applied` is `none` when no reply arrived in time. -/
structure ControlReply where
  applied : Option Bool
  refusal : Option ControlRefusal := none
  reason : Option String := none
  deriving DecidableEq

end Leitstand
