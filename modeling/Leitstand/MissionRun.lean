import Leitstand.StageStateRecord

namespace Leitstand

inductive OriginKind where
  | manual | agent
  deriving DecidableEq

structure RunOrigin where
  kind : OriginKind
  actor : String
  toolCallId : Option String := none
  deriving DecidableEq

/-- The most recent report the robot sent for a run, as the backend received it. -/
structure LastReport where
  receivedAt : Datetime
  headerId : Nat
  execStatus : MissionExecStatus
  robotTimestamp : Datetime
  deriving DecidableEq

structure RunSiteAnchor where
  name : String
  anchorLat : Rat
  anchorLon : Rat
  anchorHeadingDeg : Rat
  deriving DecidableEq

/-- A JSON object of texts and nulls. -/
abbrev Detail := List (String × Option String)

/-- `a || b` of two JSON objects: the right one's keys win. -/
def Detail.merge (a b : Detail) : Detail := (a.filter fun p => p.1 ∉ b.map (·.1)) ++ b

structure RunTransition where
  fromStatus : RunStatus
  toStatus : RunStatus
  trigger : RunTrigger
  at_ : Datetime
  actor : Actor
  reportHeaderId : Option Nat := none
  acknowledged : Option Bool := none
  detail : Option Detail := none
  deriving DecidableEq

structure MissionRunSummary where
  runId : UUID
  missionId : UUID
  robotId : RobotId
  status : RunStatus
  stagesDigest : String
  origin : RunOrigin
  notes : Option String := none
  createdAt : Datetime
  dispatchedAt : Option Datetime := none
  startedAt : Option Datetime := none
  endedAt : Option Datetime := none
  lastReport : Option LastReport := none
  updatedAt : Datetime
  deriving DecidableEq

/-- A run with the plan it was dispatched with, frozen as it stood. -/
structure MissionRun extends MissionRunSummary where
  stages : Plan
  siteAnchors : Option (List (String × RunSiteAnchor)) := none
  failureErrors : Option (List MissionError) := none
  transitions : List RunTransition := []

/-- The robot's report counter at the time of a request; later reports must exceed it. -/
def lastHeaderId (run : MissionRun) : Nat := run.lastReport.elim 0 (·.headerId)

end Leitstand
