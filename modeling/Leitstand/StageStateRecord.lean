import Leitstand.Mission
import Leitstand.RunLifecycle

namespace Leitstand

/-- Who set a stage's status: the robot reported it, or the backend projected it. -/
inductive StatusSource where
  | robot | backend
  deriving DecidableEq

structure StageStateRecord where
  stageId : UUID
  headerId : Nat := 0
  stageIndex : Nat
  status : StageStatus
  progress : Rat := 0
  startedAt : Option Datetime := none
  endedAt : Option Datetime := none
  result : Option (List (String × String)) := none
  sourceTs : Datetime
  statusSource : StatusSource := .robot
  parentStageId : Option UUID := none
  deriving DecidableEq

/-- Stage rows of one run, keyed by the stage. -/
abbrev StageRuns := Table StageStateRecord.stageId

def projectStatus (status : StageStatus) (runStatus : RunStatus) : StageStatus :=
  -- The robot said so itself.
  if status = .cancelled ∨ status = .skipped then status
  else if runStatus = .succeeded then .finished
  else match status with
    | .finished => .finished
    | .failed => .failed
    | .waiting => .skipped
    -- A stage in flight inherits the run's reason.
    | _ => if runStatus = .cancelled then .cancelled else .failed

def waitingStageStatuses (stages : List Stage) (when_ : Datetime) : List StageStateRecord :=
  stages.mapIdx fun index stage =>
    { stageId := stage.stageId, stageIndex := index, status := .waiting, sourceTs := when_,
      statusSource := .backend }

/-- The final record of the stage at `index`, from its live record where the robot sent one. -/
def finalStageStatus (index : Nat) (stage : Stage) (live : Option StageStateRecord)
    (runStatus : RunStatus) (now : Datetime) : StageStateRecord :=
  let current := live.elim .waiting (·.status)
  let final := projectStatus current runStatus
  let startedAt := live.bind (·.startedAt)
  let endedAt := live.bind (·.endedAt)
  { stageId := stage.stageId
    headerId := live.elim 0 (·.headerId)
    stageIndex := index
    status := final
    progress := live.elim 0 (·.progress)
    startedAt := startedAt
    endedAt := if endedAt.isNone ∧ startedAt.isSome ∧ final ≠ .skipped then some now else endedAt
    result := live.bind (·.result)
    sourceTs := now
    statusSource :=
      live.elim .backend fun l => if final = l.status then l.statusSource else .backend }

/-- Every defined stage resolved, each followed by the cleanup stages the robot reported under it. -/
def finalStageStatuses (stages : List Stage) (liveById : StageRuns) (runStatus : RunStatus)
    (now : Datetime) : List StageStateRecord :=
  (stages.mapIdx fun index stage =>
    finalStageStatus index stage (liveById.find? stage.stageId) runStatus now ::
      liveById.rows.filter fun record => record.parentStageId = some stage.stageId).flatten

/-- The stage an error names by a `stage_id` reference; only the first such reference counts. -/
def referencedStageId (error : MissionError) (stageIds : List UUID) : Option UUID :=
  match error.references.find? fun ref => ref.key = "stage_id" with
  | none => none
  | some ref => (UUID.parse ref.value).filter fun stageId => stageId ∈ stageIds

def soleFailed (resolved : List StageStateRecord) : Option UUID :=
  match resolved.filter fun record => record.status = .failed with
  | [record] => some record.stageId
  | _ => none

/-- The errors attributed to one stage, in the list's order. -/
def attributeErrors (failureErrors : Option (List MissionError)) (resolved : List StageStateRecord)
    (stageId : UUID) : List MissionError :=
  (failureErrors.getD []).filter fun error =>
    (referencedStageId error (resolved.map (·.stageId))).or (soleFailed resolved) = some stageId

end Leitstand
