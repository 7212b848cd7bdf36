import Leitstand.CoveragePlanning
import Leitstand.StageTree

namespace Leitstand

inductive InputDetail (ν : Type := Rat) where
  | navigation (waypoints : List (Waypoint ν))
  | coverage (fields : CoveragePlanningFields)

/-- A stage as a caller requests it. -/
inductive StageInput (ν : Type := Rat) where
  | mk (stageId : Option UUID) (onCancel : Option (List (StageInput ν))) (detail : InputDetail ν)

/-- The position of an input in its request. -/
abbrev InputPath := List Nat

section Walk
variable {ν : Type}

/-- Over a list of inputs: what holds of the cleanup inputs of the first and of the rest holds of the
whole. -/
@[elab_as_elim]
theorem inputsInduction {P : List (StageInput ν) → Prop} (nil : P [])
    (cons : ∀ i cs d rest, P (cs.getD []) → P rest → P (.mk i cs d :: rest))
    (inputs : List (StageInput ν)) : P inputs := by
  refine @StageInput.rec_2 ν (fun | .mk _ cs _ => P (cs.getD [])) (fun cs => P (cs.getD [])) P ?_ nil
    ?_ nil ?_ inputs
  · intro i cs d ih
    exact ih
  · intro cs ih
    exact ih
  · rintro ⟨i, cs, d⟩ rest ihs ih
    exact cons i cs d rest ihs ih

mutual
def StageInput.walk (here : InputPath) : StageInput ν → List (InputPath × StageInput ν)
  | .mk i cs d => (here, .mk i cs d) :: walkCleanup here cs

def walkCleanup (here : InputPath) : Option (List (StageInput ν)) → List (InputPath × StageInput ν)
  | none => []
  | some cs => walkFrom here 0 cs

def walkFrom (path : InputPath) : Nat → List (StageInput ν) → List (InputPath × StageInput ν)
  | _, [] => []
  | index, s :: rest => s.walk (path ++ [index]) ++ walkFrom path (index + 1) rest
end

/-- Every stage input with its position in the request, cleanup children included. -/
def walkInputs (inputs : List (StageInput ν)) : List (InputPath × StageInput ν) :=
  walkFrom [] 0 inputs

@[simp] theorem walkFrom_nil (path : InputPath) (index : Nat) :
    walkFrom path index ([] : List (StageInput ν)) = [] := rfl

@[simp] theorem walkFrom_cons (path : InputPath) (index : Nat) (i : Option UUID)
    (cs : Option (List (StageInput ν))) (d : InputDetail ν) (rest : List (StageInput ν)) :
    walkFrom path index (.mk i cs d :: rest) = (path ++ [index], .mk i cs d) ::
      (walkFrom (path ++ [index]) 0 (cs.getD []) ++ walkFrom path (index + 1) rest) := by
  cases cs <;> rfl

end Walk

/-- A coverage input that carries planning inputs, with its position in the request. -/
structure PlanItem where
  path : InputPath
  stageId : Option UUID
  fields : CoveragePlanningFields

def planItem? : InputPath × StageInput → Option PlanItem
  | (path, .mk stageId _ (.coverage fields)) =>
    if fields.carries then none else some { path, stageId, fields }
  | (_, .mk _ _ (.navigation _)) => none

def coverageInputsToPlan (inputs : List StageInput) : List PlanItem :=
  (walkInputs inputs).filterMap planItem?

/-- Every stage of a mission by id, cleanup stages included. -/
def byStageId (stages : List Stage) : Table Stage.stageId := .ofRows (allStages stages)

def storedCoverage (stored : Table Stage.stageId) (stageId : UUID) : Option CoverageStage :=
  (stored.find? stageId).bind Stage.coverage?

abbrev PlannedStages := List (InputPath × CoverageStage)

/-- One round of planning: what the planner answers at each position, when, and the ids that are
drawn there. -/
structure PlanningRound where
  data : PlanningData
  settings : PlannerSettings
  planner : InputPath → CoveragePlanner
  now : InputPath → Datetime
  fresh : InputPath → UUID

namespace PlanningRound

def keptUnchanged (round : PlanningRound) (item : PlanItem) (inputs : CoverageInputs)
    (stored : Table Stage.stageId) : Except ServiceError Bool :=
  match item.stageId.bind (storedCoverage stored) with
  | none => .ok false
  | some kept => unchanged round.data (round.fresh item.path) inputs kept

/-- Plan the input unless the stage it names would be reproduced as stored. -/
def planIfChanged (round : PlanningRound) (item : PlanItem) (stored : Table Stage.stageId) :
    Except ServiceError (Option CoverageStage) := do
  let inputs ← CoverageInputs.fromFields item.fields
  let same ← round.keptUnchanged item inputs stored
  if same then return none
  let stage ← planCoverageStage round.data round.settings (round.planner item.path)
    (round.fresh item.path) (round.now item.path) inputs item.stageId
  return some stage

def planStep (round : PlanningRound) (stored : Table Stage.stageId) (planned : PlannedStages)
    (item : PlanItem) : Except ServiceError PlannedStages := do
  match ← round.planIfChanged item stored with
  | none => return planned
  | some fresh => return planned ++ [(item.path, fresh)]

/-- Ids are checked before the first planner call. -/
def checkInputIds (stored : Table Stage.stageId) (missionId : Option UUID) :
    List UUID → List StageInput → Except ServiceError Unit
  | _, [] => .ok ()
  | seen, .mk none _ _ :: rest => checkInputIds stored missionId seen rest
  | seen, .mk (some stageId) _ d :: rest => do
    raiseIf (stageId ∈ seen) (.duplicateStageId stageId)
    match d with
    | .navigation _ => pure ()
    | .coverage _ =>
      raiseIf (storedCoverage stored stageId).isNone (.stageNotInMission missionId (some stageId))
    checkInputIds stored missionId (stageId :: seen) rest

/-- Plan every coverage input whose stored plan would not be reproduced; keyed by input path. -/
def planInputs (round : PlanningRound) (inputs : List StageInput) (stored : Table Stage.stageId)
    (missionId : Option UUID) : Except ServiceError PlannedStages := do
  checkInputIds stored missionId [] ((walkInputs inputs).map (·.2))
  (coverageInputsToPlan inputs).foldlM (round.planStep stored) []

def replanStep (round : PlanningRound) (stored : Table Stage.stageId) (missionId : UUID)
    (planned : PlannedStages) (item : PlanItem) : Except ServiceError PlannedStages :=
  if (planned.lookup item.path).isSome then .ok planned
  else do
    let _ ← orRaise (.stageNotInMission (some missionId) item.stageId)
      (item.stageId.bind (storedCoverage stored))
    round.planStep stored planned item

/-- Plan, under the lock, an input skipped as unchanged against a stage edited meanwhile. -/
def replanChangedMeanwhile (round : PlanningRound) (missionId : UUID) (inputs : List StageInput)
    (stored : Table Stage.stageId) (planned : PlannedStages) : Except ServiceError PlannedStages :=
  (coverageInputsToPlan inputs).foldlM (round.replanStep stored missionId) planned

end PlanningRound

/-- What the stages of a request get their identity and plans from. -/
structure IdContext where
  existing : List UUID
  missionId : Option UUID
  stored : Table Stage.stageId
  planned : PlannedStages
  fresh : InputPath → UUID

namespace IdContext

/-- A supplied id must be one of this mission's and appear once. -/
def name (ctx : IdContext) (seen : List UUID) : Option UUID → Except ServiceError (List UUID)
  | none => .ok seen
  | some stageId => do
    raiseIf (stageId ∈ seen) (.duplicateStageId stageId)
    raiseIf (stageId ∉ ctx.existing) (.stageNotInMission ctx.missionId (some stageId))
    pure (stageId :: seen)

def claimIds : List UUID → List UUID → Except ServiceError (List UUID)
  | seen, [] => .ok seen
  | seen, stageId :: rest => do
    raiseIf (stageId ∈ seen) (.duplicateStageId stageId)
    claimIds (stageId :: seen) rest

/-- A coverage stage comes from `planned` when its inputs were planned for this request, otherwise
from `stored` under its id. -/
def resolve (ctx : IdContext) (here : InputPath) (stageId : Option UUID) :
    Except ServiceError CoverageStage :=
  match ctx.planned.lookup here with
  | some resolved => .ok resolved
  | none => orRaise (.stageNotInMission ctx.missionId stageId)
      (stageId.bind (storedCoverage ctx.stored))

theorem resolve_eq_ok {ctx : IdContext} {here : InputPath} {stageId : Option UUID}
    {resolved : CoverageStage} : ctx.resolve here stageId = .ok resolved ↔
      ctx.planned.lookup here = some resolved ∨ ctx.planned.lookup here = none ∧
        ∃ j, stageId = some j ∧ storedCoverage ctx.stored j = some resolved := by
  unfold resolve
  cases hl : ctx.planned.lookup here with
  | some stage => simp
  | none => simp [Option.bind_eq_some_iff]

def staged (ctx : IdContext) (here : InputPath) (seen : List UUID) (stageId : Option UUID)
    (requested : Option (List StageInput)) (onCancel : Option (List Stage)) :
    InputDetail → Except ServiceError (Stage × List UUID)
  | .navigation waypoints =>
    .ok (.mk (stageId.getD (ctx.fresh here)) onCancel (.navigation waypoints), seen)
  | .coverage fields => do
    let resolved ← ctx.resolve here stageId
    let detail := StageDetail.coverage resolved.segments resolved.provenance
    -- A carried stage is carried whole unless the request names children, an empty list included.
    if fields.carries ∧ requested.isNone then do
      let seen ← claimIds seen (stageIds (resolved.onCancel.getD [])).eraseDups
      pure (.mk resolved.stageId resolved.onCancel detail, seen)
    else pure (.mk resolved.stageId onCancel detail, seen)

end IdContext

mutual
def StageInput.build (ctx : IdContext) (here : InputPath) (seen : List UUID) :
    StageInput → Except ServiceError (Stage × List UUID)
  | .mk stageId cs d => do
    let seen ← ctx.name seen stageId
    let (onCancel, seen) ← buildCleanup ctx here seen cs
    ctx.staged here seen stageId cs onCancel d

def buildCleanup (ctx : IdContext) (here : InputPath) (seen : List UUID) :
    Option (List StageInput) → Except ServiceError (Option (List Stage) × List UUID)
  | none => .ok (none, seen)
  | some cs => do
    let (stages, seen) ← buildFrom ctx here 0 seen cs
    pure (cleanupOf stages, seen)

def buildFrom (ctx : IdContext) (path : InputPath) (index : Nat) (seen : List UUID) :
    List StageInput → Except ServiceError (List Stage × List UUID)
  | [] => .ok ([], seen)
  | s :: rest => do
    let (stage, seen) ← s.build ctx (path ++ [index]) seen
    let (stages, seen) ← buildFrom ctx path (index + 1) seen rest
    pure (stage :: stages, seen)
end

/-- Give each requested stage its identity: kept when the caller names one, assigned otherwise. -/
def withIds (ctx : IdContext) (inputs : List StageInput) : Except ServiceError (List Stage) := do
  let (stages, _) ← buildFrom ctx [] 0 [] inputs
  pure stages

end Leitstand
