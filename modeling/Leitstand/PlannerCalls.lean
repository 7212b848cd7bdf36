import Leitstand.PlannerQuestion
import Leitstand.StageIdentity

namespace Leitstand
open TxM

/-- A computation that may put questions to the planner, which it then has the answers to. -/
abbrev Asking (β : Type) := TxM Unit Empty PlannerQuestion ServiceError β

def Asking.asked {β : Type} (m : Asking β) : List PlannerQuestion := (m.exec { store := () }).2.sent

namespace PlannerCalls

section Requests
variable (round round' : PlanningRound)

def planCoverageStage (path : InputPath) (inputs : CoverageInputs) (stageId : Option UUID) :
    Asking CoverageStage := do
  let question ← check (plannerQuestion round.data round.settings (round.fresh path) inputs)
  send question
  let plan ← check (round.planner path question.boundary question.params)
  check (Leitstand.planCoverageStage round.data round.settings (fun _ _ => .ok plan)
    (round.fresh path) (round.now path) inputs stageId)

def planIfChanged (item : PlanItem) (stored : Table Stage.stageId) :
    Asking (Option CoverageStage) := do
  let inputs ← check (CoverageInputs.fromFields item.fields)
  let same ← check (round.keptUnchanged item inputs stored)
  if same then return none
  let stage ← planCoverageStage round item.path inputs item.stageId
  return some stage

def planStep (stored : Table Stage.stageId) (planned : PlannedStages) (item : PlanItem) :
    Asking PlannedStages := do
  match ← planIfChanged round item stored with
  | none => return planned
  | some fresh => return planned ++ [(item.path, fresh)]

def planInputs (inputs : List StageInput) (stored : Table Stage.stageId) (missionId : Option UUID) :
    Asking PlannedStages := do
  check (PlanningRound.checkInputIds stored missionId [] ((walkInputs inputs).map (·.2)))
  (coverageInputsToPlan inputs).foldlM (planStep round stored) []

def replanStep (stored : Table Stage.stageId) (missionId : UUID) (planned : PlannedStages)
    (item : PlanItem) : Asking PlannedStages :=
  if (planned.lookup item.path).isSome then pure planned
  else do
    let _ ← check (orRaise (.stageNotInMission (some missionId) item.stageId)
      (item.stageId.bind (storedCoverage stored)))
    planStep round stored planned item

def replanChangedMeanwhile (missionId : UUID) (inputs : List StageInput)
    (stored : Table Stage.stageId) (planned : PlannedStages) : Asking PlannedStages :=
  (coverageInputsToPlan inputs).foldlM (replanStep round stored missionId) planned

def create (d : Definitions) (now : Datetime) (missionId : UUID) (command : CreateMissionCommand) :
    Asking MissionDefinition := do
  let planned ← planInputs round command.stages .empty none
  let ctx : IdContext :=
    { existing := [], missionId := none, stored := .empty, planned, fresh := round.fresh }
  let stages ← check (withIds ctx command.stages)
  check (MissionEditing.validateShape d.sites stages)
  check (MissionEditing.newMission now missionId command.name command.description stages)

def updatePlan (d : Definitions) (command : UpdateMissionCommand) : Asking PlannedStages :=
  match command.stages with
  | none => pure []
  | some inputs => do
    let unlocked ← check (MissionEditing.requireOpen d command.missionId)
    planInputs round inputs (byStageId unlocked.stages) (some command.missionId)

def updatedStages (d : Definitions) (before : MissionDefinition) (planned : PlannedStages) :
    Option (List StageInput) → Asking (List Stage)
  | none => pure before.stages
  | some inputs => do
    let stored := byStageId before.stages
    let planned ← replanChangedMeanwhile round before.missionId inputs stored planned
    let ctx : IdContext :=
      { existing := stored.rows.map Stage.stageId, missionId := some before.missionId, stored
        planned, fresh := round.fresh }
    let stages ← check (withIds ctx inputs)
    check (MissionEditing.validateShape d.sites stages)
    pure stages

def update (d : Definitions) (now : Datetime) (command : UpdateMissionCommand)
    (planned : PlannedStages) : Asking MissionDefinition := do
  let before ← check (MissionEditing.requireOpen d command.missionId)
  let stages ← updatedStages round d before planned command.stages
  pure { before with
    name := command.name.getD before.name
    description := command.description.or before.description
    stages, updatedAt := now }

/-- Planned on the mission as it is at first, then carried out on what it is under the lock. -/
def updateRequest (first locked : Definitions) (now : Datetime) (command : UpdateMissionCommand) :
    Asking MissionDefinition :=
  updatePlan round first command >>= update round' locked now command

end Requests

section Erasure
variable {round round' : PlanningRound}

theorem planCoverageStage_gives (path : InputPath) (inputs : CoverageInputs)
    (stageId : Option UUID) : Gives (planCoverageStage round path inputs stageId)
      (Leitstand.planCoverageStage round.data round.settings (round.planner path) (round.fresh path)
        (round.now path) inputs stageId) := by
  rw [planCoverageStage_eq]
  refine .bind (.check _) fun question _ => ?_
  have hask : Gives (send question : Asking Unit) (.ok ()) := ⟨_, .send question⟩
  exact hask.bind (y := fun _ => round.planner path question.boundary question.params >>= _)
    fun _ _ => .bind (.check _) fun plan _ => .check _

theorem planIfChanged_gives (item : PlanItem) (stored : Table Stage.stageId) :
    Gives (planIfChanged round item stored) (round.planIfChanged item stored) := by
  refine .bind (.check _) fun inputs _ => .bind (.check _) fun same _ => ?_
  cases same with
  | true => exact .check (.ok none)
  | false => exact .bind (planCoverageStage_gives _ _ _) fun stage _ => .check (.ok (some stage))

theorem planStep_gives (stored : Table Stage.stageId) (planned : PlannedStages) (item : PlanItem) :
    Gives (planStep round stored planned item) (round.planStep stored planned item) := by
  refine .bind (planIfChanged_gives item stored) fun result _ => ?_
  cases result with
  | none => exact .check (.ok planned)
  | some fresh => exact .check (.ok _)

theorem planInputs_gives (inputs : List StageInput) (stored : Table Stage.stageId)
    (missionId : Option UUID) :
    Gives (planInputs round inputs stored missionId) (round.planInputs inputs stored missionId) :=
  .bind (.check _) fun _ _ => .foldlM (planStep_gives stored) _ _

theorem replanStep_gives (stored : Table Stage.stageId) (missionId : UUID) (planned : PlannedStages)
    (item : PlanItem) : Gives (replanStep round stored missionId planned item)
      (round.replanStep stored missionId planned item) := by
  unfold replanStep PlanningRound.replanStep
  split_ifs
  · exact .check (.ok planned)
  · exact .bind (.check _) fun _ _ => planStep_gives stored planned item

theorem create_gives (d : Definitions) (now : Datetime) (missionId : UUID)
    (command : CreateMissionCommand) : Gives (create round d now missionId command)
      (MissionEditing.create d round now missionId command) := by
  refine .bind (planInputs_gives _ _ _) fun planned _ => ?_
  exact .bind (.check _) fun stages _ => .bind (.check _) fun _ _ => .check _

theorem updatePlan_gives (d : Definitions) (command : UpdateMissionCommand) :
    Gives (updatePlan round d command) (MissionEditing.updatePlan d round command) := by
  unfold updatePlan MissionEditing.updatePlan
  cases command.stages with
  | none => exact .check (.ok [])
  | some inputs => exact .bind (.check _) fun unlocked _ => planInputs_gives _ _ _

theorem updatedStages_gives (d : Definitions) (before : MissionDefinition) (planned : PlannedStages)
    (inputs : Option (List StageInput)) : Gives (updatedStages round d before planned inputs)
      (MissionEditing.updatedStages d round before planned inputs) := by
  cases inputs with
  | none => exact .check (.ok before.stages)
  | some inputs =>
    refine .bind (.foldlM (replanStep_gives _ _) _ _) fun planned' _ => ?_
    exact .bind (.check _) fun stages _ => .bind (.check _) fun _ _ => .check (.ok stages)

theorem update_gives (d : Definitions) (now : Datetime) (command : UpdateMissionCommand)
    (planned : PlannedStages) : Gives (update round d now command planned)
      (MissionEditing.update d round now command planned) := by
  refine .bind (.check _) fun before _ => ?_
  exact .bind (updatedStages_gives _ _ _ _) fun stages _ => .check (.ok _)

/-- The questions apart, a request is the one that is made of what the planner answers. -/
theorem updateRequest_gives (first locked : Definitions) (now : Datetime)
    (command : UpdateMissionCommand) : Gives (updateRequest round round' first locked now command)
      (MissionEditing.updatePlan first round command >>=
        MissionEditing.update locked round' now command) :=
  .bind (updatePlan_gives first command) fun planned _ => update_gives locked now command planned

end Erasure

end PlannerCalls

end Leitstand
