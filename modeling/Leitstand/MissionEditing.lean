import Leitstand.PlanningRounds
import Leitstand.StagePersistence

namespace Leitstand

/-- A mission definition with its ordered stages, as it is read and as it is to be saved. -/
structure MissionDefinition extends MissionRow where
  stages : List Stage

structure CreateMissionCommand where
  name : String
  description : Option String
  stages : List StageInput

structure UpdateMissionCommand (ν : Type := Rat) where
  missionId : UUID
  name : Option String
  description : Option String
  stages : Option (List (StageInput ν))

mutual
def Stage.swapped (replacement : Stage) : Stage → Stage × Bool
  | .mk i cs d =>
    if i = replacement.stageId then (replacement, true)
    else
      let nested := swappedCleanup replacement cs
      if nested.2 then (.mk i nested.1 d, true) else (.mk i cs d, false)

def swappedCleanup (replacement : Stage) : Option (List Stage) → Option (List Stage) × Bool
  | none => (none, false)
  | some cs =>
    let nested := replaceStage replacement cs
    (some nested.1, nested.2)

/-- The stages with the one carrying `replacement`'s id swapped for it, and whether there was one.
Cleanup stages are searched too. -/
def replaceStage (replacement : Stage) : List Stage → List Stage × Bool
  | [] => ([], false)
  | s :: rest =>
    let first := Stage.swapped replacement s
    let others := replaceStage replacement rest
    (first.1 :: others.1, first.2 || others.2)
end

namespace Definitions

/-- A mission has a name of at most 255 characters and at least one stage. -/
def toDomain (row : MissionRow) (stages : List Stage) : Except ServiceError MissionDefinition := do
  raiseIf (row.name.length < 1 ∨ 255 < row.name.length) (.validationError "name")
  raiseIf (stages.length < 1) (.validationError "stages")
  pure { toMissionRow := row, stages }

def get (d : Definitions) (missionId : UUID) : Except ServiceError (Option MissionDefinition) :=
  match d.missions.find? missionId with
  | none => .ok none
  | some row => do
    let stages ← orRaise (.valueError "stages") (d.getStages missionId)
    let mission ← toDomain row stages
    pure (some mission)

/-- The mission row after the upsert; a conflict updates these columns only. -/
def savedRow (d : Definitions) (mission : MissionDefinition) : MissionRow :=
  match d.missions.find? mission.missionId with
  | none => mission.toMissionRow
  | some row => { row with
      name := mission.name, description := mission.description, updatedAt := mission.updatedAt }

def withMission (d : Definitions) (row : MissionRow) : Definitions :=
  { d with missions := d.missions.upsert row fun _ => true }

def save (d : Definitions) (mission : MissionDefinition) :
    Except ServiceError (MissionDefinition × Definitions) := do
  let row := d.savedRow mission
  let after ← (d.withMission row).replaceStages mission.missionId mission.stages
  let saved ← toDomain row mission.stages
  -- The deferred constraint is checked at the commit.
  raiseIf (¬ after.StageOrder) (.uniqueViolation "uq_stage_order")
  pure (saved, after)

def setArchived (d : Definitions) (now : Datetime) (missionId : UUID) (when_ : Option Datetime) :
    Definitions :=
  match d.missions.find? missionId with
  | none => d
  | some row => d.withMission { row with archivedAt := when_, updatedAt := now }

/-- The stages cascade from the definition; the runs of a mission keep it. -/
def deleteMission (d : Definitions) (missionId : UUID) : Except ServiceError Definitions := do
  raiseIf (d.runs.rows.any fun r => r.missionId = missionId)
    (.foreignKeyViolation "mission_runs_mission_id_fkey")
  let after := d.deleteStages (d.dropped missionId [])
  pure { after with missions := after.missions.erase missionId }

def deleteSite (d : Definitions) (siteId : UUID) : Except ServiceError Definitions := do
  raiseIf (d.stages.rows.any fun row => row.siteId = some siteId)
    (.foreignKeyViolation "mission_stages_site_id_fkey")
  pure { d with sites := d.sites.erase siteId }

theorem toDomain_eq_ok {row : MissionRow} {stages : List Stage} {mission : MissionDefinition} :
    toDomain row stages = .ok mission ↔ mission = { toMissionRow := row, stages } ∧
      (1 ≤ row.name.length ∧ row.name.length ≤ 255) ∧ stages ≠ [] := by
  have hname : ¬ (row.name.length < 1 ∨ 255 < row.name.length) ↔
      1 ≤ row.name.length ∧ row.name.length ≤ 255 := by omega
  have hne : ¬ stages.length < 1 ↔ stages ≠ [] := by
    rw [Nat.lt_one_iff, List.length_eq_zero_iff]
  constructor
  · intro h
    obtain ⟨u, hfits, h⟩ := bind_eq_ok.mp h
    obtain ⟨u', hsome, h⟩ := bind_eq_ok.mp h
    obtain rfl := Except.ok.inj h
    exact ⟨rfl, hname.mp (raiseIf_eq_ok.mp hfits), hne.mp (raiseIf_eq_ok.mp hsome)⟩
  · rintro ⟨rfl, hfits, hsome⟩
    refine bind_eq_ok.mpr ⟨(), raiseIf_eq_ok.mpr (hname.mpr hfits), ?_⟩
    exact bind_eq_ok.mpr ⟨(), raiseIf_eq_ok.mpr (hne.mpr hsome), rfl⟩

theorem get_eq_some {d : Definitions} {missionId : UUID} {mission : MissionDefinition} :
    d.get missionId = .ok (some mission) ↔
      d.missions.find? missionId = some mission.toMissionRow ∧
      d.getStages missionId = some mission.stages ∧
      (1 ≤ mission.name.length ∧ mission.name.length ≤ 255) ∧ mission.stages ≠ [] := by
  unfold get
  cases hrow : d.missions.find? missionId with
  | none => simp
  | some row =>
    constructor
    · intro h
      obtain ⟨stages, hread, h⟩ := bind_eq_ok.mp h
      obtain ⟨mission', hdomain, h⟩ := bind_eq_ok.mp h
      obtain rfl := Option.some.inj (Except.ok.inj h)
      obtain ⟨rfl, hbounds⟩ := toDomain_eq_ok.mp hdomain
      exact ⟨rfl, orRaise_eq_ok.mp hread, hbounds⟩
    · rintro ⟨hsame, hread, hbounds⟩
      obtain rfl := Option.some.inj hsame
      refine bind_eq_ok.mpr ⟨mission.stages, orRaise_eq_ok.mpr hread, ?_⟩
      exact bind_eq_ok.mpr ⟨mission, toDomain_eq_ok.mpr ⟨rfl, hbounds⟩, rfl⟩

/-- A save writes the stages under the upserted row and reads the mission from both. -/
theorem save_steps {d after : Definitions} {mission saved : MissionDefinition} :
    d.save mission = .ok (saved, after) ↔
      (d.withMission (d.savedRow mission)).replaceStages mission.missionId mission.stages =
        .ok after ∧
      toDomain (d.savedRow mission) mission.stages = .ok saved ∧ after.StageOrder := by
  constructor
  · intro h
    obtain ⟨after', hreplace, h⟩ := bind_eq_ok.mp h
    obtain ⟨saved', hdomain, h⟩ := bind_eq_ok.mp h
    obtain ⟨u, horder, h⟩ := bind_eq_ok.mp h
    obtain ⟨rfl, rfl⟩ := Prod.mk.inj (Except.ok.inj h)
    exact ⟨hreplace, hdomain, not_not.mp (raiseIf_eq_ok.mp horder)⟩
  · rintro ⟨hreplace, hdomain, horder⟩
    refine bind_eq_ok.mpr ⟨after, hreplace, bind_eq_ok.mpr ⟨saved, hdomain, ?_⟩⟩
    exact bind_eq_ok.mpr ⟨(), raiseIf_eq_ok.mpr (not_not.mpr horder), rfl⟩

theorem stages_of_save {d after : Definitions} {mission saved : MissionDefinition}
    (h : d.save mission = .ok (saved, after)) : saved.stages = mission.stages := by
  obtain ⟨-, hdomain, -⟩ := save_steps.mp h
  rw [(toDomain_eq_ok.mp hdomain).1]

end Definitions

namespace MissionEditing

/-- Reject stages referencing a site absent from the catalog. -/
def validateSitesExist (sites : Table Site.siteId) (stages : List Stage) :
    Except ServiceError Unit :=
  (referencedSiteIds stages).forM fun siteId =>
    raiseIf (sites.find? siteId).isNone (.unknownSite siteId)

/-- Every stage is driven in one frame, at sites that exist, and at one site at most. -/
def validateShape (sites : Table Site.siteId) (stages : List Stage) : Except ServiceError Unit := do
  validateHomogeneousFrames stages
  validateSitesExist sites stages
  validateSingleSite stages

/-- The mission under the lock, unless it is gone or archived. -/
def requireOpen (d : Definitions) (missionId : UUID) : Except ServiceError MissionDefinition := do
  let mission ← orRaise (.missionNotFound missionId) (← d.get missionId)
  raiseIf (mission.archivedAt ≠ none) (.missionArchived missionId)
  pure mission

def newMission (now : Datetime) (missionId : UUID) (name : String) (description : Option String)
    (stages : List Stage) : Except ServiceError MissionDefinition :=
  Definitions.toDomain
    { missionId, name, description, assignedRobotId := none, archivedAt := none, createdAt := now
      updatedAt := now } stages

/-- The mission that a command asks for, ready to be saved. -/
def create (d : Definitions) (round : PlanningRound) (now : Datetime) (missionId : UUID)
    (command : CreateMissionCommand) : Except ServiceError MissionDefinition := do
  let planned ← round.planInputs command.stages .empty none
  let ctx : IdContext :=
    { existing := [], missionId := none, stored := .empty, planned, fresh := round.fresh }
  let stages ← withIds ctx command.stages
  validateShape d.sites stages
  newMission now missionId command.name command.description stages

/-- The planning ahead of the lock, against the mission as it was then. -/
def updatePlan (d : Definitions) (round : PlanningRound) (command : UpdateMissionCommand) :
    Except ServiceError PlannedStages :=
  match command.stages with
  | none => .ok []
  | some inputs => do
    let unlocked ← requireOpen d command.missionId
    round.planInputs inputs (byStageId unlocked.stages) (some command.missionId)

/-- The stages as the request leaves those that the mission has under the lock. -/
def updatedStages (d : Definitions) (round : PlanningRound) (before : MissionDefinition)
    (planned : PlannedStages) : Option (List StageInput) → Except ServiceError (List Stage)
  | none => .ok before.stages
  | some inputs => do
    let stored := byStageId before.stages
    let planned ← round.replanChangedMeanwhile before.missionId inputs stored planned
    let ctx : IdContext :=
      { existing := stored.rows.map Stage.stageId, missionId := some before.missionId, stored
        planned, fresh := round.fresh }
    let stages ← withIds ctx inputs
    validateShape d.sites stages
    pure stages

/-- The mission as the command leaves it, ready to be saved. -/
def update (d : Definitions) (round : PlanningRound) (now : Datetime)
    (command : UpdateMissionCommand) (planned : PlannedStages) :
    Except ServiceError MissionDefinition := do
  let before ← requireOpen d command.missionId
  let stages ← updatedStages d round before planned command.stages
  pure { before with
    name := command.name.getD before.name
    description := command.description.or before.description
    stages, updatedAt := now }

/-- A mission from stages a planner produced. -/
def createGenerated (d : Definitions) (now : Datetime) (missionId : UUID) (name : String)
    (description : Option String) (stages : List Stage) : Except ServiceError MissionDefinition := do
  validateShape d.sites stages
  newMission now missionId name description stages

/-- Overwrite one generated stage in place, leaving the mission's other stages alone. -/
def replaceGeneratedStage (d : Definitions) (now : Datetime) (missionId : UUID) (stage : Stage) :
    Except ServiceError MissionDefinition := do
  let before ← requireOpen d missionId
  let (replaced, found) := replaceStage stage before.stages
  raiseIf (¬ found) (.stageNotInMission (some missionId) (some stage.stageId))
  validateShape d.sites replaced
  pure { before with stages := replaced, updatedAt := now }

/-- Delete a mission that never ran, archive one that did, refuse one with an active run. -/
def delete (d : Definitions) (now : Datetime) (missionId : UUID) :
    Except ServiceError Definitions := do
  let _ ← orRaise (.missionNotFound missionId) (← d.get missionId)
  let runs := d.runs.rows.filter fun r => r.missionId = missionId
  let active := runs.filter fun r => isActive r.status
  raiseIf (active ≠ []) (.missionRunInProgress missionId (active.map (·.runId)))
  if runs ≠ [] then pure (d.setArchived now missionId (some now))
  else d.deleteMission missionId

def restore (d : Definitions) (now : Datetime) (missionId : UUID) :
    Except ServiceError Definitions := do
  let mission ← orRaise (.missionNotFound missionId) (← d.get missionId)
  raiseIf (mission.archivedAt = none) (.missionNotArchived missionId)
  pure (d.setArchived now missionId none)

end MissionEditing

namespace SiteManagement

/-- The checks ahead of a site's deletion. -/
def deleteRead (d : Definitions) (siteId : UUID) : Except ServiceError Unit := do
  let _ ← orRaise (.siteNotFound siteId) (d.sites.find? siteId)
  let blocking := d.missionsReferencingSite siteId
  raiseIf (blocking ≠ []) (.siteInUse siteId blocking)

def deleteFinish (d : Definitions) (siteId : UUID) : Except ServiceError Definitions := do
  let after ← d.deleteSite siteId
  raiseIf (d.sites.find? siteId).isNone (.siteNotFound siteId)
  pure after

end SiteManagement

end Leitstand
