import Leitstand.StoredStages
import Leitstand.StepSystem

namespace Leitstand

def CoverageStage.toStage (stage : CoverageStage) : Stage :=
  .mk stage.stageId stage.onCancel (.coverage stage.segments stage.provenance)

/-- The stages that a planner produces from inputs that name none. -/
def generateStages (round : PlanningRound) : Nat → List CoverageInputs →
    Except ServiceError (List Stage)
  | _, [] => .ok []
  | k, inputs :: rest => do
    let stage ← planCoverageStage round.data round.settings (round.planner [k]) (round.fresh [k])
      (round.now [k]) inputs none
    let stages ← generateStages round (k + 1) rest
    pure (stage.toStage :: stages)

/-- An update planned ahead of its lock. -/
structure PlannedUpdate where
  command : UpdateMissionCommand
  round : PlanningRound
  planned : PlannedStages

/-- A mission about to be saved. One that was read for update has its row locked. -/
structure PendingSave where
  mission : MissionDefinition
  holdsLock : Bool
  drawn : List UUID := []

/-- The definitions and the operations on them that are under way, with the ids that have been drawn
for stages and for missions. -/
structure Editing where
  store : Definitions
  issued : List UUID := []
  missionIds : List UUID := []
  updates : List PlannedUpdate := []
  saves : List PendingSave := []
  siteDeletions : List UUID := []

inductive EditAction where
  | createSite (site : Site)
  | deleteSite (siteId : UUID)
  | finishSiteDeletion (i : Nat)
  | create (round : PlanningRound) (now : Datetime) (missionId : UUID)
      (command : CreateMissionCommand)
  | planUpdate (round : PlanningRound) (command : UpdateMissionCommand)
  | update (i : Nat) (round : PlanningRound) (now : Datetime)
  | createGenerated (round : PlanningRound) (now : Datetime) (missionId : UUID) (name : String)
      (description : Option String) (inputs : List CoverageInputs)
  | replaceGeneratedStage (round : PlanningRound) (now : Datetime) (missionId : UUID)
      (inputs : CoverageInputs) (stageId : Option UUID)
  | save (i : Nat)
  | abandonUpdate (i : Nat)
  | abandonSave (i : Nat)
  | abandonSiteDeletion (i : Nat)
  | delete (now : Datetime) (missionId : UUID)
  | restore (now : Datetime) (missionId : UUID)
  | runsChange (runs : Table StoredRun.runId)

def UpdateMissionCommand.inputs {ν : Type} (command : UpdateMissionCommand ν) :
    List (StageInput ν) := command.stages.getD []

/-- The ids drawn for a request, one for each position. -/
def drawsFor {ν : Type} (round : PlanningRound) (inputs : List (StageInput ν)) : List UUID :=
  (walkInputs inputs).map fun x => round.fresh x.1

def PlannedUpdate.drawn (u : PlannedUpdate) : List UUID := drawsFor u.round u.command.inputs

namespace Editing

def locked (s : Editing) (missionId : UUID) : Bool :=
  s.saves.any fun p => p.holdsLock && p.mission.missionId = missionId

/-- Ids drawn now have never been drawn before. -/
def draws (s : Editing) (drawn : List UUID) : Option Editing :=
  if drawn.Nodup ∧ drawn.all (· ∉ s.issued) then some { s with issued := drawn ++ s.issued }
  else none

def namesMission (s : Editing) (missionId : UUID) : Option Editing :=
  if missionId ∈ s.missionIds then none
  else some { s with missionIds := missionId :: s.missionIds }

/-- A refused operation leaves nothing behind. -/
def queueSave (s : Editing) (holdsLock : Bool) (drawn : List UUID) :
    Except ServiceError MissionDefinition → Editing
  | .error _ => s
  | .ok mission => { s with saves := s.saves ++ [{ mission, holdsLock, drawn }] }

def commit (s : Editing) : Except ServiceError Definitions → Editing
  | .error _ => s
  | .ok store => { s with store }

def create (s : Editing) (round : PlanningRound) (now : Datetime) (missionId : UUID)
    (command : CreateMissionCommand) : Option Editing := do
  let drawn := drawsFor round command.stages
  let s ← s.draws drawn
  let s ← s.namesMission missionId
  return s.queueSave false drawn (MissionEditing.create s.store round now missionId command)

def planUpdate (s : Editing) (round : PlanningRound) (command : UpdateMissionCommand) :
    Option Editing := do
  let s ← s.draws (drawsFor round command.inputs)
  match MissionEditing.updatePlan s.store round command with
  | .error _ => return s
  | .ok planned => return { s with updates := s.updates ++ [{ command, round, planned }] }

def update (s : Editing) (i : Nat) (round : PlanningRound) (now : Datetime) : Option Editing := do
  let u ← s.updates[i]?
  if s.locked u.command.missionId then none
  else
    let rest := { s with updates := s.updates.eraseIdx i }
    return rest.queueSave true u.drawn (MissionEditing.update s.store
      { round with fresh := u.round.fresh } now u.command u.planned)

def createGenerated (s : Editing) (round : PlanningRound) (now : Datetime) (missionId : UUID)
    (name : String) (description : Option String) (inputs : List CoverageInputs) :
    Option Editing := do
  let drawn := (List.range' 0 inputs.length).map fun k => round.fresh [k]
  let s ← s.draws drawn
  let s ← s.namesMission missionId
  return s.queueSave false drawn (do
    let stages ← generateStages round 0 inputs
    MissionEditing.createGenerated s.store now missionId name description stages)

def replaceGeneratedStage (s : Editing) (round : PlanningRound) (now : Datetime) (missionId : UUID)
    (inputs : CoverageInputs) (stageId : Option UUID) : Option Editing :=
  if s.locked missionId then none
  else some (s.queueSave true [] (do
    let stage ← planCoverageStage round.data round.settings (round.planner []) (round.fresh [])
      (round.now []) inputs stageId
    MissionEditing.replaceGeneratedStage s.store now missionId stage.toStage))

def save (s : Editing) (i : Nat) : Option Editing := do
  let p ← s.saves[i]?
  let rest := { s with saves := s.saves.eraseIdx i }
  return rest.commit ((s.store.save p.mission).map (·.2))

def startSiteDeletion (s : Editing) (siteId : UUID) : Editing :=
  match SiteManagement.deleteRead s.store siteId with
  | .error _ => s
  | .ok _ => { s with siteDeletions := s.siteDeletions ++ [siteId] }

def finishSiteDeletion (s : Editing) (i : Nat) : Option Editing := do
  let siteId ← s.siteDeletions[i]?
  let rest := { s with siteDeletions := s.siteDeletions.eraseIdx i }
  return rest.commit (SiteManagement.deleteFinish s.store siteId)

def createSite (s : Editing) (site : Site) : Option Editing :=
  match h : s.store.sites.find? site.siteId with
  | some _ => none
  | none => some { s with store := { s.store with sites := s.store.sites.insert site h } }

/-- A command on a mission that reads it for update waits for its lock. -/
def command (s : Editing) (missionId : UUID) (result : Except ServiceError Definitions) :
    Option Editing :=
  if s.locked missionId then none else some (s.commit result)

def step (s : Editing) : EditAction → Option Editing
  | .createSite site => s.createSite site
  | .deleteSite siteId => some (s.startSiteDeletion siteId)
  | .finishSiteDeletion i => s.finishSiteDeletion i
  | .create round now missionId command => s.create round now missionId command
  | .planUpdate round command => s.planUpdate round command
  | .update i round now => s.update i round now
  | .createGenerated round now missionId name description inputs =>
    s.createGenerated round now missionId name description inputs
  | .replaceGeneratedStage round now missionId inputs stageId =>
    s.replaceGeneratedStage round now missionId inputs stageId
  | .save i => s.save i
  | .abandonUpdate i => some { s with updates := s.updates.eraseIdx i }
  | .abandonSave i => some { s with saves := s.saves.eraseIdx i }
  | .abandonSiteDeletion i => some { s with siteDeletions := s.siteDeletions.eraseIdx i }
  | .delete now missionId => s.command missionId (MissionEditing.delete s.store now missionId)
  | .restore now missionId => s.command missionId (MissionEditing.restore s.store now missionId)
  | .runsChange runs => some { s with store := { s.store with runs } }

/-- No mission yet, and nothing under way. -/
structure Initial (s : Editing) : Prop where
  missions : s.store.missions = .empty
  stages : s.store.stages = .empty
  issued : s.issued = []
  missionIds : s.missionIds = []
  updates : s.updates = []
  saves : s.saves = []
  siteDeletions : s.siteDeletions = []

def Reachable (s : Editing) : Prop := ∃ s₀ acts, Initial s₀ ∧ StepSystem.exec step s₀ acts = some s

theorem Reachable.invariant {I : Editing → Prop} (h₀ : ∀ s, Initial s → I s)
    (hstep : ∀ s a s', I s → s.step a = some s' → I s') {s : Editing} (h : Reachable s) : I s := by
  obtain ⟨s₀, acts, hi, hx⟩ := h
  exact StepSystem.exec_invariant hstep (h₀ s₀ hi) hx

end Editing

end Leitstand
