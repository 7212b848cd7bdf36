import Leitstand.EditRuns
import Leitstand.Snapshots

namespace Leitstand

/-- A site's new values; what is left out stays. -/
structure UpdateSiteCommand where
  siteId : UUID
  name : Option String := none
  anchorLat : Option Rat := none
  anchorLon : Option Rat := none
  anchorHeadingDeg : Option Rat := none

def MissionRow.withPlan (row : MissionRow) (plan : Plan) : Mission :=
  { missionId := row.missionId, name := row.name, description := row.description, stages := plan
    assignedRobotId := row.assignedRobotId, archivedAt := row.archivedAt, createdAt := row.createdAt
    updatedAt := row.updatedAt }

namespace Definitions

/-- The mission of a row whose stages can be read. -/
def toMission (d : Definitions) (row : MissionRow) : Option Mission := do
  let stages ← d.getStages row.missionId
  if h : stages ≠ [] ∧ (stageIds stages).Nodup then some (row.withPlan ⟨stages, h.1, h.2⟩) else none

theorem missionId_toMission {d : Definitions} {row : MissionRow} {mission : Mission}
    (h : d.toMission row = some mission) : mission.missionId = row.missionId := by
  obtain ⟨stages, -, h⟩ := Option.bind_eq_some_iff.mp h
  split_ifs at h
  obtain rfl := Option.some.inj h
  rfl

theorem toMission_of_getStages {d : Definitions} {row : MissionRow} {stages : List Stage}
    (h : d.getStages row.missionId = some stages) (hne : stages ≠ [])
    (hnodup : (stageIds stages).Nodup) :
    d.toMission row = some (row.withPlan ⟨stages, hne, hnodup⟩) := by
  unfold toMission
  rw [h]
  exact dif_pos ⟨hne, hnodup⟩

theorem nodup_filterMap_toMission (d : Definitions) (rows : List MissionRow)
    (h : (rows.map (·.missionId)).Nodup) :
    ((rows.filterMap d.toMission).map (·.missionId)).Nodup := by
  refine h.sublist ?_
  induction rows with
  | nil => exact List.Sublist.slnil
  | cons row rows ih =>
    have hrest := ih (List.nodup_cons.mp h).2
    cases hm : d.toMission row with
    | none =>
      rw [List.filterMap_cons_none hm]
      exact hrest.cons _
    | some mission =>
      rw [List.filterMap_cons_some hm, List.map_cons, List.map_cons, missionId_toMission hm]
      exact hrest.cons_cons _

/-- The missions as `get_for_update` reads them. -/
def missionsTable (d : Definitions) : Table Mission.missionId :=
  ⟨d.missions.rows.filterMap d.toMission, d.nodup_filterMap_toMission _ d.missions.nodup⟩

def setAssignedRobot (d : Definitions) (now : Datetime) (missionId : UUID)
    (robotId : Option RobotId) : Definitions :=
  match d.missions.find? missionId with
  | none => d
  | some row => d.withMission { row with assignedRobotId := robotId, updatedAt := now }

end Definitions

namespace SiteManagement

def patched (site : Site) (command : UpdateSiteCommand) : Site :=
  { site with
    name := command.name.getD site.name
    anchorLat := command.anchorLat.getD site.anchorLat
    anchorLon := command.anchorLon.getD site.anchorLon
    anchorHeadingDeg := command.anchorHeadingDeg.getD site.anchorHeadingDeg }

def update (d : Definitions) (command : UpdateSiteCommand) : Except ServiceError Definitions := do
  let before ← orRaise (.siteNotFound command.siteId) (d.sites.find? command.siteId)
  pure { d with sites := d.sites.replace (patched before command) }

end SiteManagement

/-- The runs and the definitions they are dispatched from, over one database. -/
structure Live where
  sys : System
  edits : Editing

inductive LiveAction where
  | run (a : Action)
  | edit (e : EditAction)
  | updateSite (command : UpdateSiteCommand)
  | assign (missionId : UUID) (robotId : RobotId)
  | unassign (missionId : UUID)
  | changeFields (fields : Table Field.id)
  | changeFactsheets (factsheets : Factsheets)

/-- The mission whose lock the action waits for. -/
def Action.mission? : Action → Option UUID
  | .dispatch command => some command.missionId
  | .cancel command _ => some command.missionId
  | .close command | .pause command _ | .resume command _ => some command.missionId
  | _ => none

/-- Missions are edited through their definitions. -/
def Action.editsDefinitions : Action → Bool
  | .deleteMission _ | .countRuns _ | .finishDeletion _ | .abandonDeletion _
  | .restoreMission _ => true
  | _ => false

def EditAction.mission? (s : Editing) : EditAction → Option UUID
  | .update i _ _ => s.updates[i]?.map (·.command.missionId)
  | .replaceGeneratedStage _ _ missionId _ _ | .delete _ missionId | .restore _ missionId =>
    some missionId
  | _ => none

def EditAction.changesRuns : EditAction → Bool
  | .runsChange _ => true
  | _ => false

/-- The backend with other fields and factsheets. -/
def System.withReadings (s : System) (fields : Table Field.id) (factsheets : Factsheets) : System :=
  { s with world := { s.world with store := { s.world.store with fields } }, factsheets }

namespace Live
open RunService

/-- The backend with the definitions as they are now. -/
def system (l : Live) : System :=
  { l.sys with world := { l.sys.world with store := { l.sys.world.store with
      missions := l.edits.store.missionsTable, sites := l.edits.store.sites } } }

/-- The definitions with the runs as they are now. -/
def editing (l : Live) : Editing :=
  { l.edits with store := { l.edits.store with runs := l.sys.runs } }

def locked (l : Live) (missionId : UUID) : Bool := l.sys.locked missionId || l.edits.locked missionId

/-- A change of the mission's default robot, made under its lock where the checks let it through. -/
def reassign (l : Live) (missionId : UUID) (robotId : Option RobotId) (checks : ServiceM Mission) :
    Option Live :=
  if l.locked missionId then none
  else match l.system.outcome checks with
    | .error _ => some l
    | .ok _ => some { l with edits := { l.edits with
        store := l.edits.store.setAssignedRobot l.sys.clock missionId robotId } }

def step (l : Live) : LiveAction → Option Live
  | .run a =>
    if a.editsDefinitions ∨ a.mission?.any l.edits.locked then none
    else (l.system.step a).map fun sys => { l with sys }
  | .edit e =>
    if e.changesRuns ∨ (e.mission? l.edits).any l.sys.locked then none
    else (l.editing.step e).map fun edits => { l with edits }
  | .updateSite command =>
    some { l with edits := l.edits.commit (SiteManagement.update l.edits.store command) }
  | .assign missionId robotId => l.reassign missionId (some robotId)
      (MissionManagement.assign l.sys.digests l.sys.factsheets l.sys.clock missionId robotId)
  | .unassign missionId =>
    l.reassign missionId none (MissionManagement.unassign l.sys.clock missionId)
  | .changeFields fields => some { l with sys := l.sys.withReadings fields l.sys.factsheets }
  | .changeFactsheets factsheets =>
    some { l with sys := l.sys.withReadings l.sys.store.fields factsheets }

structure Initial (l : Live) : Prop where
  sys : System.Initial l.sys
  edits : Editing.Initial l.edits

def Reachable (l : Live) : Prop := ∃ l₀ acts, Initial l₀ ∧ StepSystem.exec step l₀ acts = some l

end Live

/-- The stages are the same, and the missions and sites that are there. -/
structure Definitions.SameKeys (d d' : Definitions) : Prop where
  stages : d'.stages = d.stages
  missions : ∀ m, (d'.missions.find? m).isSome ↔ (d.missions.find? m).isSome
  sites : ∀ k, (d'.sites.find? k).isSome ↔ (d.sites.find? k).isSome

theorem Definitions.SameKeys.refl (d : Definitions) : d.SameKeys d := ⟨rfl, fun _ => Iff.rfl, fun _ => Iff.rfl⟩

theorem Definitions.sameKeys_setAssignedRobot (d : Definitions) (now : Datetime) (missionId : UUID)
    (robotId : Option RobotId) : d.SameKeys (d.setAssignedRobot now missionId robotId) := by
  unfold setAssignedRobot
  cases h : d.missions.find? missionId with
  | none => exact .refl d
  | some row =>
    refine ⟨rfl, fun m => ?_, fun _ => Iff.rfl⟩
    have hid : row.missionId = missionId := Table.key_of_find? h
    rw [Definitions.isSome_withMission]
    exact or_iff_right_of_imp fun he => he ▸ hid ▸ h ▸ rfl

theorem SiteManagement.update_ok {d d' : Definitions} {command : UpdateSiteCommand}
    (h : update d command = .ok d') : d.SameKeys d' := by
  obtain ⟨before, hfound, h⟩ := bind_eq_ok.mp h
  obtain rfl := Except.ok.inj h
  refine ⟨rfl, fun _ => Iff.rfl, fun k => ?_⟩
  dsimp only
  rw [Table.find?_replace]
  split_ifs
  · rw [Option.isSome_map]
  · rfl

/-- What one action does: a step of the backend on the definitions as they are, a step of the
definitions on the runs as they are, new values in rows that stay, or new readings. -/
inductive LiveStep (l : Live) : LiveAction → Live → Prop where
  | run (a : Action) (sys : System) (step : l.system.step a = some sys) :
    LiveStep l (.run a) { l with sys }
  | edit (e : EditAction) (edits : Editing) (step : l.editing.step e = some edits) :
    LiveStep l (.edit e) { l with edits }
  | rewrites (a : LiveAction) (store : Definitions) (same : l.edits.store.SameKeys store) :
    LiveStep l a { l with edits := { l.edits with store } }
  | reads (a : LiveAction) (fields : Table Field.id) (factsheets : Factsheets) :
    LiveStep l a { l with sys := l.sys.withReadings fields factsheets }

namespace Live
variable {l l' : Live} {a : LiveAction}

theorem reassign_some {missionId : UUID} {robotId : Option RobotId} {checks : ServiceM Mission}
    (h : l.reassign missionId robotId checks = some l') : LiveStep l a l' := by
  unfold reassign at h
  split_ifs at h
  split at h
  · obtain rfl := Option.some.inj h
    exact .rewrites a l.edits.store (.refl _)
  · obtain rfl := Option.some.inj h
    exact .rewrites a _ (l.edits.store.sameKeys_setAssignedRobot _ _ _)

theorem step_cases (h : l.step a = some l') : LiveStep l a l' := by
  cases a with
  | run a =>
    dsimp only [step] at h
    split_ifs at h
    obtain ⟨sys, hs, rfl⟩ := Option.map_eq_some_iff.mp h
    exact .run a sys hs
  | edit e =>
    dsimp only [step] at h
    split_ifs at h
    obtain ⟨edits, he, rfl⟩ := Option.map_eq_some_iff.mp h
    exact .edit e edits he
  | updateSite command =>
    obtain rfl := Option.some.inj h
    cases hu : SiteManagement.update l.edits.store command with
    | error e => exact .rewrites _ l.edits.store (.refl _)
    | ok store => exact .rewrites _ store (SiteManagement.update_ok hu)
  | assign missionId robotId => exact reassign_some h
  | unassign missionId => exact reassign_some h
  | changeFields fields =>
    obtain rfl := Option.some.inj h
    exact .reads _ fields l.sys.factsheets
  | changeFactsheets factsheets =>
    obtain rfl := Option.some.inj h
    exact .reads _ l.sys.store.fields factsheets

theorem snapshots_system (h : l.sys.Snapshots) : l.system.Snapshots :=
  ⟨h.issued, h.recorded, h.judged⟩

end Live

namespace LiveStep
variable {l l' : Live} {a : LiveAction}

theorem snapshots (h : LiveStep l a l') (hs : l.sys.Snapshots) : l'.sys.Snapshots := by
  cases h with
  | run a sys step => exact (Live.snapshots_system hs).step step
  | edit | rewrites => exact hs
  | reads => exact ⟨hs.issued, hs.recorded, hs.judged⟩

theorem sound (h : LiveStep l a l') {trees : UUID → List Stage} (hs : l.edits.Sound trees) :
    ∃ trees', l'.edits.Sound trees' := by
  cases h with
  | run | reads => exact ⟨trees, hs⟩
  | edit e edits step =>
    have hnow : l.editing.Sound trees := hs.store_change hs.holds (fun _ => Iff.rfl) hs.sites
    exact hnow.step step
  | rewrites a store same =>
    have hholds : store.Holds trees := by
      intro m
      unfold Definitions.rowsOf
      rw [same.stages]
      exact hs.holds m
    exact ⟨trees, hs.store_change hholds same.missions fun m siteId hsite =>
      (same.sites siteId).mpr (hs.sites m siteId hsite)⟩

end LiveStep

namespace Live
variable {l : Live}

theorem Reachable.sound (h : l.Reachable) : ∃ trees, l.edits.Sound trees := by
  obtain ⟨l₀, acts, h₀, hx⟩ := h
  refine StepSystem.exec_invariant (I := fun l => ∃ trees, l.edits.Sound trees) ?_
    ⟨_, h₀.edits.sound⟩ hx
  intro l a l' hs hstep
  exact hs.elim fun _ hs => (step_cases hstep).sound hs

/-- A dispatch finds every mission that is stored, with the stages its rows stand for. -/
theorem Reachable.mission_read (h : l.Reachable) {row : MissionRow}
    (hrow : l.edits.store.missions.find? row.missionId = some row) :
    ∃ mission, l.system.store.missions.find? row.missionId = some mission ∧
      l.edits.store.getStages row.missionId = some mission.stages.stages := by
  obtain ⟨trees, hs⟩ := h.sound
  have hread := hs.holds.getStages row.missionId
  have hne : tidied (trees row.missionId) ≠ [] := by
    rw [Ne, tidied_eq_nil]
    exact (hs.stored row.missionId).mpr (by rw [hrow]; rfl)
  have hnodup : (stageIds (tidied (trees row.missionId))).Nodup := by
    rw [stageIds_tidied]
    exact hs.holds.nodup row.missionId
  have hmission := Definitions.toMission_of_getStages hread hne hnodup
  refine ⟨_, Table.find?_eq_some_iff.mpr ⟨?_, Definitions.missionId_toMission hmission⟩, hread⟩
  exact List.mem_filterMap.mpr ⟨row, Table.mem_of_find? hrow, hmission⟩

end Live
end Leitstand
