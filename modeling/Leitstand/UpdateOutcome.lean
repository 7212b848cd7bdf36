import Leitstand.CommandValues

namespace Leitstand
open Except

/-- How an update ends: refused ahead of its first write, failed at the write, or saved. -/
inductive UpdateOutcome where
  | refused (error : ServiceError)
  | failed (error : ServiceError)
  | saved (mission : MissionDefinition) (after : Definitions)

/-- The whole request: planned on the missions as they are at first, carried out and saved on what
they are under the lock. Its statements write what the command brings before the mission is read from
what they return. -/
def MissionEditing.updateMission (first locked : Definitions) (round round' : PlanningRound)
    (now : Datetime) (command : UpdateMissionCommand PyFloat) : UpdateOutcome :=
  match (do
    let planned ← updatePlan first round command.values
    update locked round' now command.values planned) with
  | .error e => .refused e
  | .ok mission =>
    if ¬ command.Storable then .failed .dataError
    else
      match locked.save mission with
      | .error e => .failed e
      | .ok (saved, after) => .saved saved after

/-- A domain error ahead of the write, or a valid mission that differs from the stored one in what
the command names and that is read back from then on. -/
def UpdateOutcome.Upholds (locked : Definitions) (now : Datetime)
    (command : UpdateMissionCommand PyFloat) : UpdateOutcome → Prop
  | .refused e => e.isDomain = true
  | .failed _ => False
  | .saved mission after => mission.Valid ∧
      (∃ stored, locked.get command.missionId = .ok (some stored) ∧
        EditedBy command.values now stored mission) ∧
      after.get command.missionId = .ok (some { mission with stages := tidied mission.stages })

/-- The error that is no refusal, if the update ends in one. -/
def UpdateOutcome.failure : UpdateOutcome → Option ServiceError
  | .refused e => if e.isDomain then none else some e
  | .failed e => some e
  | .saved _ _ => none

theorem UpdateOutcome.not_upholds {locked : Definitions} {now : Datetime}
    {command : UpdateMissionCommand PyFloat} {outcome : UpdateOutcome} {e : ServiceError}
    (h : outcome.failure = some e) : ¬ outcome.Upholds locked now command := by
  cases outcome with
  | refused e' =>
    intro hdomain
    change e'.isDomain = true at hdomain
    unfold failure at h
    dsimp only at h
    rw [if_pos hdomain] at h
    cases h
  | failed e => exact id
  | saved mission after => cases h

/-- The checks ahead of the write pass: the mission is there and open, and the stages asked for can
be planned, identified and driven. -/
def MissionEditing.Accepts (first locked : Definitions) (round round' : PlanningRound)
    (command : UpdateMissionCommand) : Prop :=
  ∃ planned stored stages, updatePlan first round command = .ok planned ∧
    requireOpen locked command.missionId = .ok stored ∧
    updatedStages locked round' stored planned command.stages = .ok stages

/-- What the create command asks of its name and stages and the update command does not. -/
structure UpdateMissionCommand.Fits {ν : Type} (command : UpdateMissionCommand ν) : Prop where
  name : ∀ name, command.name = some name → NameFits name
  stages : command.stages ≠ some []

theorem UpdateMissionCommand.fits_values {command : UpdateMissionCommand PyFloat} :
    command.values.Fits ↔ command.Fits := by
  have hstages : command.values.stages ≠ some [] ↔ command.stages ≠ some [] := by
    obtain ⟨missionId, name, description, stages⟩ := command
    cases stages with
    | none => exact iff_of_true nofun nofun
    | some inputs => cases inputs <;> simp [values, mapInputs]
  exact ⟨fun h => ⟨h.name, hstages.mp h.stages⟩, fun h => ⟨h.name, hstages.mpr h.stages⟩⟩

section Rows
variable {d : Definitions} {missionId : UUID} {stored mission : MissionDefinition}
  {now : Datetime} {command : UpdateMissionCommand}

/-- The upsert writes the row that the edit made. -/
theorem Definitions.savedRow_of_edited (h : d.get command.missionId = .ok (some stored))
    (hedited : EditedBy command now stored mission) (hid : mission.missionId = command.missionId) :
    d.savedRow mission = mission.toMissionRow := by
  unfold savedRow
  rw [hid, (get_eq_some.mp h).1]
  obtain ⟨row, stages⟩ := mission
  obtain ⟨row', stages'⟩ := stored
  cases row
  cases row'
  have h₁ := hedited.missionId
  have h₂ := hedited.assignedRobotId
  have h₃ := hedited.archivedAt
  have h₄ := hedited.createdAt
  dsimp only at h₁ h₂ h₃ h₄ ⊢
  rw [h₁, h₂, h₃, h₄]

end Rows

section Update
variable {first locked : Editing} {trees : UUID → List Stage} {round round' : PlanningRound}
  {now : Datetime} {command : UpdateMissionCommand} {planned : PlannedStages}
  {mission : MissionDefinition}

theorem MissionEditing.fits_iff {stored : MissionDefinition}
    (hvalid : stored.Valid) (hedited : EditedBy command now stored mission)
    (hstages : mission.stages = [] ↔ command.stages = some []) :
    NameFits mission.name ∧ mission.stages ≠ [] ↔ command.Fits := by
  have hname : NameFits mission.name ↔ ∀ name, command.name = some name → NameFits name := by
    rw [hedited.name]
    cases command.name with
    | none => exact iff_of_true hvalid.name nofun
    | some name => exact ⟨fun h name' he => Option.some.inj he ▸ h, fun h => h name rfl⟩
  rw [hname, Ne, hstages]
  exact ⟨fun h => ⟨h.1, h.2⟩, fun h => ⟨h.name, h.stages⟩⟩

/-- An accepted edit can be saved exactly when its command fits, and then it is what was asked for. -/
theorem MissionEditing.update_saved {s : Editing} (hs : s.Sound trees) (hb : s.Bounded)
    (hround : round.Admitted) (hcmd : InputsAdmitted command.inputs) (hplanned : PlansValid planned)
    (hentries : ∀ entry ∈ planned, ∃ item ∈ coverageInputsToPlan command.inputs,
      PlansFor (fun _ _ => True) round.fresh item entry)
    (hdraws : (drawsFor round command.inputs).Nodup)
    (hnew : ∀ i ∈ drawsFor round command.inputs, s.store.stages.find? i = none)
    (h : MissionEditing.update s.store round now command planned = .ok mission) :
    (command.Fits ↔ ∃ saved after, s.store.save mission = .ok (saved, after)) ∧
    ∀ saved after, s.store.save mission = .ok (saved, after) → saved.Valid ∧
      (∃ stored, s.store.get command.missionId = .ok (some stored) ∧
        EditedBy command now stored saved) ∧
      after.get command.missionId = .ok (some { saved with stages := tidied saved.stages }) := by
  have hvalid := hb.valid hs
  obtain ⟨stored, hstored, hstoredValid, hedited, hstages⟩ :=
    (update_returns hvalid hround hcmd hplanned).returns mission h
  have hunknown : ∀ i ∈ drawsFor round command.inputs, ∀ m, i ∉ stageIds (trees m) :=
    fun i hi => hs.holds.notMem_of_absent (hnew i hi)
  obtain ⟨hid, -, hready⟩ := update_ready hs.holds (hs.shaped _) hdraws
    (fun i hi => hunknown i hi _) hentries h
  have howns : Definitions.Owns trees mission.missionId mission.stages :=
    hid ▸ hready.owns hs.holds hunknown
  have hdriven : SitesKnown s.store.sites mission.stages := by
    cases hrequested : command.stages with
    | none =>
      have hread := (Definitions.get_eq_some.mp hstored).2.1
      rw [hs.holds.getStages] at hread
      rw [hstages.kept hrequested, ← Option.some.inj hread]
      intro siteId hsite
      rw [siteIds_tidied] at hsite
      exact hs.sites _ siteId hsite
    | some inputs => exact hstages.driven (by simp [hrequested])
  have hsites := (Definitions.forall_siteOf_iff hready.shaped.oneSite).mpr hdriven
  have hrow : s.store.savedRow mission = mission.toMissionRow :=
    Definitions.savedRow_of_edited hstored hedited hid
  have hsaves := fun saved after =>
    @Definitions.save_eq_ok s.store trees mission saved after hs.holds hready.nodup howns
  simp only [hrow] at hsaves
  have hfits := fits_iff hstoredValid hedited (hstages.empty hstoredValid.nonempty)
  constructor
  · rw [← hfits]
    constructor
    · rintro ⟨hname, hne⟩
      exact ⟨_, _, (hsaves _ _).mpr ⟨rfl, rfl, hname, hne, hsites⟩⟩
    · rintro ⟨saved, after, hsave⟩
      obtain ⟨-, -, hname, hne, -⟩ := (hsaves saved after).mp hsave
      exact ⟨hname, hne⟩
  · intro saved after hsave
    obtain ⟨rfl, -, hname, hne, -⟩ := (hsaves saved after).mp hsave
    refine ⟨⟨hname, hne, hstages.valid⟩, ⟨stored, hstored, hedited⟩, ?_⟩
    rw [← hid]
    exact Definitions.get_of_save hs.holds hready.nodup howns hsave

theorem MissionEditing.accepts_iff {first locked : Definitions} :
    MissionEditing.Accepts first locked round round' command ↔
      ∃ planned mission, updatePlan first round command = .ok planned ∧
        update locked round' now command planned = .ok mission := by
  constructor
  · rintro ⟨planned, stored, stages, hplan, hopen, hstages⟩
    exact ⟨planned, _, hplan, bind_eq_ok.mpr ⟨stored, hopen, bind_eq_ok.mpr ⟨stages, hstages, rfl⟩⟩⟩
  · rintro ⟨planned, mission, hplan, hupdate⟩
    obtain ⟨stored, hopen, hrest⟩ := bind_eq_ok.mp hupdate
    obtain ⟨stages, hstages, -⟩ := bind_eq_ok.mp hrest
    exact ⟨planned, stored, stages, hplan, hopen, hstages⟩

end Update

section Demo

def demoWaypoint (lat lon : Rat) : Json := .obj [("lat", .num lat), ("lon", .num lon)]

/-- A planner service that lays one swath over the hectare, whatever it is asked. -/
def demoService : HttpCoveragePlannerAdapter where
  client := fun _ => .ok
    { statusCode := 200, text := ""
      json? := some (.obj [
        ("segments", .arr [.obj [("kind", .str "swath"),
          ("waypoints", .arr [demoWaypoint 52 8, demoWaypoint 52 9])]]),
        ("mainland_boundary", .obj [("type", .str "Polygon")]), ("swath_angle_deg", .num 45),
        ("metrics", .obj [("swath_count", .num 1), ("track_length_m", .num 3333),
          ("path_length_m", .num 3333), ("covered_area_m2", .num 10000), ("max_excursion_m", .num 0)]),
        ("planner_version", .str "fields2cover 1.2.1")]) }
  float := fun value => value.number?.bind PyFloat.toRat?
  int := fun value => (value.number?.bind PyFloat.toRat?).map Rat.num
  polygon := fun _ => some [[[8, 52], [9, 52], [9, 53], [8, 52]]]
  shown := fun _ => ""

/-- The planning of an edit over HTTP, with new ids by place. -/
def demoPlanning (start : Nat) : PlanningRound :=
  { demoRound with
    planner := fun _ => demoService.plan
    fresh := fun path => BitVec.ofNat 128 (start + path.sum) }

theorem demoPlanning_admitted (start : Nat) : (demoPlanning start).Admitted where
  boundaryDigest := fun _ => show "boundary" ≠ "" by decide
  physical := fun _ _ _ (h : none = some _) => nomatch h
  linearCurvChange := show (0 : Rat) < 1 by decide
  turnSampleM := show (0 : Rat) < 1 by decide
  planner := fun _ => ⟨demoService, rfl⟩

/-- One stage, driven outdoors. -/
def demoDrive : List StageInput := [.mk none none (.navigation [.wgs84 52 8 none])]

theorem demoDrive_admitted : InputsAdmitted demoDrive := by
  intro x hx
  obtain rfl : x = ([0], .mk none none (.navigation [.wgs84 52 8 none])) := List.mem_singleton.mp hx
  have hwaypoint : ∀ w ∈ ([.wgs84 52 8 none] : List Waypoint), w.Admitted := by decide +kernel
  exact ⟨List.cons_ne_nil _ _, hwaypoint⟩

def demoEditing : List EditAction :=
  [.create (demoPlanning 100) 0 1 { name := "field", description := none, stages := demoDrive },
    .save 0]

theorem demoEditing_admitted : ∀ a ∈ demoEditing, a.Admitted := by
  have hcreate := demoPlanning_admitted 100
  simp [demoEditing, EditAction.Admitted, hcreate, demoDrive_admitted]

/-- A swath over the hectare for an implement of a width. -/
def demoMowing (width : PyFloat) : StageInput PyFloat :=
  .mk none none (.coverage
    { fieldId := some 7, operationWidthM := some width, turningRadiusM := some 2 })

/-- The mission is given another name and other stages, one of them to be planned. -/
def demoRenaming : UpdateMissionCommand PyFloat :=
  { missionId := 1, name := some "meadow", description := none
    stages := some [.mk none none (.navigation [.wgs84 52 8 none]), demoMowing 3] }

theorem demoRenaming_admitted : InputsAdmitted demoRenaming.inputs := by
  have hwaypoint : ∀ w ∈ ([.wgs84 52 8 none] : List (Waypoint PyFloat)), w.Admitted := by
    decide +kernel
  have hwidth : ¬ (3 : PyFloat) ≤ 0 := by decide +kernel
  have hradius : ¬ (2 : PyFloat) < 0 := by decide +kernel
  have hfields : CoveragePlanningFields.Admitted
      { fieldId := some 7, operationWidthM := some 3, turningRadiusM := some 2 } none :=
    ⟨by simpa using hwidth, nofun, by simpa using hradius, nofun, nofun, by simp, nofun, by simp⟩
  rintro ⟨path, input⟩ hx
  obtain hx | hx := List.mem_pair.mp hx
  · obtain ⟨-, rfl⟩ := Prod.mk.inj hx
    exact ⟨List.cons_ne_nil _ _, hwaypoint⟩
  · obtain ⟨-, rfl⟩ := Prod.mk.inj hx
    exact hfields

/-- The update of the one stored mission. -/
def demoUpdate (s : Editing) (command : UpdateMissionCommand PyFloat) : UpdateOutcome :=
  MissionEditing.updateMission s.store s.store (demoPlanning 200) (demoPlanning 200) 0 command

end Demo

end Leitstand
