import Leitstand.EditRuns

namespace Leitstand

section Update
variable {before later after : Definitions} {round round' : PlanningRound} {now : Datetime}
  {command : UpdateMissionCommand} {inputs : List StageInput} {planned : PlannedStages}
  {mission saved stored unlocked : MissionDefinition}

/-- The ids drawn at the positions of the request. -/
def DrawnFor (round : PlanningRound) (inputs : List StageInput) (i : UUID) : Prop :=
  ∃ x ∈ walkInputs inputs, i = round.fresh x.1

theorem MissionEditing.updatePlan_ok (hcmd : command.stages = some inputs)
    (h : MissionEditing.updatePlan before round command = .ok planned) :
    ∃ unlocked, MissionEditing.requireOpen before command.missionId = .ok unlocked ∧
      round.planInputs inputs (byStageId unlocked.stages) (some command.missionId) = .ok planned := by
  unfold MissionEditing.updatePlan at h
  rw [hcmd] at h
  exact bind_eq_ok.mp h

theorem MissionEditing.update_ok (hcmd : command.stages = some inputs)
    (h : MissionEditing.update later round now command planned = .ok mission) :
    ∃ stored, MissionEditing.requireOpen later command.missionId = .ok stored ∧
      MissionEditing.updatedStages later round stored planned (some inputs) = .ok mission.stages ∧
      mission.missionId = stored.missionId := by
  obtain ⟨stored, hopen, h⟩ := bind_eq_ok.mp h
  obtain ⟨stages, hstages, h⟩ := bind_eq_ok.mp h
  obtain rfl := Except.ok.inj h
  rw [hcmd] at hstages
  exact ⟨stored, hopen, hstages, rfl⟩

/-- The stages an accepted update saves answer its request by those that the mission has under the
lock. -/
theorem MissionEditing.update_resolves (hdata : round'.data = round.data)
    (hfresh : round'.fresh = round.fresh) (hecho : ∀ path, EchoesAngle (round.planner path))
    (hecho' : ∀ path, EchoesAngle (round'.planner path)) (hcmd : command.stages = some inputs)
    (hplan : MissionEditing.updatePlan before round command = .ok planned)
    (hupdate : MissionEditing.update later round' now command planned = .ok mission)
    (hsave : later.save mission = .ok (saved, after)) :
    ∃ unlocked stored, MissionEditing.requireOpen before command.missionId = .ok unlocked ∧
      MissionEditing.requireOpen later command.missionId = .ok stored ∧
      Resolves (byStageId stored.stages) (DrawnFor round inputs) (Reproduces round.data) inputs
        saved.stages ∧
      ∀ i ∈ stageIds saved.stages, i ∈ stageIds stored.stages ∨ DrawnFor round inputs i := by
  obtain ⟨unlocked, hunlocked, hfirst⟩ := MissionEditing.updatePlan_ok hcmd hplan
  obtain ⟨stored, hstored, hstages, -⟩ := MissionEditing.update_ok hcmd hupdate
  rw [Definitions.stages_of_save hsave]
  obtain ⟨planned', hsecond, hstages⟩ := bind_eq_ok.mp hstages
  obtain ⟨stages, hids, hstages⟩ := bind_eq_ok.mp hstages
  obtain ⟨u, -, hstages⟩ := bind_eq_ok.mp hstages
  obtain rfl := Except.ok.inj hstages
  obtain ⟨seen, hbuild⟩ := withIds_eq_ok.mp hids
  have hfit : Fitting round (Reproduces round.data) := fitting_reproduces hecho
  have hfit' : Fitting round' (Reproduces round.data) := hdata ▸ fitting_reproduces hecho'
  have hsettled := settled_replanned hfit hfit' hfresh hfirst hsecond
  have hresolves : Resolves (byStageId stored.stages) (DrawnFor round inputs)
      (Reproduces round.data) inputs mission.stages := by
    refine buildFrom_resolves (fun _ _ _ h => h) ?_ hbuild ?_ ?_
    · intro i hi
      obtain ⟨s, hs, rfl⟩ := List.mem_map.mp hi
      rw [Table.find?_of_mem hs]
      rfl
    · rw [hfresh]
      exact hsettled
    · intro x hx
      exact ⟨x, hx, by rw [hfresh]⟩
  refine ⟨unlocked, stored, hunlocked, hstored, hresolves, ?_⟩
  intro i hi
  rw [← byStageId_isSome]
  refine hresolves.mem_stageIds ?_ hi
  intro j kept hk k hkid
  exact byStageId_isSome.mpr ((children_of_storedCoverage hk).subset hkid)

/-- The mission an accepted update saves is the one that is read from then on. -/
theorem MissionEditing.update_read_back {trees : UUID → List Stage} (hd : later.Holds trees)
    (hshaped : Shaped (trees command.missionId)) (hdraws : (drawsFor round' command.inputs).Nodup)
    (hnew : ∀ i ∈ drawsFor round' command.inputs, later.stages.find? i = none)
    (hfresh : round'.fresh = round.fresh)
    (hplan : MissionEditing.updatePlan before round command = .ok planned)
    (hupdate : MissionEditing.update later round' now command planned = .ok mission)
    (hsave : later.save mission = .ok (saved, after)) :
    after.get command.missionId = .ok (some { saved with stages := tidied saved.stages }) := by
  have hunknown : ∀ i ∈ drawsFor round' command.inputs, ∀ m, i ∉ stageIds (trees m) :=
    fun i hi => hd.notMem_of_absent (hnew i hi)
  have hentries := Editing.MissionEditing.updatePlan_entries hplan
  rw [← hfresh] at hentries
  obtain ⟨hid, -, hready⟩ := MissionEditing.update_ready hd hshaped hdraws
    (fun i hi => hunknown i hi _) hentries hupdate
  rw [← hid]
  exact Definitions.get_of_save hd hready.nodup (hid ▸ hready.owns hd hunknown) hsave

/-- An accepted update answers its request by the stages that the mission has under the lock,
whatever it was when the planning began, and nothing of the earlier mission remains in it. Where those
under the lock are held and the ids drawn are new, what is saved is what is read back. -/
theorem update_against_concurrent_edit (hdata : round'.data = round.data)
    (hfresh : round'.fresh = round.fresh) (hecho : ∀ path, EchoesAngle (round.planner path))
    (hecho' : ∀ path, EchoesAngle (round'.planner path)) (hcmd : command.stages = some inputs)
    (hplan : MissionEditing.updatePlan before round command = .ok planned)
    (hupdate : MissionEditing.update later round' now command planned = .ok mission)
    (hsave : later.save mission = .ok (saved, after)) :
    (∃ unlocked stored, MissionEditing.requireOpen before command.missionId = .ok unlocked ∧
      MissionEditing.requireOpen later command.missionId = .ok stored ∧
      Resolves (byStageId stored.stages) (DrawnFor round inputs) (Reproduces round.data) inputs
        saved.stages ∧
      ∀ i ∈ stageIds saved.stages, i ∈ stageIds stored.stages ∨ DrawnFor round inputs i) ∧
    ∀ trees : UUID → List Stage, later.Holds trees → Shaped (trees command.missionId) →
      (drawsFor round inputs).Nodup →
      (∀ i ∈ drawsFor round inputs, later.stages.find? i = none) →
      after.get command.missionId = .ok (some { saved with stages := tidied saved.stages }) := by
  constructor
  · exact MissionEditing.update_resolves hdata hfresh hecho hecho' hcmd hplan hupdate hsave
  · intro trees hd hshaped hdraws hnew
    have hinputs : command.inputs = inputs := by
      unfold UpdateMissionCommand.inputs
      rw [hcmd]
      rfl
    have hdrawn : drawsFor round' command.inputs = drawsFor round inputs := by
      rw [hinputs]
      unfold drawsFor
      rw [hfresh]
    rw [← hdrawn] at hdraws hnew
    exact MissionEditing.update_read_back hd hshaped hdraws hnew hfresh hplan hupdate hsave

end Update

section Demo
open Definitions

/-- A stage was put before the route, which was planned anew. -/
def demoEdited : List Stage := [demoDriven 12 none, demoCovered [⟨.swath, [.wgs84 52 8 none]⟩]]

/-- The mission after another edit. -/
def demoLocked : Definitions := demoBare.replaced 1 demoEdited

theorem demoLocked_holds : demoLocked.Holds (Function.update (fun _ => []) 1 demoEdited) :=
  demoBare_holds.replaced (by decide) (demoBare_holds.owns_iff.mpr (by decide))

/-- Stage 10 carried, stage 12 driven elsewhere, and a route over the field. -/
def demoRequest : List StageInput :=
  [.mk (some 10) none (.coverage {}), .mk (some 12) none (.navigation [.wgs84 52 8 none]),
    .mk none none (.coverage
      { fieldId := some 7, operationWidthM := some 3, turningRadiusM := some 2
        swathAngleDeg := some 45 })]

def demoCommand : UpdateMissionCommand :=
  { missionId := 1, name := none, description := none, stages := some demoRequest }

theorem demoEdited_shaped :
    Shaped (Function.update (fun _ => []) 1 demoEdited demoCommand.missionId) := by
  have hshape : MissionEditing.validateShape demoLocked.sites demoEdited = .ok () := by decide +kernel
  rw [show (demoCommand.missionId : UUID) = 1 from rfl, Function.update_self]
  exact MissionEditing.validateShape_ok hshape

theorem demoRequest_drawn : drawsFor demoRound demoRequest = [100, 101, 102] := by decide +kernel

theorem demoRequest_draws : (drawsFor demoRound demoRequest).Nodup := by
  rw [demoRequest_drawn]
  decide

theorem demoRequest_new : ∀ i ∈ drawsFor demoRound demoRequest, demoLocked.stages.find? i = none := by
  have hrows : demoLocked.stages.rows.map (·.stageId) = [12, 10, 11] := by decide +kernel
  intro i hi
  rw [Table.find?_eq_none_iff]
  intro row hrow he
  have hheld : i ∈ ([12, 10, 11] : List UUID) := hrows ▸ List.mem_map.mpr ⟨row, hrow, he⟩
  have hapart : ∀ i ∈ ([100, 101, 102] : List UUID), i ∉ ([12, 10, 11] : List UUID) := by simp
  exact hapart i (demoRequest_drawn ▸ hi) hheld

theorem update_against_concurrent_edit_moved : ∃ (mission saved stored : MissionDefinition)
    (after : Definitions), demoLocked.save mission = .ok (saved, after) ∧
      MissionEditing.requireOpen demoLocked 1 = .ok stored ∧
      Resolves (byStageId stored.stages) (DrawnFor demoRound demoRequest)
        (Reproduces demoRound.data) demoRequest saved.stages ∧
      after.get 1 = .ok (some { saved with stages := tidied saved.stages }) := by
  have hrun : (do
      let planned ← MissionEditing.updatePlan demoUnlocked demoRound demoCommand
      let mission ← MissionEditing.update demoLocked demoRound 0 demoCommand planned
      demoLocked.save mission).toOption.isSome := by
    decide +kernel
  obtain ⟨⟨saved, after⟩, hrun⟩ := exists_eq_ok hrun
  obtain ⟨planned, hplan, hrun⟩ := bind_eq_ok.mp hrun
  obtain ⟨mission, hupdate, hsave⟩ := bind_eq_ok.mp hrun
  obtain ⟨⟨-, stored, -, hstored, hresolves, -⟩, hread⟩ := update_against_concurrent_edit rfl rfl
    demoRound_echoes demoRound_echoes rfl hplan hupdate hsave
  refine ⟨mission, saved, stored, after, hsave, hstored, hresolves, ?_⟩
  exact hread _ demoLocked_holds demoEdited_shaped demoRequest_draws demoRequest_new

end Demo

end Leitstand
