import Leitstand.ValidMissions

namespace Leitstand
open Except

/-- Every number that the planner would be given is finite. -/
structure FiniteParams (inputs : CoverageInputs) (machine : MachineValues) : Prop where
  operationWidthM : inputs.operationWidthM.toRat? ≠ none
  turningRadiusM : machine.turningRadiusM.toRat? ≠ none
  headlandWidthM : machine.headlandWidthM.toRat? ≠ none
  swathAngleDeg : ∀ angle ∈ inputs.swathAngleDeg, angle.toRat? ≠ none
  trackWidthM : ∀ width ∈ machine.trackWidthM, width.toRat? ≠ none

/-- The planner is a service that replies to the question with an error that cannot be read. -/
def UnreadableReply (planner : CoveragePlanner) (question : PlannerQuestion) : Prop :=
  ∃ adapter : HttpCoveragePlannerAdapter, planner = adapter.plan ∧ adapter.RepliesUnreadably question

namespace PlanningRound

/-- Inputs with a field and a machine to plan for cannot be planned and are not refused: a number among
the parameters is not finite, or the planner's reply cannot be read. -/
def Breaks (round : PlanningRound) (path : InputPath) (inputs : CoverageInputs) : Prop :=
  ∃ field areaHa machine, plannableField inputs.fieldId round.data.fields = .ok (field, areaHa) ∧
    machineValues (round.fresh path) inputs round.data.factsheets = .ok machine ∧
    (¬ FiniteParams inputs machine ∨ ∃ params : CoverageParams,
      params.Given round.settings inputs machine ∧
      UnreadableReply (round.planner path) { boundary := field.geometry, params })

/-- The item is to be planned, and planning it breaks. -/
def BreaksAt (round : PlanningRound) (stored : Table Stage.stageId) (item : PlanItem) : Prop :=
  ∃ inputs, CoverageInputs.fromFields item.fields = .ok inputs ∧
    round.keptUnchanged item inputs stored = .ok false ∧ round.Breaks item.path inputs

/-- The same under the lock, where an item is planned that has no plan yet and names a stored stage. -/
def BreaksUnderLock (round : PlanningRound) (stored : Table Stage.stageId) (planned : PlannedStages)
    (item : PlanItem) : Prop :=
  planned.lookup item.path = none ∧ item.stageId.bind (storedCoverage stored) ≠ none ∧
    round.BreaksAt stored item

end PlanningRound

/-- Taken in order, the items ahead are kept or planned and the next one is such a one. -/
def ComesTo (step : PlannedStages → PlanItem → Except ServiceError PlannedStages)
    (items : List PlanItem) (planned : PlannedStages) (P : PlannedStages → PlanItem → Prop) : Prop :=
  ∃ ahead item rest planned', items = ahead ++ item :: rest ∧
    ahead.foldlM step planned = .ok planned' ∧ P planned' item

namespace MissionEditing

/-- The planning ahead of the lock passes its checks and comes to an item that breaks it. -/
def BreaksAhead (first : Definitions) (round : PlanningRound) (command : UpdateMissionCommand) :
    Prop :=
  ∃ inputs unlocked, command.stages = some inputs ∧
    requireOpen first command.missionId = .ok unlocked ∧
    PlanningRound.checkInputIds (byStageId unlocked.stages) (some command.missionId) []
      ((walkInputs inputs).map (·.2)) = .ok () ∧
    ComesTo (round.planStep (byStageId unlocked.stages)) (coverageInputsToPlan inputs) []
      fun _ item => round.BreaksAt (byStageId unlocked.stages) item

/-- The planning under the lock, of stages edited since, comes to an item that breaks it. -/
def BreaksUnderLock (locked : Definitions) (round : PlanningRound) (command : UpdateMissionCommand)
    (planned : PlannedStages) : Prop :=
  ∃ inputs before, command.stages = some inputs ∧
    requireOpen locked command.missionId = .ok before ∧
    ComesTo (round.replanStep (byStageId before.stages) before.missionId)
      (coverageInputsToPlan inputs) planned (round.BreaksUnderLock (byStageId before.stages))

/-- A planning of the request breaks. -/
def Breaks (first locked : Definitions) (round round' : PlanningRound)
    (command : UpdateMissionCommand) : Prop :=
  BreaksAhead first round command ∨
    ∃ planned, updatePlan first round command = .ok planned ∧
      BreaksUnderLock locked round' command planned

end MissionEditing

section Fails
variable {α β : Type} {x : Except ServiceError α} {f : α → Except ServiceError β}

theorem not_fails_ok (a : α) : ¬ Fails (.ok a) := Raises.ok_iff.mp

theorem fails_error {e : ServiceError} :
    Fails (.error e : Except ServiceError α) ↔ e.isDomain = false := Raises.error_iff

theorem fails_bind : Fails (x >>= f) ↔ Fails x ∨ ∃ a, x = .ok a ∧ Fails (f a) := Raises.bind_iff

theorem fails_bind_right {P : α → Prop} (h : Responds x P) :
    Fails (x >>= f) ↔ ∃ a, x = .ok a ∧ Fails (f a) := Raises.bind_iff_right h.not_fails

theorem fails_bind_left (h : ∀ a, x = .ok a → ¬ Fails (f a)) : Fails (x >>= f) ↔ Fails x :=
  Raises.bind_iff_left h

theorem fails_map {g : α → β} : Fails (x >>= fun a => pure (g a)) ↔ Fails x :=
  fails_bind_left fun _ _ => not_fails_ok _

end Fails

section Params
variable {settings : PlannerSettings} {inputs : CoverageInputs} {machine : MachineValues}

theorem finiteNumber_ensures (field : String) (x : PyFloat) :
    (finiteNumber field x).Ensures (fun _ => True) fun e => e.isDomain = false := by
  unfold finiteNumber
  cases x.toRat? with
  | none => exact .error rfl
  | some r => exact .ok trivial

theorem finiteNumber?_ensures (field : String) (x : Option PyFloat) :
    (finiteNumber? field x).Ensures (fun _ => True) fun e => e.isDomain = false := by
  cases x with
  | none => exact .ok trivial
  | some x => exact (finiteNumber_ensures field x).bind fun _ _ => .ok trivial

theorem coverageParams_ensures : (coverageParams settings inputs machine).Ensures (fun _ => True)
    fun e => e.isDomain = false := by
  refine (finiteNumber_ensures _ _).bind fun _ _ => (finiteNumber_ensures _ _).bind fun _ _ => ?_
  refine (finiteNumber_ensures _ _).bind fun _ _ => (finiteNumber?_ensures _ _).bind fun _ _ => ?_
  exact (finiteNumber?_ensures _ _).bind fun _ _ => .ok trivial

theorem exists_map_toRat? {x : Option PyFloat} (h : ∀ y ∈ x, y.toRat? ≠ none) :
    ∃ r : Option Rat, x.map PyFloat.toRat? = r.map some := by
  cases x with
  | none => exact ⟨none, rfl⟩
  | some y =>
    obtain ⟨r, hr⟩ := Option.ne_none_iff_exists'.mp (h y rfl)
    exact ⟨some r, congrArg some hr⟩

/-- Finite numbers are accepted, and no others. -/
theorem finiteParams_iff (settings : PlannerSettings) :
    FiniteParams inputs machine ↔ ∃ params, coverageParams settings inputs machine = .ok params := by
  simp only [coverageParams_eq_ok]
  constructor
  · intro h
    obtain ⟨width, hwidth⟩ := Option.ne_none_iff_exists'.mp h.operationWidthM
    obtain ⟨radius, hradius⟩ := Option.ne_none_iff_exists'.mp h.turningRadiusM
    obtain ⟨headland, hheadland⟩ := Option.ne_none_iff_exists'.mp h.headlandWidthM
    obtain ⟨angle, hangle⟩ := exists_map_toRat? h.swathAngleDeg
    obtain ⟨track, htrack⟩ := exists_map_toRat? h.trackWidthM
    exact ⟨⟨width, radius, headland, angle, _, track, _, _⟩, hwidth, hradius, hheadland, hangle, htrack,
      rfl, rfl, rfl⟩
  · rintro ⟨params, h⟩
    have hsome : ∀ {x : PyFloat} {r : Rat}, x.toRat? = some r → x.toRat? ≠ none := fun hx => by
      simp [hx]
    refine ⟨hsome h.operationWidthM, hsome h.turningRadiusM, hsome h.headlandWidthM, ?_, ?_⟩
    · intro x hx hnone
      have hangle := h.swathAngleDeg
      rw [Option.mem_def.mp hx, Option.map_some, hnone] at hangle
      obtain ⟨r, -, hr⟩ := Option.map_eq_some_iff.mp hangle.symm
      cases hr
    · intro x hx hnone
      have htrack := h.trackWidthM
      rw [Option.mem_def.mp hx, Option.map_some, hnone] at htrack
      obtain ⟨r, -, hr⟩ := Option.map_eq_some_iff.mp htrack.symm
      cases hr

theorem coverageParams_fails_iff :
    Fails (coverageParams settings inputs machine) ↔ ¬ FiniteParams inputs machine := by
  rw [finiteParams_iff settings]
  constructor
  · rintro ⟨e, he, -⟩ ⟨params, hparams⟩
    cases he.symm.trans hparams
  · intro h
    cases hparams : coverageParams settings inputs machine with
    | ok params => exact absurd ⟨params, hparams⟩ h
    | error e => exact ⟨e, rfl, coverageParams_ensures.raises e hparams⟩

end Params

section Planning
variable {round : PlanningRound} {path : InputPath} {inputs : CoverageInputs}
  {stored : Table Stage.stageId} {item : PlanItem} {planned : PlannedStages}

theorem plan_fails_iff {planner : CoveragePlanner} {question : PlannerQuestion}
    (h : ∃ adapter : HttpCoveragePlannerAdapter, planner = adapter.plan) :
    Fails (planner question.boundary question.params) ↔ UnreadableReply planner question := by
  constructor
  · rintro ⟨e, he, hforeign⟩
    obtain ⟨adapter, rfl⟩ := h
    obtain ⟨reason, rfl⟩ | ⟨reason, rfl⟩ | ⟨-, hreply⟩ := adapter.plan_ensures.raises e he
    · cases hforeign
    · cases hforeign
    · exact ⟨adapter, rfl, hreply⟩
  · rintro ⟨adapter, rfl, hreply⟩
    exact ⟨_, HttpCoveragePlannerAdapter.plan_of_repliesUnreadably hreply, rfl⟩

theorem planCoverageStage_fails_iff (hround : round.Admitted) (hinputs : inputs.Admitted)
    (stageId : Option UUID) :
    Fails (planCoverageStage round.data round.settings (round.planner path) (round.fresh path)
      (round.now path) inputs stageId) ↔ round.Breaks path inputs := by
  unfold planCoverageStage PlanningRound.Breaks
  rw [fails_bind_right (plannableField_responds _ _), Prod.exists]
  refine exists_congr fun field => exists_congr fun areaHa => ?_
  rw [exists_and_left]
  refine and_congr_right fun _ => ?_
  rw [fails_bind_right (machineValues_responds hinputs hround.physical)]
  refine exists_congr fun machine => and_congr_right fun _ => ?_
  rw [fails_bind, coverageParams_fails_iff]
  refine or_congr Iff.rfl (exists_congr fun params => and_congr coverageParams_eq_ok ?_)
  rw [fails_bind_left]
  · exact @plan_fails_iff _ ⟨field.geometry, params⟩ (hround.planner path)
  · intro plan _
    rw [fails_map]
    exact (validatePlan_responds _ _ _).not_fails

theorem planStep_fails_iff (hround : round.Admitted) (hitem : item.fields.Admitted item.stageId)
    (hplans : item.fields.carries = false) :
    Fails (round.planStep stored planned item) ↔ round.BreaksAt stored item := by
  unfold PlanningRound.planStep PlanningRound.BreaksAt
  rw [fails_bind_left]
  · unfold PlanningRound.planIfChanged
    rw [fails_bind_right (fromFields_responds hitem hplans)]
    refine exists_congr fun inputs => and_congr_right fun hfields => ?_
    have hinputs := (fromFields_responds hitem hplans).returns inputs hfields
    rw [fails_bind_right (keptUnchanged_responds hround hinputs)]
    constructor
    · rintro ⟨same, hsame, hfails⟩
      cases same with
      | true => exact absurd hfails (not_fails_ok _)
      | false =>
        rw [if_neg Bool.false_ne_true, fails_map] at hfails
        exact ⟨hsame, (planCoverageStage_fails_iff hround hinputs _).mp hfails⟩
    · rintro ⟨hsame, hbreaks⟩
      refine ⟨false, hsame, ?_⟩
      rw [if_neg Bool.false_ne_true, fails_map]
      exact (planCoverageStage_fails_iff hround hinputs _).mpr hbreaks
  · intro result _
    cases result with
    | none => exact not_fails_ok _
    | some fresh => exact not_fails_ok _

theorem replanStep_fails_iff (hround : round.Admitted) (hitem : item.fields.Admitted item.stageId)
    (hplans : item.fields.carries = false) (missionId : UUID) :
    Fails (round.replanStep stored missionId planned item) ↔
      round.BreaksUnderLock stored planned item := by
  unfold PlanningRound.replanStep PlanningRound.BreaksUnderLock
  cases hl : planned.lookup item.path with
  | some stage => exact iff_of_false (not_fails_ok _) nofun
  | none =>
    rw [Option.isSome_none, if_neg Bool.false_ne_true,
      fails_bind_right (responds_orRaise rfl)]
    constructor
    · rintro ⟨kept, hkept, hfails⟩
      rw [orRaise_eq_ok] at hkept
      exact ⟨rfl, by simp [hkept], (planStep_fails_iff hround hitem hplans).mp hfails⟩
    · rintro ⟨-, hkept, hbreaks⟩
      obtain ⟨kept, hkept⟩ := Option.ne_none_iff_exists'.mp hkept
      exact ⟨kept, orRaise_eq_ok.mpr hkept, (planStep_fails_iff hround hitem hplans).mpr hbreaks⟩

/-- A round fails where it comes to an item that fails. -/
theorem foldlM_fails_iff {step : PlannedStages → PlanItem → Except ServiceError PlannedStages}
    {items : List PlanItem} {P : PlannedStages → PlanItem → Prop}
    (h : ∀ item ∈ items, ∀ planned, Fails (step planned item) ↔ P planned item) :
    Fails (items.foldlM step planned) ↔ ComesTo step items planned P := by
  have hfails : ∀ ahead item rest, items = ahead ++ item :: rest → ∀ planned',
      Fails (step planned' item) ↔ P planned' item := by
    rintro ahead item rest rfl planned'
    exact h item (by simp) planned'
  constructor
  · rintro hround
    obtain ⟨ahead, item, rest, planned', hitems, hahead, hitem⟩ := Raises.foldlM_iff.mp hround
    exact ⟨ahead, item, rest, planned', hitems, hahead, (hfails _ _ _ hitems _).mp hitem⟩
  · rintro ⟨ahead, item, rest, planned', hitems, hahead, hitem⟩
    refine Raises.foldlM_iff.mpr ⟨ahead, item, rest, planned', hitems, hahead, ?_⟩
    exact (hfails _ _ _ hitems _).mpr hitem

end Planning

namespace MissionEditing
variable {first locked d : Definitions} {round round' : PlanningRound} {now : Datetime}
  {command : UpdateMissionCommand} {planned : PlannedStages}

theorem updatePlan_fails_iff (hfirst : first.Valid) (hround : round.Admitted)
    (hcmd : InputsAdmitted command.inputs) :
    Fails (updatePlan first round command) ↔ BreaksAhead first round command := by
  unfold updatePlan BreaksAhead
  unfold UpdateMissionCommand.inputs at hcmd
  cases hstages : command.stages with
  | none => exact iff_of_false (not_fails_ok _) (by simp)
  | some inputs =>
    rw [hstages] at hcmd
    simp only [Option.some.injEq, exists_and_left, exists_eq_left']
    rw [fails_bind_right (requireOpen_responds hfirst _)]
    refine exists_congr fun unlocked => and_congr_right fun _ => ?_
    unfold PlanningRound.planInputs
    rw [fails_bind_right (checkInputIds_responds _ _ _ _)]
    refine Unique.exists_iff.trans (and_congr_right fun _ => foldlM_fails_iff fun item hitem _ => ?_)
    obtain ⟨hfields, hplans⟩ := admitted_of_mem hcmd hitem
    exact planStep_fails_iff hround hfields hplans

theorem update_fails_iff (hlocked : locked.Valid) (hround : round.Admitted)
    (hcmd : InputsAdmitted command.inputs) (hplanned : PlansValid planned) :
    Fails (update locked round now command planned) ↔
      BreaksUnderLock locked round command planned := by
  unfold update BreaksUnderLock
  unfold UpdateMissionCommand.inputs at hcmd
  rw [fails_bind_right (requireOpen_responds hlocked _)]
  cases hstages : command.stages with
  | none =>
    refine iff_of_false ?_ (by simp)
    rintro ⟨before, -, hfails⟩
    exact not_fails_ok _ hfails
  | some inputs =>
    rw [hstages] at hcmd
    simp only [Option.some.injEq, exists_and_left, exists_eq_left']
    refine exists_congr fun before => and_congr_right fun hopen => ?_
    obtain ⟨-, hbefore⟩ := (requireOpen_responds hlocked _).returns before hopen
    rw [fails_map]
    unfold updatedStages
    -- Once everything is planned, only domain errors are left.
    rw [fails_bind_left]
    · refine foldlM_fails_iff fun item hitem _ => ?_
      obtain ⟨hfields, hplans⟩ := admitted_of_mem hcmd hitem
      exact replanStep_fails_iff hround hfields hplans _
    · intro planned' hreplan
      have hvalid := (replanChangedMeanwhile_returns hround hcmd _ hplanned).returns planned' hreplan
      have hchecked : ∀ stages, Responds (validateShape locked.sites stages >>= fun _ => pure stages)
          fun _ => True := fun stages => (validateShape_responds _ _).bind fun _ _ => .ok trivial
      refine Responds.not_fails ((withIds_valid ⟨hvalid, ?_⟩ hcmd).bind fun stages _ => hchecked stages)
      exact fun _ _ hk => hbefore.stages.storedCoverage hk

/-- What a request raises ahead of its write is a domain error unless one of its plannings breaks. -/
theorem request_fails_iff (hfirst : first.Valid) (hlocked : locked.Valid) (hround : round.Admitted)
    (hround' : round'.Admitted) (hcmd : InputsAdmitted command.inputs) :
    Fails (updatePlan first round command >>= update locked round' now command) ↔
      Breaks first locked round round' command := by
  unfold Breaks
  rw [fails_bind, updatePlan_fails_iff hfirst hround hcmd]
  refine or_congr Iff.rfl (exists_congr fun planned => and_congr_right fun hplan => ?_)
  have hplanned := (updatePlan_returns hfirst hround hcmd).returns planned hplan
  exact update_fails_iff hlocked hround' hcmd hplanned

end MissionEditing

end Leitstand
