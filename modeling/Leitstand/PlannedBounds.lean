import Leitstand.MissionBounds
import Leitstand.WellFormedMissions

namespace Leitstand
open Except

section Checks
variable {β : Type} {c : Prop} [Decidable c] {e : ServiceError}

theorem responds_raiseIf (he : e.isDomain = true) : Responds (raiseIf c e) fun _ => ¬ c := by
  unfold raiseIf
  split_ifs with hc
  · exact .error he
  · exact .ok hc

theorem responds_orRaise {o : Option β} (he : e.isDomain = true) :
    Responds (orRaise e o) fun b => o = some b := by
  cases o with
  | none => exact .error he
  | some b => exact .ok rfl

end Checks

section Planning
variable {data : PlanningData} {settings : PlannerSettings} {planner : CoveragePlanner}
  {drawn : UUID} {now : Datetime} {inputs : CoverageInputs} {stageId : Option UUID}

theorem plannableField_responds (fieldId : UUID) (fields : Table FieldRecord.id) :
    Responds (plannableField fieldId fields) fun found => 0 < found.2 := by
  refine (responds_orRaise rfl).bind fun field _ => ?_
  refine (responds_orRaise rfl).bind fun areaHa harea => .ok ?_
  obtain ⟨-, hpos⟩ := Option.filter_eq_some_iff.mp harea
  simpa using hpos

theorem machineRadius_responds (hinputs : inputs.Admitted)
    (hphysical : PhysicalAdmitted data.factsheets) :
    Responds (machineRadius drawn inputs data.factsheets) fun found =>
      ¬ found.1 < 0 ∧ ∀ width ∈ found.2.1, ¬ width ≤ 0 := by
  unfold machineRadius
  cases hrobot : inputs.paramsRobotId with
  | none =>
    cases hradius : inputs.turningRadiusM with
    | none => exact absurd hinputs.robotOrRadius (by simp [hrobot, hradius])
    | some radius => exact .ok ⟨hinputs.turningRadiusM radius hradius, nofun⟩
  | some robotId =>
    refine (responds_orRaise rfl).bind fun factsheet hfactsheet => ?_
    refine (responds_orRaise rfl).bind fun physical hdeclared => ?_
    obtain ⟨htrack, hmin⟩ := hphysical robotId factsheet physical hfactsheet hdeclared
    have hwidth : ∀ width ∈ some physical.trackWidthM, ¬ width ≤ 0 := by simpa using htrack
    refine (responds_raiseIf rfl).bind fun _ _ => ?_
    cases hradius : inputs.turningRadiusM with
    | none => exact .ok ⟨hmin, hwidth⟩
    | some radius =>
      refine (responds_raiseIf rfl).bind fun _ _ => ?_
      exact .ok ⟨hinputs.turningRadiusM radius hradius, hwidth⟩

theorem machineValues_responds (hinputs : inputs.Admitted)
    (hphysical : PhysicalAdmitted data.factsheets) :
    Responds (machineValues drawn inputs data.factsheets) fun machine =>
      ¬ machine.turningRadiusM < 0 ∧ ¬ machine.headlandWidthM < 0 ∧
        ∀ width ∈ machine.trackWidthM, ¬ width ≤ 0 := by
  refine (machineRadius_responds hinputs hphysical).bind ?_
  rintro ⟨radius, track, sources⟩ ⟨hradius, htrack⟩
  cases hheadland : inputs.headlandWidthM with
  | none => exact .ok ⟨hradius, hradius, htrack⟩
  | some headland => exact .ok ⟨hradius, hinputs.headlandWidthM headland hheadland, htrack⟩

theorem validatePlan_responds (plan : CoveragePlan) (fieldAreaM2 : Rat) (params : CoverageParams) :
    Responds (validatePlan plan fieldAreaM2 params) fun _ => True := by
  refine (responds_raiseIf rfl).bind fun _ _ => ?_
  refine (responds_raiseIf rfl).bind fun _ _ => ?_
  refine (responds_raiseIf rfl).bind fun _ _ => ?_
  exact (responds_raiseIf rfl).mono (fun _ _ => trivial) fun _ he => he

end Planning

section Rounds
variable {round : PlanningRound} {path : InputPath} {inputs : CoverageInputs}
  {stageId : Option UUID} {stored : Table Stage.stageId}

/-- The planner settles the swath angle. -/
theorem CoverageParams.Admitted.resolved {params : CoverageParams} {angle : Option Rat}
    (h : params.Admitted) (hangle : ∀ a ∈ angle, 0 ≤ a ∧ a < 180) :
    CoverageParams.Admitted { params with swathAngleDeg := angle } :=
  ⟨h.operationWidthM, h.turningRadiusM, h.headlandWidthM, hangle, h.trackWidthM,
    h.linearCurvChange, h.turnSampleM⟩

/-- Finite parameters are within the bounds of their model, since what they are made of is. -/
theorem CoverageParams.Given.admitted {params : CoverageParams} {machine : MachineValues}
    (h : params.Given round.settings inputs machine) (hround : round.Admitted)
    (hinputs : inputs.Admitted) (hradius : ¬ machine.turningRadiusM < 0)
    (hheadland : ¬ machine.headlandWidthM < 0) (htrack : ∀ width ∈ machine.trackWidthM, ¬ width ≤ 0) :
    params.Admitted where
  operationWidthM := (PyFloat.not_le_zero h.operationWidthM).mp hinputs.operationWidthM
  turningRadiusM := (PyFloat.not_lt_zero h.turningRadiusM).mp hradius
  headlandWidthM := (PyFloat.not_lt_zero h.headlandWidthM).mp hheadland
  swathAngleDeg := by
    intro angle hangle
    obtain ⟨x, hx, hr⟩ := h.swathAngleDeg_of_mem hangle
    obtain ⟨hge, hlt⟩ := hinputs.swathAngleDeg x hx
    change ¬ PyFloat.finite 180 ≤ x at hlt
    rw [PyFloat.finite_le_of_toRat? hr, Rat.not_le] at hlt
    exact ⟨(PyFloat.not_lt_zero hr).mp hge, hlt⟩
  trackWidthM := by
    intro width hwidth
    obtain ⟨x, hx, hr⟩ := h.trackWidthM_of_mem hwidth
    exact (PyFloat.not_le_zero hr).mp (htrack x hx)
  linearCurvChange := by
    rw [h.linearCurvChange]
    simpa using hround.linearCurvChange
  turnSampleM := by
    rw [h.turnSampleM]
    simpa using hround.turnSampleM

/-- Within the bounds of its inputs a planning returns valid stages: no model that it builds from the
planner's answer refuses its values. -/
theorem planCoverageStage_returns (hround : round.Admitted) (hinputs : inputs.Admitted)
    (stageId : Option UUID) :
    ReturnsOnly (planCoverageStage round.data round.settings (round.planner path) (round.fresh path)
      (round.now path) inputs stageId) fun stage => AllValid [stage.toStage] := by
  refine (plannableField_responds _ _).toReturnsOnly.bind ?_
  rintro ⟨field, areaHa⟩ harea
  refine (machineValues_responds hinputs hround.physical).toReturnsOnly.bind fun machine hmachine => ?_
  obtain ⟨hradius, hheadland, htrack⟩ := hmachine
  refine (Except.Ensures.any _).returned.bind fun params ⟨hparams, _⟩ => ?_
  have hasked := (coverageParams_eq_ok.mp hparams).admitted hround hinputs hradius hheadland htrack
  obtain ⟨adapter, hadapter⟩ := hround.planner path
  rw [hadapter]
  have hanswer : ReturnsOnly (adapter.plan field.geometry params) CoveragePlan.Admitted :=
    adapter.plan_ensures.mono (fun _ hplan => hplan) fun _ _ => trivial
  refine hanswer.bind fun plan hplan => ?_
  refine (validatePlan_responds _ _ _).toReturnsOnly.bind fun _ _ => .ok ?_
  have hparams := hasked.resolved hplan.swathAngleDeg
  refine allValid_cons.mpr ⟨⟨⟨?_, ?_, ?_⟩, ?_⟩, allValid_nil, allValid_nil⟩
  · exact List.map_eq_nil_iff.not.mpr hplan.nonempty
  · intro segment hsegment
    obtain ⟨planned, hp, rfl⟩ := List.mem_map.mp hsegment
    change 2 ≤ (planned.waypoints.map WGS84Waypoint.toWaypoint).length
    rw [List.length_map]
    exact hplan.segments planned hp
  · intro w hw
    obtain ⟨segment, hsegment, hw⟩ := List.mem_flatMap.mp hw
    obtain ⟨planned, hp, rfl⟩ := List.mem_map.mp hsegment
    obtain ⟨w', hw', rfl⟩ := List.mem_map.mp hw
    exact hplan.waypoints planned hp w' hw'
  · intro provenance hp
    obtain rfl := Option.some.inj hp
    have hareaM2 : 0 < areaHa * 10000 := mul_pos harea (by norm_num)
    exact ⟨hround.boundaryDigest _, hareaM2, hparams, hplan.metrics, hplan.plannerVersion,
      hinputs.paramsRobotId⟩

theorem unchanged_responds (hround : round.Admitted) (hinputs : inputs.Admitted)
    (stage : CoverageStage) :
    Responds (unchanged round.data (round.fresh path) inputs stage) fun _ => True := by
  unfold unchanged
  cases stage.provenance.paramSources with
  | none => exact .ok trivial
  | some sources =>
    dsimp only
    split_ifs
    · exact .ok trivial
    · refine (plannableField_responds _ _).bind fun found _ => ?_
      split_ifs
      · exact .ok trivial
      · refine (machineValues_responds hinputs hround.physical).bind fun machine _ => ?_
        split_ifs
        · exact .ok trivial
        · exact .ok trivial

theorem fromFields_responds {fields : CoveragePlanningFields} (h : fields.Admitted stageId)
    (hplans : fields.carries = false) :
    Responds (CoverageInputs.fromFields fields) CoverageInputs.Admitted := by
  have hrobotOrRadius := h.robotOrRadius hplans
  have hwidth := h.plans hplans
  unfold CoverageInputs.fromFields
  unfold CoveragePlanningFields.carries at hplans
  cases hfield : fields.fieldId with
  | none =>
    rw [hfield] at hplans
    cases hplans
  | some fieldId =>
    cases hgiven : fields.operationWidthM with
    | none => exact absurd hgiven hwidth
    | some width =>
      exact .ok ⟨h.operationWidthM width hgiven, h.paramsRobotId, h.turningRadiusM,
        h.headlandWidthM, h.swathAngleDeg, hrobotOrRadius⟩

/-- The plans made for a request are valid stages. -/
def PlansValid (planned : PlannedStages) : Prop := ∀ entry ∈ planned, AllValid [entry.2.toStage]

variable {item : PlanItem} {planned : PlannedStages}

theorem keptUnchanged_responds (hround : round.Admitted) (hinputs : inputs.Admitted) :
    Responds (round.keptUnchanged item inputs stored) fun _ => True := by
  unfold PlanningRound.keptUnchanged
  cases item.stageId.bind (storedCoverage stored) with
  | none => exact .ok trivial
  | some kept => exact unchanged_responds hround hinputs kept

theorem planIfChanged_returns (hround : round.Admitted)
    (hitem : item.fields.Admitted item.stageId) (hplans : item.fields.carries = false) :
    ReturnsOnly (round.planIfChanged item stored)
      fun result => ∀ stage, result = some stage → AllValid [stage.toStage] := by
  refine (fromFields_responds hitem hplans).toReturnsOnly.bind fun inputs hinputs => ?_
  refine (keptUnchanged_responds hround hinputs).toReturnsOnly.bind fun same _ => ?_
  split_ifs
  · exact .ok fun _ h => nomatch h
  · refine (planCoverageStage_returns hround hinputs _).bind fun stage hstage => .ok ?_
    intro stage' hs
    exact Option.some.inj hs ▸ hstage

theorem planStep_returns (hround : round.Admitted) (hitem : item.fields.Admitted item.stageId)
    (hplans : item.fields.carries = false) (hplanned : PlansValid planned) :
    ReturnsOnly (round.planStep stored planned item) PlansValid := by
  refine (planIfChanged_returns hround hitem hplans).bind fun result hresult => ?_
  cases result with
  | none => exact .ok hplanned
  | some fresh =>
    refine .ok (List.forall_mem_append.mpr ⟨hplanned, ?_⟩)
    exact List.forall_mem_singleton.mpr (hresult fresh rfl)

theorem checkInputIds_responds (stored : Table Stage.stageId) (missionId : Option UUID)
    (seen : List UUID) (xs : List StageInput) :
    Responds (PlanningRound.checkInputIds stored missionId seen xs) fun _ => True := by
  induction xs generalizing seen with
  | nil => exact .ok trivial
  | cons x rest ih =>
    obtain ⟨_ | i, cs, d⟩ := x
    · exact ih seen
    · refine (responds_raiseIf rfl).bind fun _ _ => ?_
      cases d with
      | navigation => exact ih (i :: seen)
      | coverage => exact (responds_raiseIf rfl).bind fun _ _ => ih (i :: seen)

theorem admitted_of_mem {inputs : List StageInput} (hinputs : InputsAdmitted inputs)
    (hitem : item ∈ coverageInputsToPlan inputs) :
    item.fields.Admitted item.stageId ∧ item.fields.carries = false := by
  obtain ⟨cs, hx, hplans⟩ := mem_coverageInputsToPlan.mp hitem
  exact ⟨hinputs _ hx, hplans⟩

theorem planInputs_returns {inputs : List StageInput} (hround : round.Admitted)
    (hinputs : InputsAdmitted inputs) (stored : Table Stage.stageId) (missionId : Option UUID) :
    ReturnsOnly (round.planInputs inputs stored missionId) PlansValid := by
  refine (checkInputIds_responds _ _ _ _).toReturnsOnly.bind fun _ _ => ?_
  refine .foldlM (fun _ h => nomatch h) fun planned item hitem hplanned => ?_
  obtain ⟨hfields, hplans⟩ := admitted_of_mem hinputs hitem
  exact planStep_returns hround hfields hplans hplanned

theorem replanChangedMeanwhile_returns {inputs : List StageInput} (hround : round.Admitted)
    (hinputs : InputsAdmitted inputs) (missionId : UUID) (hplanned : PlansValid planned) :
    ReturnsOnly (round.replanChangedMeanwhile missionId inputs stored planned) PlansValid := by
  refine .foldlM hplanned fun planned item hitem hplanned => ?_
  obtain ⟨hfields, hplans⟩ := admitted_of_mem hinputs hitem
  unfold PlanningRound.replanStep
  split_ifs
  · exact .ok hplanned
  · refine (Except.Ensures.any _).bind fun _ _ => planStep_returns hround hfields hplans hplanned

end Rounds

section Identity
variable {ctx : IdContext} {here path : InputPath} {n : Nat} {seen : List UUID}
  {inputs : List StageInput}

theorem IdContext.name_responds (i : Option UUID) :
    Responds (ctx.name seen i) fun _ => True := by
  cases i with
  | none => exact .ok trivial
  | some i =>
    refine (responds_raiseIf rfl).bind fun _ _ => ?_
    exact (responds_raiseIf rfl).bind fun _ _ => .ok trivial

theorem IdContext.claimIds_responds (seen ids : List UUID) :
    Responds (IdContext.claimIds seen ids) fun _ => True := by
  induction ids generalizing seen with
  | nil => exact .ok trivial
  | cons i rest ih => exact (responds_raiseIf rfl).bind fun _ _ => ih (i :: seen)

/-- What coverage inputs are answered with, planned or stored, is valid. -/
structure IdContext.Supplies (ctx : IdContext) : Prop where
  planned : PlansValid ctx.planned
  stored : ∀ i kept, storedCoverage ctx.stored i = some kept → AllValid [kept.toStage]

theorem IdContext.resolve_responds (hctx : ctx.Supplies) (i : Option UUID) :
    Responds (ctx.resolve here i) fun resolved => AllValid [resolved.toStage] := by
  unfold resolve
  cases hl : ctx.planned.lookup here with
  | some resolved =>
    obtain ⟨before, after, hplanned, -⟩ := List.lookup_eq_some_iff.mp hl
    have hmem : (here, resolved) ∈ ctx.planned := by simp [hplanned]
    exact .ok (hctx.planned _ hmem)
  | none =>
    refine (responds_orRaise rfl).mono (fun resolved hr => ?_) fun _ he => he
    obtain ⟨j, -, hk⟩ := Option.bind_eq_some_iff.mp hr
    exact hctx.stored j resolved hk

theorem IdContext.staged_valid (hctx : ctx.Supplies) {i : Option UUID}
    {requested : Option (List StageInput)} {onCancel : Option (List Stage)} {d : InputDetail}
    (hinput : (StageInput.mk i requested d).Admitted) (hbelow : AllValid (onCancel.getD [])) :
    Responds (ctx.staged here seen i requested onCancel d) fun result => AllValid [result.1] := by
  cases d with
  | navigation waypoints =>
    obtain ⟨hne, hwaypoints⟩ := hinput
    refine .ok (allValid_cons.mpr ⟨⟨⟨hne, ?_, hwaypoints⟩, ?_⟩, hbelow, allValid_nil⟩)
    · exact fun _ h => nomatch h
    · exact fun _ h => nomatch h
  | coverage fields =>
    refine (resolve_responds hctx i).bind fun resolved hresolved => ?_
    obtain ⟨hown, hkids, -⟩ := allValid_cons.mp hresolved
    dsimp only
    split_ifs
    · refine (claimIds_responds _ _).bind fun _ _ => .ok ?_
      exact allValid_cons.mpr ⟨hown, hkids, allValid_nil⟩
    · exact .ok (allValid_cons.mpr ⟨hown.relabelled, hbelow, allValid_nil⟩)

/-- The stages that answer a request are valid at every depth. -/
theorem buildFrom_valid (hctx : ctx.Supplies)
    (hinputs : ∀ x ∈ walkFrom path n inputs, x.2.Admitted) :
    Responds (buildFrom ctx path n seen inputs) fun result => AllValid result.1 := by
  induction inputs using inputsInduction generalizing path n seen with
  | nil => exact .ok allValid_nil
  | cons i cs d rest ihs ih =>
    rw [walkFrom_cons, List.forall_mem_cons, List.forall_mem_append] at hinputs
    obtain ⟨hhere, hbelow, hrest⟩ := hinputs
    rw [buildFrom_cons_eq]
    refine (IdContext.name_responds i).bind fun seen₁ _ => ?_
    refine (ihs hbelow).bind fun below hkids => ?_
    rw [← getD_cleanupOf below.1] at hkids
    refine (IdContext.staged_valid hctx hhere hkids).bind fun own hown => ?_
    refine (ih hrest).bind fun others hothers => .ok ?_
    obtain ⟨⟨j, cs', d'⟩, seen₃⟩ := own
    obtain ⟨hstage, hchildren, -⟩ := allValid_cons.mp hown
    exact allValid_cons.mpr ⟨hstage, hchildren, hothers⟩

theorem withIds_valid (hctx : ctx.Supplies) (hinputs : InputsAdmitted inputs) :
    Responds (withIds ctx inputs) AllValid :=
  (buildFrom_valid hctx hinputs).bind fun _ hstages => .ok hstages

end Identity

section Shape

theorem visitFrom_responds {rule : Nat → Stage → Except ServiceError Unit}
    (h : ∀ index s, Responds (rule index s) fun _ => True) (index : Nat) (stages : List Stage) :
    Responds (visitFrom rule index stages) fun _ => True := by
  induction stages using stagesInduction generalizing index with
  | nil => exact .ok trivial
  | cons i cs d rest ihs ih =>
    have hcleanup : visitCleanup rule cs = visitFrom rule 0 (cs.getD []) := by
      cases cs <;> rfl
    rw [visitFrom, Stage.visit, hcleanup]
    exact ((h index _).bind fun _ _ => ihs 0).bind fun _ _ => ih (index + 1)

/-- Stages that pass the checks drive at sites of the catalog. -/
theorem validateShape_responds (sites : Table Site.siteId) (stages : List Stage) :
    Responds (MissionEditing.validateShape sites stages) fun _ => SitesKnown sites stages := by
  have hrule : ∀ (c : Prop) [Decidable c] (e : ServiceError), e.isDomain = true →
      Responds (raiseIf c e) fun _ => True := fun c _ e he =>
    (responds_raiseIf he).mono (fun _ _ => trivial) fun _ he => he
  refine (visitFrom_responds (fun _ _ => hrule _ _ rfl) 0 stages).bind fun _ _ => ?_
  have hexist : Responds (MissionEditing.validateSitesExist sites stages)
      fun _ => ∀ siteId ∈ referencedSiteIds stages, ¬ (sites.find? siteId).isNone :=
    .forM fun siteId _ => responds_raiseIf rfl
  refine hexist.bind fun _ hsites => ?_
  refine (visitFrom_responds (fun _ _ => hrule _ _ rfl) 0 stages).mono (fun _ _ => ?_) fun _ he => he
  intro siteId hsite
  simpa [Option.isSome_iff_ne_none] using hsites siteId (List.mem_eraseDups.mpr hsite)

end Shape

end Leitstand
