import Mathlib.Algebra.Order.Ring.Rat
import Mathlib.Algebra.Order.Group.Unbundled.Abs
import Mathlib.Tactic.NormNum
import Leitstand.RunService

namespace Leitstand

/-- What a coverage stage is planned from, as a request gives it, in whatever numbers. -/
structure CoveragePlanningFields where
  fieldId : Option UUID := none
  operationWidthM : Option PyFloat := none
  paramsRobotId : Option RobotId := none
  turningRadiusM : Option PyFloat := none
  headlandWidthM : Option PyFloat := none
  swathAngleDeg : Option PyFloat := none
  allowOverlap : Bool := false

def CoveragePlanningFields.carries (fields : CoveragePlanningFields) : Bool := fields.fieldId.isNone

/-- What determines a coverage plan. -/
structure CoverageInputs where
  fieldId : UUID
  operationWidthM : PyFloat
  paramsRobotId : Option RobotId
  turningRadiusM : Option PyFloat
  headlandWidthM : Option PyFloat
  swathAngleDeg : Option PyFloat
  allowOverlap : Bool

def CoverageInputs.fromFields (fields : CoveragePlanningFields) :
    Except ServiceError CoverageInputs :=
  match fields.fieldId, fields.operationWidthM with
  | some fieldId, some operationWidthM => .ok
      { fieldId, operationWidthM, paramsRobotId := fields.paramsRobotId
        turningRadiusM := fields.turningRadiusM, headlandWidthM := fields.headlandWidthM
        swathAngleDeg := fields.swathAngleDeg, allowOverlap := fields.allowOverlap }
  | _, _ => .error (.valueError "a carried coverage stage has no planning inputs")

structure WGS84Waypoint where
  lat : Rat
  lon : Rat
  headingDeg : Option Rat

def WGS84Waypoint.toWaypoint (w : WGS84Waypoint) : Waypoint := .wgs84 w.lat w.lon w.headingDeg

structure PlannedSegment where
  kind : SegmentKind
  waypoints : List WGS84Waypoint

/-- A path over one field boundary, with the metrics that describe it. -/
structure CoveragePlan where
  segments : List PlannedSegment
  mainlandBoundary : Polygon
  swathAngleDeg : Option Rat
  metrics : CoverageMetrics
  plannerVersion : String

/-- A field as planning reads it. -/
structure FieldRecord where
  id : UUID
  geometry : Polygon
  areaHa : Option Rat

/-- The planner's answer to a boundary and parameters. -/
abbrev CoveragePlanner := Polygon → CoverageParams → Except ServiceError CoveragePlan

/-- What plans are made from and compared with. -/
structure PlanningData where
  digests : Digests
  fields : Table FieldRecord.id
  factsheets : Factsheets

structure PlannerSettings where
  turnSampleM : Rat
  linearCurvChange : Rat

def radiusToleranceM : Rat := 1 / 1000000000

def angleToleranceDeg : Rat := 1 / 1000000

theorem angleToleranceDeg_pos : 0 < angleToleranceDeg := by
  unfold angleToleranceDeg
  norm_num

def minCoveredFraction : Rat := 1 / 4

def maxCoveredFraction : Rat := 5 / 4

def maxSweptAreaRatio : Rat := 2

/-- Reject a plan whose numbers do not describe the field it claims to cover. -/
def validatePlan (plan : CoveragePlan) (fieldAreaM2 : Rat) (params : CoverageParams) :
    Except ServiceError Unit := do
  let swaths := (plan.segments.filter fun s => s.kind = .swath).length
  raiseIf (plan.metrics.swathCount ≠ swaths)
    (.coveragePlanRejected (.swathCount plan.metrics.swathCount swaths))
  let covered := plan.metrics.coveredAreaM2
  let mainland := (plan.metrics.mainlandAreaM2.filter fun m => m ≠ 0).getD fieldAreaM2
  raiseIf (covered / mainland < minCoveredFraction) (.coveragePlanRejected
    (.coversTooLittle covered mainland params.headlandWidthM fieldAreaM2))
  raiseIf (covered / fieldAreaM2 > maxCoveredFraction)
    (.coveragePlanRejected (.coversTooMuch covered fieldAreaM2))
  let swept := plan.metrics.trackLengthM * params.operationWidthM
  raiseIf (¬ (covered / maxSweptAreaRatio ≤ swept ∧ swept ≤ covered * maxSweptAreaRatio))
    (.coveragePlanRejected
      (.sweepDisagrees plan.metrics.trackLengthM params.operationWidthM swept covered))

def plannableField (fieldId : UUID) (fields : Table FieldRecord.id) :
    Except ServiceError (FieldRecord × Rat) := do
  let field ← orRaise (.fieldNotFound fieldId) (fields.find? fieldId)
  let areaHa ← orRaise (.fieldNotPlannable fieldId) (field.areaHa.filter fun area => ¬ area ≤ 0)
  pure (field, areaHa)

/-- The values the planner is given, with a record of where each came from. -/
structure MachineValues where
  turningRadiusM : PyFloat
  headlandWidthM : PyFloat
  trackWidthM : Option PyFloat
  sources : List (String × String)

/-- The radius and track width with their sources; `drawn` is the stage id that a refusal makes up. -/
def machineRadius (drawn : UUID) (inputs : CoverageInputs) (factsheets : Factsheets) :
    Except ServiceError (PyFloat × Option PyFloat × List (String × String)) :=
  match inputs.paramsRobotId with
  | none => do
    let radius ← orRaise (.valueError
      "planning a coverage stage needs params_robot_id or turning_radius_m") inputs.turningRadiusM
    pure (radius, none, [("turning_radius_m", "manual")])
  | some robotId => do
    let factsheet ← orRaise (.robotFactsheetMissing robotId) (factsheets.find? robotId)
    let physical ← orRaise (.robotPhysicalParametersMissing robotId) factsheet.physicalParameters
    raiseIf (factsheet.coverage = none) (.unsupportedStageKind robotId drawn .coverage)
    let declared := "factsheet:" ++ robotId
    match inputs.turningRadiusM with
    | none => pure (physical.minTurningRadiusM, some physical.trackWidthM,
        [("turning_radius_m", declared), ("track_width_m", declared)])
    | some radius => do
      raiseIf (radius < physical.minTurningRadiusM - (radiusToleranceM : PyFloat))
        (.turningRadiusBelowRobot robotId radius physical.minTurningRadiusM)
      pure (radius, some physical.trackWidthM,
        [("turning_radius_m", "manual"), ("track_width_m", declared)])

/-- Resolve radius, headland and track width from the robot's factsheet or the inputs. -/
def machineValues (drawn : UUID) (inputs : CoverageInputs) (factsheets : Factsheets) :
    Except ServiceError MachineValues := do
  let (radius, track, sources) ← machineRadius drawn inputs factsheets
  match inputs.headlandWidthM with
  | none => pure ⟨radius, radius, track, sources ++ [("headland_width_m", "turning_radius")]⟩
  | some headland => pure ⟨radius, headland, track, sources ++ [("headland_width_m", "manual")]⟩

/-- A number of the planning parameters, whose model takes finite ones only. -/
def finiteNumber (field : String) (x : PyFloat) : Except ServiceError Rat :=
  orRaise (.validationError field) x.toRat?

def finiteNumber? (field : String) : Option PyFloat → Except ServiceError (Option Rat)
  | none => .ok none
  | some x => some <$> finiteNumber field x

/-- The parameters to plan with. Their bounds are those of the request, the factsheet and the settings,
which have checked them; that a number is finite is checked here first. -/
def coverageParams (settings : PlannerSettings) (inputs : CoverageInputs) (machine : MachineValues) :
    Except ServiceError CoverageParams := do
  let operationWidthM ← finiteNumber "operation_width_m" inputs.operationWidthM
  let turningRadiusM ← finiteNumber "turning_radius_m" machine.turningRadiusM
  let headlandWidthM ← finiteNumber "headland_width_m" machine.headlandWidthM
  let swathAngleDeg ← finiteNumber? "swath_angle_deg" inputs.swathAngleDeg
  let trackWidthM ← finiteNumber? "track_width_m" machine.trackWidthM
  pure
    { operationWidthM, turningRadiusM, headlandWidthM, swathAngleDeg, trackWidthM
      allowOverlap := some inputs.allowOverlap, linearCurvChange := some settings.linearCurvChange
      turnSampleM := some settings.turnSampleM }

/-- Plan one coverage stage from its inputs; never writes. -/
def planCoverageStage (data : PlanningData) (settings : PlannerSettings) (planner : CoveragePlanner)
    (drawn : UUID) (now : Datetime) (inputs : CoverageInputs) (stageId : Option UUID) :
    Except ServiceError CoverageStage := do
  let (field, areaHa) ← plannableField inputs.fieldId data.fields
  let machine ← machineValues drawn inputs data.factsheets
  let params ← coverageParams settings inputs machine
  let fieldAreaM2 := areaHa * 10000
  let plan ← planner field.geometry params
  let params := { params with swathAngleDeg := plan.swathAngleDeg }
  validatePlan plan fieldAreaM2 params
  let sources := machine.sources ++
    [("swath_angle_deg", if inputs.swathAngleDeg.isSome then "manual" else "planner")]
  pure
    { stageId := stageId.getD drawn, onCancel := none
      segments := plan.segments.map fun s => ⟨s.kind, s.waypoints.map WGS84Waypoint.toWaypoint⟩
      provenance :=
        { fieldId := field.id, boundaryDigest := data.digests.boundaryDigest field.geometry
          fieldAreaM2, mainlandBoundary := some plan.mainlandBoundary, params
          metrics := plan.metrics, plannerVersion := plan.plannerVersion
          plannedForRobotId := inputs.paramsRobotId, paramSources := some sources
          plannedAt := now } }

/-- Whether the stored swath angle is the one asked for; a stored one is the planner's echo. -/
def sameAngle (requested : Option PyFloat) (source : Option String) (stored : Option Rat) : Bool :=
  match requested with
  | none => source = some "planner"
  | some angle => source = some "manual" && stored.any fun angle' : Rat =>
      (angle - (angle' : PyFloat)).abs < (angleToleranceDeg : PyFloat)

/-- Python's `==` of a number that may be left out with a stored one. -/
def sameNumber : Option PyFloat → Option Rat → Bool
  | none, none => true
  | some x, some r => x.pyEq r
  | _, _ => false

/-- True when planning `inputs` again would reproduce `stored`. -/
def unchanged (data : PlanningData) (drawn : UUID) (inputs : CoverageInputs)
    (stored : CoverageStage) : Except ServiceError Bool :=
  match stored.provenance.paramSources with
  | none => .ok false
  | some sources =>
    if inputs.fieldId ≠ stored.provenance.fieldId then .ok false
    else do
      let (field, _) ← plannableField inputs.fieldId data.fields
      if data.digests.boundaryDigest field.geometry ≠ stored.provenance.boundaryDigest then
        return false
      let machine ← machineValues drawn inputs data.factsheets
      let params := stored.provenance.params
      if ¬ inputs.operationWidthM.pyEq params.operationWidthM ∨
          ¬ machine.turningRadiusM.pyEq params.turningRadiusM ∨
          ¬ machine.headlandWidthM.pyEq params.headlandWidthM ∨
          ¬ sameNumber machine.trackWidthM params.trackWidthM ∨
          inputs.allowOverlap ≠ params.allowOverlap.getD false ∨
          inputs.paramsRobotId ≠ stored.provenance.plannedForRobotId then
        return false
      return sameAngle inputs.swathAngleDeg (sources.lookup "swath_angle_deg") params.swathAngleDeg

/-- A planner that is asked for a swath angle reports it back, rounding apart. -/
def EchoesAngle (planner : CoveragePlanner) : Prop :=
  ∀ boundary params plan angle, planner boundary params = .ok plan →
    params.swathAngleDeg = some angle →
    ∃ angle', plan.swathAngleDeg = some angle' ∧ |angle - angle'| < angleToleranceDeg

section Params
variable {settings : PlannerSettings} {inputs : CoverageInputs} {machine : MachineValues}
  {params : CoverageParams} {field : String}

/-- The parameters have the values that the request, the robot and the settings give. -/
structure CoverageParams.Given (params : CoverageParams) (settings : PlannerSettings)
    (inputs : CoverageInputs) (machine : MachineValues) : Prop where
  operationWidthM : inputs.operationWidthM.toRat? = some params.operationWidthM
  turningRadiusM : machine.turningRadiusM.toRat? = some params.turningRadiusM
  headlandWidthM : machine.headlandWidthM.toRat? = some params.headlandWidthM
  swathAngleDeg : inputs.swathAngleDeg.map PyFloat.toRat? = params.swathAngleDeg.map some
  trackWidthM : machine.trackWidthM.map PyFloat.toRat? = params.trackWidthM.map some
  allowOverlap : params.allowOverlap = some inputs.allowOverlap
  linearCurvChange : params.linearCurvChange = some settings.linearCurvChange
  turnSampleM : params.turnSampleM = some settings.turnSampleM

theorem CoverageParams.Given.swathAngleDeg_of_mem (h : params.Given settings inputs machine)
    {angle : Rat} (ha : angle ∈ params.swathAngleDeg) :
    ∃ x ∈ inputs.swathAngleDeg, x.toRat? = some angle :=
  Option.map_eq_some_iff.mp (h.swathAngleDeg.trans (congrArg (Option.map some) ha))

theorem CoverageParams.Given.trackWidthM_of_mem (h : params.Given settings inputs machine)
    {width : Rat} (hw : width ∈ params.trackWidthM) :
    ∃ x ∈ machine.trackWidthM, x.toRat? = some width :=
  Option.map_eq_some_iff.mp (h.trackWidthM.trans (congrArg (Option.map some) hw))

theorem finiteNumber_eq_ok {x : PyFloat} {r : Rat} :
    finiteNumber field x = .ok r ↔ x.toRat? = some r := orRaise_eq_ok

theorem finiteNumber?_eq_ok {x : Option PyFloat} {r : Option Rat} :
    finiteNumber? field x = .ok r ↔ x.map PyFloat.toRat? = r.map some := by
  cases x with
  | none =>
    cases r <;> simp [finiteNumber?]
  | some x =>
    change (finiteNumber field x >>= fun q => Except.ok (some q)) = .ok r ↔ _
    rw [bind_eq_ok]
    cases r with
    | none => simp
    | some r => simp [finiteNumber_eq_ok]

theorem coverageParams_eq_ok :
    coverageParams settings inputs machine = .ok params ↔ params.Given settings inputs machine := by
  constructor
  · intro h
    obtain ⟨width, hwidth, h⟩ := bind_eq_ok.mp h
    obtain ⟨radius, hradius, h⟩ := bind_eq_ok.mp h
    obtain ⟨headland, hheadland, h⟩ := bind_eq_ok.mp h
    obtain ⟨angle, hangle, h⟩ := bind_eq_ok.mp h
    obtain ⟨track, htrack, h⟩ := bind_eq_ok.mp h
    obtain rfl := Except.ok.inj h
    exact ⟨finiteNumber_eq_ok.mp hwidth, finiteNumber_eq_ok.mp hradius,
      finiteNumber_eq_ok.mp hheadland, finiteNumber?_eq_ok.mp hangle, finiteNumber?_eq_ok.mp htrack,
      rfl, rfl, rfl⟩
  · intro h
    obtain ⟨hwidth, hradius, hheadland, hangle, htrack, hoverlap, hcurv, hsample⟩ := h
    obtain ⟨width, radius, headland, angle, overlap, track, curv, sample⟩ := params
    obtain rfl := hoverlap
    obtain rfl := hcurv
    obtain rfl := hsample
    refine bind_eq_ok.mpr ⟨_, finiteNumber_eq_ok.mpr hwidth, ?_⟩
    refine bind_eq_ok.mpr ⟨_, finiteNumber_eq_ok.mpr hradius, ?_⟩
    refine bind_eq_ok.mpr ⟨_, finiteNumber_eq_ok.mpr hheadland, ?_⟩
    refine bind_eq_ok.mpr ⟨_, finiteNumber?_eq_ok.mpr hangle, ?_⟩
    exact bind_eq_ok.mpr ⟨_, finiteNumber?_eq_ok.mpr htrack, rfl⟩

theorem sameNumber_iff {x : Option PyFloat} {r : Option Rat} :
    sameNumber x r ↔ x.map PyFloat.toRat? = r.map some := by
  cases x <;> cases r <;> simp [sameNumber, PyFloat.pyEq_finite]

/-- A finite swath angle is the one a stage was planned with: open in both, or asked for and echoed. -/
structure AngleKept (requested : Option Rat) (source : Option String) (stored : Option Rat) :
    Prop where
  planner : requested = none → source = some "planner"
  manual : ∀ angle, requested = some angle → source = some "manual" ∧
    ∃ angle', stored = some angle' ∧ |angle - angle'| < angleToleranceDeg

theorem sameAngle_eq_true {requested : Option PyFloat} {source : Option String} {stored : Option Rat} :
    sameAngle requested source stored = true ↔ ∃ angle : Option Rat,
      requested.map PyFloat.toRat? = angle.map some ∧ AngleKept angle source stored := by
  cases requested with
  | none =>
    change decide (source = some "planner") = true ↔ _
    rw [decide_eq_true_iff]
    constructor
    · exact fun h => ⟨none, rfl, fun _ => h, nofun⟩
    · rintro ⟨angle, ha, hkept⟩
      exact hkept.planner (Option.map_eq_none_iff.mp ha.symm)
  | some x =>
    unfold sameAngle
    dsimp only
    rw [Bool.and_eq_true, decide_eq_true_iff, Option.any_eq_true]
    simp only [decide_eq_true_iff, PyFloat.abs_sub_lt_iff]
    constructor
    · rintro ⟨hsource, angle', hstored, angle, hx, hlt⟩
      refine ⟨some angle, congrArg some hx, nofun, ?_⟩
      rintro _ ⟨⟩
      exact ⟨hsource, angle', hstored, hlt⟩
    · rintro ⟨angle, ha, hkept⟩
      obtain ⟨p, rfl, hp⟩ := Option.map_eq_some_iff.mp ha.symm
      obtain ⟨hsource, angle', hstored, hlt⟩ := hkept.manual p rfl
      exact ⟨hsource, angle', hstored, p, hp.symm, hlt⟩

/-- Where the planner echoes the angle that was asked for, the stored one is the one asked for. -/
theorem angleKept_echo {requested stored : Option Rat}
    (h : ∀ angle, requested = some angle →
      ∃ angle', stored = some angle' ∧ |angle - angle'| < angleToleranceDeg) :
    AngleKept requested (some (if requested.isSome then "manual" else "planner")) stored where
  planner := by
    rintro rfl
    rfl
  manual := by
    rintro angle rfl
    exact ⟨rfl, h angle rfl⟩

end Params

section Planned
variable {data : PlanningData} {settings : PlannerSettings} {planner : CoveragePlanner}
  {drawn drawn' : UUID} {now : Datetime} {inputs : CoverageInputs} {stageId : Option UUID}
  {stage : CoverageStage}

/-- The made-up stage id shows in a refusal only. -/
theorem machineRadius_drawn {factsheets : Factsheets}
    {values : PyFloat × Option PyFloat × List (String × String)}
    (h : machineRadius drawn inputs factsheets = .ok values) :
    machineRadius drawn' inputs factsheets = .ok values := by
  unfold machineRadius at h ⊢
  cases hr : inputs.paramsRobotId with
  | none => rwa [hr] at h
  | some robotId =>
    rw [hr] at h
    obtain ⟨factsheet, hf, h⟩ := bind_eq_ok.mp h
    obtain ⟨physical, hp, h⟩ := bind_eq_ok.mp h
    obtain ⟨u, hc, h⟩ := bind_eq_ok.mp h
    refine bind_eq_ok.mpr ⟨factsheet, hf, bind_eq_ok.mpr ⟨physical, hp, ?_⟩⟩
    exact bind_eq_ok.mpr ⟨u, raiseIf_eq_ok.mpr (raiseIf_eq_ok.mp hc), h⟩

theorem machineValues_drawn {factsheets : Factsheets} {machine : MachineValues}
    (h : machineValues drawn inputs factsheets = .ok machine) :
    machineValues drawn' inputs factsheets = .ok machine := by
  obtain ⟨values, hv, h⟩ := bind_eq_ok.mp h
  exact bind_eq_ok.mpr ⟨values, machineRadius_drawn hv, h⟩

/-- What a successful planning was made from and what it hands on. -/
structure PlannedFrom (data : PlanningData) (planner : CoveragePlanner) (drawn : UUID)
    (inputs : CoverageInputs) (stageId : Option UUID) (stage : CoverageStage) : Prop where
  stageId : stage.stageId = stageId.getD drawn
  onCancel : stage.onCancel = none
  made : ∃ field areaHa machine settings params plan sources,
    plannableField inputs.fieldId data.fields = .ok (field, areaHa) ∧
    machineValues drawn inputs data.factsheets = .ok machine ∧
    coverageParams settings inputs machine = .ok params ∧
    planner field.geometry params = .ok plan ∧
    stage.provenance.fieldId = field.id ∧
    stage.provenance.boundaryDigest = data.digests.boundaryDigest field.geometry ∧
    stage.provenance.plannedForRobotId = inputs.paramsRobotId ∧
    stage.provenance.paramSources = some sources ∧
    sources.lookup "swath_angle_deg" =
      some (if inputs.swathAngleDeg.isSome then "manual" else "planner") ∧
    stage.provenance.params = { params with swathAngleDeg := plan.swathAngleDeg }

theorem machineRadius_sources {factsheets : Factsheets} {radius : PyFloat} {track : Option PyFloat}
    {sources : List (String × String)}
    (h : machineRadius drawn inputs factsheets = .ok (radius, track, sources)) :
    sources.lookup "swath_angle_deg" = none := by
  unfold machineRadius at h
  cases hr : inputs.paramsRobotId with
  | none =>
    rw [hr] at h
    obtain ⟨radius', -, h⟩ := bind_eq_ok.mp h
    obtain ⟨-, -, rfl⟩ :
        radius' = radius ∧ none = track ∧ [("turning_radius_m", "manual")] = sources := by
      simpa using Except.ok.inj h
    rfl
  | some robotId =>
    rw [hr] at h
    obtain ⟨factsheet, -, h⟩ := bind_eq_ok.mp h
    obtain ⟨physical, -, h⟩ := bind_eq_ok.mp h
    obtain ⟨u, -, h⟩ := bind_eq_ok.mp h
    cases ht : inputs.turningRadiusM with
    | none =>
      rw [ht] at h
      obtain ⟨-, -, rfl⟩ := by simpa using Except.ok.inj h
      rfl
    | some radius' =>
      rw [ht] at h
      obtain ⟨u', -, h⟩ := bind_eq_ok.mp h
      obtain ⟨-, -, rfl⟩ := by simpa using Except.ok.inj h
      rfl

/-- The sources of the machine values say nothing of the swath angle. -/
theorem lookup_sources {machine : MachineValues} {factsheets : Factsheets}
    (h : machineValues drawn inputs factsheets = .ok machine) (source : String) :
    (machine.sources ++ [("swath_angle_deg", source)]).lookup "swath_angle_deg" = some source := by
  obtain ⟨⟨radius, track, sources⟩, hv, h⟩ := bind_eq_ok.mp h
  have hn := machineRadius_sources hv
  have hlast (headland : String) : ((sources ++ [("headland_width_m", headland)]) ++
      [("swath_angle_deg", source)]).lookup "swath_angle_deg" = some source := by
    rw [List.lookup_append, List.lookup_append, hn]
    rfl
  cases hh : inputs.headlandWidthM with
  | none =>
    rw [hh] at h
    obtain rfl := Except.ok.inj h
    exact hlast "turning_radius"
  | some headland =>
    rw [hh] at h
    obtain rfl := Except.ok.inj h
    exact hlast "manual"

theorem planCoverageStage_ok
    (h : planCoverageStage data settings planner drawn now inputs stageId = .ok stage) :
    PlannedFrom data planner drawn inputs stageId stage := by
  obtain ⟨⟨field, areaHa⟩, hfield, h⟩ := bind_eq_ok.mp h
  obtain ⟨machine, hmachine, h⟩ := bind_eq_ok.mp h
  obtain ⟨params, hparams, h⟩ := bind_eq_ok.mp h
  obtain ⟨plan, hplan, h⟩ := bind_eq_ok.mp h
  obtain ⟨u, hvalid, h⟩ := bind_eq_ok.mp h
  obtain rfl := Except.ok.inj h
  exact ⟨rfl, rfl, field, areaHa, machine, settings, params, plan, _, hfield, hmachine, hparams, hplan,
    rfl, rfl, rfl, rfl, lookup_sources hmachine _, rfl⟩

theorem plannableField_id {fields : Table FieldRecord.id} {fieldId : UUID} {field : FieldRecord}
    {areaHa : Rat} (h : plannableField fieldId fields = .ok (field, areaHa)) :
    field.id = fieldId := by
  obtain ⟨field', hf, h⟩ := bind_eq_ok.mp h
  obtain ⟨areaHa', ha, h⟩ := bind_eq_ok.mp h
  obtain ⟨rfl, -⟩ := Prod.mk.inj (Except.ok.inj h)
  exact Table.key_of_find? (orRaise_eq_ok.mp hf)

end Planned

end Leitstand
