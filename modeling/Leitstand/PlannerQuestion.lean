import Leitstand.CoveragePlanning

namespace Leitstand

/-- What the planner is asked: a path that covers the boundary under these parameters. -/
structure PlannerQuestion where
  boundary : Polygon
  params : CoverageParams

/-- What planning the inputs asks the planner, where it comes to asking. -/
def plannerQuestion (data : PlanningData) (settings : PlannerSettings) (drawn : UUID)
    (inputs : CoverageInputs) : Except ServiceError PlannerQuestion := do
  let (field, _) ← plannableField inputs.fieldId data.fields
  let machine ← machineValues drawn inputs data.factsheets
  let params ← coverageParams settings inputs machine
  pure { boundary := field.geometry, params }

/-- The parameters that `unchanged` compares as they are: the swath angle and the settings of the
installation are left out, and an `allow_overlap` that was not recorded is read as false. -/
def CoverageParams.compared (params : CoverageParams) : CoverageParams :=
  { params with
    swathAngleDeg := none, allowOverlap := some (params.allowOverlap.getD false)
    linearCurvChange := none, turnSampleM := none }

section Question
variable {data : PlanningData} {settings settings' : PlannerSettings} {planner : CoveragePlanner}
  {drawn drawn' : UUID} {now : Datetime} {inputs : CoverageInputs} {stageId : Option UUID}
  {stage : CoverageStage} {question : PlannerQuestion}

theorem plannerQuestion_eq_ok : plannerQuestion data settings drawn inputs = .ok question ↔
    ∃ field areaHa machine, plannableField inputs.fieldId data.fields = .ok (field, areaHa) ∧
      machineValues drawn inputs data.factsheets = .ok machine ∧ question.boundary = field.geometry ∧
      coverageParams settings inputs machine = .ok question.params := by
  constructor
  · intro h
    obtain ⟨⟨field, areaHa⟩, hfield, h⟩ := bind_eq_ok.mp h
    obtain ⟨machine, hmachine, h⟩ := bind_eq_ok.mp h
    obtain ⟨params, hparams, h⟩ := bind_eq_ok.mp h
    obtain rfl := Except.ok.inj h
    exact ⟨field, areaHa, machine, hfield, hmachine, rfl, hparams⟩
  · rintro ⟨field, areaHa, machine, hfield, hmachine, hboundary, hparams⟩
    obtain ⟨boundary, params⟩ := question
    obtain rfl := hboundary
    exact bind_eq_ok.mpr ⟨_, hfield, bind_eq_ok.mpr ⟨_, hmachine, bind_eq_ok.mpr ⟨_, hparams, rfl⟩⟩⟩

theorem plannerQuestion_drawn (h : plannerQuestion data settings drawn inputs = .ok question) :
    plannerQuestion data settings drawn' inputs = .ok question := by
  obtain ⟨field, areaHa, machine, hfield, hmachine, hq⟩ := plannerQuestion_eq_ok.mp h
  exact plannerQuestion_eq_ok.mpr ⟨field, areaHa, machine, hfield, machineValues_drawn hmachine, hq⟩

/-- Planning asks one question and makes the stage from the answer. -/
theorem planCoverageStage_eq : planCoverageStage data settings planner drawn now inputs stageId =
    plannerQuestion data settings drawn inputs >>= fun question =>
      planner question.boundary question.params >>= fun plan =>
        planCoverageStage data settings (fun _ _ => .ok plan) drawn now inputs stageId := by
  unfold planCoverageStage plannerQuestion
  cases plannableField inputs.fieldId data.fields with
  | error e => rfl
  | ok found =>
    cases machineValues drawn inputs data.factsheets with
    | error e => rfl
    | ok machine =>
      simp only [ok_bind]
      cases coverageParams settings inputs machine with
      | error e => rfl
      | ok params => rfl

/-- The stage was planned from the inputs by an answer to this question. -/
structure AnswersQuestion (digests : Digests) (planner : CoveragePlanner) (inputs : CoverageInputs)
    (question : PlannerQuestion) (stage : CoverageStage) : Prop where
  fieldId : stage.provenance.fieldId = inputs.fieldId
  boundary : stage.provenance.boundaryDigest = digests.boundaryDigest question.boundary
  robot : stage.provenance.plannedForRobotId = inputs.paramsRobotId
  answered : ∃ plan, planner question.boundary question.params = .ok plan ∧
    stage.provenance.params = { question.params with swathAngleDeg := plan.swathAngleDeg }
  sources : ∃ sources, stage.provenance.paramSources = some sources ∧
    sources.lookup "swath_angle_deg" =
      some (if question.params.swathAngleDeg.isSome then "manual" else "planner")

theorem CoverageParams.Given.isSome_swathAngleDeg {params : CoverageParams} {machine : MachineValues}
    (h : params.Given settings inputs machine) :
    params.swathAngleDeg.isSome = inputs.swathAngleDeg.isSome := by
  have hsome := congrArg Option.isSome h.swathAngleDeg
  simpa only [Option.isSome_map] using hsome.symm

theorem planCoverageStage_answers
    (h : planCoverageStage data settings planner drawn now inputs stageId = .ok stage) :
    ∃ question, plannerQuestion data settings drawn inputs = .ok question ∧
      AnswersQuestion data.digests planner inputs question stage := by
  obtain ⟨⟨field, areaHa⟩, hfield, h⟩ := bind_eq_ok.mp h
  obtain ⟨machine, hmachine, h⟩ := bind_eq_ok.mp h
  obtain ⟨params, hparams, h⟩ := bind_eq_ok.mp h
  obtain ⟨plan, hplan, h⟩ := bind_eq_ok.mp h
  obtain ⟨u, hvalid, h⟩ := bind_eq_ok.mp h
  obtain rfl := Except.ok.inj h
  refine ⟨⟨field.geometry, params⟩,
    plannerQuestion_eq_ok.mpr ⟨field, areaHa, machine, hfield, hmachine, rfl, hparams⟩, ?_⟩
  refine
    { fieldId := plannableField_id hfield, boundary := rfl, robot := rfl
      answered := ⟨plan, hplan, rfl⟩, sources := ⟨_, rfl, ?_⟩ }
  rw [(coverageParams_eq_ok.mp hparams).isSome_swathAngleDeg]
  exact lookup_sources hmachine _

/-- Planning again would ask for the boundary and the values that the stage was planned with. -/
theorem unchanged_eq_true (settings : PlannerSettings) :
    unchanged data drawn inputs stage = .ok true ↔
    ∃ sources question, stage.provenance.paramSources = some sources ∧
      plannerQuestion data settings drawn inputs = .ok question ∧
      inputs.fieldId = stage.provenance.fieldId ∧
      data.digests.boundaryDigest question.boundary = stage.provenance.boundaryDigest ∧
      question.params.compared = stage.provenance.params.compared ∧
      inputs.paramsRobotId = stage.provenance.plannedForRobotId ∧
      AngleKept question.params.swathAngleDeg (sources.lookup "swath_angle_deg")
        stage.provenance.params.swathAngleDeg := by
  unfold unchanged
  constructor
  · intro h
    cases hs : stage.provenance.paramSources with
    | none =>
      rw [hs] at h
      cases h
    | some sources =>
      rw [hs] at h
      dsimp only at h
      split_ifs at h with hid
      · cases h
      obtain ⟨⟨field, areaHa⟩, hfield, h⟩ := bind_eq_ok.mp h
      dsimp only at h
      split_ifs at h with hdigest
      · cases h
      obtain ⟨machine, hmachine, h⟩ := bind_eq_ok.mp h
      split_ifs at h with hvalues
      · cases h
      simp only [not_or, not_not] at hid hdigest hvalues
      obtain ⟨hwidth, hradius, hheadland, htrack, hoverlap, hrobot⟩ := hvalues
      -- What equals a stored number is finite, and so is an angle near one.
      obtain ⟨angle, hangle, hkept⟩ := sameAngle_eq_true.mp (Except.ok.inj h)
      have hgiven : CoverageParams.Given
          { stage.provenance.params with
            swathAngleDeg := angle, allowOverlap := some inputs.allowOverlap
            linearCurvChange := some settings.linearCurvChange
            turnSampleM := some settings.turnSampleM } settings inputs machine :=
        ⟨PyFloat.pyEq_finite.mp hwidth, PyFloat.pyEq_finite.mp hradius,
          PyFloat.pyEq_finite.mp hheadland, hangle, sameNumber_iff.mp htrack, rfl, rfl, rfl⟩
      refine ⟨sources, ⟨field.geometry, _⟩, rfl, plannerQuestion_eq_ok.mpr
        ⟨field, areaHa, machine, hfield, hmachine, rfl, coverageParams_eq_ok.mpr hgiven⟩, hid,
        hdigest, ?_, hrobot, hkept⟩
      simp [CoverageParams.compared, hoverlap]
  · rintro ⟨sources, question, hs, hq, hid, hdigest, hvalues, hrobot, hangle⟩
    obtain ⟨field, areaHa, machine, hfield, hmachine, hboundary, hparams⟩ :=
      plannerQuestion_eq_ok.mp hq
    have hgiven := coverageParams_eq_ok.mp hparams
    rw [hboundary] at hdigest
    obtain ⟨hwidth, hradius, hheadland, -, hoverlap, htrack, -, -⟩ := CoverageParams.mk.inj hvalues
    rw [hs]
    change (if _ then _ else _) = _
    rw [if_neg (not_not.mpr hid)]
    refine bind_eq_ok.mpr ⟨(field, areaHa), hfield, ?_⟩
    dsimp only
    rw [if_neg (not_not.mpr hdigest)]
    refine bind_eq_ok.mpr ⟨machine, hmachine, ?_⟩
    rw [if_neg]
    · exact congrArg Except.ok (sameAngle_eq_true.mpr ⟨_, hgiven.swathAngleDeg, hangle⟩)
    · rw [hgiven.allowOverlap] at hoverlap
      simp only [not_or, not_not]
      refine ⟨PyFloat.pyEq_finite.mpr (hwidth ▸ hgiven.operationWidthM),
        PyFloat.pyEq_finite.mpr (hradius ▸ hgiven.turningRadiusM),
        PyFloat.pyEq_finite.mpr (hheadland ▸ hgiven.headlandWidthM),
        sameNumber_iff.mpr (htrack ▸ hgiven.trackWidthM), Option.some.inj hoverlap, hrobot⟩

-- The settings of the installation are not compared, so any will do.
theorem unchanged_drawn (h : unchanged data drawn inputs stage = .ok true) :
    unchanged data drawn' inputs stage = .ok true := by
  obtain ⟨sources, question, hsources, hq, hrest⟩ := (unchanged_eq_true ⟨0, 0⟩).mp h
  exact (unchanged_eq_true ⟨0, 0⟩).mpr
    ⟨sources, question, hsources, plannerQuestion_drawn hq, hrest⟩

/-- A plan just made would be made again. -/
theorem unchanged_of_planned (hecho : EchoesAngle planner)
    (h : PlannedFrom data planner drawn inputs stageId stage) :
    unchanged data drawn' inputs stage = .ok true := by
  obtain ⟨field, areaHa, machine, settings, params, plan, sources, hfield, hmachine, hparams, hplan,
    hid, hdigest, hrobot, hsources, hlookup, hstored⟩ := h.made
  have hq : plannerQuestion data settings drawn' inputs = .ok ⟨field.geometry, params⟩ :=
    plannerQuestion_eq_ok.mpr
      ⟨field, areaHa, machine, hfield, machineValues_drawn hmachine, rfl, hparams⟩
  refine (unchanged_eq_true settings).mpr
    ⟨sources, _, hsources, hq, ?_, hdigest.symm, ?_, hrobot.symm, ?_⟩
  · rw [hid, plannableField_id hfield]
  · rw [hstored]
    rfl
  · rw [hlookup, hstored, ← (coverageParams_eq_ok.mp hparams).isSome_swathAngleDeg]
    exact angleKept_echo fun angle ha => hecho _ _ plan angle hplan ha

end Question

end Leitstand
