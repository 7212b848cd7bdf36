import Mathlib.Data.Rat.Encodable
import Mathlib.Logic.Equiv.List
import Leitstand.StoredStages
import Leitstand.PlannerQuestion

namespace Leitstand

/-- The field and the factsheet that the inputs name are what they were, and so are the digests. -/
structure SameSources (data data' : PlanningData) (inputs : CoverageInputs) : Prop where
  digests : data'.digests = data.digests
  field : data'.fields.find? inputs.fieldId = data.fields.find? inputs.fieldId
  factsheet : ∀ robotId, inputs.paramsRobotId = some robotId →
    data'.factsheets.find? robotId = data.factsheets.find? robotId

/-- The planner would be asked again for what the stage was planned from: the same boundary under the
same parameters, the settings of the installation apart, and for a swath angle where one was asked
for, which is the stored one within the tolerance. -/
structure AsksAgain (question again : PlannerQuestion) (stage : CoverageStage) : Prop where
  boundary : again.boundary = question.boundary
  params : again.params =
    { question.params with
      swathAngleDeg := again.params.swathAngleDeg
      linearCurvChange := again.params.linearCurvChange
      turnSampleM := again.params.turnSampleM }
  openAngle : again.params.swathAngleDeg = none ↔ question.params.swathAngleDeg = none
  angle : ∀ angle, again.params.swathAngleDeg = some angle →
    ∃ stored, stage.provenance.params.swathAngleDeg = some stored ∧
      |angle - stored| < angleToleranceDeg

section Agreement
variable {data data' : PlanningData} {settings settings' : PlannerSettings}
  {planner : CoveragePlanner} {drawn drawn' : UUID} {now : Datetime} {inputs inputs' : CoverageInputs}
  {stageId : Option UUID} {stage : CoverageStage} {question again : PlannerQuestion}

theorem machineRadius_congr {factsheets factsheets' : Factsheets}
    (h : ∀ robotId, inputs.paramsRobotId = some robotId →
      factsheets'.find? robotId = factsheets.find? robotId) :
    machineRadius drawn inputs factsheets' = machineRadius drawn inputs factsheets := by
  unfold machineRadius
  cases hr : inputs.paramsRobotId with
  | none => rfl
  | some robotId =>
    dsimp only
    rw [h robotId hr]

theorem SameSources.plannerQuestion_eq (h : SameSources data data' inputs) :
    plannerQuestion data' settings drawn inputs = plannerQuestion data settings drawn inputs := by
  unfold plannerQuestion plannableField machineValues
  rw [h.field, machineRadius_congr h.factsheet]

theorem allowOverlap_of_plannerQuestion
    (h : plannerQuestion data settings drawn inputs = .ok question) :
    question.params.allowOverlap = some inputs.allowOverlap := by
  obtain ⟨_, _, _, _, _, _, hparams⟩ := plannerQuestion_eq_ok.mp h
  exact (coverageParams_eq_ok.mp hparams).allowOverlap

/-- Parameters with the same compared values differ in the swath angle and the settings only. -/
theorem CoverageParams.eq_of_compared {params params' : CoverageParams} {overlap overlap' : Bool}
    (ho : params.allowOverlap = some overlap) (ho' : params'.allowOverlap = some overlap')
    (h : params.compared = params'.compared) : params =
      { params' with
        swathAngleDeg := params.swathAngleDeg
        linearCurvChange := params.linearCurvChange
        turnSampleM := params.turnSampleM } := by
  obtain ⟨hwidth, hradius, hheadland, -, hover, htrack, -, -⟩ := CoverageParams.mk.inj h
  rw [ho, ho'] at hover
  obtain ⟨width, radius, headland, angle, allow, track, curv, sample⟩ := params
  obtain ⟨width', radius', headland', angle', allow', track', curv', sample'⟩ := params'
  obtain rfl : width = width' := hwidth
  obtain rfl : radius = radius' := hradius
  obtain rfl : headland = headland' := hheadland
  obtain rfl : track = track' := htrack
  obtain rfl : overlap = overlap' := Option.some.inj hover
  obtain rfl : allow = allow' := ho.trans ho'.symm
  rfl

/-- Where nothing that a stage was planned from has changed, it would be planned again. -/
theorem unchanged_of_answers (hecho : EchoesAngle planner) (hsame : SameSources data data' inputs)
    (hq : plannerQuestion data settings drawn inputs = .ok question)
    (h : AnswersQuestion data.digests planner inputs question stage) :
    unchanged data' drawn' inputs stage = .ok true := by
  obtain ⟨plan, hplan, hparams⟩ := h.answered
  obtain ⟨sources, hsources, hlookup⟩ := h.sources
  have hq' : plannerQuestion data' settings drawn' inputs = .ok question :=
    hsame.plannerQuestion_eq.trans (plannerQuestion_drawn hq)
  refine (unchanged_eq_true _).mpr ⟨sources, question, hsources, hq', h.fieldId.symm, ?_, ?_,
    h.robot.symm, ?_⟩
  · rw [hsame.digests, h.boundary]
  · rw [hparams]
    rfl
  · rw [hlookup, hparams]
    exact angleKept_echo fun angle ha => hecho _ _ plan angle hplan ha

/-- What passes as unchanged asks the planner again for what the stage was planned from. -/
theorem asksAgain_of_unchanged (hinj : Function.Injective data.digests.boundaryDigest)
    (hdigests : data'.digests = data.digests)
    (hq : plannerQuestion data settings drawn inputs = .ok question)
    (h : AnswersQuestion data.digests planner inputs question stage)
    (hsame : unchanged data' drawn' inputs' stage = .ok true) :
    inputs'.paramsRobotId = stage.provenance.plannedForRobotId ∧
      ∃ again, plannerQuestion data' settings' drawn' inputs' = .ok again ∧
        AsksAgain question again stage := by
  obtain ⟨sources, again, hsources, hagain, -, hboundary, hvalues, hrobot, hangle⟩ :=
    (unchanged_eq_true _).mp hsame
  obtain ⟨plan, -, hparams⟩ := h.answered
  obtain ⟨sources', hsources', hlookup⟩ := h.sources
  obtain rfl : sources' = sources := Option.some.inj (hsources'.symm.trans hsources)
  rw [hlookup] at hangle
  obtain ⟨hopen, hmanual⟩ := hangle
  refine ⟨hrobot, again, hagain, ?_, ?_, ⟨fun hn => ?_, fun hn => ?_⟩, fun angle ha => ?_⟩
  · refine hinj ?_
    rw [← h.boundary, ← hboundary, hdigests]
  · rw [hparams] at hvalues
    exact CoverageParams.eq_of_compared (allowOverlap_of_plannerQuestion hagain)
      (allowOverlap_of_plannerQuestion hq) hvalues
  · have hsource := hopen hn
    by_contra hsome
    rw [if_pos (Option.isSome_iff_ne_none.mpr hsome)] at hsource
    exact absurd hsource (by decide)
  · by_contra hsome
    obtain ⟨angle, ha⟩ := Option.ne_none_iff_exists'.mp hsome
    have hsource := (hmanual angle ha).1
    rw [hn] at hsource
    exact absurd hsource (by decide)
  · exact (hmanual angle ha).2

/-- Planning and the check for changes agree. A stage just planned passes as unchanged while its field
and factsheet stay the same, and what passes as unchanged later, for whatever inputs, would ask the
planner again for what the stage was planned from. -/
theorem planning_agrees_with_unchanged (hinj : Function.Injective data.digests.boundaryDigest)
    (hecho : EchoesAngle planner)
    (h : planCoverageStage data settings planner drawn now inputs stageId = .ok stage) :
    (∀ data' drawn', SameSources data data' inputs →
      unchanged data' drawn' inputs stage = .ok true) ∧
    ∀ data' settings' drawn' inputs', data'.digests = data.digests →
      unchanged data' drawn' inputs' stage = .ok true →
      inputs'.paramsRobotId = stage.provenance.plannedForRobotId ∧
      ∃ question again, plannerQuestion data settings drawn inputs = .ok question ∧
        plannerQuestion data' settings' drawn' inputs' = .ok again ∧
        AsksAgain question again stage := by
  obtain ⟨question, hq, hanswers⟩ := planCoverageStage_answers h
  refine ⟨fun data' drawn' hsame => unchanged_of_answers hecho hsame hq hanswers, ?_⟩
  intro data' settings' drawn' inputs' hdigests hunchanged
  obtain ⟨hrobot, again, hagain, hasks⟩ :=
    @asksAgain_of_unchanged data data' settings settings' planner drawn drawn' inputs inputs' stage
      question hinj hdigests hq hanswers hunchanged
  exact ⟨hrobot, question, again, hq, hagain, hasks⟩

end Agreement

section Demo

def demoBoundary : Polygon := [[[8, 52], [9, 52], [9, 53], [8, 52]]]

/-- The boundary's own digest, and some other text for any other boundary. -/
def demoDigest (boundary : Polygon) : String :=
  if boundary = demoBoundary then "03db4e066f6aff04293faf051fbd2c823467516762fd97ce22576275954691cc"
  else String.ofList (List.replicate (Encodable.encode boundary) 'x')

theorem demoDigest_injective : Function.Injective demoDigest := by
  have hother : ∀ k, String.ofList (List.replicate k 'x') ≠
      "03db4e066f6aff04293faf051fbd2c823467516762fd97ce22576275954691cc" := by
    intro k h
    have hmem : '0' ∈ List.replicate k 'x' := by
      rw [← String.toList_ofList (l := List.replicate k 'x'), h]
      decide
    exact absurd (List.eq_of_mem_replicate hmem) (by decide)
  intro boundary boundary' h
  unfold demoDigest at h
  split_ifs at h with hb hb' hb'
  · exact hb.trans hb'.symm
  · exact absurd h.symm (hother _)
  · exact absurd h (hother _)
  · have hlen := congrArg String.length h
    simp only [String.length_ofList, List.length_replicate] at hlen
    exact Encodable.encode_injective hlen

def demoSurvey : PlanningData :=
  ⟨⟨fun _ => "", demoDigest⟩, ⟨[⟨7, demoBoundary, some 1⟩], by decide⟩, .empty⟩

/-- The demo's inputs with the headland spelled out and another way to round the angle. -/
def demoSpelledOut : CoverageInputs :=
  { demoInputs with headlandWidthM := some 2, swathAngleDeg := some (45 + 1 / 10000000 : Rat) }

theorem planning_agrees_with_unchanged_respelled : ∃ stage question again,
    planCoverageStage demoSurvey demoRound.settings (demoRound.planner []) 5 0 demoInputs none =
      .ok stage ∧ unchanged demoSurvey 6 demoInputs stage = .ok true ∧
    plannerQuestion demoSurvey ⟨2, 2⟩ 6 demoSpelledOut = .ok again ∧
    AsksAgain question again stage := by
  have hrun : (planCoverageStage demoSurvey demoRound.settings (demoRound.planner []) 5 0 demoInputs
      none >>= unchanged demoSurvey 6 demoSpelledOut) = .ok true := by
    decide +kernel
  obtain ⟨stage, hplan, hspelled⟩ := bind_eq_ok.mp hrun
  obtain ⟨hforth, hback⟩ :=
    planning_agrees_with_unchanged demoDigest_injective (demoRound_echoes []) hplan
  obtain ⟨-, question, again, -, hagain, hasks⟩ := hback demoSurvey ⟨2, 2⟩ 6 demoSpelledOut rfl hspelled
  exact ⟨stage, question, again, hplan, hforth demoSurvey 6 ⟨rfl, rfl, fun _ _ => rfl⟩, hagain, hasks⟩

end Demo

end Leitstand
