import Leitstand.Editing
import Leitstand.PlannerQuestion
import Leitstand.RobotFitDepth

namespace Leitstand

/-- What planning for a robot takes from the request: a radius given by hand is not below the robot's
own, and the implement is no narrower than the robot. -/
def CoverageInputs.Drivable (inputs : CoverageInputs) (machine : PhysicalParameters) : Prop :=
  (∀ radius, inputs.turningRadiusM = some radius → ¬ radius < machine.minTurningRadiusM) ∧
    ¬ inputs.operationWidthM < machine.trackWidthM

section Fit
variable {data : PlanningData} {settings : PlannerSettings} {planner : CoveragePlanner}
  {drawn : UUID} {now : Datetime} {inputs : CoverageInputs} {stageId : Option UUID}
  {stage : CoverageStage} {robotId : RobotId} {factsheet : RobotFactsheet}

/-- For a robot, planning goes by its factsheet, which declares coverage. -/
theorem machineValues_of_robot {factsheets : Factsheets} {machine : MachineValues}
    (hr : inputs.paramsRobotId = some robotId) (hf : factsheets.find? robotId = some factsheet)
    (h : machineValues drawn inputs factsheets = .ok machine) :
    ∃ physical, factsheet.physicalParameters = some physical ∧ factsheet.coverage ≠ none ∧
      machine.turningRadiusM = inputs.turningRadiusM.getD physical.minTurningRadiusM ∧
      machine.trackWidthM = some physical.trackWidthM := by
  obtain ⟨⟨radius, track, sources⟩, hradius, h⟩ := bind_eq_ok.mp h
  have hmachine : machine.turningRadiusM = radius ∧ machine.trackWidthM = track := by
    cases hh : inputs.headlandWidthM with
    | none =>
      rw [hh] at h
      obtain rfl := Except.ok.inj h
      exact ⟨rfl, rfl⟩
    | some headland =>
      rw [hh] at h
      obtain rfl := Except.ok.inj h
      exact ⟨rfl, rfl⟩
  rw [hmachine.1, hmachine.2]
  unfold machineRadius at hradius
  rw [hr] at hradius
  obtain ⟨factsheet', hf', hradius⟩ := bind_eq_ok.mp hradius
  obtain rfl := Option.some.inj ((orRaise_eq_ok.mp hf').symm.trans hf)
  obtain ⟨physical, hphysical, hradius⟩ := bind_eq_ok.mp hradius
  obtain ⟨u, hcoverage, hradius⟩ := bind_eq_ok.mp hradius
  refine ⟨physical, orRaise_eq_ok.mp hphysical, raiseIf_eq_ok.mp hcoverage, ?_⟩
  cases ht : inputs.turningRadiusM with
  | none =>
    rw [ht] at hradius
    obtain ⟨rfl, rfl, -⟩ : physical.minTurningRadiusM = radius ∧ some physical.trackWidthM = track ∧
        _ = sources := by simpa using Except.ok.inj hradius
    exact ⟨rfl, rfl⟩
  | some given =>
    rw [ht] at hradius
    obtain ⟨u', -, hradius⟩ := bind_eq_ok.mp hradius
    obtain ⟨rfl, rfl, -⟩ : given = radius ∧ some physical.trackWidthM = track ∧ _ = sources := by
      simpa using Except.ok.inj hradius
    exact ⟨rfl, rfl⟩

theorem forM_eq_error {α ε : Type} {xs : List α} {f : α → Except ε Unit} {e : ε}
    (h : xs.forM f = .error e) : ∃ x ∈ xs, f x = .error e := by
  induction xs with
  | nil => cases h
  | cons x rest ih =>
    change (f x >>= fun _ => rest.forM f) = .error e at h
    cases hx : f x with
    | error e' =>
      rw [hx] at h
      obtain rfl := Except.error.inj h
      exact ⟨x, List.mem_cons_self, hx⟩
    | ok u =>
      rw [hx] at h
      obtain ⟨y, hy, he⟩ := ih h
      exact ⟨y, List.mem_cons_of_mem x hy, he⟩

/-- A stage whose kind the factsheet declares is not refused for its kind. -/
theorem not_unsupportedStageKind {s : Stage} {e : ServiceError}
    (hkind : factsheet.capability s.kind ≠ none)
    (h : validateAgainstFactsheet [s] robotId factsheet = .error e) (r : RobotId) (i : UUID)
    (k : StageKind) : e ≠ .unsupportedStageKind r i k := by
  rintro rfl
  obtain ⟨s', hs', he⟩ := forM_eq_error h
  obtain rfl := List.mem_singleton.mp hs'
  obtain ⟨frames, hframes⟩ := Option.ne_none_iff_exists'.mp hkind
  rw [hframes] at he
  obtain ⟨w, -, hw⟩ := forM_eq_error he
  unfold raiseIf at hw
  split_ifs at hw
  cases hw

/-- The stage was planned with the robot's own radius or the one given, and for the width given. -/
theorem plannedFor_iff {physical : PhysicalParameters} {machine : MachineValues}
    (hp : factsheet.physicalParameters = some physical)
    (hradius : machine.turningRadiusM = inputs.turningRadiusM.getD physical.minTurningRadiusM)
    (hparams : machine.turningRadiusM.toRat? = some stage.provenance.params.turningRadiusM)
    (hwidth : inputs.operationWidthM.toRat? = some stage.provenance.params.operationWidthM) :
    stage.toStage.PlannedFor factsheet ↔ inputs.Drivable physical := by
  have hstage : stage.toStage.PlannedFor factsheet ↔
      ¬ (stage.provenance.params.turningRadiusM : PyFloat) < physical.minTurningRadiusM ∧
        ¬ (stage.provenance.params.operationWidthM : PyFloat) < physical.trackWidthM := by
    unfold Stage.PlannedFor
    rw [hp]
    constructor
    · intro h
      obtain ⟨machine, hm, hfits⟩ := h _ _ rfl
      obtain rfl := Option.some.inj hm
      exact hfits
    · rintro hfits _ _ ⟨⟩
      exact ⟨physical, rfl, hfits⟩
  rw [hstage, ← PyFloat.lt_congr_left hparams, ← PyFloat.lt_congr_left hwidth, hradius]
  refine and_congr ?_ Iff.rfl
  cases inputs.turningRadiusM with
  | none => exact iff_of_true (PyFloat.lt_irrefl _) nofun
  | some radius => simp

/-- A stage planned for a robot is accepted for it, on the factsheet it was planned by, exactly where
the inputs were drivable for it. -/
theorem planned_fits_iff (hr : inputs.paramsRobotId = some robotId)
    (hf : data.factsheets.find? robotId = some factsheet)
    (h : planCoverageStage data settings planner drawn now inputs stageId = .ok stage) :
    ∃ physical, factsheet.physicalParameters = some physical ∧
      ((validatePlanFitsRobot robotId [stage.toStage] factsheet = .ok () ∧
        ∀ e, validateAgainstFactsheet [stage.toStage] robotId factsheet = .error e →
          ∀ r i k, e ≠ .unsupportedStageKind r i k) ↔ inputs.Drivable physical) := by
  obtain ⟨question, hq, hanswers⟩ := planCoverageStage_answers h
  obtain ⟨plan, -, hparams⟩ := hanswers.answered
  obtain ⟨field, areaHa, machine, -, hmachine, -, hquestion⟩ := plannerQuestion_eq_ok.mp hq
  have hgiven := coverageParams_eq_ok.mp hquestion
  obtain ⟨physical, hphysical, hcoverage, hradius, -⟩ := machineValues_of_robot hr hf hmachine
  have hfits : stage.toStage.PlannedFor factsheet ↔ inputs.Drivable physical :=
    plannedFor_iff hphysical hradius (hparams ▸ hgiven.turningRadiusM)
      (hparams ▸ hgiven.operationWidthM)
  have hall : allStages [stage.toStage] = [stage.toStage] := by
    change allStages [.mk stage.stageId stage.onCancel _] = [.mk stage.stageId stage.onCancel _]
    rw [(planCoverageStage_ok h).onCancel]
    rfl
  refine ⟨physical, hphysical, ?_⟩
  rw [validatePlanFitsRobot_eq_ok, hall, List.forall_mem_singleton, hfits]
  have hkind : factsheet.capability stage.toStage.kind ≠ none := hcoverage
  exact and_iff_left fun e he => not_unsupportedStageKind hkind he

end Fit

section Demo

/-- A robot narrower than the demo's working width. -/
def demoNarrow : RobotFactsheet :=
  { robotId := "r2", navigation := none, coverage := some [.wgs84]
    physicalParameters := some { trackWidthM := 2, minTurningRadiusM := 3 } }

/-- A robot wider than the demo's working width. -/
def demoWide : RobotFactsheet :=
  { robotId := "r3", navigation := none, coverage := some [.wgs84]
    physicalParameters := some { trackWidthM := 4, minTurningRadiusM := 3 } }

def demoFor (robotId : RobotId) (radius : Option PyFloat) : CoverageInputs :=
  { fieldId := 7, operationWidthM := 3, paramsRobotId := some robotId, turningRadiusM := radius
    headlandWidthM := none, swathAngleDeg := none, allowOverlap := false }

def demoPlanFor (factsheet : RobotFactsheet) (radius : Option PyFloat) :
    Except ServiceError CoverageStage :=
  planCoverageStage { demoRound.data with factsheets := ⟨[factsheet], by simp⟩ } demoRound.settings
    (demoRound.planner []) 5 0 (demoFor factsheet.robotId radius) none

theorem planned_fits_iff_narrow : ∃ stage, demoPlanFor demoNarrow none = .ok stage ∧
    validatePlanFitsRobot "r2" [stage.toStage] demoNarrow = .ok () := by
  have hrun : (demoPlanFor demoNarrow none).toOption.isSome := by decide +kernel
  obtain ⟨stage, hplan⟩ := exists_eq_ok hrun
  obtain ⟨physical, hp, hfits⟩ := planned_fits_iff rfl rfl hplan
  have hdrivable : (demoFor "r2" none).Drivable physical := by
    obtain rfl := Option.some.inj hp
    refine ⟨?_, by decide⟩
    rintro radius ⟨⟩
  exact ⟨stage, hplan, (hfits.mpr hdrivable).1⟩

/-- A route planned for a robot wider than the implement is refused for that robot, and so is one
whose radius rounding took below the robot's own. -/
theorem planned_does_not_fit :
    (demoPlanFor demoWide none >>= fun stage =>
      validatePlanFitsRobot "r3" [stage.toStage] demoWide) =
        .error (.implementNarrowerThanRobot "r3" 4 3) ∧
    (demoPlanFor demoNarrow (some (3 - 1 / 10000000000 : Rat)) >>= fun stage =>
      validatePlanFitsRobot "r2" [stage.toStage] demoNarrow) =
        .error (.incompatibleTurningRadius "r2" 3 (3 - 1 / 10000000000)) := by
  constructor <;> decide +kernel

end Demo

end Leitstand
