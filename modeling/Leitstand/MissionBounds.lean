import Leitstand.CoveragePlannerAdapter
import Leitstand.Editing
import Leitstand.MissionWire
import Leitstand.Outcomes

namespace Leitstand

/-- The errors that derive from the domain's base class. The others are raised by the models'
validation, by the language and by the database. -/
def ServiceError.isDomain : ServiceError → Bool
  | .valueError _ | .validationError _ | .attributeError _ => false
  | .uniqueViolation _ | .foreignKeyViolation _ | .cardinalityViolation | .dataError => false
  | _ => true

/-- The computation returns what meets `P` or raises a domain error. -/
abbrev Responds {β : Type} (x : Except ServiceError β) (P : β → Prop) : Prop :=
  x.Ensures P fun e => e.isDomain = true

/-- What the computation returns meets `P`, whatever it raises. -/
abbrev ReturnsOnly {β : Type} (x : Except ServiceError β) (P : β → Prop) : Prop :=
  x.Ensures P fun _ => True

theorem Responds.toReturnsOnly {β : Type} {x : Except ServiceError β} {P : β → Prop}
    (h : Responds x P) : ReturnsOnly x P := h.mono (fun _ hp => hp) fun _ _ => trivial

/-- The computation raises an error that is no domain error. -/
abbrev Fails {β : Type} (x : Except ServiceError β) : Prop := x.Raises fun e => e.isDomain = false

theorem Responds.not_fails {β : Type} {x : Except ServiceError β} {P : β → Prop}
    (h : Responds x P) : ¬ Fails x :=
  Except.Raises.not_of_ensures h fun e he => by simp [he]

section Bounds

/-- The bounds of the model of planning parameters. -/
structure CoverageParams.Admitted (params : CoverageParams) : Prop where
  operationWidthM : 0 < params.operationWidthM
  turningRadiusM : 0 ≤ params.turningRadiusM
  headlandWidthM : 0 ≤ params.headlandWidthM
  swathAngleDeg : ∀ angle ∈ params.swathAngleDeg, 0 ≤ angle ∧ angle < 180
  trackWidthM : ∀ width ∈ params.trackWidthM, 0 < width
  linearCurvChange : ∀ change ∈ params.linearCurvChange, 0 < change
  turnSampleM : ∀ sample ∈ params.turnSampleM, 0 < sample

structure CoverageProvenance.Admitted (provenance : CoverageProvenance) : Prop where
  boundaryDigest : provenance.boundaryDigest ≠ ""
  fieldAreaM2 : 0 < provenance.fieldAreaM2
  params : provenance.params.Admitted
  metrics : provenance.metrics.Admitted
  plannerVersion : provenance.plannerVersion ≠ ""
  plannedForRobotId : ∀ robotId ∈ provenance.plannedForRobotId, robotId ≠ ""

def StageDetail.provenance? : StageDetail → Option CoverageProvenance
  | .navigation _ => none
  | .coverage _ provenance => some provenance

/-- What the models accept as a stage, provenance included and its cleanup stages aside. -/
structure Stage.Valid (s : Stage) : Prop where
  admitted : s.Admitted
  provenance : ∀ provenance ∈ s.detail.provenance?, provenance.Admitted

/-- Every stage at every depth is one the models accept. -/
def AllValid (stages : List Stage) : Prop := ∀ s ∈ allStages stages, s.Valid

def NameFits (name : String) : Prop := 1 ≤ name.length ∧ name.length ≤ 255

instance : DecidablePred NameFits := fun _ => inferInstanceAs (Decidable (_ ∧ _))

/-- The constraints of the mission model. -/
structure MissionDefinition.Valid (mission : MissionDefinition) : Prop where
  name : NameFits mission.name
  nonempty : mission.stages ≠ []
  stages : AllValid mission.stages

/-- The planning fields a request may have, with the checks across them. No bound refuses what is no
number. -/
structure CoveragePlanningFields.Admitted (fields : CoveragePlanningFields)
    (stageId : Option UUID) : Prop where
  operationWidthM : ∀ width ∈ fields.operationWidthM, ¬ width ≤ 0
  paramsRobotId : ∀ robotId ∈ fields.paramsRobotId, robotId ≠ ""
  turningRadiusM : ∀ radius ∈ fields.turningRadiusM, ¬ radius < 0
  headlandWidthM : ∀ headland ∈ fields.headlandWidthM, ¬ headland < 0
  swathAngleDeg : ∀ angle ∈ fields.swathAngleDeg, ¬ angle < 0 ∧ ¬ 180 ≤ angle
  robotOrRadius : fields.carries = false →
    fields.paramsRobotId ≠ none ∨ fields.turningRadiusM ≠ none
  carries : fields.carries = true → stageId ≠ none ∧ fields = {}
  plans : fields.carries = false → fields.operationWidthM ≠ none

/-- What the command models accept as a stage, its cleanup stages aside. -/
def StageInput.Admitted {ν : Type} [PyNumber ν] : StageInput ν → Prop
  | .mk _ _ (.navigation waypoints) => waypoints ≠ [] ∧ ∀ w ∈ waypoints, w.Admitted
  | .mk stageId _ (.coverage fields) => fields.Admitted stageId

def InputsAdmitted {ν : Type} [PyNumber ν] (inputs : List (StageInput ν)) : Prop :=
  ∀ x ∈ walkInputs inputs, x.2.Admitted

/-- Planning inputs within the bounds of the command they come from. -/
structure CoverageInputs.Admitted (inputs : CoverageInputs) : Prop where
  operationWidthM : ¬ inputs.operationWidthM ≤ 0
  paramsRobotId : ∀ robotId ∈ inputs.paramsRobotId, robotId ≠ ""
  turningRadiusM : ∀ radius ∈ inputs.turningRadiusM, ¬ radius < 0
  headlandWidthM : ∀ headland ∈ inputs.headlandWidthM, ¬ headland < 0
  swathAngleDeg : ∀ angle ∈ inputs.swathAngleDeg, ¬ angle < 0 ∧ ¬ 180 ≤ angle
  robotOrRadius : inputs.paramsRobotId ≠ none ∨ inputs.turningRadiusM ≠ none

/-- What a robot declares of its body is within the bounds of the factsheet's model. -/
def PhysicalAdmitted (factsheets : Factsheets) : Prop :=
  ∀ robotId factsheet physical, factsheets.find? robotId = some factsheet →
    factsheet.physicalParameters = some physical →
    ¬ physical.trackWidthM ≤ 0 ∧ ¬ physical.minTurningRadiusM < 0

/-- What planning reads is within the bounds of its models, and the planner is asked over HTTP. -/
structure PlanningRound.Admitted (round : PlanningRound) : Prop where
  boundaryDigest : ∀ boundary, round.data.digests.boundaryDigest boundary ≠ ""
  physical : PhysicalAdmitted round.data.factsheets
  linearCurvChange : 0 < round.settings.linearCurvChange
  turnSampleM : 0 < round.settings.turnSampleM
  planner : ∀ path, ∃ adapter : HttpCoveragePlannerAdapter, round.planner path = adapter.plan

end Bounds

section Valid
variable {i j : UUID} {cs cs' : Option (List Stage)} {d : StageDetail} {rest stages : List Stage}

/-- Id and cleanup stages are no part of what makes a stage valid. -/
theorem Stage.Valid.relabelled (h : (Stage.mk i cs d).Valid) : (Stage.mk j cs' d).Valid :=
  ⟨⟨h.admitted.detail, h.admitted.segments, h.admitted.waypoints⟩, h.provenance⟩

theorem allValid_nil : AllValid [] := fun _ h => nomatch h

theorem allValid_cons : AllValid (.mk i cs d :: rest) ↔
    (Stage.mk i cs d).Valid ∧ AllValid (cs.getD []) ∧ AllValid rest := by
  unfold AllValid
  rw [allStages_cons, List.forall_mem_cons, List.forall_mem_append]

theorem allValid_tidied : AllValid (tidied stages) ↔ AllValid stages := by
  induction stages using stagesInduction with
  | nil => exact Iff.rfl
  | cons i cs d rest ihs ih =>
    rw [tidied_cons, allValid_cons, allValid_cons, getD_cleanupOf, ihs, ih]
    exact and_congr_left' ⟨Stage.Valid.relabelled, Stage.Valid.relabelled⟩

theorem AllValid.of_mem {s : Stage} (h : AllValid stages) (hs : s ∈ allStages stages) :
    s.Valid ∧ AllValid s.children := by
  induction stages using stagesInduction with
  | nil => cases hs
  | cons i cs d rest ihs ih =>
    obtain ⟨hown, hbelow, hrest⟩ := allValid_cons.mp h
    rw [allStages_cons, List.mem_cons, List.mem_append] at hs
    obtain rfl | hs | hs := hs
    · exact ⟨hown, hbelow⟩
    · exact ihs hbelow hs
    · exact ih hrest hs

theorem AllValid.storedCoverage {kept : CoverageStage} (h : AllValid stages)
    (hk : storedCoverage (byStageId stages) i = some kept) : AllValid [kept.toStage] := by
  obtain ⟨s, hs, hc⟩ := Option.bind_eq_some_iff.mp hk
  obtain ⟨hmem, -⟩ := mem_of_byStageId hs
  obtain ⟨hown, hbelow⟩ := h.of_mem hmem
  obtain ⟨j, cs, d⟩ := s
  cases d with
  | navigation => cases hc
  | coverage =>
    obtain rfl := Option.some.inj hc
    exact allValid_cons.mpr ⟨hown, hbelow, allValid_nil⟩

end Valid

end Leitstand
