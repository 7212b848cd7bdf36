import Leitstand.MissionEditing

namespace Leitstand

section ByStageId
variable {stages : List Stage} {i : UUID}

theorem mem_of_byStageId {s : Stage} (h : (byStageId stages).find? i = some s) :
    s ∈ allStages stages ∧ s.stageId = i :=
  ⟨Table.mem_ofRows (Table.mem_of_find? h), Table.key_of_find? h⟩

theorem byStageId_isSome : ((byStageId stages).find? i).isSome ↔ i ∈ stageIds stages := by
  rw [stageIds_eq_map, Option.isSome_iff_exists]
  constructor
  · rintro ⟨s, hs⟩
    obtain ⟨hmem, rfl⟩ := mem_of_byStageId hs
    exact List.mem_map_of_mem hmem
  · intro hi
    obtain ⟨s, hs, rfl⟩ := List.mem_map.mp hi
    obtain ⟨s', hs', he⟩ : ∃ s' ∈ (byStageId stages).rows, s'.stageId = s.stageId :=
      Table.exists_mem_upsertAll_of_row hs fun _ _ => true
    exact ⟨s', he ▸ Table.find?_of_mem hs'⟩

/-- The children of a stored coverage stage are stages of the same mission. -/
theorem children_of_storedCoverage {kept : CoverageStage}
    (h : storedCoverage (byStageId stages) i = some kept) :
    (stageIds (kept.onCancel.getD [])).Sublist (stageIds stages) := by
  obtain ⟨⟨j, cs, d⟩, hf, hc⟩ := Option.bind_eq_some_iff.mp h
  obtain ⟨hmem, -⟩ := mem_of_byStageId hf
  have hkids : kept.onCancel = cs := by
    cases d with
    | navigation => cases hc
    | coverage =>
      obtain rfl := Option.some.inj hc
      rfl
  have hids := ids_sublist_of_mem hmem
  rw [Stage.ids_eq] at hids
  rw [hkids]
  exact (List.sublist_cons_self _ _).trans hids

end ByStageId

theorem withIds_eq_ok {ctx : IdContext} {inputs : List StageInput} {stages : List Stage} :
    withIds ctx inputs = .ok stages ↔ ∃ seen, buildFrom ctx [] 0 [] inputs = .ok (stages, seen) := by
  unfold withIds
  rw [bind_eq_ok]
  constructor
  · rintro ⟨⟨stages', seen⟩, h, he⟩
    obtain rfl := Except.ok.inj he
    exact ⟨seen, h⟩
  · rintro ⟨seen, h⟩
    exact ⟨_, h, rfl⟩

section Demo
open Definitions

def demoMetrics : CoverageMetrics :=
  { swathCount := 1, trackLengthM := 3333, pathLengthM := none, coveredAreaM2 := 10000
    mainlandAreaM2 := none, maxExcursionM := none }

/-- One field of a hectare, and a planner that lays one swath over it at the angle asked for. -/
def demoRound : PlanningRound :=
  { data := ⟨⟨fun _ => "", fun _ => "boundary"⟩, ⟨[⟨7, [], some 1⟩], by decide⟩, .empty⟩
    settings := ⟨1, 1⟩
    planner := fun _ _ params => .ok
      { segments := [⟨.swath, [⟨52, 8, none⟩, ⟨52, 9, none⟩]⟩], mainlandBoundary := []
        swathAngleDeg := params.swathAngleDeg, metrics := demoMetrics, plannerVersion := "1" }
    now := fun _ => 0
    fresh := fun path => BitVec.ofNat 128 (100 + path.sum) }

def demoInputs : CoverageInputs :=
  { fieldId := 7, operationWidthM := 3, paramsRobotId := none, turningRadiusM := some 2
    headlandWidthM := none, swathAngleDeg := some 45, allowOverlap := false }

theorem demoRound_echoes (path : InputPath) : EchoesAngle (demoRound.planner path) := by
  intro boundary params plan angle hplan hangle
  obtain rfl := Except.ok.inj hplan
  refine ⟨angle, hangle, ?_⟩
  rw [sub_self, abs_zero]
  exact angleToleranceDeg_pos

def demoCovered (segments : List Segment) : Stage :=
  .mk 10 (some [demoDriven 11 none]) (.coverage segments
    { fieldId := 7, boundaryDigest := "boundary", fieldAreaM2 := 10000, mainlandBoundary := none
      params :=
        { operationWidthM := 3, turningRadiusM := 2, headlandWidthM := 2, swathAngleDeg := some 90
          allowOverlap := none, trackWidthM := none, linearCurvChange := none, turnSampleM := none }
      metrics := demoMetrics, plannerVersion := "1", plannedForRobotId := none, paramSources := none
      plannedAt := 0 })

def demoUnlocked : Definitions := demoBare.replaced 1 [demoCovered []]

end Demo

end Leitstand
