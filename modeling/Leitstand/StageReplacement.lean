import Leitstand.EditInvariant

namespace Leitstand

/-- At every position of `stages` stands the stage with the same id in `stages'`, and with the same
content unless it is stage `i`. Ids kept at every position keep the stages' parents too. -/
def KeepsRest (i : UUID) (stages stages' : List Stage) : Prop :=
  ∀ path s, stageAt stages path = some s →
    ∃ s', stageAt stages' path = some s' ∧ s'.stageId = s.stageId ∧
      (s.stageId ≠ i → s'.detail = s.detail)

section StageAt
variable {s : Stage} {stages : List Stage}

theorem stageAt_nil (path : InputPath) : stageAt [] path = none := by
  cases path with
  | nil => rfl
  | cons n below => cases below <;> rfl

@[simp] theorem stageAt_head : stageAt (s :: stages) [0] = some s := rfl

end StageAt

namespace KeepsRest
variable {i : UUID} {s s' : Stage} {rest rest' : List Stage}

theorem refl (stages : List Stage) : KeepsRest i stages stages :=
  fun _ s hs => ⟨s, hs, rfl, fun _ => rfl⟩

/-- Of a list: of its first stage, of the children of that and of the other stages. -/
theorem cons_iff : KeepsRest i (s :: rest) (s' :: rest') ↔
    (s'.stageId = s.stageId ∧ (s.stageId ≠ i → s'.detail = s.detail)) ∧
      KeepsRest i s.children s'.children ∧ KeepsRest i rest rest' := by
  constructor
  · intro h
    refine ⟨?_, fun path t ht => ?_, fun path t ht => ?_⟩
    · obtain ⟨t', ht', hid, hdetail⟩ := h [0] s rfl
      obtain rfl := Option.some.inj ht'
      exact ⟨hid, hdetail⟩
    · cases path with
      | nil => cases ht
      | cons n below => exact h (0 :: n :: below) t ht
    · cases path with
      | nil => cases ht
      | cons n below =>
        have hk := h ((n + 1) :: below) t
        rw [stageAt_succ, stageAt_succ] at hk
        exact hk ht
  · rintro ⟨⟨hid, hdetail⟩, hkids, hrest⟩ path t ht
    cases path with
    | nil => cases ht
    | cons n below =>
      cases n with
      | zero =>
        cases below with
        | nil =>
          obtain rfl := Option.some.inj ht
          exact ⟨s', rfl, hid, hdetail⟩
        | cons n below => exact hkids (n :: below) t ht
      | succ n =>
        rw [stageAt_succ] at ht ⊢
        exact hrest (n :: below) t ht

/-- Under a stage that is left without children nothing was kept unless there was nothing. -/
theorem nil_iff {stages : List Stage} : KeepsRest i stages [] ↔ stages = [] := by
  constructor
  · intro h
    cases stages with
    | nil => rfl
    | cons s rest =>
      obtain ⟨s', hs', -⟩ := h [0] s rfl
      rw [stageAt_nil] at hs'
      cases hs'
  · rintro rfl
    exact .refl []

end KeepsRest

section Replacement
variable {r : Stage}

theorem replaceStage_found (stages : List Stage) :
    (replaceStage r stages).2 = true ↔ ∃ s ∈ allStages stages, s.stageId = r.stageId := by
  induction stages using stagesInduction with
  | nil => simp [replaceStage]
  | cons i cs d rest ihs ih =>
    rw [replaceStage_cons, allStages_cons]
    simp only [Bool.or_eq_true, decide_eq_true_eq, List.mem_cons, List.mem_append]
    rw [ihs, ih]
    constructor
    · rintro ((hi | ⟨s, hs, he⟩) | ⟨s, hs, he⟩)
      · exact ⟨_, .inl rfl, hi⟩
      · exact ⟨s, .inr (.inl hs), he⟩
      · exact ⟨s, .inr (.inr hs), he⟩
    · rintro ⟨s, rfl | hs | hs, he⟩
      · exact .inl (.inl he)
      · exact .inl (.inr ⟨s, hs, he⟩)
      · exact .inr ⟨s, hs, he⟩

/-- A stage without children swapped in takes away exactly what was under the one it replaces. -/
theorem keepsRest_replaceStage_iff (hr : r.children = []) (stages : List Stage) :
    KeepsRest r.stageId stages (replaceStage r stages).1 ↔
      ∀ s ∈ allStages stages, s.stageId = r.stageId → s.children = [] := by
  induction stages using stagesInduction with
  | nil => exact iff_of_true (.refl []) (fun s hs => by cases hs)
  | cons i cs d rest ihs ih =>
    rw [replaceStage_cons, allStages_cons, List.forall_mem_cons, List.forall_mem_append]
    dsimp only
    by_cases hi : i = r.stageId
    · rw [if_pos hi, KeepsRest.cons_iff, hr, KeepsRest.nil_iff, ih]
      change _ ∧ cs.getD [] = [] ∧ _ ↔ (i = r.stageId → cs.getD [] = []) ∧ _
      constructor
      · rintro ⟨-, hkids, hrest⟩
        refine ⟨fun _ => hkids, ?_, hrest⟩
        rw [hkids]
        exact fun s hs => by cases hs
      · rintro ⟨hkids, -, hrest⟩
        refine ⟨⟨hi.symm, fun hn => absurd hi hn⟩, hkids hi, hrest⟩
    · have hown : Stage.stageId (.mk i cs d) = r.stageId → Stage.children (.mk i cs d) = [] :=
        fun h => absurd h hi
      have hkeep : KeepsRest r.stageId (cs.getD []) (Stage.children
          (if (replaceStage r (cs.getD [])).2 then .mk i (cs.map fun c => (replaceStage r c).1) d
            else .mk i cs d)) ↔
          ∀ s ∈ allStages (cs.getD []), s.stageId = r.stageId → s.children = [] := by
        split_ifs with hf
        · rw [← ihs]
          cases cs <;> rfl
        · refine iff_of_true (.refl _) fun s hs he => ?_
          exact absurd ((replaceStage_found _).mpr ⟨s, hs, he⟩) hf
      rw [if_neg hi, KeepsRest.cons_iff, ih]
      refine and_congr (iff_of_true ?_ hown) (and_congr hkeep Iff.rfl)
      split_ifs <;> exact ⟨rfl, fun _ => rfl⟩

/-- A re-planned stage that is saved keeps its id and place, and the stages that were not re-planned
keep theirs, exactly where the re-planned stage had no cleanup stages. Where the missions before are
held, what is saved is what is read back. -/
theorem replaced_keeps_rest_iff {d after : Definitions} {data : PlanningData}
    {settings : PlannerSettings} {planner : CoveragePlanner} {drawn i missionId : UUID}
    {planned now : Datetime} {inputs : CoverageInputs} {stage : CoverageStage}
    {mission saved : MissionDefinition}
    (hplan : planCoverageStage data settings planner drawn planned inputs (some i) = .ok stage)
    (hreplace : MissionEditing.replaceGeneratedStage d now missionId stage.toStage = .ok mission)
    (hsave : d.save mission = .ok (saved, after)) :
    (∃ before, MissionEditing.requireOpen d missionId = .ok before ∧
      (KeepsRest i before.stages saved.stages ↔
        ∀ s ∈ allStages before.stages, s.stageId = i → s.children = [])) ∧
    ∀ trees : UUID → List Stage, d.Holds trees →
      after.get missionId = .ok (some { saved with stages := tidied saved.stages }) := by
  constructor
  · have hstage := planCoverageStage_ok hplan
    obtain ⟨before, hopen, hreplace⟩ := bind_eq_ok.mp hreplace
    obtain ⟨u, -, hreplace⟩ := bind_eq_ok.mp hreplace
    obtain ⟨u', -, hreplace⟩ := bind_eq_ok.mp hreplace
    obtain rfl := Except.ok.inj hreplace
    refine ⟨before, hopen, ?_⟩
    have hid : stage.toStage.stageId = i := hstage.stageId
    have hkids : stage.toStage.children = [] := by
      change stage.onCancel.getD [] = []
      rw [hstage.onCancel]
      rfl
    rw [Definitions.stages_of_save hsave, ← hid]
    exact keepsRest_replaceStage_iff hkids before.stages
  · intro trees hd
    let round : PlanningRound :=
      { data, settings, planner := fun _ => planner, now := fun _ => planned, fresh := fun _ => drawn }
    obtain ⟨hid, -, hready⟩ := @MissionEditing.replaceGeneratedStage_ready d trees round now missionId
      mission inputs (some i) hd (bind_eq_ok.mpr ⟨stage, hplan, hreplace⟩)
    rw [← hid]
    exact Definitions.get_of_save hd hready.nodup (hid ▸ hready.owns hd nofun) hsave

end Replacement

section Demo
open Definitions

/-- Stage 10 is a route, which cleans up after stage 12 and has no cleanup stages of its own. -/
def demoUnderStage : List Stage :=
  [demoDriven 12 (some ((demoCovered []).coverage?.map fun kept =>
    CoverageStage.toStage { kept with onCancel := none }).toList)]

def demoRouted : Definitions := demoBare.replaced 1 demoUnderStage

theorem demoRouted_holds : demoRouted.Holds (Function.update (fun _ => []) 1 demoUnderStage) :=
  demoBare_holds.replaced (by decide) (demoBare_holds.owns_iff.mpr (by decide))

/-- Stage 10 planned anew and saved, with the mission as it was. -/
def demoReplan (d : Definitions) :
    Except ServiceError (MissionDefinition × MissionDefinition × Definitions) := do
  let stage ← planCoverageStage demoRound.data demoRound.settings (demoRound.planner []) 5 0
    demoInputs (some 10)
  let mission ← MissionEditing.replaceGeneratedStage d 0 1 stage.toStage
  let (saved, after) ← d.save mission
  let before ← MissionEditing.requireOpen d 1
  pure (before, saved, after)

theorem replaced_keeps_rest_iff_nested : ∃ before saved after,
    demoReplan demoRouted = .ok (before, saved, after) ∧
      KeepsRest 10 before.stages saved.stages ∧
      after.get 1 = .ok (some { saved with stages := tidied saved.stages }) := by
  have hrun : (demoReplan demoRouted >>= fun result => pure ((allStages result.1.stages).all fun s =>
      s.stageId ≠ 10 || s.children.isEmpty)) = .ok true := by
    decide +kernel
  obtain ⟨⟨before, saved, after⟩, hresult, hleaf⟩ := bind_eq_ok.mp hrun
  obtain ⟨stage, hplan, h⟩ := bind_eq_ok.mp hresult
  obtain ⟨mission, hreplace, h⟩ := bind_eq_ok.mp h
  obtain ⟨⟨saved', after'⟩, hsave, h⟩ := bind_eq_ok.mp h
  obtain ⟨before', hbefore, h⟩ := bind_eq_ok.mp h
  cases Except.ok.inj h
  obtain ⟨⟨before, hopen, hkeeps⟩, hread⟩ := replaced_keeps_rest_iff hplan hreplace hsave
  obtain rfl := Except.ok.inj (hbefore.symm.trans hopen)
  refine ⟨_, _, _, hresult, hkeeps.mpr fun s hs hid => ?_, hread _ demoRouted_holds⟩
  have hall := List.all_eq_true.mp (Except.ok.inj hleaf) s hs
  simpa [hid] using hall

/-- Stage 11 cleans up after stage 10, and is gone once that is planned anew. -/
theorem replacement_loses_cleanup : ∃ before saved after,
    demoReplan demoUnlocked = .ok (before, saved, after) ∧ stageIds before.stages = [10, 11] ∧
      stageIds saved.stages = [10] ∧ ¬ KeepsRest 10 before.stages saved.stages := by
  have hrun : (demoReplan demoUnlocked >>= fun result => pure
      ((stageIds result.1.stages, stageIds result.2.1.stages),
        (stageAt result.1.stages [0, 0]).isSome, (stageAt result.2.1.stages [0, 0]).isSome)) =
      .ok (([10, 11], [10]), true, false) := by
    decide +kernel
  obtain ⟨⟨before, saved, after⟩, hresult, h⟩ := bind_eq_ok.mp hrun
  obtain ⟨hids, h⟩ := Prod.mk.inj (Except.ok.inj h)
  obtain ⟨hsome, hnone⟩ := Prod.mk.inj h
  obtain ⟨hbefore, hafter⟩ := Prod.mk.inj hids
  refine ⟨before, saved, after, hresult, hbefore, hafter, fun hkeeps => ?_⟩
  obtain ⟨s, hs⟩ := Option.isSome_iff_exists.mp hsome
  obtain ⟨s', hs', -⟩ := hkeeps [0, 0] s hs
  rw [hs'] at hnone
  cases hnone

end Demo

end Leitstand
