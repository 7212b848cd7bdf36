import Leitstand.Mission

namespace Leitstand

/-- Over a list of stages: what holds of the cleanup stages of the first and of the rest holds of
the whole. -/
@[elab_as_elim]
theorem stagesInduction {ν : Type} {P : List (Stage ν) → Prop} (nil : P [])
    (cons : ∀ i cs d rest, P (cs.getD []) → P rest → P (.mk i cs d :: rest))
    (stages : List (Stage ν)) : P stages := by
  refine @Stage.rec_2 ν (fun s => P s.children) (fun cs => P (cs.getD [])) P ?_ nil ?_ nil ?_ stages
  · intro i cs d ih
    exact ih
  · intro cs ih
    exact ih
  · rintro ⟨i, cs, d⟩ rest ihs ih
    exact cons i cs d rest ihs ih

section All
variable {ν : Type}

mutual
/-- The stage and its cleanup stages, at every depth. -/
def Stage.all : Stage ν → List (Stage ν)
  | .mk i cs d => .mk i cs d :: cleanupAll cs

def cleanupAll : Option (List (Stage ν)) → List (Stage ν)
  | none => []
  | some cs => allStages cs

/-- Every stage of the list, at every depth. -/
def allStages : List (Stage ν) → List (Stage ν)
  | [] => []
  | s :: rest => s.all ++ allStages rest
end

@[simp] theorem allStages_nil : allStages ([] : List (Stage ν)) = [] := rfl

@[simp] theorem allStages_cons (i : UUID) (cs : Option (List (Stage ν))) (d : StageDetail ν)
    (rest : List (Stage ν)) : allStages (.mk i cs d :: rest) =
      .mk i cs d :: (allStages (cs.getD []) ++ allStages rest) := by
  cases cs <;> rfl

end All

/-- The cleanup stages at every depth. -/
def cleanupStages (stages : List Stage) : List Stage := stages.flatMap fun s => allStages s.children

theorem mem_allStages_iff {s : Stage} {stages : List Stage} :
    s ∈ allStages stages ↔ s ∈ stages ∨ s ∈ cleanupStages stages := by
  induction stages with
  | nil => simp [cleanupStages]
  | cons t rest ih =>
    obtain ⟨i, cs, d⟩ := t
    unfold cleanupStages at ih ⊢
    rw [allStages_cons, List.flatMap_cons, List.mem_cons, List.mem_append, List.mem_cons,
      List.mem_append, ih]
    change _ ∨ s ∈ allStages (cs.getD []) ∨ _ ↔ _ ∨ s ∈ allStages (cs.getD []) ∨ _
    tauto

theorem stageIds_eq_map (stages : List Stage) :
    stageIds stages = (allStages stages).map Stage.stageId := by
  induction stages using stagesInduction with
  | nil => rfl
  | cons i cs d rest ihs ih =>
    rw [stageIds, Stage.ids_eq, allStages_cons, List.map_cons, List.map_append, ← ih, ← ihs]
    rfl

theorem siteIds_eq_flatMap (stages : List Stage) : siteIds stages =
    (allStages stages).flatMap fun s => (stageWaypoints s).filterMap Waypoint.siteId? := by
  induction stages using stagesInduction with
  | nil => rfl
  | cons i cs d rest ihs ih =>
    rw [allStages_cons, List.flatMap_cons, List.flatMap_append, ← ih, ← ihs, ← List.append_assoc]
    cases cs <;> rfl

theorem mem_siteIds {siteId : UUID} {stages : List Stage} : siteId ∈ siteIds stages ↔
    ∃ s ∈ allStages stages, ∃ w ∈ stageWaypoints s, w.siteId? = some siteId := by
  simp [siteIds_eq_flatMap]

def Stage.coverage? : Stage → Option CoverageStage
  | .mk _ _ (.navigation _) => none
  | .mk i cs (.coverage segments provenance) => some ⟨i, cs, segments, provenance⟩

theorem coverageStages_eq_filterMap (stages : List Stage) :
    coverageStages stages = (allStages stages).filterMap Stage.coverage? := by
  induction stages using stagesInduction with
  | nil => rfl
  | cons i cs d rest ihs ih =>
    rw [allStages_cons, List.filterMap_cons, List.filterMap_append, ← ih, ← ihs]
    cases d <;> cases cs <;> rfl

theorem ids_sublist_of_mem {s : Stage} {stages : List Stage} (h : s ∈ allStages stages) :
    s.ids.Sublist (stageIds stages) := by
  induction stages using stagesInduction with
  | nil => cases h
  | cons i cs d rest ihs ih =>
    rw [allStages_cons, List.mem_cons, List.mem_append] at h
    rw [stageIds]
    obtain rfl | h | h := h
    · exact List.sublist_append_left _ _
    · rw [Stage.ids_eq (.mk i cs d)]
      exact ((ihs h).trans (List.sublist_cons_self _ _)).trans (List.sublist_append_left _ _)
    · exact (ih h).trans (List.sublist_append_right _ _)

/-- Python's `xs or None`. -/
def cleanupOf (cs : List Stage) : Option (List Stage) := if cs = [] then none else some cs

@[simp] theorem getD_cleanupOf (cs : List Stage) : (cleanupOf cs).getD [] = cs := by
  unfold cleanupOf
  split_ifs with h
  · exact h.symm
  · rfl

mutual
/-- The stage with every empty `on_cancel` in it read as none. -/
def Stage.tidied : Stage → Stage
  | .mk i cs d => .mk i (tidiedCleanup cs) d

def tidiedCleanup : Option (List Stage) → Option (List Stage)
  | none => none
  | some cs => cleanupOf (tidied cs)

def tidied : List Stage → List Stage
  | [] => []
  | s :: rest => s.tidied :: tidied rest
end

@[simp] theorem tidied_nil : tidied [] = [] := rfl

@[simp] theorem tidied_cons (i : UUID) (cs : Option (List Stage)) (d : StageDetail)
    (rest : List Stage) :
    tidied (.mk i cs d :: rest) = .mk i (cleanupOf (tidied (cs.getD []))) d :: tidied rest := by
  cases cs <;> rfl

theorem tidied_eq_nil {stages : List Stage} : tidied stages = [] ↔ stages = [] := by
  cases stages with
  | nil => exact Iff.rfl
  | cons s rest => simp [tidied]

theorem Stage.tidied_eq (s : Stage) :
    s.tidied = .mk s.stageId (cleanupOf (Leitstand.tidied s.children)) s.detail := by
  obtain ⟨i, cs, d⟩ := s
  cases cs <;> rfl

theorem allStages_tidied (stages : List Stage) :
    allStages (tidied stages) = (allStages stages).map Stage.tidied := by
  induction stages using stagesInduction with
  | nil => rfl
  | cons i cs d rest ihs ih =>
    rw [tidied_cons, allStages_cons, allStages_cons, getD_cleanupOf, ihs, ih, List.map_cons,
      List.map_append, Stage.tidied_eq]
    rfl

theorem stageWaypoints_tidied (s : Stage) : stageWaypoints s.tidied = stageWaypoints s := by
  rw [Stage.tidied_eq]
  rfl

theorem stageIds_tidied (stages : List Stage) : stageIds (tidied stages) = stageIds stages := by
  rw [stageIds_eq_map, allStages_tidied, List.map_map, stageIds_eq_map]
  refine List.map_congr_left fun s _ => ?_
  rw [Function.comp_apply, Stage.tidied_eq]
  rfl

theorem siteIds_tidied (stages : List Stage) : siteIds (tidied stages) = siteIds stages := by
  rw [siteIds_eq_flatMap, allStages_tidied, List.flatMap_map, siteIds_eq_flatMap]
  simp only [stageWaypoints_tidied]

def StageDetail.withProvenance (provenance : CoverageProvenance) : StageDetail → StageDetail
  | .navigation waypoints => .navigation waypoints
  | .coverage segments _ => .coverage segments provenance

mutual
/-- The stage with one provenance in place of each coverage stage's own. -/
def Stage.withProvenance (provenance : CoverageProvenance) : Stage → Stage
  | .mk i cs d => .mk i (cleanupWithProvenance provenance cs) (d.withProvenance provenance)

def cleanupWithProvenance (provenance : CoverageProvenance) :
    Option (List Stage) → Option (List Stage)
  | none => none
  | some cs => some (withProvenance provenance cs)

def withProvenance (provenance : CoverageProvenance) : List Stage → List Stage
  | [] => []
  | s :: rest => s.withProvenance provenance :: withProvenance provenance rest
end

/-- The plans are the same, each coverage stage's provenance and an empty `on_cancel` apart. -/
def SamePlan (stages stages' : List Stage) : Prop :=
  ∀ provenance, tidied (withProvenance provenance stages) = tidied (withProvenance provenance stages')

theorem getD_cleanupWithProvenance (provenance : CoverageProvenance) (cs : Option (List Stage)) :
    (cleanupWithProvenance provenance cs).getD [] = withProvenance provenance (cs.getD []) := by
  cases cs <;> rfl

end Leitstand
