import Leitstand.RobotFit
import Leitstand.StageTree

namespace Leitstand

mutual
/-- `rule` on the stage and on its cleanup stages at every depth, each with its place in its list. -/
def Stage.visit (rule : Nat → Stage → Except ServiceError Unit) (index : Nat) :
    Stage → Except ServiceError Unit
  | .mk i cs d => do
    rule index (.mk i cs d)
    visitCleanup rule cs

def visitCleanup (rule : Nat → Stage → Except ServiceError Unit) :
    Option (List Stage) → Except ServiceError Unit
  | none => .ok ()
  | some cs => visitFrom rule 0 cs

def visitFrom (rule : Nat → Stage → Except ServiceError Unit) :
    Nat → List Stage → Except ServiceError Unit
  | _, [] => .ok ()
  | index, s :: rest => do
    s.visit rule index
    visitFrom rule (index + 1) rest
end

/-- All waypoints in a stage must share their kind. -/
def validateHomogeneousFrames (stages : List Stage) : Except ServiceError Unit :=
  visitFrom (fun index stage =>
    let kinds := ((stageWaypoints stage).map Waypoint.kind).eraseDups
    raiseIf (1 < kinds.length) (.stageNotHomogeneous index kinds)) 0 stages

/-- A site-local stage is driven in one site's frame; a WGS84 stage names none. -/
def validateSingleSite (stages : List Stage) : Except ServiceError Unit :=
  visitFrom (fun index stage =>
    let sites := ((stageWaypoints stage).filterMap Waypoint.siteId?).eraseDups
    raiseIf (1 < sites.length) (.stageSpansSites index sites)) 0 stages

theorem visitFrom_eq_ok {rule : Nat → Stage → Except ServiceError Unit} {P : Stage → Prop}
    (h : ∀ index s, rule index s = .ok () ↔ P s) (index : Nat) (stages : List Stage) :
    visitFrom rule index stages = .ok () ↔ ∀ s ∈ allStages stages, P s := by
  induction stages using stagesInduction generalizing index with
  | nil => simp [visitFrom]
  | cons i cs d rest ihs ih =>
    have hcleanup : visitCleanup rule cs = visitFrom rule 0 (cs.getD []) := by
      cases cs <;> rfl
    rw [visitFrom, Stage.visit, hcleanup, allStages_cons, List.forall_mem_cons,
      List.forall_mem_append, ← h index, ← ihs 0, ← ih (index + 1)]
    cases rule index (.mk i cs d) with
    | error e => simp [bind, Except.bind]
    | ok u =>
      cases visitFrom rule 0 (cs.getD []) with
      | error e => simp [bind, Except.bind]
      | ok u => simp [bind, Except.bind]

theorem length_eraseDups_le_one_iff {α : Type} [DecidableEq α] {xs : List α} :
    ¬ 1 < xs.eraseDups.length ↔ ∀ a ∈ xs, ∀ b ∈ xs, a = b := by
  constructor
  · intro h a ha b hb
    rw [← List.mem_eraseDups] at ha hb
    obtain ⟨n, hn, rfl⟩ := List.mem_iff_getElem.mp ha
    obtain ⟨m, hm, rfl⟩ := List.mem_iff_getElem.mp hb
    have he : n = m := by omega
    subst he
    rfl
  · intro h hlt
    cases xs with
    | nil => simp at hlt
    | cons x rest =>
      have hrest : rest.filter (fun b => !b == x) = [] := by
        rw [List.filter_eq_nil_iff]
        intro b hb
        simp [h b (List.mem_cons_of_mem x hb) x List.mem_cons_self]
      rw [List.eraseDups_cons, hrest] at hlt
      simp at hlt

/-- The stage is driven in one frame. -/
def Stage.OneFrame (s : Stage) : Prop :=
  ∀ w ∈ stageWaypoints s, ∀ w' ∈ stageWaypoints s, w.kind = w'.kind

/-- The stage is driven at one site at most. -/
def Stage.OneSite (s : Stage) : Prop :=
  ∀ w ∈ stageWaypoints s, ∀ w' ∈ stageWaypoints s, ∀ siteId siteId' : UUID,
    w.siteId? = some siteId → w'.siteId? = some siteId' → siteId = siteId'

theorem validateHomogeneousFrames_eq_ok {stages : List Stage} :
    validateHomogeneousFrames stages = .ok () ↔ ∀ s ∈ allStages stages, s.OneFrame := by
  refine visitFrom_eq_ok (fun _ s => ?_) 0 stages
  rw [raiseIf_eq_ok, length_eraseDups_le_one_iff]
  simp [Stage.OneFrame]

theorem validateSingleSite_eq_ok {stages : List Stage} :
    validateSingleSite stages = .ok () ↔ ∀ s ∈ allStages stages, s.OneSite := by
  refine visitFrom_eq_ok (fun _ s => ?_) 0 stages
  rw [raiseIf_eq_ok, length_eraseDups_le_one_iff]
  simp only [List.mem_filterMap, Stage.OneSite]
  constructor
  · intro h w hw w' hw' siteId siteId' he he'
    exact h siteId ⟨w, hw, he⟩ siteId' ⟨w', hw', he'⟩
  · rintro h siteId ⟨w, hw, he⟩ siteId' ⟨w', hw', he'⟩
    exact h w hw w' hw' siteId siteId' he he'

end Leitstand
