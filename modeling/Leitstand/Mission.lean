import Mathlib.Data.List.Nodup
import Leitstand.Table
import Leitstand.Uuid

namespace Leitstand

/-- A place to drive to. Plans are handled by the values of their numbers; where it matters how a
number is written, `ν` is the type of floats. -/
inductive Waypoint (ν : Type := Rat) where
  | wgs84 (lat lon : ν) (headingDeg : Option ν)
  | siteLocal (siteId : UUID) (x y : ν) (theta : Option ν)
  deriving DecidableEq

inductive WaypointKind where
  | wgs84 | siteLocal
  deriving DecidableEq

def Waypoint.kind : Waypoint → WaypointKind
  | .wgs84 .. => .wgs84
  | .siteLocal .. => .siteLocal

inductive SegmentKind where
  | swath | turn
  deriving DecidableEq

structure Segment (ν : Type := Rat) where
  kind : SegmentKind
  waypoints : List (Waypoint ν)
  deriving DecidableEq

/-- Rings of positions. -/
abbrev Polygon := List (List (List Rat))

structure CoverageParams where
  operationWidthM : Rat
  turningRadiusM : Rat
  headlandWidthM : Rat
  swathAngleDeg : Option Rat
  allowOverlap : Option Bool
  trackWidthM : Option Rat
  linearCurvChange : Option Rat
  turnSampleM : Option Rat
  deriving DecidableEq

structure CoverageMetrics where
  swathCount : Nat
  trackLengthM : Rat
  pathLengthM : Option Rat
  coveredAreaM2 : Rat
  mainlandAreaM2 : Option Rat
  maxExcursionM : Option Rat
  deriving DecidableEq

structure CoverageProvenance where
  fieldId : UUID
  boundaryDigest : String
  fieldAreaM2 : Rat
  mainlandBoundary : Option Polygon
  params : CoverageParams
  metrics : CoverageMetrics
  plannerVersion : String
  plannedForRobotId : Option RobotId
  paramSources : Option (List (String × String))
  plannedAt : Datetime
  deriving DecidableEq

inductive StageKind where
  | navigation | coverage
  deriving DecidableEq

/-- What one kind of stage carries beside the common envelope. -/
inductive StageDetail (ν : Type := Rat) where
  | navigation (waypoints : List (Waypoint ν))
  | coverage (segments : List (Segment ν)) (provenance : CoverageProvenance)
  deriving DecidableEq

inductive Stage (ν : Type := Rat) where
  | mk (stageId : UUID) (onCancel : Option (List (Stage ν))) (detail : StageDetail ν)

namespace Stage

def stageId : Stage → UUID
  | mk i _ _ => i

def onCancel {ν : Type} : Stage ν → Option (List (Stage ν))
  | mk _ cs _ => cs

def detail {ν : Type} : Stage ν → StageDetail ν
  | mk _ _ d => d

def kind (s : Stage) : StageKind :=
  match s.detail with
  | .navigation _ => .navigation
  | .coverage .. => .coverage

/-- `stage.on_cancel or []`. -/
def children {ν : Type} (s : Stage ν) : List (Stage ν) := s.onCancel.getD []

end Stage

def stageWaypoints {ν : Type} (s : Stage ν) : List (Waypoint ν) :=
  match s.detail with
  | .navigation waypoints => waypoints
  | .coverage segments _ => segments.flatMap (·.waypoints)

mutual
/-- Every id under one stage, cleanup stages included. -/
def Stage.ids : Stage → List UUID
  | .mk i cs _ => i :: cleanupIds cs

def cleanupIds : Option (List Stage) → List UUID
  | none => []
  | some cs => stageIds cs

/-- Every stage's id, cleanup stages included. -/
def stageIds : List Stage → List UUID
  | [] => []
  | s :: rest => s.ids ++ stageIds rest
end

theorem Stage.ids_eq (s : Stage) : s.ids = s.stageId :: stageIds s.children := by
  obtain ⟨i, cs, d⟩ := s
  cases cs <;> rfl

theorem stageIds_eq_flatMap (stages : List Stage) : stageIds stages = stages.flatMap Stage.ids := by
  induction stages with
  | nil => rfl
  | cons s rest ih => rw [stageIds, ih, List.flatMap_cons]

def Waypoint.siteId? : Waypoint → Option UUID
  | .wgs84 .. => none
  | .siteLocal siteId .. => some siteId

mutual
def Stage.siteIds : Stage → List UUID
  | .mk i cs d => (stageWaypoints (.mk i none d)).filterMap Waypoint.siteId? ++ cleanupSiteIds cs

def cleanupSiteIds : Option (List Stage) → List UUID
  | none => []
  | some cs => siteIds cs

def siteIds : List Stage → List UUID
  | [] => []
  | s :: rest => s.siteIds ++ siteIds rest
end

/-- Every site a stage drives in, each once. -/
def referencedSiteIds (stages : List Stage) : List UUID := (siteIds stages).eraseDups

structure CoverageStage where
  stageId : UUID
  onCancel : Option (List Stage)
  segments : List Segment
  provenance : CoverageProvenance

mutual
def Stage.coverages : Stage → List CoverageStage
  | .mk _ cs (.navigation _) => cleanupCoverages cs
  | .mk i cs (.coverage segments p) => ⟨i, cs, segments, p⟩ :: cleanupCoverages cs

def cleanupCoverages : Option (List Stage) → List CoverageStage
  | none => []
  | some cs => coverageStages cs

/-- Every coverage stage in the list, cleanup stages included. -/
def coverageStages : List Stage → List CoverageStage
  | [] => []
  | s :: rest => s.coverages ++ coverageStages rest
end

/-- The stages of a stored mission. `mission_stages` has the stage id as its primary key, so no
id occurs twice in the tree. -/
structure Plan where
  stages : List Stage
  nonempty : stages ≠ []
  nodup : (stageIds stages).Nodup

namespace Stage

theorem stageId_mem_ids (s : Stage) : s.stageId ∈ s.ids := by
  rw [s.ids_eq]
  exact List.mem_cons_self

theorem child_mem_ids {s child : Stage} (h : child ∈ s.children) : child.stageId ∈ s.ids := by
  rw [s.ids_eq, stageIds_eq_flatMap]
  exact List.mem_cons_of_mem _ (List.mem_flatMap.mpr ⟨child, h, child.stageId_mem_ids⟩)

end Stage

namespace Plan
variable {p : Plan} {i j : Nat} {stage stage' : Stage}

/-- An id belongs to one top-level stage only. -/
theorem index_unique (hi : p.stages[i]? = some stage) (hj : p.stages[j]? = some stage')
    {stageId : UUID} (h : stageId ∈ stage.ids) (h' : stageId ∈ stage'.ids) : i = j := by
  have hnd := p.nodup
  rw [stageIds_eq_flatMap, List.nodup_flatMap] at hnd
  have hpair := List.pairwise_iff_getElem.mp hnd.2
  obtain ⟨hli, rfl⟩ := List.getElem?_eq_some_iff.mp hi
  obtain ⟨hlj, rfl⟩ := List.getElem?_eq_some_iff.mp hj
  obtain hlt | heq | hlt := Nat.lt_trichotomy i j
  · exact absurd h' (hpair i j hli hlj hlt h)
  · exact heq
  · exact absurd h (hpair j i hlj hli hlt h')

theorem child_ne_stage (hi : p.stages[i]? = some stage) (hj : p.stages[j]? = some stage')
    {child : Stage} (h : child ∈ stage'.children) : child.stageId ≠ stage.stageId := by
  intro he
  have hc : stage.stageId ∈ stage'.ids := he ▸ Stage.child_mem_ids h
  obtain rfl := index_unique hi hj stage.stageId_mem_ids hc
  obtain rfl := Option.some.inj (hi.symm.trans hj)
  have hnd := p.nodup
  rw [stageIds_eq_flatMap, List.nodup_flatMap] at hnd
  have hs := hnd.1 stage (List.mem_of_getElem? hi)
  rw [stage.ids_eq, List.nodup_cons, stageIds_eq_flatMap] at hs
  exact hs.1 (List.mem_flatMap.mpr ⟨child, h, he ▸ child.stageId_mem_ids⟩)

end Plan

structure Mission where
  missionId : UUID
  name : String
  description : Option String
  stages : Plan
  assignedRobotId : Option RobotId
  archivedAt : Option Datetime
  createdAt : Datetime
  updatedAt : Datetime

structure Site where
  siteId : UUID
  name : String
  anchorLat : Rat
  anchorLon : Rat
  anchorHeadingDeg : Rat
  deriving DecidableEq

/-- A field as the boundary check reads it. -/
structure Field where
  id : UUID
  geometry : Polygon
  deriving DecidableEq

end Leitstand
