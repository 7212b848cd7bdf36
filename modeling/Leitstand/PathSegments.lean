import Leitstand.CoveragePlanning
import Leitstand.JoinedRuns

namespace Leitstand

open JoinedRuns

/-- How the path planner tags a state. -/
inductive PathSectionType where
  | swath | turn
  | other (tag : Int)
  deriving DecidableEq

/-- A state of the composed path, in the planner's frame. -/
structure PathState where
  type : PathSectionType
  point : Rat × Rat
  angle : Rat
  deriving DecidableEq

inductive SegmentsError where
  | keyError (type : PathSectionType)
  | indexError
  deriving DecidableEq

def segmentKind : PathSectionType → Except SegmentsError SegmentKind
  | .swath => .ok .swath
  | .turn => .ok .turn
  | .other tag => .error (.keyError (.other tag))

/-- How a point of the planner's frame is put out: its longitude and latitude, and the bearing of an
angle. -/
structure Projection where
  transform : Rat × Rat → Rat × Rat
  compass : Rat → Rat

section Segments
variable (toWgs84 : Projection)

def pathWaypoint (state : PathState) : WGS84Waypoint :=
  let (lon, lat) := toWgs84.transform state.point
  { lat, lon, headingDeg := some (toWgs84.compass state.angle) }

def pathWaypoints (states : List PathState) : List WGS84Waypoint := states.map (pathWaypoint toWgs84)

def sameSection (a b : PathState) : Bool := a.type = b.type

def groupby (held : List PathState) : List (PathSectionType × List PathState) :=
  (held.splitBy sameSection).filterMap fun run => run.head?.map fun state => (state.type, run)

def withKind (group : PathSectionType × List PathState) :
    Except SegmentsError (SegmentKind × List PathState) := do
  return (← segmentKind group.1, group.2)

/-- Each run takes its own waypoints, and the next begins at the last of them. -/
def cutSegments (waypoints : List WGS84Waypoint) :
    Nat → List (SegmentKind × List PathState) → List PlannedSegment
  | _, [] => []
  | offset, (kind, states) :: runs =>
    { kind, waypoints := (waypoints.drop offset).take states.length } ::
      cutSegments waypoints (offset + (states.length - 1)) runs

def segments (held : List PathState) :
    Except SegmentsError (List PlannedSegment × List (Rat × Rat)) := do
  let runs ← (groupby held).mapM withKind
  match runs with
  | [] => throw .indexError
  | (_, first) :: later =>
    let routeStates := first ++ later.flatMap fun (_, states) => states.tail
    let waypoints := pathWaypoints toWgs84 routeStates
    return (cutSegments waypoints 0 runs, routeStates.map PathState.point)

end Segments

/-- The states without the first of each later run. -/
def routeStates (held : List PathState) : List PathState := dropBreaks sameSection held

/-- Each run's first point repeats the last of the run before it. -/
def SharesJoints (held : List PathState) : Prop :=
  held.IsChain fun a b => a.type ≠ b.type → a.point = b.point

/-- The segments and points are the route through the states. -/
structure FollowsRoute (toWgs84 : Projection) (held : List PathState)
    (runs : List (SegmentKind × List PathState)) (cut : List PlannedSegment)
    (points : List (Rat × Rat)) : Prop where
  whole : runs.flatMap Prod.snd = held
  kinds : ∀ run ∈ runs, run.2 ≠ [] ∧ ∀ state ∈ run.2, segmentKind state.type = .ok run.1
  maximal : runs.IsChain fun a b => a.1 ≠ b.1
  inOrder : cut.map PlannedSegment.kind = runs.map Prod.fst
  lengths : cut.map (fun s => s.waypoints.length) = runs.map fun run => run.2.length
  within : ∀ s ∈ stretches 0 (runs.map Prod.snd), s.1 + s.2 ≤ points.length
  slices : cut.map PlannedSegment.waypoints = (stretches 0 (runs.map Prod.snd)).map
    (JoinedRuns.cut (pathWaypoints toWgs84 (routeStates held)))
  shared : cut.IsChain fun a b => ∃ w ∈ a.waypoints.getLast?, b.waypoints.head? = some w
  joined : join (cut.map PlannedSegment.waypoints) = pathWaypoints toWgs84 (routeStates held)
  points : points = (routeStates held).map PathState.point
  driven : cut.map (fun s => s.waypoints.map fun w => (w.lon, w.lat)) =
    runs.map fun run => run.2.map fun state => toWgs84.transform state.point

section Route
variable {toWgs84 : Projection} {held : List PathState}
  {runs : List (SegmentKind × List PathState)}

theorem segmentKind_inj {a b : PathSectionType} {kind : SegmentKind} (ha : segmentKind a = .ok kind)
    (hb : segmentKind b = .ok kind) : a = b := by
  cases a <;> cases b <;> cases ha <;> cases hb <;> rfl

theorem type_of_chain {first : PathState} {rest : List PathState}
    (h : (first :: rest).IsChain fun a b => sameSection a b = true) :
    ∀ state ∈ first :: rest, state.type = first.type := by
  induction rest generalizing first with
  | nil =>
    intro state hstate
    rw [List.mem_singleton.mp hstate]
  | cons next rest ih =>
    rw [List.isChain_cons_cons] at h
    have hnext : first.type = next.type := of_decide_eq_true h.1
    intro state hstate
    rcases List.mem_cons.mp hstate with rfl | hstate
    · rfl
    · exact (ih h.2 state hstate).trans hnext.symm

theorem mem_groupby {group : PathSectionType × List PathState} (h : group ∈ groupby held) :
    group.2 ∈ held.splitBy sameSection ∧ ∀ state ∈ group.2, state.type = group.1 := by
  obtain ⟨run, hrun, hgroup⟩ := List.mem_filterMap.mp h
  obtain ⟨first, hfirst, rfl⟩ := Option.map_eq_some_iff.mp hgroup
  obtain ⟨rest, rfl⟩ := List.head?_eq_some_iff.mp hfirst
  exact ⟨hrun, type_of_chain (List.isChain_of_mem_splitBy hrun)⟩

theorem map_groupby : (groupby held).map Prod.snd = held.splitBy sameSection := by
  have hall : ∀ runs : List (List PathState), [] ∉ runs → (runs.filterMap fun run =>
      run.head?.map fun state => (state.type, run)).map Prod.snd = runs := by
    intro runs hruns
    induction runs with
    | nil => rfl
    | cons run runs ih =>
      rw [List.mem_cons, not_or] at hruns
      obtain ⟨first, rest, rfl⟩ := List.exists_cons_of_ne_nil (Ne.symm hruns.1)
      exact congrArg (_ :: ·) (ih hruns.2)
  exact hall _ (List.nil_notMem_splitBy _ _)

/-- The runs that a kind was found for. -/
structure Grouped (held : List PathState) (runs : List (SegmentKind × List PathState)) : Prop where
  splits : runs.map Prod.snd = held.splitBy sameSection
  kinds : ∀ run ∈ runs, run.2 ≠ [] ∧ ∀ state ∈ run.2, segmentKind state.type = .ok run.1

theorem withKind_ok {group : PathSectionType × List PathState}
    {run : SegmentKind × List PathState} (h : withKind group = .ok run) :
    segmentKind group.1 = .ok run.1 ∧ group.2 = run.2 := by
  obtain ⟨kind, hkind, hrun⟩ := bind_eq_ok.mp h
  obtain rfl := Except.ok.inj hrun
  exact ⟨hkind, rfl⟩

theorem grouped_of_mapM (h : (groupby held).mapM withKind = .ok runs) : Grouped held runs := by
  have hpairs := mapM_forall₂ h
  constructor
  · rw [← map_groupby]
    have hsame := List.forall₂_map_left_iff.mpr (List.forall₂_map_right_iff.mpr
      (hpairs.imp fun _ _ hrun => (withKind_ok hrun).2))
    exact (List.forall₂_eq_eq_eq ▸ hsame).symm
  · intro run hrun
    obtain ⟨group, hmem, hpair⟩ := (forall₂_mem hpairs).2 run hrun
    obtain ⟨hkind, hstates⟩ := withKind_ok hpair
    obtain ⟨hsplit, htypes⟩ := mem_groupby hmem
    rw [← hstates]
    refine ⟨List.ne_nil_of_mem_splitBy hsplit, fun state hstate => ?_⟩
    rw [htypes state hstate]
    exact hkind

theorem cutSegments_kind (waypoints : List WGS84Waypoint) (offset : Nat) :
    (cutSegments waypoints offset runs).map PlannedSegment.kind = runs.map Prod.fst := by
  induction runs generalizing offset with
  | nil => rfl
  | cons run runs ih => exact congrArg (run.1 :: ·) (ih _)

theorem cutSegments_waypoints (waypoints : List WGS84Waypoint) (offset : Nat) :
    (cutSegments waypoints offset runs).map PlannedSegment.waypoints =
      (stretches offset (runs.map Prod.snd)).map (cut waypoints) := by
  induction runs generalizing offset with
  | nil => rfl
  | cons run runs ih => exact congrArg (_ :: ·) (ih _)

namespace Grouped

theorem nil_notMem (h : Grouped held runs) : [] ∉ runs.map Prod.snd := by
  rw [h.splits]
  exact List.nil_notMem_splitBy _ _

theorem join_eq (h : Grouped held runs) : join (runs.map Prod.snd) = routeStates held := by
  rw [h.splits]
  exact join_splitBy _ _

theorem maximal (h : Grouped held runs) : runs.IsChain fun a b => a.1 ≠ b.1 := by
  have hbreaks := List.isChain_getLast_head_splitBy sameSection held
  rw [← h.splits, List.isChain_map] at hbreaks
  refine hbreaks.imp_of_mem_imp ?_
  rintro a b ha hb ⟨hlast, hhead, hbreak⟩ hkind
  have hleft := (h.kinds a ha).2 _ (List.getLast_mem hlast)
  have hright := (h.kinds b hb).2 _ (List.head_mem hhead)
  rw [← hkind] at hright
  exact of_decide_eq_false hbreak (segmentKind_inj hleft hright)

/-- Where the runs of states share their joints, so do the runs of points. -/
theorem shares_points (h : Grouped held runs) (hjoints : SharesJoints held) :
    ((runs.map Prod.snd).map (List.map PathState.point)).IsChain
      fun a b => a.getLast? = b.head? := by
  have hbreaks := List.isChain_getLast_head_splitBy sameSection held
  have hadjacent := (List.isChain_flatten (List.nil_notMem_splitBy sameSection held)).mp
    (by rwa [List.flatten_splitBy] : List.IsChain _ (held.splitBy sameSection).flatten)
  rw [h.splits, List.isChain_map]
  refine List.isChain_iff_getElem.mpr fun i hi => ?_
  obtain ⟨hlast, hhead, hbreak⟩ := List.isChain_iff_getElem.mp hbreaks i hi
  have hpoint := List.isChain_iff_getElem.mp hadjacent.2 i hi _
    (List.getLast?_eq_some_getLast hlast) _ (List.head?_eq_some_head hhead)
    (of_decide_eq_false hbreak)
  rw [List.getLast?_map, List.head?_map, List.getLast?_eq_some_getLast hlast,
    List.head?_eq_some_head hhead]
  exact congrArg some hpoint

theorem flatMap_eq (h : Grouped held runs) : runs.flatMap Prod.snd = held := by
  rw [List.flatMap_def, h.splits, List.flatten_splitBy]

theorem follows (h : Grouped held runs) (hne : runs ≠ []) (hjoints : SharesJoints held) :
    FollowsRoute toWgs84 held runs
      (cutSegments (pathWaypoints toWgs84 (routeStates held)) 0 runs)
      ((routeStates held).map PathState.point) := by
  have hnil := h.nil_notMem
  have hlen : (pathWaypoints toWgs84 (routeStates held)).length =
      0 + (join (runs.map Prod.snd)).length := by
    rw [pathWaypoints, List.length_map, h.join_eq, Nat.zero_add]
  have hslices : (cutSegments (pathWaypoints toWgs84 (routeStates held)) 0 runs).map
      PlannedSegment.waypoints = _ := cutSegments_waypoints _ _
  have hwithin := stretches_within hnil hlen
  constructor
  case whole => exact h.flatMap_eq
  case kinds => exact h.kinds
  case maximal => exact h.maximal
  case inOrder => exact cutSegments_kind _ _
  case lengths =>
    have hlengths := length_cuts hnil hlen
    rw [← hslices, List.map_map, List.map_map] at hlengths
    exact hlengths
  case within => simpa [pathWaypoints] using hwithin
  case slices => exact hslices
  case shared =>
    have hshare := cuts_share hnil hlen
    rw [← hslices, List.isChain_map] at hshare
    exact hshare
  case joined =>
    rw [hslices, join_cuts (by simpa using hne) hnil hlen]
    rfl
  case points => rfl
  case driven =>
    have hpoints := cuts_join (by simpa using hnil) (h.shares_points hjoints) []
    rw [List.nil_append, join_map, h.join_eq, List.length_nil, stretches_map] at hpoints
    have hmoved := congrArg (List.map (List.map toWgs84.transform)) hpoints
    have hread := congrArg (List.map (List.map fun w : WGS84Waypoint => (w.lon, w.lat))) hslices
    simp only [List.map_map, pathWaypoints, Function.comp_def, ← cut_map] at hmoved hread ⊢
    rw [hread, ← hmoved]
    rfl

end Grouped

/-- The segments are the route: one for each maximal run, in order, of as many waypoints, each from
the last of the one before it, and all of them together the points without the repeats. -/
theorem segments_follow_route (hne : held ≠ []) (hjoints : SharesJoints held) :
    (∃ state ∈ held, ∃ tag, state.type = .other tag ∧
      segments toWgs84 held = .error (.keyError (.other tag))) ∨
    ∃ runs cut points, segments toWgs84 held = .ok (cut, points) ∧
      FollowsRoute toWgs84 held runs cut points := by
  cases hruns : (groupby held).mapM withKind with
  | error e =>
    obtain ⟨group, hgroup, hkind⟩ := mapM_error hruns
    obtain ⟨hsplit, htypes⟩ := mem_groupby hgroup
    obtain ⟨state, hstate⟩ := List.exists_mem_of_ne_nil _ (List.ne_nil_of_mem_splitBy hsplit)
    have hheld : state ∈ held := by
      rw [← List.flatten_splitBy sameSection held]
      exact List.mem_flatten_of_mem hsplit hstate
    have herror : segments toWgs84 held = .error e := by
      unfold segments
      rw [hruns]
      rfl
    obtain ⟨type, run⟩ := group
    cases type with
    | swath => cases hkind
    | turn => cases hkind
    | other tag =>
      obtain rfl := Except.error.inj hkind
      exact .inl ⟨state, hheld, tag, htypes state hstate, herror⟩
  | ok runs =>
    have hgrouped := grouped_of_mapM hruns
    have hsome : runs ≠ [] := by
      rintro rfl
      exact hne hgrouped.flatMap_eq.symm
    refine .inr ⟨runs, _, _, ?_, hgrouped.follows hsome hjoints⟩
    unfold segments
    rw [hruns]
    obtain ⟨⟨kind, first⟩, later, rfl⟩ := List.exists_cons_of_ne_nil hsome
    have hroute : first ++ later.flatMap (fun run => run.2.tail) = routeStates held := by
      rw [← hgrouped.join_eq]
      exact congrArg (first ++ ·) (List.flatMap_map ..).symm
    change Except.ok (cutSegments (pathWaypoints toWgs84 (first ++ _)) 0 _, _) = _
    rw [hroute]

end Route

section Demo

def demoProjection : Projection := ⟨fun point => (point.2, point.1), fun angle => 90 - angle⟩

/-- Two swaths and the turn between them. -/
def demoHeld : List PathState :=
  [⟨.swath, (0, 0), 90⟩, ⟨.swath, (0, 9), 90⟩, ⟨.turn, (0, 9), 90⟩, ⟨.turn, (2, 9), 0⟩,
    ⟨.swath, (2, 9), -90⟩, ⟨.swath, (2, 0), -90⟩]

theorem segments_follow_route_turn : ∃ runs cut points,
    segments demoProjection demoHeld = .ok (cut, points) ∧
      FollowsRoute demoProjection demoHeld runs cut points := by
  have hjoints : SharesJoints demoHeld := by
    unfold SharesJoints
    decide
  refine (segments_follow_route (by decide) hjoints).resolve_left ?_
  rintro ⟨state, hstate, tag, htag, -⟩
  have hknown : ∀ state ∈ demoHeld, state.type = .swath ∨ state.type = .turn := by decide
  rcases hknown state hstate with h | h <;> rw [h] at htag <;> cases htag

end Demo

end Leitstand
