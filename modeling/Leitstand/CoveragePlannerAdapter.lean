import Mathlib.Data.Option.Basic
import Leitstand.Json
import Leitstand.MissionWire
import Leitstand.Outcomes
import Leitstand.PlannerQuestion

namespace Leitstand

/-- A response of the planner service; `json?` is `none` where `.json()` raises a `ValueError`. -/
structure PlannerReply where
  statusCode : Nat
  text : String
  json? : Option Json

/-- The planner over HTTP. The client posts a question and gets a reply or an `httpx.HTTPError`, the
message of which it leaves here. A validated model takes a float or an int from what is one, from a
boolean and from text that spells one; the service writes finite numbers only. -/
structure HttpCoveragePlannerAdapter where
  client : PlannerQuestion → Except String PlannerReply
  float : Json → Option Rat
  int : Json → Option Int
  polygon : Json → Option Polygon
  shown : Json → String

namespace Json

/-- `value[name]`, unless that raises. -/
def item? (name : String) : Json → Option Json
  | .obj fields => fields.lookup name
  | _ => none

/-- `value.get(name)` of a `dict`. -/
def get (name : String) (value : Json) : Json := (value.item? name).getD .null

/-- What iterating over the value gives: a `dict` its names, a text its characters. -/
def iterate? : Json → Option (List Json)
  | .arr items => some items
  | .obj fields => some (fields.map fun field => .str field.1)
  | .str s => some (s.toList.map fun c => .str (String.singleton c))
  | _ => none

def text? : Json → Option String
  | .str s => some s
  | _ => none

end Json

/-- The reply's `detail` as it arrived. -/
def PlannerReply.detail (reply : PlannerReply) : Except ServiceError Json :=
  match reply.json? with
  | none => .ok (.str reply.text)
  | some (.obj fields) => .ok ((fields.lookup "detail").getD (.str reply.text))
  -- Any other value has no `get`, and that is no `ValueError`.
  | some _ => .error (.attributeError "get")

namespace HttpCoveragePlannerAdapter
variable (self : HttpCoveragePlannerAdapter)

def optional : Json → Option (Option Rat)
  | .null => some none
  | value => (self.float value).map some

def waypoint (w : Json) : Option WGS84Waypoint := do
  let lat ← self.float (← w.item? "lat")
  let lon ← self.float (← w.item? "lon")
  let headingDeg ← self.optional (w.get "heading_deg")
  guard (Waypoint.wgs84 lat lon headingDeg).Admitted
  pure { lat, lon, headingDeg }

def segmentKind : Json → Option SegmentKind
  | .str "swath" => some .swath
  | .str "turn" => some .turn
  | _ => none

def segment (value : Json) : Option PlannedSegment := do
  let kind ← segmentKind (← value.item? "kind")
  let waypoints ← (← (← value.item? "waypoints").iterate?).mapM self.waypoint
  guard (2 ≤ waypoints.length)
  pure { kind, waypoints }

def metrics (value : Json) : Option CoverageMetrics := do
  let swathCount ← self.int (← value.item? "swath_count")
  let trackLengthM ← self.float (← value.item? "track_length_m")
  let pathLengthM ← self.optional (← value.item? "path_length_m")
  let coveredAreaM2 ← self.float (← value.item? "covered_area_m2")
  -- A planner may predate this one.
  let mainlandAreaM2 ← self.optional (value.get "mainland_area_m2")
  let maxExcursionM ← self.optional (← value.item? "max_excursion_m")
  guard (1 ≤ swathCount ∧ 0 < trackLengthM ∧ (∀ length ∈ pathLengthM, 0 ≤ length) ∧
    0 < coveredAreaM2 ∧ (∀ area ∈ mainlandAreaM2, 0 < area) ∧
    ∀ excursion ∈ maxExcursionM, 0 ≤ excursion)
  pure { swathCount := swathCount.toNat, trackLengthM, pathLengthM, coveredAreaM2, mainlandAreaM2
         maxExcursionM }

/-- The plan in a body, mapped field by field, unless a field is missing or refused. -/
def coveragePlan (body : Json) : Option CoveragePlan := do
  let reported ← body.item? "metrics"
  let segments ← (← (← body.item? "segments").iterate?).mapM self.segment
  let mainlandBoundary ← self.polygon (← body.item? "mainland_boundary")
  let swathAngleDeg ← self.optional (← body.item? "swath_angle_deg")
  let metrics ← self.metrics reported
  let plannerVersion ← (← body.item? "planner_version").text?
  guard (segments ≠ [] ∧ (∀ angle ∈ swathAngleDeg, 0 ≤ angle ∧ angle < 180) ∧ plannerVersion ≠ "")
  pure { segments, mainlandBoundary, swathAngleDeg, metrics, plannerVersion }

def plan : CoveragePlanner := fun boundary params =>
  match self.client { boundary, params } with
  | .error reason => .error (.coveragePlannerUnavailable ("coverage planner unreachable: " ++ reason))
  | .ok reply =>
    if reply.statusCode = 422 then do
      match ← reply.detail with
      | .str detail => .error (.coveragePlanRejected (.stated detail))
      -- The planner refuses a field with a sentence and a request it cannot parse with a list.
      | detail => .error (.coveragePlannerUnavailable
          ("coverage planner rejected the request itself: " ++ self.shown detail))
    else if reply.statusCode ≠ 200 then do
      let detail ← reply.detail
      .error (.coveragePlannerUnavailable
        ("coverage planner returned " ++ toString reply.statusCode ++ ": " ++ self.shown detail))
    else orRaise (.coveragePlannerUnavailable "coverage planner replied unusably")
      (reply.json?.bind self.coveragePlan)

end HttpCoveragePlannerAdapter

/-- The bounds of the model of metrics. -/
structure CoverageMetrics.Admitted (metrics : CoverageMetrics) : Prop where
  swathCount : 1 ≤ metrics.swathCount
  trackLengthM : 0 < metrics.trackLengthM
  pathLengthM : ∀ length ∈ metrics.pathLengthM, 0 ≤ length
  coveredAreaM2 : 0 < metrics.coveredAreaM2
  mainlandAreaM2 : ∀ area ∈ metrics.mainlandAreaM2, 0 < area
  maxExcursionM : ∀ excursion ∈ metrics.maxExcursionM, 0 ≤ excursion

/-- The bounds of the model of plans. -/
structure CoveragePlan.Admitted (plan : CoveragePlan) : Prop where
  nonempty : plan.segments ≠ []
  segments : ∀ segment ∈ plan.segments, 2 ≤ segment.waypoints.length
  waypoints : ∀ segment ∈ plan.segments, ∀ w ∈ segment.waypoints, w.toWaypoint.Admitted
  swathAngleDeg : ∀ angle ∈ plan.swathAngleDeg, 0 ≤ angle ∧ angle < 180
  metrics : plan.metrics.Admitted
  plannerVersion : plan.plannerVersion ≠ ""

/-- An error reply whose body is JSON but no object: its `detail` cannot be looked up. -/
def PlannerReply.Unreadable (reply : PlannerReply) : Prop :=
  reply.statusCode ≠ 200 ∧ ∃ body, reply.json? = some body ∧ ∀ fields, body ≠ .obj fields

theorem PlannerReply.detail_cases (reply : PlannerReply) :
    (∃ detail, reply.detail = .ok detail) ∧ (∀ body, reply.json? = some body →
        ∃ fields, body = .obj fields) ∨
      reply.detail = .error (.attributeError "get") ∧
        ∃ body, reply.json? = some body ∧ ∀ fields, body ≠ .obj fields := by
  unfold detail
  cases reply.json? with
  | none => exact .inl ⟨⟨_, rfl⟩, nofun⟩
  | some body =>
    cases body with
    | obj fields => exact .inl ⟨⟨_, rfl⟩, fun _ h => ⟨fields, (Option.some.inj h).symm⟩⟩
    | null | bool | num | str | arr => exact .inr ⟨rfl, _, rfl, nofun⟩

section Reading
variable {self : HttpCoveragePlannerAdapter} {value : Json} {boundary : Polygon}
  {params : CoverageParams} {reply : PlannerReply}

namespace HttpCoveragePlannerAdapter

theorem waypoint_admitted {w : WGS84Waypoint} (h : self.waypoint value = some w) :
    w.toWaypoint.Admitted := by
  unfold waypoint at h
  simp only [Option.bind_eq_bind, Option.bind_eq_some_iff] at h
  obtain ⟨-, -, lat, -, -, -, lon, -, headingDeg, -, u, hguard, h⟩ := h
  obtain rfl := Option.some.inj h
  exact (Option.guard_eq_some' u).mp hguard

theorem mapM_some {α β : Type} {f : α → Option β} {xs : List α} {ys : List β}
    (h : xs.mapM f = some ys) {y : β} (hy : y ∈ ys) : ∃ x ∈ xs, f x = some y := by
  induction xs generalizing ys with
  | nil =>
    obtain rfl := Option.some.inj h
    cases hy
  | cons x xs ih =>
    simp only [List.mapM_cons, Option.bind_eq_bind, Option.bind_eq_some_iff] at h
    obtain ⟨y', hx, ys', hxs, h⟩ := h
    obtain rfl := Option.some.inj h
    obtain rfl | hy := List.mem_cons.mp hy
    · exact ⟨x, List.mem_cons_self, hx⟩
    · obtain ⟨x', hx', he⟩ := ih hxs hy
      exact ⟨x', List.mem_cons_of_mem x hx', he⟩

theorem segment_admitted {segment : PlannedSegment} (h : self.segment value = some segment) :
    2 ≤ segment.waypoints.length ∧ ∀ w ∈ segment.waypoints, w.toWaypoint.Admitted := by
  unfold HttpCoveragePlannerAdapter.segment at h
  simp only [Option.bind_eq_bind, Option.bind_eq_some_iff] at h
  obtain ⟨-, -, kind, -, -, -, items, -, waypoints, hread, u, hguard, h⟩ := h
  obtain rfl := Option.some.inj h
  refine ⟨(Option.guard_eq_some' u).mp hguard, fun w hw => ?_⟩
  obtain ⟨item, -, hw⟩ := mapM_some hread hw
  exact waypoint_admitted hw

theorem metrics_admitted {metrics : CoverageMetrics} (h : self.metrics value = some metrics) :
    metrics.Admitted := by
  unfold HttpCoveragePlannerAdapter.metrics at h
  simp only [Option.bind_eq_bind, Option.bind_eq_some_iff] at h
  obtain ⟨-, -, swaths, -, -, -, track, -, -, -, path, -, -, -, covered, -, mainland, -, -, -,
    excursion, -, u, hguard, h⟩ := h
  obtain rfl := Option.some.inj h
  obtain ⟨hswaths, htrack, hpath, hcovered, hmainland, hexcursion⟩ :=
    (Option.guard_eq_some' u).mp hguard
  refine ⟨?_, htrack, hpath, hcovered, hmainland, hexcursion⟩
  change 1 ≤ swaths.toNat
  omega

/-- A plan is returned within the bounds of its models. -/
theorem coveragePlan_admitted {plan : CoveragePlan} (h : self.coveragePlan value = some plan) :
    plan.Admitted := by
  unfold coveragePlan at h
  simp only [Option.bind_eq_bind, Option.bind_eq_some_iff] at h
  obtain ⟨reported, -, -, -, items, -, segments, hsegments, -, -, mainland, -, -, -, angle, -, metrics,
    hmetrics, -, -, version, -, u, hguard, h⟩ := h
  obtain rfl := Option.some.inj h
  obtain ⟨hne, hangle, hversion⟩ := (Option.guard_eq_some' u).mp hguard
  refine ⟨hne, ?_, ?_, hangle, metrics_admitted hmetrics, hversion⟩
  · intro segment hsegment
    obtain ⟨item, -, hread⟩ := mapM_some hsegments hsegment
    exact (segment_admitted hread).1
  · intro segment hsegment
    obtain ⟨item, -, hread⟩ := mapM_some hsegments hsegment
    exact (segment_admitted hread).2

/-- The service's error reply to the question cannot be read. -/
def RepliesUnreadably (self : HttpCoveragePlannerAdapter) (question : PlannerQuestion) : Prop :=
  ∃ reply, self.client question = .ok reply ∧ reply.Unreadable

/-- The contract of the planner's port, a plan, a refusal or no answer, is met unless the service
replies with an error that cannot be read. -/
theorem plan_ensures : (self.plan boundary params).Ensures CoveragePlan.Admitted fun e =>
    (∃ reason, e = .coveragePlanRejected reason) ∨ (∃ reason, e = .coveragePlannerUnavailable reason) ∨
      e = .attributeError "get" ∧ self.RepliesUnreadably { boundary, params } := by
  unfold plan
  cases hclient : self.client { boundary, params } with
  | error reason => exact .error (.inr (.inl ⟨_, rfl⟩))
  | ok reply =>
    dsimp only
    split_ifs with hrefused hstatus
    · obtain ⟨⟨detail, hdetail⟩, -⟩ | ⟨hdetail, hbody⟩ := reply.detail_cases
      · rw [hdetail]
        cases detail with
        | str reason => exact .error (.inl ⟨_, rfl⟩)
        | null | bool | num | arr | obj => exact .error (.inr (.inl ⟨_, rfl⟩))
      · rw [hdetail]
        exact .error (.inr (.inr ⟨rfl, reply, hclient, by omega, hbody⟩))
    · obtain ⟨⟨detail, hdetail⟩, -⟩ | ⟨hdetail, hbody⟩ := reply.detail_cases
      · rw [hdetail]
        exact .error (.inr (.inl ⟨_, rfl⟩))
      · rw [hdetail]
        exact .error (.inr (.inr ⟨rfl, reply, hclient, hstatus, hbody⟩))
    · cases hbody : reply.json?.bind self.coveragePlan with
      | none => exact .error (.inr (.inl ⟨_, rfl⟩))
      | some plan =>
        obtain ⟨body, -, hread⟩ := Option.bind_eq_some_iff.mp hbody
        exact .ok (coveragePlan_admitted hread)

theorem plan_of_repliesUnreadably (h : self.RepliesUnreadably { boundary, params }) :
    self.plan boundary params = .error (.attributeError "get") := by
  obtain ⟨reply, hclient, hstatus, body, hbody, hobject⟩ := h
  have hdetail : reply.detail = .error (.attributeError "get") := by
    obtain ⟨-, hread⟩ | ⟨hdetail, -⟩ := reply.detail_cases
    · obtain ⟨fields, hfields⟩ := hread body hbody
      exact absurd hfields (hobject fields)
    · exact hdetail
  unfold plan
  rw [hclient]
  dsimp only
  rw [hdetail, if_pos hstatus]
  exact ite_self _

end HttpCoveragePlannerAdapter

end Reading

end Leitstand
