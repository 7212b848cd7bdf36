import Leitstand.PyFloat
import Leitstand.StageTree

namespace Leitstand
open PyNumber

/-- A proto waypoint: the arm of its `kind` that is set, if one is. -/
inductive WaypointMessage where
  | wgs84 (lat lon : Rat) (headingDeg : Option Rat)
  | siteLocal (siteId : String) (x y : Rat) (theta : Option Rat)
  | unset

/-- `unrecognized` is any other number on the wire. -/
inductive SegmentKindMessage where
  | unspecified | swath | turn
  | unrecognized (number : Int)
  deriving DecidableEq

structure SegmentMessage where
  kind : SegmentKindMessage
  geometry : List WaypointMessage

inductive StageKindMessage where
  | unspecified | navigation | coverage
  | unrecognized (number : Int)
  deriving DecidableEq

/-- The arm of a proto stage's `payload` that is set, if one is. -/
inductive PayloadMessage where
  | navigation (waypoints : List WaypointMessage)
  | coverage (segments : List SegmentMessage)
  | unset

inductive StageMessage where
  | mk (stageId : String) (kind : StageKindMessage) (payload : PayloadMessage)
      (onCancel : List StageMessage)

structure MissionMessage where
  runId : String
  stages : List StageMessage

/-- What a message is refused for. -/
inductive WireError where
  | badId (text : String)
  | noFrameArm
  | noSegmentKind (stageId : String) (kind : SegmentKindMessage)
  | payloadMismatch (stageId : String) (kind : StageKindMessage)
  | noProvenance (stageId : UUID)
  | unsupportedStageKind (kind : StageKindMessage) (stageId : String)
  -- A value that the domain's models do not accept.
  | validation

section Admitted
variable {ν : Type}

/-- The bounds of the domain's waypoint models. What is no number is beyond none of them. -/
def Waypoint.Admitted [PyNumber ν] : Waypoint ν → Prop
  | .wgs84 lat lon headingDeg => ¬ toFloat lat < -90 ∧ ¬ 90 < toFloat lat ∧
      ¬ toFloat lon < -180 ∧ ¬ 180 < toFloat lon ∧
      ∀ heading ∈ headingDeg, ¬ toFloat heading < 0 ∧ ¬ 360 ≤ toFloat heading
  | .siteLocal .. => True

instance [PyNumber ν] : DecidablePred (@Waypoint.Admitted ν _)
  | .wgs84 lat lon headingDeg => inferInstanceAs (Decidable (¬ toFloat lat < -90 ∧
      ¬ 90 < toFloat lat ∧ ¬ toFloat lon < -180 ∧ ¬ 180 < toFloat lon ∧
      ∀ heading ∈ headingDeg, ¬ toFloat heading < 0 ∧ ¬ 360 ≤ toFloat heading))
  | .siteLocal .. => .isTrue trivial

/-- The bounds of the domain's segment model. -/
def Segment.Admitted (segment : Segment ν) : Prop := 2 ≤ segment.waypoints.length

/-- The bounds of the domain's stage models, their waypoints and segments aside. -/
def StageDetail.Admitted : StageDetail ν → Prop
  | .navigation waypoints => waypoints ≠ []
  | .coverage segments _ => segments ≠ []

instance : DecidablePred (@Segment.Admitted ν) := fun segment =>
  inferInstanceAs (Decidable (2 ≤ segment.waypoints.length))

instance : DecidablePred (@StageDetail.Admitted ν)
  | .navigation waypoints => inferInstanceAs (Decidable (waypoints ≠ []))
  | .coverage segments _ => inferInstanceAs (Decidable (segments ≠ []))

def StageDetail.segments : StageDetail ν → List (Segment ν)
  | .navigation _ => []
  | .coverage segments _ => segments

/-- What the domain's models accept as a stage, its cleanup stages aside. -/
structure Stage.Admitted [PyNumber ν] (s : Stage ν) : Prop where
  detail : s.detail.Admitted
  segments : ∀ segment ∈ s.detail.segments, segment.Admitted
  waypoints : ∀ w ∈ stageWaypoints s, w.Admitted

instance [PyNumber ν] : DecidablePred (@Stage.Admitted ν _) := fun s =>
  decidable_of_iff (s.detail.Admitted ∧ (∀ segment ∈ s.detail.segments, segment.Admitted) ∧
    ∀ w ∈ stageWaypoints s, w.Admitted)
    ⟨fun h => ⟨h.1, h.2.1, h.2.2⟩, fun h => ⟨h.detail, h.segments, h.waypoints⟩⟩

end Admitted

namespace MissionWire

def require (c : Prop) [Decidable c] (e : WireError) : Except WireError Unit :=
  if c then .ok () else .error e

def uuid (text : String) : Except WireError UUID :=
  match UUID.parse text with
  | some u => .ok u
  | none => .error (.badId text)

def waypointToProto : Waypoint → WaypointMessage
  | .wgs84 lat lon headingDeg => .wgs84 lat lon headingDeg
  | .siteLocal siteId x y theta => .siteLocal siteId.str x y theta

def segmentToProto (segment : Segment) : SegmentMessage :=
  { kind := match segment.kind with
      | .swath => .swath
      | .turn => .turn
    geometry := segment.waypoints.map waypointToProto }

/-- The kind and the payload arm that goes with it. -/
def detailToProto : StageDetail → StageKindMessage × PayloadMessage
  | .navigation waypoints => (.navigation, .navigation (waypoints.map waypointToProto))
  | .coverage segments _ => (.coverage, .coverage (segments.map segmentToProto))

mutual
def stageToProto : Stage → StageMessage
  | .mk stageId onCancel detail =>
    .mk stageId.str (detailToProto detail).1 (detailToProto detail).2 (cleanupToProto onCancel)

def cleanupToProto : Option (List Stage) → List StageMessage
  | none => []
  | some cs => stagesToProto cs

def stagesToProto : List Stage → List StageMessage
  | [] => []
  | s :: rest => stageToProto s :: stagesToProto rest
end

/-- A run, its id and the plan it executes, as the robot is told it. -/
def runToProto (runId : UUID) (stages : List Stage) : MissionMessage :=
  { runId := runId.str, stages := stagesToProto stages }

def waypointFromProto : WaypointMessage → Except WireError Waypoint
  | .wgs84 lat lon headingDeg => do
    let waypoint := Waypoint.wgs84 lat lon headingDeg
    require waypoint.Admitted .validation
    return waypoint
  | .siteLocal siteId x y theta => return .siteLocal (← uuid siteId) x y theta
  | .unset => .error .noFrameArm

def segmentKindFromProto (stageId : String) : SegmentKindMessage → Except WireError SegmentKind
  | .swath => .ok .swath
  | .turn => .ok .turn
  | kind => .error (.noSegmentKind stageId kind)

def segmentFromProto (stageId : String) (message : SegmentMessage) : Except WireError Segment := do
  let kind ← segmentKindFromProto stageId message.kind
  let segment : Segment := { kind, waypoints := ← message.geometry.mapM waypointFromProto }
  require segment.Admitted .validation
  return segment

/-- The id and the payload of a stage. A coverage stage's provenance is not sent, so it is looked up. -/
def detailFromProto (provenance : UUID → Option CoverageProvenance) (text : String) :
    StageKindMessage → PayloadMessage → Except WireError (UUID × StageDetail)
  | .navigation, .navigation waypoints => do
    let stageId ← uuid text
    let detail := StageDetail.navigation (← waypoints.mapM waypointFromProto)
    require detail.Admitted .validation
    return (stageId, detail)
  | .coverage, .coverage segments => do
    let stageId ← uuid text
    let some known := provenance stageId | .error (.noProvenance stageId)
    let detail := StageDetail.coverage (← segments.mapM (segmentFromProto text)) known
    require detail.Admitted .validation
    return (stageId, detail)
  | .navigation, _ => .error (.payloadMismatch text .navigation)
  | .coverage, _ => .error (.payloadMismatch text .coverage)
  | kind, _ => .error (.unsupportedStageKind kind text)

mutual
def stageFromProto (provenance : UUID → Option CoverageProvenance) :
    StageMessage → Except WireError Stage
  | .mk text kind payload onCancel => do
    -- The provenance is not handed on to the cleanup stages.
    let cleanup ← stagesFromProto (fun _ => none) onCancel
    let (stageId, detail) ← detailFromProto provenance text kind payload
    return .mk stageId (cleanupOf cleanup) detail

def stagesFromProto (provenance : UUID → Option CoverageProvenance) :
    List StageMessage → Except WireError (List Stage)
  | [] => return []
  | s :: rest => do
    let stage ← stageFromProto provenance s
    return stage :: (← stagesFromProto provenance rest)
end

def runProjectionFromProto (provenance : UUID → Option CoverageProvenance)
    (mission : MissionMessage) : Except WireError (UUID × List Stage) := do
  let runId ← uuid mission.runId
  return (runId, ← stagesFromProto provenance mission.stages)

end MissionWire
end Leitstand
