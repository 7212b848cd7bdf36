import Leitstand.MissionWire
import Leitstand.UuidText

namespace Leitstand
namespace MissionWire
variable {provenance : UUID → Option CoverageProvenance} {stages : List Stage}

theorem mapM_ok {α β : Type} {f : α → β} {g : β → Except WireError α} {xs : List α}
    (h : ∀ x ∈ xs, g (f x) = .ok x) : (xs.map f).mapM g = .ok xs := by
  induction xs with
  | nil => rfl
  | cons x xs ih =>
    rw [List.map_cons, List.mapM_cons, h x List.mem_cons_self,
      ih fun y hy => h y (List.mem_cons_of_mem x hy)]
    rfl

@[simp] theorem uuid_str (u : UUID) : uuid u.str = .ok u := by
  rw [uuid, UUID.parse_str]

theorem require_ok {c : Prop} [Decidable c] {e : WireError} (h : c) : require c e = .ok () :=
  if_pos h

theorem waypoint_round_trip {w : Waypoint} (h : w.Admitted) :
    waypointFromProto (waypointToProto w) = .ok w := by
  cases w with
  | wgs84 lat lon headingDeg =>
    rw [waypointToProto, waypointFromProto, require_ok h]
    rfl
  | siteLocal siteId x y theta =>
    rw [waypointToProto, waypointFromProto, uuid_str]
    rfl

theorem segment_round_trip (text : String) {segment : Segment} (h : segment.Admitted)
    (hw : ∀ w ∈ segment.waypoints, w.Admitted) :
    segmentFromProto text (segmentToProto segment) = .ok segment := by
  have hpoints := mapM_ok fun w hm => waypoint_round_trip (hw w hm)
  obtain ⟨kind, waypoints⟩ := segment
  unfold segmentFromProto segmentToProto
  dsimp only at hpoints ⊢
  rw [hpoints]
  cases kind <;> exact congrArg (· >>= fun _ => _) (require_ok h)

theorem detail_round_trip {s : Stage} (h : s.Admitted) (hknown : ∀ segments p,
      s.detail = .coverage segments p → provenance s.stageId = some p) :
    detailFromProto provenance s.stageId.str (detailToProto s.detail).1 (detailToProto s.detail).2 =
      .ok (s.stageId, s.detail) := by
  obtain ⟨i, cs, d⟩ := s
  have hadmitted : d.Admitted := h.detail
  cases d with
  | navigation waypoints =>
    have hpoints : (waypoints.map waypointToProto).mapM waypointFromProto = .ok waypoints :=
      mapM_ok fun w hm => waypoint_round_trip (h.waypoints w hm)
    simp only [detailToProto, Stage.detail, Stage.stageId, detailFromProto, uuid_str, hpoints,
      require_ok hadmitted, bind, Except.bind]
    rfl
  | coverage segments p =>
    have hroutes : (segments.map segmentToProto).mapM (segmentFromProto i.str) = .ok segments :=
      mapM_ok fun segment hm => segment_round_trip i.str (h.segments segment hm)
        fun w hw => h.waypoints w (List.mem_flatMap.mpr ⟨segment, hm, hw⟩)
    have hp : provenance i = some p := hknown segments p rfl
    simp only [detailToProto, Stage.detail, Stage.stageId, detailFromProto, uuid_str, hroutes, hp,
      require_ok hadmitted, bind, Except.bind]
    rfl

theorem stagesToProto_cons (i : UUID) (cs : Option (List Stage)) (d : StageDetail)
    (rest : List Stage) : stagesToProto (.mk i cs d :: rest) =
      .mk i.str (detailToProto d).1 (detailToProto d).2 (stagesToProto (cs.getD [])) ::
        stagesToProto rest := by
  cases cs <;> rfl

/-- Read with no provenance at hand, a stage that came back is no coverage stage. -/
theorem kind_of_detailFromProto {text : String} {d : StageDetail} {stage : UUID × StageDetail}
    (h : detailFromProto (fun _ => none) text (detailToProto d).1 (detailToProto d).2 = .ok stage) :
    ∀ segments p, d ≠ .coverage segments p := by
  rintro segments p rfl
  change (uuid text >>= fun stageId => Except.error (.noProvenance stageId)) = .ok stage at h
  cases hid : uuid text <;> rw [hid] at h <;> cases h

/-- What reading the first of a list of stages back takes, and reading the rest. -/
theorem stagesFromProto_cons {i : UUID} {cs : Option (List Stage)} {d : StageDetail}
    {rest out : List Stage}
    (h : stagesFromProto provenance (stagesToProto (.mk i cs d :: rest)) = .ok out) :
    (∃ cleanup, stagesFromProto (fun _ => none) (stagesToProto (cs.getD [])) = .ok cleanup) ∧
      (∃ stage, detailFromProto provenance i.str (detailToProto d).1 (detailToProto d).2 =
        .ok stage) ∧
      ∃ out', stagesFromProto provenance (stagesToProto rest) = .ok out' := by
  rw [stagesToProto_cons, stagesFromProto, stageFromProto] at h
  cases hcleanup : stagesFromProto (fun _ => none) (stagesToProto (cs.getD [])) with
  | error e => rw [hcleanup] at h; cases h
  | ok cleanup =>
    rw [hcleanup] at h
    cases hdetail : detailFromProto provenance i.str (detailToProto d).1 (detailToProto d).2 with
    | error e => simp only [hdetail, bind, Except.bind] at h; cases h
    | ok stage =>
      cases hrest : stagesFromProto provenance (stagesToProto rest) with
      | error e => simp only [hdetail, hrest, bind, Except.bind] at h; cases h
      | ok out' => exact ⟨⟨cleanup, rfl⟩, ⟨stage, rfl⟩, ⟨out', rfl⟩⟩

/-- No coverage stage comes back where no provenance is at hand. -/
theorem no_coverage_of_read {stages out : List Stage}
    (h : stagesFromProto (fun _ => none) (stagesToProto stages) = .ok out) :
    ∀ s ∈ allStages stages, s.kind ≠ .coverage := by
  induction stages using stagesInduction generalizing out with
  | nil => simp
  | cons i cs d rest ihs ih =>
    obtain ⟨⟨cleanup, hcleanup⟩, ⟨stage, hdetail⟩, out', hrest⟩ := stagesFromProto_cons h
    have hd := kind_of_detailFromProto hdetail
    rw [allStages_cons]
    intro s hs
    obtain rfl | hs := List.mem_cons.mp hs
    · cases d with
      | navigation waypoints => simp [Stage.kind, Stage.detail]
      | coverage segments p => exact absurd rfl (hd segments p)
    · obtain hs | hs := List.mem_append.mp hs
      · exact ihs hcleanup s hs
      · exact ih hrest s hs

/-- So what comes back under any provenance has no coverage stage among its cleanup stages. -/
theorem no_covered_cleanup_of_read {stages out : List Stage}
    (h : stagesFromProto provenance (stagesToProto stages) = .ok out) :
    ∀ s ∈ cleanupStages stages, s.kind ≠ .coverage := by
  induction stages generalizing out with
  | nil => simp [cleanupStages]
  | cons t rest ih =>
    obtain ⟨i, cs, d⟩ := t
    obtain ⟨⟨cleanup, hcleanup⟩, -, out', hrest⟩ := stagesFromProto_cons h
    intro s hs
    rw [cleanupStages, List.flatMap_cons] at hs
    obtain hs | hs := List.mem_append.mp hs
    · exact no_coverage_of_read hcleanup s hs
    · exact ih hrest s hs

/-- The stages come back as they were sent, an empty `on_cancel` as none. -/
theorem stages_round_trip (h : ∀ s ∈ allStages stages, s.Admitted)
    (hknown : ∀ s ∈ allStages stages, ∀ segments p, s.detail = .coverage segments p →
      provenance s.stageId = some p)
    (hcleanup : ∀ s ∈ cleanupStages stages, s.kind ≠ .coverage) :
    stagesFromProto provenance (stagesToProto stages) = .ok (tidied stages) := by
  induction stages using stagesInduction generalizing provenance with
  | nil => rfl
  | cons i cs d rest ihs ih =>
    have hmem : ∀ s, s = .mk i cs d ∨ s ∈ allStages (cs.getD []) ∨ s ∈ allStages rest →
        s ∈ allStages (.mk i cs d :: rest) := fun s hs => by
      simpa [allStages_cons] using hs
    have hplain : ∀ s ∈ allStages (cs.getD []), s.kind ≠ .coverage := fun s hs =>
      hcleanup s (List.mem_append_left _ hs)
    have hdetail := detail_round_trip (h _ (hmem _ (.inl rfl))) (hknown _ (hmem _ (.inl rfl)))
    -- Below the stage nothing asks for a provenance, so that none is handed on does no harm.
    have hbelow := @ihs (fun _ => none) (fun s hs => h s (hmem s (.inr (.inl hs))))
      (fun s hs segments p hd => absurd (by rw [Stage.kind, hd]) (hplain s hs))
      fun s hs => hplain s (mem_allStages_iff.mpr (.inr hs))
    have hrest := ih (fun s hs => h s (hmem s (.inr (.inr hs))))
      (fun s hs => hknown s (hmem s (.inr (.inr hs))))
      fun s hs => hcleanup s (List.mem_append_right _ hs)
    rw [stagesToProto_cons, tidied_cons, stagesFromProto, stageFromProto, hbelow]
    simp only [bind, Except.bind]
    rw [show detailFromProto provenance i.str (detailToProto d).1 (detailToProto d).2 =
      .ok (i, d) from hdetail, hrest]
    rfl

/-- A run reads back as it was sent exactly where no cleanup stage covers ground. -/
theorem run_round_trip_iff (provenance : UUID → Option CoverageProvenance) (runId : UUID)
    (h : ∀ s ∈ allStages stages, s.Admitted)
    (hknown : ∀ s ∈ allStages stages, ∀ segments p, s.detail = .coverage segments p →
      provenance s.stageId = some p) :
    runProjectionFromProto provenance (runToProto runId stages) = .ok (runId, tidied stages) ↔
      ∀ s ∈ cleanupStages stages, s.kind ≠ .coverage := by
  unfold runProjectionFromProto runToProto
  dsimp only
  rw [uuid_str]
  constructor
  · intro hread
    cases hstages : stagesFromProto provenance (stagesToProto stages) with
    | error e => rw [hstages] at hread; cases hread
    | ok out => exact no_covered_cleanup_of_read hstages
  · intro hcleanup
    rw [stages_round_trip h hknown hcleanup]
    rfl

theorem waypointToProto_injective : Function.Injective waypointToProto := by
  intro w w' he
  cases w <;> cases w' <;> simp only [waypointToProto, WaypointMessage.wgs84.injEq,
    WaypointMessage.siteLocal.injEq, reduceCtorEq] at he
  · rw [he.1, he.2.1, he.2.2]
  · rw [UUID.str_injective he.1, he.2.1, he.2.2.1, he.2.2.2]

theorem segmentToProto_injective : Function.Injective segmentToProto := by
  rintro ⟨kind, waypoints⟩ ⟨kind', waypoints'⟩ he
  rw [segmentToProto, segmentToProto, SegmentMessage.mk.injEq] at he
  have hpoints : waypoints = waypoints' := waypointToProto_injective.list_map he.2
  have hkind : kind = kind' := by
    have hkinds := he.1
    cases kind <;> cases kind' <;> first | rfl | cases hkinds
  rw [hkind, hpoints]

/-- The kind and the payload tell what a stage drives, but for a coverage stage's provenance. -/
theorem detailToProto_injective {d d' : StageDetail} (he : detailToProto d = detailToProto d')
    (p : CoverageProvenance) : d.withProvenance p = d'.withProvenance p := by
  cases d <;> cases d' <;> simp only [detailToProto, Prod.mk.injEq, PayloadMessage.navigation.injEq,
    PayloadMessage.coverage.injEq, reduceCtorEq, true_and, false_and] at he
  · rw [waypointToProto_injective.list_map he]
  · rw [StageDetail.withProvenance, segmentToProto_injective.list_map he]
    rfl

theorem stagesToProto_injective {stages stages' : List Stage}
    (he : stagesToProto stages = stagesToProto stages') : SamePlan stages stages' := by
  intro p
  induction stages using stagesInduction generalizing stages' with
  | nil =>
    cases stages' with
    | nil => rfl
    | cons t rest => cases he
  | cons i cs d rest ihs ih =>
    cases stages' with
    | nil => rw [stagesToProto_cons] at he; cases he
    | cons t rest' =>
      obtain ⟨i', cs', d'⟩ := t
      rw [stagesToProto_cons, stagesToProto_cons, List.cons.injEq, StageMessage.mk.injEq] at he
      obtain ⟨⟨hid, hkind, hpayload, hbelow⟩, hrest⟩ := he
      have hdetail := detailToProto_injective (Prod.ext hkind hpayload) p
      rw [withProvenance, Stage.withProvenance, withProvenance, Stage.withProvenance, tidied_cons,
        tidied_cons, getD_cleanupWithProvenance, getD_cleanupWithProvenance, ihs hbelow, ih hrest,
        UUID.str_injective hid, hdetail]

/-- The message tells the run and the plan, but for what the robot is not told. -/
theorem runToProto_injective {runId runId' : UUID} {stages stages' : List Stage}
    (he : runToProto runId stages = runToProto runId' stages') :
    runId = runId' ∧ SamePlan stages stages' :=
  ⟨UUID.str_injective (congrArg MissionMessage.runId he),
    stagesToProto_injective (congrArg MissionMessage.stages he)⟩

end MissionWire

def demoProvenance : CoverageProvenance :=
  { fieldId := 3, boundaryDigest := "", fieldAreaM2 := 100, mainlandBoundary := none
    params :=
      { operationWidthM := 2, turningRadiusM := 1, headlandWidthM := 2, swathAngleDeg := none,
        allowOverlap := none, trackWidthM := none, linearCurvChange := none, turnSampleM := none }
    metrics :=
      { swathCount := 1, trackLengthM := 10, pathLengthM := none, coveredAreaM2 := 80,
        mainlandAreaM2 := none, maxExcursionM := none }
    plannerVersion := "1", plannedForRobotId := none, paramSources := none, plannedAt := 0 }

def demoCoverage : StageDetail :=
  .coverage [⟨.swath, [.wgs84 52 8 none, .wgs84 52 9 none]⟩] demoProvenance

def demoProvenances (stageId : UUID) : Option CoverageProvenance :=
  if stageId = 2 then some demoProvenance else none

/-- A site-local navigation whose cleanup covers ground, with an empty cleanup of its own. -/
def demoRoute : List Stage :=
  [.mk 1 (some [.mk 2 (some []) demoCoverage])
    (.navigation [.siteLocal 5 1 2 (some 3), .wgs84 52 8 (some 270)])]

/-- The same stages the other way round. -/
def demoSweep : List Stage :=
  [.mk 2 (some [.mk 1 (some [])
    (.navigation [.siteLocal 5 1 2 (some 3), .wgs84 52 8 (some 270)])]) demoCoverage]

/-- What a robot is told of a run reads back as the run, an empty `on_cancel` as none, exactly where
no coverage stage stands below an `on_cancel`; the message tells the run and the plan everywhere,
the provenance of its coverage stages apart. -/
theorem run_reads_back_from_wire_iff (runId : UUID) (stages : List Stage)
    (h : ∀ s ∈ allStages stages, s.Admitted) (provenance : UUID → Option CoverageProvenance)
    (hknown : ∀ s ∈ allStages stages, ∀ segments p, s.detail = .coverage segments p →
      provenance s.stageId = some p) :
    (MissionWire.runProjectionFromProto provenance (MissionWire.runToProto runId stages) =
        .ok (runId, tidied stages) ↔ ∀ s ∈ cleanupStages stages, s.kind ≠ .coverage) ∧
    ∀ runId' stages', MissionWire.runToProto runId stages = MissionWire.runToProto runId' stages' →
      runId = runId' ∧ SamePlan stages stages' :=
  ⟨MissionWire.run_round_trip_iff provenance runId h hknown, fun _ _ =>
    MissionWire.runToProto_injective⟩

/-- The provenance of every coverage stage is at hand, and the run is refused for one. -/
theorem covered_cleanup_refused_on_wire : (∀ s ∈ allStages demoRoute, s.Admitted) ∧
    (∀ s ∈ allStages demoRoute, ∀ segments p, s.detail = .coverage segments p →
      demoProvenances s.stageId = some p) ∧
    MissionWire.runProjectionFromProto demoProvenances (MissionWire.runToProto 7 demoRoute) =
      .error (.noProvenance 2) := by
  refine ⟨by decide, ?_, rfl⟩
  intro s hs segments p hd
  simp only [demoRoute, allStages_cons, allStages_nil, Option.getD_some, List.append_nil, List.mem_cons,
    List.not_mem_nil, or_false] at hs
  obtain rfl | rfl := hs <;> cases hd
  rfl

theorem run_reads_back_from_wire_iff_sweep :
    MissionWire.runProjectionFromProto demoProvenances (MissionWire.runToProto 7 demoSweep) =
      .ok (7, tidied demoSweep) ∧
    (tidied demoSweep).flatMap (fun s => s.children.map Stage.onCancel) = [none] := by
  refine ⟨((run_reads_back_from_wire_iff 7 demoSweep (by decide) _ ?_).1).mpr (by decide), rfl⟩
  intro s hs segments p hd
  simp only [demoSweep, allStages_cons, allStages_nil, Option.getD_some, List.append_nil, List.mem_cons,
    List.not_mem_nil, or_false] at hs
  obtain rfl | rfl := hs <;> cases hd
  rfl

end Leitstand
