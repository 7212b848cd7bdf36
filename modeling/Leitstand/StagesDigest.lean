import Leitstand.JsonText
import Leitstand.MissionWire

namespace Leitstand
open PyNumber

section Numbers
variable {ν : Type} [PyNumber ν]

namespace Json

/-- A number, or null where there is none. -/
def ofFloat? : Option ν → Json
  | none => .null
  | some n => .num (toFloat n)

def float? : Json → Option ν
  | .num n => PyNumber.ofFloat? n
  | _ => none

/-- A field that may be null or left out. -/
def optionalFloat? : Option Json → Option (Option ν)
  | none | some .null => some none
  | some value => value.float?.map some

def uuid? : Json → Option UUID
  | .str text => UUID.parse text
  | _ => none

def items? : Json → Option (List Json)
  | .arr items => some items
  | _ => none

@[simp] theorem float?_num (n : ν) : float? (.num (toFloat n)) = some n := ofFloat?_toFloat n

@[simp] theorem optionalFloat?_ofFloat? (n : Option ν) :
    optionalFloat? (some (ofFloat? n)) = some n := by
  cases n with
  | none => rfl
  | some n =>
    change (float? (.num (toFloat n))).map some = _
    rw [float?_num, Option.map_some]

end Json

/-- The stored form of a coverage stage's provenance, as its model writes and reads it. -/
structure ProvenanceModel where
  modelDump : CoverageProvenance → Json
  validate : Json → Option CoverageProvenance

/-- What a digest is taken with: the text of a number and the SHA-256 of a text. -/
structure Hashing where
  number : PyFloat → String
  sha256 : String → String

def WaypointKind.value : WaypointKind → String
  | .wgs84 => "wgs84"
  | .siteLocal => "site_local"

def SegmentKind.value : SegmentKind → String
  | .swath => "swath"
  | .turn => "turn"

theorem mapM_map_guard {α β : Type} {f : α → β} {g : β → Option α} {P : α → Prop} [DecidablePred P]
    (h : ∀ x, g (f x) = if P x then some x else none) (xs : List α) :
    (xs.map f).mapM g = if ∀ x ∈ xs, P x then some xs else none := by
  induction xs with
  | nil => rfl
  | cons x xs ih =>
    rw [List.map_cons, List.mapM_cons, h x, ih]
    by_cases hx : P x
    · by_cases hxs : ∀ y ∈ xs, P y
      · rw [if_pos hx, if_pos hxs, if_pos (List.forall_mem_cons.mpr ⟨hx, hxs⟩)]
        rfl
      · rw [if_pos hx, if_neg hxs, if_neg fun hall => hxs (List.forall_mem_cons.mp hall).2]
        rfl
    · rw [if_neg hx, if_neg fun hall => hx (List.forall_mem_cons.mp hall).1]
      rfl

namespace Waypoint

/-- `waypoint.model_dump(mode="json")`. -/
def modelDump : Waypoint ν → Json
  | .wgs84 lat lon headingDeg => .obj [("kind", .str WaypointKind.wgs84.value),
      ("lat", .num (toFloat lat)), ("lon", .num (toFloat lon)),
      ("heading_deg", .ofFloat? headingDeg)]
  | .siteLocal siteId x y theta => .obj [("kind", .str WaypointKind.siteLocal.value),
      ("site_id", .str siteId.str), ("x", .num (toFloat x)), ("y", .num (toFloat y)),
      ("theta", .ofFloat? theta)]

/-- The waypoint of one kind in these fields, its bounds aside. -/
def ofFields (fields : Dict) : Json → Option (Waypoint ν)
  | .str kind =>
    if kind = WaypointKind.wgs84.value then do
      return .wgs84 (← (← fields.lookup "lat").float?) (← (← fields.lookup "lon").float?)
        (← Json.optionalFloat? (fields.lookup "heading_deg"))
    else if kind = WaypointKind.siteLocal.value then do
      return .siteLocal (← (← fields.lookup "site_id").uuid?) (← (← fields.lookup "x").float?)
        (← (← fields.lookup "y").float?) (← Json.optionalFloat? (fields.lookup "theta"))
    else none
  | _ => none

/-- A waypoint read from its stored form. -/
def validate : Json → Option (Waypoint ν)
  | .obj fields => do
    let waypoint ← ofFields fields (← fields.lookup "kind")
    if waypoint.Admitted then some waypoint else none
  | _ => none

theorem validate_modelDump (w : Waypoint ν) :
    validate w.modelDump = if w.Admitted then some w else none := by
  cases w with
  | wgs84 lat lon headingDeg => simp [modelDump, validate, ofFields, List.lookup_cons]
  | siteLocal siteId x y theta =>
    have hid : Json.uuid? (.str siteId.str) = some siteId := UUID.parse_str siteId
    simp [modelDump, validate, ofFields, List.lookup_cons, hid, WaypointKind.value]

end Waypoint

namespace Segment

def modelDump (segment : Segment ν) : Json :=
  .obj [("kind", .str segment.kind.value), ("waypoints", .arr (segment.waypoints.map
    Waypoint.modelDump))]

def kindOf : Json → Option SegmentKind
  | .str text =>
    if text = SegmentKind.swath.value then some .swath
    else if text = SegmentKind.turn.value then some .turn
    else none
  | _ => none

def validate : Json → Option (Segment ν)
  | .obj fields => do
    let kind ← kindOf (← fields.lookup "kind")
    let waypoints ← (← (← fields.lookup "waypoints").items?).mapM Waypoint.validate
    let segment : Segment ν := { kind, waypoints }
    if segment.Admitted then some segment else none
  | _ => none

theorem kindOf_value (kind : SegmentKind) : kindOf (.str kind.value) = some kind := by
  cases kind <;> rfl

theorem validate_modelDump (segment : Segment ν) : validate segment.modelDump =
    if segment.Admitted ∧ ∀ w ∈ segment.waypoints, w.Admitted then some segment else none := by
  have hpoints := mapM_map_guard (@Waypoint.validate_modelDump ν _) segment.waypoints
  obtain ⟨kind, waypoints⟩ := segment
  simp only [modelDump, validate, List.lookup_cons, beq_self_eq_true, Option.bind_eq_bind,
    Option.bind_some, kindOf_value, Json.items?] at hpoints ⊢
  rw [show ("waypoints" == "kind") = false by decide]
  dsimp only
  rw [Option.bind_some, Option.bind_some, hpoints]
  split_ifs with hw ha ha' <;> simp_all

end Segment

namespace StageDetail
variable (model : ProvenanceModel)

/-- The fields that one kind of stage adds to the common ones. -/
def modelDump : StageDetail ν → Dict
  | .navigation waypoints =>
    [("kind", .str "navigation"), ("waypoints", .arr (waypoints.map Waypoint.modelDump))]
  | .coverage segments provenance => [("kind", .str "coverage"),
      ("segments", .arr (segments.map Segment.modelDump)),
      ("provenance", model.modelDump provenance)]

/-- What the stage of one kind in these fields carries, how many entries aside. -/
def ofFields (fields : Dict) : Json → Option (StageDetail ν)
  | .str kind =>
    if kind = "navigation" then do
      return .navigation (← (← (← fields.lookup "waypoints").items?).mapM Waypoint.validate)
    else if kind = "coverage" then do
      return .coverage (← (← (← fields.lookup "segments").items?).mapM Segment.validate)
        (← model.validate (← fields.lookup "provenance"))
    else none
  | _ => none

def validate (fields : Dict) : Option (StageDetail ν) := do
  let detail ← ofFields model fields (← fields.lookup "kind")
  if detail.Admitted then some detail else none

/-- The detail with the provenance that is read for its own. -/
def readBack : StageDetail ν → Option (StageDetail ν)
  | .navigation waypoints => some (.navigation waypoints)
  | .coverage segments provenance =>
    (model.validate (model.modelDump provenance)).map (.coverage segments)

theorem validate_modelDump (i : UUID) (cs : Option (List (Stage ν))) (d : StageDetail ν) (a b : Json) :
    validate model (("stage_id", a) :: ("on_cancel", b) :: d.modelDump model) =
      if (Stage.mk i cs d).Admitted then d.readBack model else none := by
  cases d with
  | navigation waypoints =>
    have hpoints := mapM_map_guard (@Waypoint.validate_modelDump ν _) waypoints
    have hadmitted : (Stage.mk i cs (.navigation waypoints)).Admitted ↔
        (StageDetail.navigation waypoints).Admitted ∧ ∀ w ∈ waypoints, w.Admitted :=
      ⟨fun h => ⟨h.detail, h.waypoints⟩, fun h => ⟨h.1, fun _ hs => (by cases hs), h.2⟩⟩
    have hfields : ofFields model (("stage_id", a) :: ("on_cancel", b) ::
        (StageDetail.navigation waypoints).modelDump model) (.str "navigation") =
          ((waypoints.map Waypoint.modelDump).mapM Waypoint.validate).bind
            fun ws : List (Waypoint ν) => some (.navigation ws) := rfl
    change (ofFields model _ (.str "navigation")).bind _ = _
    rw [hfields, hpoints, if_congr hadmitted rfl rfl]
    split_ifs <;> simp_all [readBack]
  | coverage segments provenance =>
    have hroutes := mapM_map_guard (@Segment.validate_modelDump ν _) segments
    have hadmitted : (Stage.mk i cs (.coverage segments provenance)).Admitted ↔
        (StageDetail.coverage segments provenance).Admitted ∧
          ∀ segment ∈ segments, segment.Admitted ∧ ∀ w ∈ segment.waypoints, w.Admitted := by
      constructor
      · intro h
        exact ⟨h.detail, fun segment hs => ⟨h.segments segment hs, fun w hw =>
          h.waypoints w (List.mem_flatMap.mpr ⟨segment, hs, hw⟩)⟩⟩
      · intro h
        refine ⟨h.1, fun segment hs => (h.2 segment hs).1, fun w hw => ?_⟩
        obtain ⟨segment, hs, hw⟩ := List.mem_flatMap.mp hw
        exact (h.2 segment hs).2 w hw
    have hfields : ofFields model (("stage_id", a) :: ("on_cancel", b) ::
        (StageDetail.coverage segments provenance).modelDump model) (.str "coverage") =
          ((segments.map Segment.modelDump).mapM Segment.validate).bind fun ss : List (Segment ν) =>
            (model.validate (model.modelDump provenance)).bind fun p => some (.coverage ss p) := rfl
    change (ofFields model _ (.str "coverage")).bind _ = _
    rw [hfields, hroutes, if_congr hadmitted rfl rfl, readBack]
    by_cases hs : ∀ segment ∈ segments, segment.Admitted ∧ ∀ w ∈ segment.waypoints, w.Admitted
    · rw [if_pos hs]
      -- How many segments there are is asked of what was read, provenance and all.
      by_cases hd : (StageDetail.coverage segments provenance).Admitted
      · rw [if_pos ⟨hd, hs⟩]
        cases model.validate (model.modelDump provenance) with
        | none => rfl
        | some p => exact if_pos hd
      · rw [if_neg fun h => hd h.1]
        cases model.validate (model.modelDump provenance) with
        | none => rfl
        | some p => exact if_neg hd
    · rw [if_neg hs, if_neg fun h => hs h.2]
      rfl

end StageDetail

section Stages
variable (model : ProvenanceModel)

mutual
/-- `stage.model_dump(mode="json")`. -/
def Stage.modelDump : Stage ν → Json
  | .mk i cs d =>
    .obj (("stage_id", .str i.str) :: ("on_cancel", dumpCleanup cs) :: d.modelDump model)

def dumpCleanup : Option (List (Stage ν)) → Json
  | none => .null
  | some cs => .arr (dumpStages cs)

def dumpStages : List (Stage ν) → List Json
  | [] => []
  | s :: rest => s.modelDump :: dumpStages rest
end

mutual
/-- A stage read from its stored form. -/
def Stage.validate : Json → Option (Stage ν)
  | .obj fields => do
    let stageId ← (← fields.lookup "stage_id").uuid?
    let onCancel ← validateOnCancel fields
    return .mk stageId onCancel (← StageDetail.validate model fields)
  | _ => none

def validateOnCancel : List (String × Json) → Option (Option (List (Stage ν)))
  | [] => some none
  | (name, value) :: rest =>
    if name = "on_cancel" then validateCleanup value else validateOnCancel rest

def validateCleanup : Json → Option (Option (List (Stage ν)))
  | .null => some none
  | .arr items => (validateStages items).map some
  | _ => none

def validateStages : List Json → Option (List (Stage ν))
  | [] => some []
  | value :: rest => do
    let stage ← Stage.validate value
    return stage :: (← validateStages rest)
end

end Stages

/-- Neither what a stage is called nor how it was produced is part of what it does. -/
def undigestedKeys : List String := ["stage_id", "provenance"]

mutual
def Json.undigested : Json → Json
  | .obj fields => .obj (undigestedFields fields)
  | .arr items => .arr (undigestedItems items)
  | value => value

def undigestedItems : List Json → List Json
  | [] => []
  | value :: rest => value.undigested :: undigestedItems rest

def undigestedFields : List (String × Json) → List (String × Json)
  | [] => []
  | (name, value) :: rest =>
    if name ∈ undigestedKeys then undigestedFields rest
    else (name, value.undigested) :: undigestedFields rest
end

/-- The digest of stages, each a domain stage or its stored form. -/
def stagesDigest (model : ProvenanceModel) (hash : Hashing) 
    (stages : List (Stage ν ⊕ Json)) : String :=
  let dumped := stages.map fun stage => stage.elim (Stage.modelDump model) id
  hash.sha256 (Json.dumps hash.number (Json.undigested (.arr dumped)))

section ReadBack
variable (model : ProvenanceModel)

theorem Stage.validate_modelDump (i : UUID) (cs : Option (List (Stage ν))) (d : StageDetail ν) :
    Stage.validate model (Stage.modelDump model (.mk i cs d)) =
      if (Stage.mk i cs d).Admitted then
        (validateCleanup model (dumpCleanup model cs)).bind fun cs' =>
          (d.readBack model).map fun d' => .mk i cs' d'
      else none := by
  have hid : Json.uuid? (.str i.str) = some i := UUID.parse_str i
  have hdetail := StageDetail.validate_modelDump model i cs d (.str i.str) (dumpCleanup model cs)
  rw [Stage.modelDump, Stage.validate, hdetail, List.lookup_cons_self, validateOnCancel,
    if_neg (by decide), validateOnCancel, if_pos rfl]
  simp only [Option.bind_eq_bind, Option.bind_some, hid]
  by_cases ha : (Stage.mk i cs d).Admitted
  · rw [if_pos ha, if_pos ha]
    simp only [Option.map_eq_bind, Function.comp_def]
    rfl
  · rw [if_neg ha, if_neg ha]
    cases (validateCleanup model (dumpCleanup model cs) : Option (Option (List (Stage ν)))) <;> rfl

variable {model}

theorem validateStages_cons_iff {i : UUID} {cs : Option (List (Stage ν))} {d : StageDetail ν}
    {rest stages : List (Stage ν)} :
    validateStages model (dumpStages model (.mk i cs d :: rest)) = some stages ↔
      ∃ cs' d' rest', (Stage.mk i cs d).Admitted ∧
        validateCleanup model (dumpCleanup model cs) = some cs' ∧ d.readBack model = some d' ∧
        validateStages model (dumpStages model rest) = some rest' ∧
        stages = .mk i cs' d' :: rest' := by
  rw [dumpStages, validateStages, Stage.validate_modelDump]
  by_cases ha : (Stage.mk i cs d).Admitted
  · simp only [if_pos ha, Option.bind_eq_bind, Option.bind_eq_some_iff, Option.map_eq_some_iff,
      Option.pure_def, Option.some.injEq]
    constructor
    · rintro ⟨_, ⟨cs', hcs, d', hd, rfl⟩, rest', hrest, rfl⟩
      exact ⟨cs', d', rest', ha, hcs, hd, hrest, rfl⟩
    · rintro ⟨cs', d', rest', -, hcs, hd, hrest, rfl⟩
      exact ⟨_, ⟨cs', hcs, d', hd, rfl⟩, rest', hrest, rfl⟩
  · simp [ha]

/-- Stages that the models admit come back as they were written, where their provenances do. -/
theorem validateStages_dumpStages {stages : List (Stage ν)}
    (hadmitted : ∀ s ∈ allStages stages, s.Admitted)
    (hprovenance : ∀ s ∈ allStages stages, s.detail.readBack model = some s.detail) :
    validateStages model (dumpStages model stages) = some stages := by
  induction stages using stagesInduction with
  | nil => rfl
  | cons i cs d rest ihs ih =>
    simp only [allStages_cons, List.forall_mem_cons, List.forall_mem_append] at hadmitted hprovenance
    have hcs := ihs hadmitted.2.1 hprovenance.2.1
    have hcleanup : validateCleanup model (dumpCleanup model cs) = some cs := by
      cases cs with
      | none => rfl
      | some cs => exact congrArg (Option.map some) hcs
    exact validateStages_cons_iff.mpr ⟨cs, d, rest, hadmitted.1, hcleanup, hprovenance.1,
      ih hadmitted.2.2 hprovenance.2.2, rfl⟩

/-- What is read for a stage's detail is that detail, the provenance apart. -/
theorem StageDetail.undigested_readBack {d d' : StageDetail ν} (h : d.readBack model = some d') :
    undigestedFields (d'.modelDump model) = undigestedFields (d.modelDump model) := by
  cases d with
  | navigation waypoints =>
    obtain rfl := Option.some.inj h
    rfl
  | coverage segments provenance =>
    obtain ⟨read, -, rfl⟩ := Option.map_eq_some_iff.mp h
    rfl

theorem Stage.undigested_modelDump (i : UUID) (cs : Option (List (Stage ν))) (d : StageDetail ν) :
    (Stage.modelDump model (.mk i cs d)).undigested = .obj
      (("on_cancel", (dumpCleanup model cs).undigested) :: undigestedFields (d.modelDump model)) := by
  rw [Stage.modelDump, Json.undigested, undigestedFields, if_pos (by decide), undigestedFields,
    if_neg (by decide)]

/-- Whatever is read for written stages is digested from the same content. -/
theorem undigestedItems_of_validateStages {stages stages' : List (Stage ν)}
    (h : validateStages model (dumpStages model stages) = some stages') :
    undigestedItems (dumpStages model stages') = undigestedItems (dumpStages model stages) := by
  induction stages using stagesInduction generalizing stages' with
  | nil =>
    obtain rfl := Option.some.inj h
    rfl
  | cons i cs d rest ihs ih =>
    obtain ⟨cs', d', rest', -, hcs, hd, hrest, rfl⟩ := validateStages_cons_iff.mp h
    have hcleanup : (dumpCleanup model cs').undigested = (dumpCleanup model cs).undigested := by
      cases cs with
      | none =>
        obtain rfl := Option.some.inj hcs
        rfl
      | some cs =>
        obtain ⟨cs', hcs', rfl⟩ := Option.map_eq_some_iff.mp hcs
        exact congrArg Json.arr (ihs hcs')
    rw [dumpStages, undigestedItems, Stage.undigested_modelDump, hcleanup,
      StageDetail.undigested_readBack hd, ih hrest, dumpStages, undigestedItems,
      Stage.undigested_modelDump]

variable (model)

theorem dumpStages_eq_map (stages : List (Stage ν)) :
    dumpStages model stages = stages.map (Stage.modelDump model) := by
  induction stages with
  | nil => rfl
  | cons s rest ih => rw [dumpStages, ih, List.map_cons]

variable (hash : Hashing)

theorem stagesDigest_eq (stages : List (Stage ν)) : stagesDigest model hash (stages.map .inl) =
    hash.sha256 (Json.dumps hash.number (.arr (undigestedItems (dumpStages model stages)))) := by
  unfold stagesDigest
  rw [dumpStages_eq_map, List.map_map]
  rfl

/-- The digest of stored stages is that of the stages. -/
theorem stagesDigest_dumpStages (stages : List (Stage ν)) :
    stagesDigest model hash ((dumpStages model stages).map (@Sum.inr (Stage ν) Json)) =
      stagesDigest model hash (stages.map .inl) := by
  unfold stagesDigest
  rw [List.map_map, List.map_map, dumpStages_eq_map, List.map_map]
  rfl

/-- Whatever is read for written stages has their digest. -/
theorem stagesDigest_of_validateStages {stages stages' : List (Stage ν)}
    (h : validateStages model (dumpStages model stages) = some stages') :
    stagesDigest model hash (stages'.map .inl) = stagesDigest model hash (stages.map .inl) := by
  rw [stagesDigest_eq, stagesDigest_eq, undigestedItems_of_validateStages h]

end ReadBack

end Numbers

end Leitstand
