import Leitstand.FrozenPlan
import Leitstand.JsonUnique

namespace Leitstand
open PyNumber

/-- What a stage does: the stage without its id and its provenance, at every depth. -/
inductive StageContent (ν : Type) where
  | navigation (onCancel : Option (List (StageContent ν))) (waypoints : List (Waypoint ν))
  | coverage (onCancel : Option (List (StageContent ν))) (segments : List (Segment ν))

section Contents
variable {ν : Type}

mutual
def Stage.content : Stage ν → StageContent ν
  | .mk _ cs (.navigation waypoints) => .navigation (cleanupContent cs) waypoints
  | .mk _ cs (.coverage segments _) => .coverage (cleanupContent cs) segments

def cleanupContent : Option (List (Stage ν)) → Option (List (StageContent ν))
  | none => none
  | some cs => some (contents cs)

def contents : List (Stage ν) → List (StageContent ν)
  | [] => []
  | s :: rest => s.content :: contents rest
end

end Contents

section Numbers
variable {ν : Type} [PyNumber ν]

/-- The text that the digest of stages is taken of. -/
def canonicalText (model : ProvenanceModel) (number : PyFloat → String)
    (stages : List (Stage ν ⊕ Json)) : String :=
  Json.dumps number (Json.undigested (.arr (stages.map fun stage =>
    stage.elim (Stage.modelDump model) id)))

section Sorted

theorem eq_of_perm_of_keys {α κ : Type} {key : α → κ} {l l' : List α} (h : l.Perm l')
    (hkeys : l.map key = l'.map key) (hnodup : (l.map key).Nodup) : l = l' := by
  induction l generalizing l' with
  | nil => exact (List.nil_perm.mp h).symm
  | cons a l ih =>
    cases l' with
    | nil => exact absurd h.eq_nil (List.cons_ne_nil _ _)
    | cons b l' =>
      rw [List.map_cons, List.nodup_cons] at hnodup
      obtain ⟨hkey, hrest⟩ := List.cons.inj hkeys
      have ha : a = b := by
        rcases List.mem_cons.mp (h.mem_iff.mp List.mem_cons_self) with hab | hmem
        · exact hab
        · exact absurd (hrest ▸ List.mem_map_of_mem hmem) hnodup.1
      subst ha
      rw [ih (List.perm_cons a |>.mp h) hrest hnodup.2]

variable {fields fields' : Dict}

theorem perm_of_sorted (h : (Json.obj fields).sorted = (Json.obj fields').sorted) :
    (Json.sortedFields fields).Perm (Json.sortedFields fields') := by
  have hsame := Json.obj.inj h
  have hleft := List.perm_insertionSort (fun a b : String × Json => a.1 ≤ b.1)
    (Json.sortedFields fields)
  rw [hsame] at hleft
  exact hleft.symm.trans (List.perm_insertionSort _ _)

theorem map_fst_sortedFields (fields : Dict) :
    (Json.sortedFields fields).map Prod.fst = fields.map Prod.fst := by
  rw [Json.sortedFields_eq_map, List.map_map]
  rfl

theorem names_of_sorted (names names' : List String) (hnames : fields.map Prod.fst = names)
    (hnames' : fields'.map Prod.fst = names')
    (h : (Json.obj fields).sorted = (Json.obj fields').sorted) : names.Perm names' := by
  have hperm := (perm_of_sorted h).map Prod.fst
  rwa [map_fst_sortedFields, map_fst_sortedFields, hnames, hnames'] at hperm

/-- Objects with the same names in the same order have the same values. -/
theorem fields_of_sorted (names : List String) (hnames : fields.map Prod.fst = names)
    (hnames' : fields'.map Prod.fst = names) (hnodup : names.Nodup)
    (h : (Json.obj fields).sorted = (Json.obj fields').sorted) :
    Json.sortedFields fields = Json.sortedFields fields' := by
  refine eq_of_perm_of_keys (perm_of_sorted h) (?_ : _ = List.map Prod.fst _) ?_
  · rw [map_fst_sortedFields, map_fst_sortedFields, hnames, hnames']
  · rwa [map_fst_sortedFields, hnames]

theorem sorted_ofFloat? (n : Option ν) : (Json.ofFloat? n).sorted = Json.ofFloat? n := by
  cases n <;> rfl

theorem ofFloat?_inj {n n' : Option ν} (h : Json.ofFloat? n = Json.ofFloat? n') : n = n' := by
  have hread := congrArg (fun value => @Json.optionalFloat? ν _ (some value)) h
  simpa only [Json.optionalFloat?_ofFloat?, Option.some.injEq] using hread

theorem UUID.str_inj {i i' : UUID} (h : i.str = i'.str) : i = i' := by
  have hread := congrArg UUID.parse h
  rw [UUID.parse_str, UUID.parse_str] at hread
  exact Option.some.inj hread

end Sorted

section Content

/-- The names that each kind of waypoint is written with. -/
def wgs84Names : List String := ["kind", "lat", "lon", "heading_deg"]

def siteLocalNames : List String := ["kind", "site_id", "x", "y", "theta"]

theorem Waypoint.sorted_inj {w w' : Waypoint ν} (h : w.modelDump.sorted = w'.modelDump.sorted) :
    w = w' := by
  cases w with
  | wgs84 lat lon headingDeg =>
    cases w' with
    | wgs84 lat' lon' headingDeg' =>
      have hfields := fields_of_sorted wgs84Names rfl rfl (by decide) h
      simp only [Json.sortedFields, Json.sorted, sorted_ofFloat?, List.cons.injEq, Prod.mk.injEq,
        Json.num.injEq, toFloat_injective.eq_iff, true_and, and_true] at hfields
      obtain ⟨rfl, rfl, hheading⟩ := hfields
      rw [ofFloat?_inj hheading]
    | siteLocal siteId' x' y' theta' =>
      exact absurd (names_of_sorted wgs84Names siteLocalNames rfl rfl h) (by decide)
  | siteLocal siteId x y theta =>
    cases w' with
    | wgs84 lat' lon' headingDeg' =>
      exact absurd (names_of_sorted siteLocalNames wgs84Names rfl rfl h) (by decide)
    | siteLocal siteId' x' y' theta' =>
      have hfields := fields_of_sorted siteLocalNames rfl rfl (by decide) h
      simp only [Json.sortedFields, Json.sorted, sorted_ofFloat?, List.cons.injEq, Prod.mk.injEq,
        Json.num.injEq, Json.str.injEq, toFloat_injective.eq_iff, true_and, and_true] at hfields
      obtain ⟨hid, rfl, rfl, htheta⟩ := hfields
      rw [UUID.str_inj hid, ofFloat?_inj htheta]

theorem map_inj_of_sorted {α : Type} {dump : α → Json}
    (hdump : ∀ {x y : α}, (dump x).sorted = (dump y).sorted → x = y) {xs ys : List α}
    (h : (Json.arr (xs.map dump)).sorted = (Json.arr (ys.map dump)).sorted) : xs = ys := by
  have hitems := Json.arr.inj h
  rw [Json.sortedItems_eq_map, Json.sortedItems_eq_map, List.map_map, List.map_map] at hitems
  exact List.map_injective_iff.mpr (fun _ _ => hdump) hitems

theorem SegmentKind.value_inj {kind kind' : SegmentKind} (h : kind.value = kind'.value) :
    kind = kind' := by
  cases kind <;> cases kind' <;> first | rfl | exact absurd h (by decide)

def segmentNames : List String := ["kind", "waypoints"]

theorem Segment.sorted_inj {segment segment' : Segment ν}
    (h : segment.modelDump.sorted = segment'.modelDump.sorted) : segment = segment' := by
  have hfields := fields_of_sorted segmentNames rfl rfl (by decide) h
  simp only [Json.sortedFields, List.cons.injEq, Prod.mk.injEq, true_and, and_true] at hfields
  obtain ⟨hkind, hwaypoints⟩ := hfields
  obtain ⟨kind, waypoints⟩ := segment
  obtain ⟨kind', waypoints'⟩ := segment'
  obtain rfl := SegmentKind.value_inj (Json.str.inj hkind)
  obtain rfl := map_inj_of_sorted Waypoint.sorted_inj hwaypoints
  rfl

theorem undigestedItems_eq_map (items : List Json) :
    undigestedItems items = items.map Json.undigested := by
  induction items with
  | nil => rfl
  | cons value rest ih => rw [undigestedItems, ih, List.map_cons]

theorem Waypoint.undigested_modelDump (w : Waypoint ν) : w.modelDump.undigested = w.modelDump := by
  cases w with
  | wgs84 lat lon headingDeg => cases headingDeg <;> rfl
  | siteLocal siteId x y theta => cases theta <;> rfl

theorem undigested_arr_map {α : Type} {dump : α → Json} (hdump : ∀ x, (dump x).undigested = dump x)
    (xs : List α) : (Json.arr (xs.map dump)).undigested = .arr (xs.map dump) := by
  rw [Json.undigested, undigestedItems_eq_map, List.map_map]
  exact congrArg Json.arr (List.map_congr_left fun x _ => hdump x)

theorem Segment.undigested_modelDump (segment : Segment ν) :
    segment.modelDump.undigested = segment.modelDump := by
  have hwaypoints := undigested_arr_map Waypoint.undigested_modelDump segment.waypoints
  unfold Segment.modelDump
  simp only [Json.undigested, undigestedFields] at hwaypoints ⊢
  rw [hwaypoints]
  rfl

variable {model : ProvenanceModel}

theorem undigested_navigation (waypoints : List (Waypoint ν)) :
    undigestedFields ((StageDetail.navigation waypoints).modelDump model) =
      [("kind", .str "navigation"), ("waypoints", .arr (waypoints.map Waypoint.modelDump))] := by
  have hwaypoints := undigested_arr_map Waypoint.undigested_modelDump waypoints
  unfold StageDetail.modelDump
  simp only [Json.undigested, undigestedFields] at hwaypoints ⊢
  rw [hwaypoints]
  rfl

theorem undigested_coverage (segments : List (Segment ν)) (provenance : CoverageProvenance) :
    undigestedFields ((StageDetail.coverage segments provenance).modelDump model) =
      [("kind", .str "coverage"), ("segments", .arr (segments.map Segment.modelDump))] := by
  have hsegments := undigested_arr_map Segment.undigested_modelDump segments
  unfold StageDetail.modelDump
  simp only [Json.undigested, undigestedFields] at hsegments ⊢
  rw [hsegments]
  rfl

def navigationNames : List String := ["on_cancel", "kind", "waypoints"]

def coverageNames : List String := ["on_cancel", "kind", "segments"]

/-- Two stages that are dumped alike, the order of fields aside, do the same where their cleanup
stages do. -/
theorem Stage.content_of_sorted {i i' : UUID} {cs cs' : Option (List (Stage ν))}
    {d d' : StageDetail ν}
    (hcleanup : (dumpCleanup model cs).undigested.sorted = (dumpCleanup model cs').undigested.sorted →
      cleanupContent cs = cleanupContent cs')
    (h : (Stage.modelDump model (.mk i cs d)).undigested.sorted =
      (Stage.modelDump model (.mk i' cs' d')).undigested.sorted) :
    (Stage.mk i cs d).content = (Stage.mk i' cs' d').content := by
  rw [Stage.undigested_modelDump, Stage.undigested_modelDump] at h
  cases d with
  | navigation waypoints =>
    cases d' with
    | navigation waypoints' =>
      rw [undigested_navigation, undigested_navigation] at h
      have hfields := fields_of_sorted navigationNames rfl rfl (by decide) h
      simp only [Json.sortedFields, List.cons.injEq, Prod.mk.injEq, true_and, and_true] at hfields
      rw [Stage.content, Stage.content, hcleanup hfields.1,
        map_inj_of_sorted Waypoint.sorted_inj hfields.2]
    | coverage segments' provenance' =>
      rw [undigested_navigation, undigested_coverage] at h
      exact absurd (names_of_sorted navigationNames coverageNames rfl rfl h) (by decide)
  | coverage segments provenance =>
    cases d' with
    | navigation waypoints' =>
      rw [undigested_navigation, undigested_coverage] at h
      exact absurd (names_of_sorted coverageNames navigationNames rfl rfl h) (by decide)
    | coverage segments' provenance' =>
      rw [undigested_coverage, undigested_coverage] at h
      have hfields := fields_of_sorted coverageNames rfl rfl (by decide) h
      simp only [Json.sortedFields, List.cons.injEq, Prod.mk.injEq, true_and, and_true] at hfields
      rw [Stage.content, Stage.content, hcleanup hfields.1,
        map_inj_of_sorted Segment.sorted_inj hfields.2]

theorem contents_of_sorted {stages stages' : List (Stage ν)}
    (h : Json.sortedItems (undigestedItems (dumpStages model stages)) =
      Json.sortedItems (undigestedItems (dumpStages model stages'))) :
    contents stages = contents stages' := by
  induction stages using stagesInduction generalizing stages' with
  | nil =>
    cases stages' with
    | nil => rfl
    | cons s rest => cases h
  | cons i cs d rest ihs ih =>
    cases stages' with
    | nil => cases h
    | cons s' rest' =>
      obtain ⟨i', cs', d'⟩ := s'
      obtain ⟨hstage, hrest⟩ := List.cons.inj h
      have hcleanup : (dumpCleanup model cs).undigested.sorted =
          (dumpCleanup model cs').undigested.sorted → cleanupContent cs = cleanupContent cs' := by
        intro hcs
        cases cs with
        | none =>
          cases cs' with
          | none => rfl
          | some cs' => cases hcs
        | some cs =>
          cases cs' with
          | none => cases hcs
          | some cs' => exact congrArg some (ihs (Json.arr.inj hcs))
      rw [contents, contents, Stage.content_of_sorted hcleanup hstage, ih hrest]

/-- Stages that do the same are dumped alike, ids and provenance aside. -/
theorem undigestedItems_of_contents {stages stages' : List (Stage ν)}
    (h : contents stages = contents stages') : undigestedItems (dumpStages model stages) =
      undigestedItems (dumpStages model stages') := by
  induction stages using stagesInduction generalizing stages' with
  | nil =>
    cases stages' with
    | nil => rfl
    | cons s rest => cases h
  | cons i cs d rest ihs ih =>
    cases stages' with
    | nil => cases h
    | cons s' rest' =>
      obtain ⟨i', cs', d'⟩ := s'
      obtain ⟨hstage, hrest⟩ := List.cons.inj h
      have hcleanup : cleanupContent cs = cleanupContent cs' →
          (dumpCleanup model cs).undigested = (dumpCleanup model cs').undigested := by
        intro hcs
        cases cs with
        | none =>
          cases cs' with
          | none => rfl
          | some cs' => cases hcs
        | some cs =>
          cases cs' with
          | none => cases hcs
          | some cs' => exact congrArg Json.arr (ihs (Option.some.inj hcs))
      rw [dumpStages, dumpStages, undigestedItems, undigestedItems, ih hrest,
        Stage.undigested_modelDump, Stage.undigested_modelDump]
      cases d with
      | navigation waypoints =>
        cases d' with
        | navigation waypoints' =>
          obtain ⟨hcs, rfl⟩ := StageContent.navigation.inj hstage
          rw [hcleanup hcs]
        | coverage => cases hstage
      | coverage segments provenance =>
        cases d' with
        | navigation => cases hstage
        | coverage segments' provenance' =>
          obtain ⟨hcs, rfl⟩ := StageContent.coverage.inj hstage
          rw [hcleanup hcs, undigested_coverage, undigested_coverage]

theorem stagesDigest_eq_sha256 (hash : Hashing) (stages : List (Stage ν ⊕ Json)) :
    stagesDigest model hash stages = hash.sha256 (canonicalText model hash.number stages) := rfl

theorem canonicalText_eq (number : PyFloat → String) (stages : List (Stage ν)) :
    canonicalText model number (stages.map .inl) =
      Json.dumps number (.arr (undigestedItems (dumpStages model stages))) := by
  unfold canonicalText
  rw [dumpStages_eq_map, List.map_map]
  rfl

/-- Two plans have one canonical text if and only if they do the same at every depth. -/
theorem canonicalText_inj {number : PyFloat → String} (hnumber : Json.NumberText number)
    {stages stages' : List (Stage ν)} : canonicalText model number (stages.map .inl) =
      canonicalText model number (stages'.map .inl) ↔ contents stages = contents stages' := by
  rw [canonicalText_eq, canonicalText_eq, Json.dumps_inj hnumber]
  constructor
  · intro hsame
    exact contents_of_sorted (Json.arr.inj hsame)
  · intro hsame
    rw [undigestedItems_of_contents hsame]

/-- The digest identifies a plan: it is taken of the same text for two plans if and only if they are
the same but for ids and provenance, their numbers as they are written, and their stored form and
what is read back have it too. -/
theorem digest_identifies_plan (model : ProvenanceModel) {hash : Hashing}
    (hnumber : Json.NumberText hash.number) (stages stages' : List (Stage ν)) :
    (canonicalText model hash.number (stages.map .inl) =
      canonicalText model hash.number (stages'.map .inl) ↔ contents stages = contents stages') ∧
    (Function.Injective hash.sha256 → (stagesDigest model hash (stages.map .inl) =
      stagesDigest model hash (stages'.map .inl) ↔ contents stages = contents stages')) ∧
    @stagesDigest ν _ model hash ((dumpStages model stages).map .inr) =
      stagesDigest model hash (stages.map .inl) ∧
    (∀ read : List (Stage ν), validateStages model (dumpStages model stages) = some read →
      stagesDigest model hash (read.map .inl) = stagesDigest model hash (stages.map .inl)) ∧
    ((∀ s ∈ allStages stages, s.Admitted ∧ s.detail.readBack model = some s.detail) →
      validateStages model (dumpStages model stages) = some stages) := by
  refine ⟨canonicalText_inj hnumber, ?_, stagesDigest_dumpStages model hash stages, ?_, ?_⟩
  · intro hsha
    rw [stagesDigest_eq_sha256, stagesDigest_eq_sha256, hsha.eq_iff]
    exact canonicalText_inj hnumber
  · intro read hread
    exact stagesDigest_of_validateStages model hash hread
  · intro hstages
    exact validateStages_dumpStages (fun s hs => (hstages s hs).1) fun s hs => (hstages s hs).2

end Content

end Numbers

section Equality

/-- Python's `==` of two numbers or none. -/
def optionPyEq : Option PyFloat → Option PyFloat → Bool
  | none, none => true
  | some x, some y => x.pyEq y
  | _, _ => false

def Waypoint.pyEq : Waypoint PyFloat → Waypoint PyFloat → Bool
  | .wgs84 lat lon headingDeg, .wgs84 lat' lon' headingDeg' =>
    lat.pyEq lat' && lon.pyEq lon' && optionPyEq headingDeg headingDeg'
  | .siteLocal siteId x y theta, .siteLocal siteId' x' y' theta' =>
    siteId = siteId' && x.pyEq x' && y.pyEq y' && optionPyEq theta theta'
  | _, _ => false

def Segment.pyEq (segment segment' : Segment PyFloat) : Bool :=
  segment.kind = segment'.kind && segment.waypoints.isEqv segment'.waypoints Waypoint.pyEq

mutual
/-- Python's `==` of what two stages do. -/
def StageContent.pyEq : StageContent PyFloat → StageContent PyFloat → Bool
  | .navigation cs waypoints, .navigation cs' waypoints' =>
    cleanupPyEq cs cs' && waypoints.isEqv waypoints' Waypoint.pyEq
  | .coverage cs segments, .coverage cs' segments' =>
    cleanupPyEq cs cs' && segments.isEqv segments' Segment.pyEq
  | _, _ => false

def cleanupPyEq : Option (List (StageContent PyFloat)) → Option (List (StageContent PyFloat)) → Bool
  | none, none => true
  | some cs, some cs' => contentsPyEq cs cs'
  | _, _ => false

def contentsPyEq : List (StageContent PyFloat) → List (StageContent PyFloat) → Bool
  | [], [] => true
  | s :: rest, s' :: rest' => s.pyEq s' && contentsPyEq rest rest'
  | _, _ => false
end

end Equality

section Demo

def unary (r : Rat) : List Char :=
  (if r.num < 0 then '-' else '0') ::
    (List.replicate r.num.natAbs '1' ++ '.' :: List.replicate r.den '1')

/-- The floats that are dumped as one word, whatever the digits of the others. -/
def demoWords : List (PyFloat × List Char) :=
  [(0, "0.0".toList), (.negZero, "-0.0".toList), (.inf false, "Infinity".toList),
    (.inf true, "-Infinity".toList), (.nan, "NaN".toList)]

def demoText (x : PyFloat) : List Char := (demoWords.lookup x).getD (unary (x.toRat?.getD 0))

def demoNumber (x : PyFloat) : String := String.ofList (demoText x)

theorem unary_injective : Function.Injective unary := by
  intro r q h
  obtain ⟨hsign, htail⟩ := List.cons.inj h
  have hones : ∀ n, ∀ c ∈ List.replicate n '1', decide (c = '1') = true :=
    fun n c hc => decide_eq_true (List.eq_of_mem_replicate hc)
  obtain ⟨hones, hrest⟩ := TextCode.append_inj_of_stops (hones _) (hones _)
    (TextCode.stops_cons (by decide)) (TextCode.stops_cons (by decide)) htail
  have habs : r.num.natAbs = q.num.natAbs := by simpa using congrArg List.length hones
  have hden : r.den = q.den := by simpa using congrArg List.length (List.cons.inj hrest).2
  have hnum : r.num = q.num := by
    split_ifs at hsign with hr hq hq
    · omega
    · exact absurd hsign (by decide)
    · exact absurd hsign (by decide)
    · omega
  exact Rat.ext hnum hden

theorem getLast?_unary (r : Rat) : (unary r).getLast? = some '1' := by
  obtain ⟨n, hn⟩ : ∃ n, r.den = n + 1 := ⟨r.den - 1, by have := r.pos; omega⟩
  have hsplit : unary r = ((if r.num < 0 then '-' else '0') ::
      (List.replicate r.num.natAbs '1' ++ '.' :: List.replicate n '1')) ++ ['1'] := by
    simp [unary, hn, List.replicate_succ']
  rw [hsplit, List.getLast?_concat]

theorem mem_demoWords {x : PyFloat} {text : List Char} (h : demoWords.lookup x = some text) :
    (x, text) ∈ demoWords := by
  obtain ⟨before, after, hwords, -⟩ := List.lookup_eq_some_iff.mp h
  simp [hwords]

/-- No word is the text of digits. -/
theorem ne_unary {word : PyFloat × List Char} (h : word ∈ demoWords) (r : Rat) :
    word.2 ≠ unary r := by
  intro he
  have hlast : ∀ word ∈ demoWords, word.2.getLast? ≠ some '1' := by decide +kernel
  exact hlast word h (he ▸ getLast?_unary r)

theorem demoText_injective : Function.Injective demoText := by
  intro x y h
  unfold demoText at h
  have hdigits : ∀ x, demoWords.lookup x = none → ∃ r, x = .finite r := by
    intro x hx
    cases x with
    | finite r => exact ⟨r, rfl⟩
    | negZero => exact absurd hx (by decide +kernel)
    | inf negative => cases negative <;> exact absurd hx (by decide +kernel)
    | nan => exact absurd hx (by decide +kernel)
  cases hx : demoWords.lookup x with
  | some text =>
    cases hy : demoWords.lookup y with
    | some text' =>
      have hwords : ∀ word ∈ demoWords, ∀ word' ∈ demoWords, word.2 = word'.2 → word.1 = word'.1 := by
        decide +kernel
      rw [hx, hy] at h
      exact hwords _ (mem_demoWords hx) _ (mem_demoWords hy) h
    | none =>
      rw [hx, hy] at h
      exact absurd h (ne_unary (mem_demoWords hx) _)
  | none =>
    cases hy : demoWords.lookup y with
    | some text' =>
      rw [hx, hy] at h
      exact absurd h.symm (ne_unary (mem_demoWords hy) _)
    | none =>
      rw [hx, hy] at h
      obtain ⟨r, rfl⟩ := hdigits x hx
      obtain ⟨q, rfl⟩ := hdigits y hy
      exact congrArg PyFloat.finite (unary_injective h)

theorem demoNumber_text : Json.NumberText demoNumber where
  injective := fun x y h => demoText_injective (String.ofList_injective h)
  lead := by
    intro x
    unfold demoNumber demoText
    rw [String.toList_ofList]
    cases hx : demoWords.lookup x with
    | some text =>
      have hleads : ∀ word ∈ demoWords, (word.2.head?.any Json.numberLead) = true := by
        decide +kernel
      obtain ⟨c, hc, hlead⟩ := (Option.any_eq_true _ _).mp (hleads _ (mem_demoWords hx))
      obtain ⟨rest, rfl⟩ := List.head?_eq_some_iff.mp hc
      exact ⟨c, rest, rfl, hlead⟩
    | none =>
      refine ⟨_, _, rfl, ?_⟩
      split_ifs <;> decide
  chars := by
    intro x c hc
    unfold demoNumber demoText at hc
    rw [String.toList_ofList] at hc
    cases hx : demoWords.lookup x with
    | some text =>
      rw [hx] at hc
      have hchars : ∀ word ∈ demoWords, word.2.all Json.numberChar = true := by decide +kernel
      exact List.all_eq_true.mp (hchars _ (mem_demoWords hx)) c hc
    | none =>
      rw [hx] at hc
      unfold unary at hc
      rw [Option.getD_none, List.mem_cons, List.mem_append, List.mem_cons] at hc
      rcases hc with rfl | hc | rfl | hc
      · split_ifs <;> decide
      · rw [List.eq_of_mem_replicate hc]
        decide
      · decide
      · rw [List.eq_of_mem_replicate hc]
        decide

/-- One waypoint, at a corner of its site. -/
def demoCorner (x : PyFloat) : List (Stage PyFloat) := [.mk 1 none (.navigation [.siteLocal 5 x 0 none])]

/-- The two zeros are equal, and plans that differ in nothing else are told apart. -/
theorem zeros_digested_apart :
    contentsPyEq (contents (demoCorner 0)) (contents (demoCorner .negZero)) = true ∧
    demoNumber 0 = "0.0" ∧ demoNumber .negZero = "-0.0" ∧
    canonicalText Live.demoProvenance demoNumber ((demoCorner 0).map .inl) ≠
      canonicalText Live.demoProvenance demoNumber ((demoCorner .negZero).map .inl) := by
  refine ⟨by decide +kernel, by decide +kernel, by decide +kernel, fun h => ?_⟩
  have hsame := (canonicalText_inj demoNumber_text).mp h
  cases hsame

/-- One waypoint with no cleanup and the same with an empty list of it, under different ids. -/
theorem digest_identifies_waypoint :
    canonicalText Live.demoProvenance demoNumber ((demoCorner 0).map .inl) =
      canonicalText Live.demoProvenance demoNumber
        [.inl (.mk 2 none (.navigation [.siteLocal 5 (0 : PyFloat) 0 none]))] ∧
    canonicalText Live.demoProvenance demoNumber ((demoCorner 0).map .inl) ≠
      canonicalText Live.demoProvenance demoNumber
        [.inl (.mk 1 (some []) (.navigation [.siteLocal 5 (0 : PyFloat) 0 none]))] := by
  have hidentifies := fun stages stages' => (@digest_identifies_plan PyFloat _ Live.demoProvenance
    { number := demoNumber, sha256 := id } demoNumber_text stages stages').1
  refine ⟨(hidentifies (demoCorner 0) [_]).mpr rfl, fun h => ?_⟩
  have hsame := (hidentifies (demoCorner 0) [_]).mp h
  cases hsame

end Demo

end Leitstand
