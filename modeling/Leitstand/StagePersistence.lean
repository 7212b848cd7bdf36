import Leitstand.MissionRepository

namespace Leitstand
namespace Definitions
variable {d : Definitions} {trees : UUID → List Stage} {missionId : UUID} {stages : List Stage}

def rowsOf (d : Definitions) (missionId : UUID) : List MissionStageRow :=
  d.stages.rows.filter fun row => row.missionId = missionId

theorem mem_rowsOf {row : MissionStageRow} :
    row ∈ d.rowsOf missionId ↔ row ∈ d.stages.rows ∧ row.missionId = missionId := by
  simp [rowsOf]

theorem nodup_rowsOf (d : Definitions) (missionId : UUID) : (d.rowsOf missionId).Nodup :=
  (List.Nodup.of_map _ d.stages.nodup).filter _

/-- Each mission's rows are those of its tree of stages. -/
def Holds (d : Definitions) (trees : UUID → List Stage) : Prop :=
  ∀ missionId, (d.rowsOf missionId).Perm (flatten missionId (trees missionId))

theorem Holds.nodup (h : d.Holds trees) (missionId : UUID) : (stageIds (trees missionId)).Nodup := by
  rw [← map_stageId_flattenFrom missionId none 0]
  refine ((h missionId).map _).nodup_iff.mp ?_
  exact d.stages.nodup.sublist (List.filter_sublist.map _)

/-- The rows of a mission stand for its stages. -/
theorem Holds.mem_stageIds_iff (h : d.Holds trees) {stageId : UUID} :
    stageId ∈ stageIds (trees missionId) ↔
      ∃ row ∈ d.stages.rows, row.missionId = missionId ∧ row.stageId = stageId := by
  rw [← map_stageId_flattenFrom missionId none 0, List.mem_map]
  constructor
  · rintro ⟨row, hrow, rfl⟩
    obtain ⟨hmem, hm⟩ := mem_rowsOf.mp ((h missionId).mem_iff.mpr hrow)
    exact ⟨row, hmem, hm, rfl⟩
  · rintro ⟨row, hrow, hm, rfl⟩
    exact ⟨row, (h missionId).mem_iff.mp (mem_rowsOf.mpr ⟨hrow, hm⟩), rfl⟩

/-- An id without a row belongs to no mission. -/
theorem Holds.notMem_of_absent (h : d.Holds trees) {stageId : UUID}
    (habsent : d.stages.find? stageId = none) (missionId : UUID) :
    stageId ∉ stageIds (trees missionId) := by
  intro hm
  obtain ⟨row, hrow, -, rfl⟩ := h.mem_stageIds_iff.mp hm
  rw [Table.find?_of_mem hrow] at habsent
  cases habsent

/-- No stage belongs to two missions. -/
theorem Holds.missionId_unique (h : d.Holds trees) {missionId' stageId : UUID}
    (hm : stageId ∈ stageIds (trees missionId)) (hm' : stageId ∈ stageIds (trees missionId')) :
    missionId = missionId' := by
  obtain ⟨row, hrow, rfl, rfl⟩ := h.mem_stageIds_iff.mp hm
  obtain ⟨row', hrow', rfl, he⟩ := h.mem_stageIds_iff.mp hm'
  rw [List.inj_on_of_nodup_map d.stages.nodup hrow' hrow he]

/-- What is read back from the rows is the tree they were made from. -/
theorem Holds.getStages (h : d.Holds trees) (missionId : UUID) :
    d.getStages missionId = some (tidied (trees missionId)) := by
  have hperm : ((((d.stages.rows.filter fun row => row.missionId ∈ [missionId]).insertionSort
      MissionOrder).filter fun row => row.missionId = missionId)).Perm (d.rowsOf missionId) := by
    refine ((List.perm_insertionSort _ _).filter _).trans (List.Perm.of_eq ?_)
    rw [List.filter_filter]
    unfold rowsOf
    congr 1
    funext row
    simp
  have hk : ((flatten missionId (trees missionId)).map stageForest.key).Nodup := by
    change ((flatten missionId (trees missionId)).map (·.stageId)).Nodup
    rw [flatten, map_stageId_flattenFrom]
    exact h.nodup missionId
  exact (lists_flattenFrom missionId none 0 (trees missionId)).build_eq hk
    (hperm.trans (h missionId))

/-- The rows never stand in one another's place. -/
theorem Holds.stageOrder (h : d.Holds trees) : d.StageOrder := by
  refine List.Nodup.map_on ?_ (List.Nodup.of_map _ d.stages.nodup)
  intro row hrow row' hrow' he
  obtain ⟨hm, hplace⟩ := Prod.mk.inj he
  have hk : ((flatten row.missionId (trees row.missionId)).map stageForest.key).Nodup := by
    change ((flatten row.missionId (trees row.missionId)).map (·.stageId)).Nodup
    rw [flatten, map_stageId_flattenFrom]
    exact h.nodup row.missionId
  have hnodup := (lists_flattenFrom row.missionId none 0 (trees row.missionId)).nodup_place hk
    fun _ _ he => by cases he
  refine List.inj_on_of_nodup_map hnodup ?_ ?_ hplace
  · exact (h row.missionId).mem_iff.mp (mem_rowsOf.mpr ⟨hrow, rfl⟩)
  · exact (h row.missionId).mem_iff.mp (mem_rowsOf.mpr ⟨hrow', hm.symm⟩)

/-- A stage at one site at most drives there exactly when its row says so. -/
theorem siteOf_eq_some_iff {s : Stage} (h : s.OneSite) {siteId : UUID} :
    siteOf s = some siteId ↔ ∃ w ∈ stageWaypoints s, w.siteId? = some siteId := by
  unfold siteOf
  constructor
  · intro hs
    obtain ⟨w, hw, he⟩ := List.exists_of_findSome?_eq_some hs
    exact ⟨w, hw, he⟩
  · rintro ⟨w, hw, he⟩
    cases hf : (stageWaypoints s).findSome? Waypoint.siteId? with
    | none =>
      have hn := List.findSome?_eq_none_iff.mp hf w hw
      rw [he] at hn
      cases hn
    | some siteId' =>
      obtain ⟨w', hw', he'⟩ := List.exists_of_findSome?_eq_some hf
      rw [h w' hw' w hw siteId' siteId he' he]

theorem forall_siteOf_iff {P : UUID → Prop} (h : ∀ s ∈ allStages stages, s.OneSite) :
    (∀ s ∈ allStages stages, ∀ siteId, siteOf s = some siteId → P siteId) ↔
      ∀ siteId ∈ siteIds stages, P siteId := by
  constructor
  · intro hrows siteId hsite
    obtain ⟨s, hs, hdrives⟩ := mem_siteIds.mp hsite
    exact hrows s hs siteId ((siteOf_eq_some_iff (h s hs)).mpr hdrives)
  · intro hsites s hs siteId he
    exact hsites siteId (mem_siteIds.mpr ⟨s, hs, (siteOf_eq_some_iff (h s hs)).mp he⟩)

/-- The site column of a tree's rows names the sites that the tree refers to. -/
theorem mem_siteIds_iff_row (missionId : UUID) (h : ∀ s ∈ allStages stages, s.OneSite)
    {siteId : UUID} :
    (∃ row ∈ flatten missionId stages, row.siteId = some siteId) ↔ siteId ∈ siteIds stages := by
  have hmap : (∃ row ∈ flatten missionId stages, row.siteId = some siteId) ↔
      some siteId ∈ (flatten missionId stages).map (·.siteId) := by
    rw [List.mem_map]
  rw [hmap, flatten, map_siteId_flattenFrom, List.mem_map, mem_siteIds]
  refine exists_congr fun s => and_congr_right fun hs => ?_
  exact siteOf_eq_some_iff (h s hs)

theorem Holds.mem_missionsReferencingSite (hd : d.Holds trees) {siteId : UUID}
    (h : ∀ s ∈ allStages (trees missionId), s.OneSite) :
    missionId ∈ d.missionsReferencingSite siteId ↔ siteId ∈ referencedSiteIds (trees missionId) := by
  rw [referencedSiteIds, List.mem_eraseDups, ← mem_siteIds_iff_row missionId h,
    missionsReferencingSite, List.mem_eraseDups, List.mem_map]
  constructor
  · rintro ⟨row, hrow, rfl⟩
    obtain ⟨hrow, hsite⟩ := List.mem_filter.mp hrow
    refine ⟨row, (hd row.missionId).mem_iff.mp (mem_rowsOf.mpr ⟨hrow, rfl⟩), ?_⟩
    simpa using hsite
  · rintro ⟨row, hrow, hsite⟩
    obtain ⟨hrow, hm⟩ := mem_rowsOf.mp ((hd missionId).mem_iff.mpr hrow)
    exact ⟨row, List.mem_filter.mpr ⟨hrow, by simpa using hsite⟩, hm⟩

section Replace

theorem mem_dropped {keep : List UUID} {stageId : UUID} : stageId ∈ d.dropped missionId keep ↔
    stageId ∉ keep ∧ ∃ row ∈ d.stages.rows, row.missionId = missionId ∧ row.stageId = stageId := by
  unfold dropped
  simp only [List.mem_map, List.mem_filter, decide_eq_true_eq]
  constructor
  · rintro ⟨row, ⟨hrow, hm, hk⟩, rfl⟩
    exact ⟨hk, row, hrow, hm, rfl⟩
  · rintro ⟨hk, row, hrow, hm, rfl⟩
    exact ⟨row, ⟨hrow, hm, hk⟩, rfl⟩

/-- The row that a stored row is under belongs to the same mission. -/
theorem Holds.missionId_parent (h : d.Holds trees) {row above : MissionStageRow}
    (hrow : row ∈ d.stages.rows) (habove : above ∈ d.stages.rows)
    (hp : row.parentStageId = some above.stageId) : above.missionId = row.missionId := by
  have hmem := (h row.missionId).mem_iff.mp (mem_rowsOf.mpr ⟨hrow, rfl⟩)
  obtain hn | ⟨above', hab, he⟩ := (lists_flattenFrom _ none 0 _).parent_eq hmem
  · exact absurd (hp.symm.trans hn) (by simp)
  · obtain ⟨hmem', hm⟩ := mem_rowsOf.mp ((h row.missionId).mem_iff.mpr hab)
    have hkey : above.stageId = above'.stageId := Option.some.inj (hp.symm.trans he)
    rw [List.inj_on_of_nodup_map d.stages.nodup habove hmem' hkey, hm]

/-- The deletion, cascade included, takes rows of the one mission only. -/
theorem Holds.mem_deleteStages (h : d.Holds trees) {keep : List UUID} {row : MissionStageRow}
    (hm : row.missionId ≠ missionId) :
    row ∈ (d.deleteStages (d.dropped missionId keep)).stages.rows ↔ row ∈ d.stages.rows := by
  refine ⟨fun hrow => (Table.mem_deleteCascade hrow).1, fun hrow => ?_⟩
  refine Table.mem_deleteCascade_of_closed (S := fun row => row.missionId ≠ missionId) ?_ ?_ hrow hm
  · intro a ha hne hdropped
    obtain ⟨-, b, hb, hbm, he⟩ := mem_dropped.mp hdropped
    exact hne (List.inj_on_of_nodup_map d.stages.nodup hb ha he ▸ hbm)
  · intro a ha hne b hb hp
    rw [h.missionId_parent ha hb hp]
    exact hne

/-- Of the mission itself the deletion leaves kept rows only. -/
theorem mem_keep_of_mem_deleteStages {keep : List UUID} {row : MissionStageRow}
    (hrow : row ∈ (d.deleteStages (d.dropped missionId keep)).stages.rows)
    (hm : row.missionId = missionId) : row.stageId ∈ keep := by
  obtain ⟨hmem, hn⟩ := Table.mem_deleteCascade hrow
  by_contra hk
  exact hn (mem_dropped.mpr ⟨hk, row, hmem, hm, rfl⟩)

/-- The ids are the mission's own or belong to no mission. -/
def Owns (trees : UUID → List Stage) (missionId : UUID) (stages : List Stage) : Prop :=
  ∀ stageId ∈ stageIds stages, ∀ missionId', stageId ∈ stageIds (trees missionId') →
    missionId' = missionId

theorem Holds.owns_iff (h : d.Holds trees) : Owns trees missionId stages ↔
    ∀ row ∈ d.stages.rows, row.stageId ∈ stageIds stages → row.missionId = missionId := by
  constructor
  · intro ho row hrow hid
    exact ho row.stageId hid row.missionId (h.mem_stageIds_iff.mpr ⟨row, hrow, rfl, rfl⟩)
  · intro hrows stageId hid missionId' hm
    obtain ⟨row, hrow, rfl, rfl⟩ := h.mem_stageIds_iff.mp hm
    exact hrows row hrow hid

/-- The rows after the two statements, whichever of the mission's rows the cascade took. -/
theorem Holds.mem_replaced (h : d.Holds trees) (hn : (stageIds stages).Nodup)
    (ho : Owns trees missionId stages) {row : MissionStageRow} :
    row ∈ ((d.deleteStages (d.dropped missionId (stageIds stages))).stages.upsertAll
      (flatten missionId stages) fun _ _ => true).rows ↔
      row ∈ flatten missionId stages ∨ row ∈ d.stages.rows ∧ row.missionId ≠ missionId := by
  have hk : ((flatten missionId stages).map (·.stageId)).Nodup := by
    rw [flatten, map_stageId_flattenFrom]
    exact hn
  have habsent : (∀ b ∈ flatten missionId stages, b.stageId ≠ row.stageId) ↔
      row.stageId ∉ stageIds stages := by
    rw [← map_stageId_flattenFrom missionId none 0 stages, List.mem_map]
    simp [flatten]
  rw [Table.mem_upsertAll_iff hk, habsent]
  refine or_congr_right ⟨?_, ?_⟩
  · rintro ⟨hrow, hid⟩
    have hm : row.missionId ≠ missionId := fun hm => hid (mem_keep_of_mem_deleteStages hrow hm)
    exact ⟨(h.mem_deleteStages hm).mp hrow, hm⟩
  · rintro ⟨hrow, hm⟩
    refine ⟨(h.mem_deleteStages hm).mpr hrow, fun hid => hm ?_⟩
    exact ho _ hid _ (h.mem_stageIds_iff.mpr ⟨row, hrow, rfl, rfl⟩)

/-- The rows of a tree refer to one another, to their mission and to the stages' sites. -/
theorem refersTo_flatten (after : Definitions)
    (hrows : ∀ row ∈ flatten missionId stages, row ∈ after.stages.rows) (hs : stages ≠ []) :
    (flatten missionId stages).all after.refersTo = true ↔
      (after.missions.find? missionId).isSome ∧
        ∀ s ∈ allStages stages, ∀ siteId, siteOf s = some siteId →
          (after.sites.find? siteId).isSome := by
  have hsites : (∀ row ∈ flatten missionId stages, ∀ siteId, row.siteId = some siteId →
      (after.sites.find? siteId).isSome) ↔ ∀ s ∈ allStages stages, ∀ siteId, siteOf s = some siteId →
        (after.sites.find? siteId).isSome := by
    have hmap : (∀ site ∈ (flatten missionId stages).map (·.siteId), ∀ siteId,
        site = some siteId → (after.sites.find? siteId).isSome) ↔
          ∀ site ∈ (allStages stages).map siteOf, ∀ siteId, site = some siteId →
            (after.sites.find? siteId).isSome := by
      rw [flatten, map_siteId_flattenFrom]
    rw [List.forall_mem_map, List.forall_mem_map] at hmap
    exact hmap
  have hparent : ∀ row ∈ flatten missionId stages, ∀ parent, row.parentStageId = some parent →
      (after.stages.find? parent).isSome := by
    intro row hrow parent hp
    obtain he | ⟨above, ha, he⟩ := (lists_flattenFrom _ none 0 stages).parent_eq hrow
    · exact absurd (hp.symm.trans he) (by simp)
    · obtain rfl : parent = above.stageId := Option.some.inj (hp.symm.trans he)
      rw [Table.find?_of_mem (hrows above ha)]
      rfl
  obtain ⟨i, cs, t, rest, rfl⟩ : ∃ i cs t rest, stages = .mk i cs t :: rest := by
    obtain _ | ⟨⟨i, cs, t⟩, rest⟩ := stages
    · exact absurd rfl hs
    · exact ⟨i, cs, t, rest, rfl⟩
  rw [List.all_eq_true]
  constructor
  · intro hall
    refine ⟨?_, hsites.mp fun row hrow => (refersTo_iff.mp (hall row hrow)).2.1⟩
    have hmem : ∀ row ∈ flatten missionId (.mk i cs t :: rest),
        (after.missions.find? missionId).isSome := fun row hrow =>
      missionId_of_mem_flattenFrom hrow ▸ (refersTo_iff.mp (hall row hrow)).1
    unfold flatten at hmem
    rw [flattenFrom_cons] at hmem
    exact hmem _ List.mem_cons_self
  · rintro ⟨hm, hsite⟩ row hrow
    refine refersTo_iff.mpr ⟨?_, hsites.mpr hsite row hrow, hparent row hrow⟩
    exact missionId_of_mem_flattenFrom hrow ▸ hm

theorem flatten_eq_nil_iff : flatten missionId stages = [] ↔ stages = [] := by
  obtain _ | ⟨⟨i, cs, t⟩, rest⟩ := stages
  · exact ⟨fun _ => rfl, fun _ => rfl⟩
  · simp [flatten]

/-- The tables after both statements. -/
def replaced (d : Definitions) (missionId : UUID) (stages : List Stage) : Definitions :=
  let left := d.deleteStages (d.dropped missionId (stageIds stages))
  { d with stages := left.stages.upsertAll (flatten missionId stages) fun _ _ => true }

/-- The two statements go through exactly when the mission and the stages' sites are there. -/
theorem Holds.replaceStages_eq_ok (h : d.Holds trees) (hn : (stageIds stages).Nodup)
    (ho : Owns trees missionId stages) {d' : Definitions} :
    d.replaceStages missionId stages = .ok d' ↔ d' = d.replaced missionId stages ∧
      (stages = [] ∨ (d.missions.find? missionId).isSome ∧
        ∀ s ∈ allStages stages, ∀ siteId, siteOf s = some siteId →
          (d.sites.find? siteId).isSome) := by
  have hkeys : (flatten missionId stages).map (·.stageId) = stageIds stages :=
    map_stageId_flattenFrom missionId none 0 stages
  unfold replaceStages
  dsimp only
  rw [hkeys]
  by_cases hs : stages = []
  · subst hs
    rw [if_pos (flatten_eq_nil_iff.mpr rfl), Except.ok.injEq]
    exact ⟨fun he => ⟨he.symm, .inl rfl⟩, fun he => he.1.symm⟩
  · have hrefers := refersTo_flatten (d.replaced missionId stages)
      (fun row hrow => (h.mem_replaced hn ho).mpr (.inl hrow)) hs
    rw [if_neg (flatten_eq_nil_iff.not.mpr hs), upsertStages, hkeys, if_neg (not_not.mpr hn)]
    change (if (flatten missionId stages).all (d.replaced missionId stages).refersTo then
      Except.ok (d.replaced missionId stages) else _) = _ ↔ _
    by_cases hall : (flatten missionId stages).all (d.replaced missionId stages).refersTo
    · rw [if_pos hall, Except.ok.injEq]
      exact ⟨fun he => ⟨he.symm, .inr (hrefers.mp hall)⟩, fun he => he.1.symm⟩
    · rw [if_neg hall]
      refine ⟨fun he => (by cases he), ?_⟩
      rintro ⟨-, hnil | hthere⟩
      · exact absurd hnil hs
      · exact absurd (hrefers.mpr hthere) hall

theorem Holds.replaced (h : d.Holds trees) (hn : (stageIds stages).Nodup)
    (ho : Owns trees missionId stages) :
    (d.replaced missionId stages).Holds (Function.update trees missionId stages) := by
  intro m
  have hnodup := (d.replaced missionId stages).nodup_rowsOf m
  by_cases hm : m = missionId
  · subst hm
    rw [Function.update_self]
    have hflat : (flatten m stages).Nodup := by
      refine List.Nodup.of_map (·.stageId) ?_
      rw [flatten, map_stageId_flattenFrom]
      exact hn
    rw [List.perm_ext_iff_of_nodup hnodup hflat]
    intro row
    rw [mem_rowsOf]
    constructor
    · rintro ⟨hrow, hm⟩
      exact ((h.mem_replaced hn ho).mp hrow).resolve_right fun hne => hne.2 hm
    · intro hrow
      exact ⟨(h.mem_replaced hn ho).mpr (.inl hrow), missionId_of_mem_flattenFrom hrow⟩
  · rw [Function.update_of_ne hm]
    refine List.Perm.trans ?_ (h m)
    rw [List.perm_ext_iff_of_nodup hnodup (d.nodup_rowsOf m)]
    intro row
    rw [mem_rowsOf]
    constructor
    · rintro ⟨hrow, rfl⟩
      obtain hflat | ⟨hrow, -⟩ := (h.mem_replaced hn ho).mp hrow
      · exact absurd (missionId_of_mem_flattenFrom hflat) hm
      · exact mem_rowsOf.mpr ⟨hrow, rfl⟩
    · intro hrow
      obtain ⟨hmem, rfl⟩ := mem_rowsOf.mp hrow
      exact ⟨(h.mem_replaced hn ho).mpr (.inr ⟨hmem, hm⟩), rfl⟩

/-- A replaced tree is read back as it was given, nothing else changes, the deferred constraint is
met, and a site finds the mission exactly when the tree drives there. -/
theorem replaceStages_lossless (h : d.Holds trees) (hn : (stageIds stages).Nodup)
    (ho : Owns trees missionId stages) (hsingle : validateSingleSite stages = .ok ()) :
    ((∃ d', d.replaceStages missionId stages = .ok d') ↔
      stages = [] ∨ (d.missions.find? missionId).isSome ∧
        ∀ siteId ∈ referencedSiteIds stages, (d.sites.find? siteId).isSome) ∧
    ∀ d', d.replaceStages missionId stages = .ok d' →
      d'.getStages missionId = some (tidied stages) ∧
      (∀ missionId' ≠ missionId, d'.getStages missionId' = d.getStages missionId') ∧
      (∀ siteId, missionId ∈ d'.missionsReferencingSite siteId ↔
        siteId ∈ referencedSiteIds stages) ∧
      d'.StageOrder := by
  have hone := validateSingleSite_eq_ok.mp hsingle
  have hsites : (∀ s ∈ allStages stages, ∀ siteId, siteOf s = some siteId →
      (d.sites.find? siteId).isSome) ↔
        ∀ siteId ∈ referencedSiteIds stages, (d.sites.find? siteId).isSome := by
    simp only [referencedSiteIds, List.mem_eraseDups]
    exact forall_siteOf_iff hone
  have hupdate : Function.update trees missionId stages missionId = stages :=
    Function.update_self missionId stages trees
  refine ⟨?_, ?_⟩
  · simp only [h.replaceStages_eq_ok hn ho, hsites, exists_and_right, exists_eq, true_and]
  · intro d' hd'
    obtain ⟨rfl, -⟩ := (h.replaceStages_eq_ok hn ho).mp hd'
    have hholds := h.replaced hn ho
    refine ⟨?_, ?_, ?_, hholds.stageOrder⟩
    · rw [hholds.getStages, hupdate]
    · intro missionId' hne
      rw [hholds.getStages, h.getStages, Function.update_of_ne hne]
    · intro siteId
      rw [hholds.mem_missionsReferencingSite (by rwa [hupdate]), hupdate]

end Replace

section Demo

def demoMissionRow (missionId : UUID) : MissionRow :=
  { missionId, name := "field", description := none, assignedRobotId := none, archivedAt := none
    createdAt := 0, updatedAt := 0 }

def demoSite (siteId : UUID) : Site :=
  { siteId, name := "barn", anchorLat := 52, anchorLon := 8, anchorHeadingDeg := 0 }

/-- Two missions without stages, and a site. -/
def demoBare : Definitions :=
  { missions := ⟨[demoMissionRow 1, demoMissionRow 2], by decide⟩, sites := ⟨[demoSite 5], by decide⟩ }

def demoDriven (stageId : UUID) (onCancel : Option (List Stage)) : Stage :=
  .mk stageId onCancel (.navigation [.siteLocal 5 0 0 none])

/-- Stage 11 cleans up after stage 10. -/
def demoFirst : Definitions :=
  demoBare.replaced 1 [demoDriven 10 (some [demoDriven 11 none]), demoDriven 12 none]

def demoDefinitions : Definitions := demoFirst.replaced 2 [demoDriven 20 none]

theorem demoBare_holds : demoBare.Holds fun _ => [] := fun _ => List.Perm.nil

theorem demoFirst_holds : demoFirst.Holds
    (Function.update (fun _ => []) 1
      [demoDriven 10 (some [demoDriven 11 none]), demoDriven 12 none]) :=
  demoBare_holds.replaced (by decide) (demoBare_holds.owns_iff.mpr (by decide))

theorem demoDefinitions_holds : demoDefinitions.Holds
    (Function.update (Function.update (fun _ => []) 1
      [demoDriven 10 (some [demoDriven 11 none]), demoDriven 12 none]) 2 [demoDriven 20 none]) :=
  demoFirst_holds.replaced (by decide) (demoFirst_holds.owns_iff.mpr (by decide))

/-- Stage 11 outlives its parent 10, under stage 12. -/
theorem replaceStages_lossless_moved : ∃ d',
    demoDefinitions.replaceStages 1 [demoDriven 12 (some [demoDriven 11 (some [])])] = .ok d' ∧
      d'.getStages 1 = some [demoDriven 12 (some [demoDriven 11 none])] ∧
      d'.getStages 2 = demoDefinitions.getStages 2 := by
  have hown : Owns _ 1 [demoDriven 12 (some [demoDriven 11 (some [])])] :=
    demoDefinitions_holds.owns_iff.mpr (by decide)
  obtain ⟨hgoes, hreads⟩ := replaceStages_lossless demoDefinitions_holds (by decide) hown
    (by decide)
  have hsite : ∀ siteId ∈ referencedSiteIds [demoDriven 12 (some [demoDriven 11 (some [])])],
      (demoBare.sites.find? siteId).isSome := by
    have href : referencedSiteIds [demoDriven 12 (some [demoDriven 11 (some [])])] = [5] := by
      decide
    rw [href, List.forall_mem_singleton]
    decide
  have hmission : (demoBare.missions.find? 1).isSome := by decide
  obtain ⟨d', hd'⟩ := hgoes.mpr (.inr ⟨hmission, hsite⟩)
  obtain ⟨hread, hothers, -⟩ := hreads d' hd'
  exact ⟨d', hd', hread, hothers 2 (by decide)⟩

end Demo

end Definitions
end Leitstand
