import Leitstand.StageRows

namespace Leitstand

section Final
variable {p : Plan} {liveById : StageRuns}

/-- A cleanup row stands where the stage stands that it cleans up after. -/
theorem PlacedAt.of_parent {row : StageStateRecord} (h : PlacedAt p.stages row) {index : Nat}
    {stage : Stage} (hi : p.stages[index]? = some stage)
    (hp : row.parentStageId = some stage.stageId) :
    row.stageIndex = index ∧ ∃ child ∈ stage.children, child.stageId = row.stageId := by
  obtain ⟨stage', hj, ⟨hn, -⟩ | ⟨hs, hchild⟩⟩ := h
  · simp [hp] at hn
  · have hid : stage'.stageId = stage.stageId := Option.some.inj (hs.symm.trans hp)
    have hmem : stage.stageId ∈ stage'.ids := hid ▸ stage'.stageId_mem_ids
    have hindex := Plan.index_unique hj hi hmem stage.stageId_mem_ids
    obtain rfl := Option.some.inj ((hindex ▸ hj).symm.trans hi)
    exact ⟨hindex, hchild⟩

theorem mem_stageRows (status : RunStatus) (now : Datetime)
    (hplaced : ∀ row ∈ liveById.rows, PlacedAt p.stages row) {index : Nat}
    {stage : Stage} (hi : p.stages[index]? = some stage) {row : StageStateRecord}
    (h : row ∈ finalStageStatus index stage (liveById.find? stage.stageId) status now ::
      liveById.rows.filter fun record => record.parentStageId = some stage.stageId) :
    row.stageIndex = index ∧ row.stageId ∈ stage.ids := by
  obtain rfl | h := List.mem_cons.mp h
  · exact ⟨rfl, stage.stageId_mem_ids⟩
  · obtain ⟨hrow, hp⟩ := List.mem_filter.mp h
    obtain ⟨hindex, child, hc, hid⟩ := (hplaced row hrow).of_parent hi (of_decide_eq_true hp)
    exact ⟨hindex, hid ▸ Stage.child_mem_ids hc⟩

/-- The rows a run ends with are of distinct stages, in the plan's order. -/
theorem finalStageStatuses_pairwise (status : RunStatus) (now : Datetime)
    (hplaced : ∀ row ∈ liveById.rows, PlacedAt p.stages row) :
    (finalStageStatuses p.stages liveById status now).Pairwise fun a b =>
      a.stageId ≠ b.stageId ∧ a.stageIndex ≤ b.stageIndex := by
  unfold finalStageStatuses
  rw [List.pairwise_flatten]
  constructor
  · intro rows hrows
    obtain ⟨index, hlt, rfl⟩ := List.mem_mapIdx.mp hrows
    have hi : p.stages[index]? = some p.stages[index] := List.getElem?_eq_getElem hlt
    rw [List.pairwise_cons]
    constructor
    · intro row hrow
      obtain ⟨hmem, hp⟩ := List.mem_filter.mp hrow
      obtain ⟨hindex, child, hc, hid⟩ := (hplaced row hmem).of_parent hi (of_decide_eq_true hp)
      exact ⟨fun he => Plan.child_ne_stage hi hi hc (hid.trans he.symm), hindex.ge⟩
    · have hnd : liveById.rows.Pairwise fun a b => a.stageId ≠ b.stageId :=
        List.pairwise_map.mp liveById.nodup
      refine (hnd.filter _).imp_of_mem fun {a b} ha hb hne => ⟨hne, ?_⟩
      have hia := (mem_stageRows status now hplaced hi
        (List.mem_cons_of_mem _ ha)).1
      have hib := (mem_stageRows status now hplaced hi
        (List.mem_cons_of_mem _ hb)).1
      exact (hia.trans hib.symm).le
  · rw [List.pairwise_iff_getElem]
    intro i j hi hj hij a ha b hb
    rw [List.getElem_mapIdx] at ha hb
    obtain ⟨hia, hida⟩ := mem_stageRows status now hplaced (List.getElem?_eq_getElem _) ha
    obtain ⟨hjb, hidb⟩ := mem_stageRows status now hplaced (List.getElem?_eq_getElem _) hb
    constructor
    · intro he
      have hsame := Plan.index_unique (List.getElem?_eq_getElem _) (List.getElem?_eq_getElem _)
        hida (he ▸ hidb)
      exact absurd hsame hij.ne
    · rw [hia, hjb]
      exact hij.le

/-- Every stage with a live row has a row in the end. -/
theorem finalStageStatuses_covers (status : RunStatus) (now : Datetime) {row : StageStateRecord}
    (hrow : row ∈ liveById.rows) (hplaced : PlacedAt p.stages row) :
    ∃ final ∈ finalStageStatuses p.stages liveById status now, final.stageId = row.stageId := by
  obtain ⟨stage, hi, ⟨-, hid⟩ | ⟨hp, -⟩⟩ := hplaced
  · exact ⟨_, finalStageStatus_mem hi, hid.symm⟩
  · obtain ⟨hlt, rfl⟩ := List.getElem?_eq_some_iff.mp hi
    refine ⟨row, ?_, rfl⟩
    refine List.mem_flatten.mpr ⟨_, List.mem_mapIdx.mpr ⟨row.stageIndex, hlt, rfl⟩, ?_⟩
    exact List.mem_cons_of_mem _ (List.mem_filter.mpr ⟨hrow, decide_eq_true hp⟩)

end Final

/-- Rows of distinct stages are written once each. -/
theorem rewritesRow_of_nodup {versioned : Bool} {rows : List StageStateRecord} (t : StageRuns)
    (written : List UUID) (hnd : (rows.map (·.stageId)).Nodup)
    (hw : ∀ id ∈ written, id ∉ rows.map (·.stageId)) :
    rewritesRow versioned t written rows = false := by
  induction rows generalizing t written with
  | nil => rfl
  | cons row rows ih =>
    obtain ⟨hrow, hnd⟩ := List.nodup_cons.mp hnd
    have hfresh : row.stageId ∉ written := fun hmem => hw _ hmem (by simp)
    have hrest : ∀ id ∈ written, id ∉ rows.map (·.stageId) := fun id hid hmem =>
      hw id hid (List.mem_cons_of_mem _ hmem)
    simp only [rewritesRow, decide_eq_false hfresh, Bool.false_or]
    apply ih _ _ hnd
    split_ifs
    · rintro id (_ | ⟨_, hid⟩)
      · exact hrow
      · exact hrest id hid
    · exact hrest

namespace StoredRun
variable {r : StoredRun} {overlay : List StageStateRecord}

/-- The rows of the run stand where its plan puts their stages. -/
def Placed (r : StoredRun) : Prop := ∀ row ∈ r.stageRuns.rows, PlacedAt r.plan row

/-- The rows a run's end is computed from: those it has, under those of the last frame. -/
def liveById (r : StoredRun) (overlay : List StageStateRecord) : StageRuns :=
  (Table.ofRows r.stageRows).upsertAll overlay fun _ _ => true

theorem liveById_placed (h : r.Placed) (hover : ∀ row ∈ overlay, PlacedAt r.plan row) :
    ∀ row ∈ (r.liveById overlay).rows, PlacedAt r.plan row := by
  intro row hrow
  obtain hrow | hrow := Table.mem_upsertAll hrow
  · exact h row ((List.mem_insertionSort _).mp (Table.mem_ofRows hrow))
  · exact hover row hrow

theorem finalRows_pairwise (h : r.Placed) (hover : ∀ row ∈ overlay, PlacedAt r.plan row)
    (now : Datetime) (status : RunStatus) :
    (r.finalRows now status overlay).Pairwise fun a b =>
      a.stageId ≠ b.stageId ∧ a.stageIndex ≤ b.stageIndex := by
  have hplaced := liveById_placed h hover
  exact finalStageStatuses_pairwise (p := r.run.stages) status now hplaced

theorem finalRows_nodup (h : r.Placed) (hover : ∀ row ∈ overlay, PlacedAt r.plan row)
    (now : Datetime) (status : RunStatus) :
    ((r.finalRows now status overlay).map (·.stageId)).Nodup :=
  List.pairwise_map.mpr ((finalRows_pairwise h hover now status).imp fun hab => hab.1)

/-- Ending a run writes each of its rows once. -/
theorem ends_cleanly (h : r.Placed) (hover : ∀ row ∈ overlay, PlacedAt r.plan row)
    (now : Datetime) (status : RunStatus) (t : StageRuns) :
    rewritesRow false t [] (r.finalRows now status overlay) = false :=
  rewritesRow_of_nodup t [] (finalRows_nodup h hover now status) (by simp)

theorem finalRows_covers (h : r.Placed) (hover : ∀ row ∈ overlay, PlacedAt r.plan row)
    (now : Datetime) (status : RunStatus) {row : StageStateRecord} (hrow : row ∈ r.stageRuns.rows) :
    ∃ final ∈ r.finalRows now status overlay, final.stageId = row.stageId := by
  have hsorted : row ∈ r.stageRows := (List.mem_insertionSort _).mpr hrow
  have hpresent : ∃ first ∈ r.stageRows,
      (Table.ofRows r.stageRows : StageRuns).find? row.stageId = some first :=
    Table.find?_upsertAll_of_present ⟨row, hsorted, rfl⟩
  obtain ⟨first, -, hfind⟩ := hpresent
  have hfirst : first ∈ (Table.ofRows r.stageRows : StageRuns).rows := Table.mem_of_find? hfind
  obtain ⟨live, hlive, hid⟩ := Table.exists_mem_upsertAll hfirst overlay fun _ _ => true
  have hplaced := liveById_placed h hover live hlive
  obtain ⟨final, hfinal, hid'⟩ :=
    finalStageStatuses_covers (p := r.run.stages) status now hlive hplaced
  exact ⟨final, hfinal, hid'.trans (hid.trans (Table.key_of_find? hfind))⟩

/-- A run that ends keeps the rows it ends with and no other. -/
theorem stageRuns_ending (h : r.Placed) (hover : ∀ row ∈ overlay, PlacedAt r.plan row)
    (now : Datetime) (u : StatusUpdate) (reason : Option String) :
    (r.ending now u overlay reason).row.stageRuns.rows.Perm
      (r.finalRows now u.newStatus overlay) := by
  have hnd := finalRows_nodup h hover now u.newStatus
  exact Table.upsertAll_perm hnd fun row hrow => finalRows_covers h hover now u.newStatus hrow

end StoredRun

/-- Ending a reachable run writes each of its rows once. -/
theorem System.Reachable.ends_cleanly {s : System} (h : s.Reachable) {r : StoredRun}
    (hr : r ∈ s.runs.rows) (now : Datetime) (status : RunStatus) :
    rewritesRow false r.stageRuns [] (r.finalRows now status []) = false :=
  StoredRun.ends_cleanly (h.stageRows hr).placed (by simp) now status r.stageRuns

end Leitstand
