import Leitstand.PlannerQuestion
import Leitstand.StageResolution

namespace Leitstand

section Paths

/-- Whatever is walked has its place in the request as the start of its path. -/
theorem prefix_of_mem_walkFrom {path : InputPath} {n : Nat} {inputs : List StageInput}
    {x : InputPath × StageInput} (h : x ∈ walkFrom path n inputs) :
    ∃ m, n ≤ m ∧ path ++ [m] <+: x.1 := by
  induction inputs using inputsInduction generalizing path n with
  | nil => cases h
  | cons i cs d rest ihs ih =>
    rw [walkFrom_cons, List.mem_cons, List.mem_append] at h
    obtain rfl | h | h := h
    · exact ⟨n, le_rfl, List.prefix_rfl⟩
    · obtain ⟨m, -, hm⟩ := ihs h
      exact ⟨n, le_rfl, (List.prefix_append _ _).trans hm⟩
    · obtain ⟨m, hle, hm⟩ := ih h
      exact ⟨m, by omega, hm⟩

theorem index_unique_of_prefix {path here : InputPath} {n m : Nat} (h : path ++ [n] <+: here)
    (h' : path ++ [m] <+: here) : n = m := by
  have hp := List.prefix_of_prefix_length_le h h' (by simp)
  have he : path ++ [n] = path ++ [m] := hp.eq_of_length (by simp)
  simpa using he

/-- No two inputs of a request have the same position. -/
theorem nodup_walkFrom (path : InputPath) (n : Nat) (inputs : List StageInput) :
    ((walkFrom path n inputs).map (·.1)).Nodup := by
  induction inputs using inputsInduction generalizing path n with
  | nil => exact List.nodup_nil
  | cons i cs d rest ihs ih =>
    rw [walkFrom_cons, List.map_cons, List.map_append, List.nodup_cons, List.nodup_append]
    refine ⟨?_, ihs (path ++ [n]) 0, ih path (n + 1), ?_⟩
    · intro hmem
      obtain hmem | hmem := List.mem_append.mp hmem
      · obtain ⟨x, hx, he⟩ := List.mem_map.mp hmem
        obtain ⟨m, -, hm⟩ := prefix_of_mem_walkFrom hx
        have hlen := hm.length_le
        rw [he] at hlen
        simp at hlen
      · obtain ⟨x, hx, he⟩ := List.mem_map.mp hmem
        obtain ⟨m, hle, hm⟩ := prefix_of_mem_walkFrom hx
        have hnm := index_unique_of_prefix (he ▸ List.prefix_rfl : path ++ [n] <+: x.1) hm
        omega
    · intro a ha b hb he
      obtain ⟨x, hx, rfl⟩ := List.mem_map.mp ha
      obtain ⟨y, hy, rfl⟩ := List.mem_map.mp hb
      obtain ⟨k, -, hk⟩ := prefix_of_mem_walkFrom hx
      obtain ⟨m, hle, hm⟩ := prefix_of_mem_walkFrom hy
      have hnm := index_unique_of_prefix ((List.prefix_append _ _).trans hk) (he ▸ hm)
      omega

theorem walk_unique {inputs : List StageInput} {x y : InputPath × StageInput}
    (hx : x ∈ walkInputs inputs) (hy : y ∈ walkInputs inputs) (h : x.1 = y.1) : x = y :=
  List.inj_on_of_nodup_map (nodup_walkFrom [] 0 inputs) hx hy h

end Paths

/-- Planning the fields again would reproduce the stage. -/
def Reproduces (data : PlanningData) (fields : CoveragePlanningFields) (stage : CoverageStage) :
    Prop :=
  ∃ inputs, CoverageInputs.fromFields fields = .ok inputs ∧
    ∀ drawn, unchanged data drawn inputs stage = .ok true

/-- What a plan is held to, met by the stages that a round plans and by those it leaves alone. -/
structure Fitting (round : PlanningRound)
    (Fits : CoveragePlanningFields → CoverageStage → Prop) : Prop where
  kept : ∀ fields stage, Reproduces round.data fields stage → Fits fields stage
  planned : ∀ path fields inputs stageId stage, CoverageInputs.fromFields fields = .ok inputs →
    PlannedFrom round.data (round.planner path) (round.fresh path) inputs stageId stage →
    Fits fields stage

theorem fitting_reproduces {round : PlanningRound} (h : ∀ path, EchoesAngle (round.planner path)) :
    Fitting round (Reproduces round.data) where
  kept := fun _ _ hr => hr
  planned := fun path _ inputs _ _ hf hp =>
    ⟨inputs, hf, fun _ => unchanged_of_planned (h path) hp⟩

theorem fitting_any (round : PlanningRound) : Fitting round fun _ _ => True where
  kept := fun _ _ _ => trivial
  planned := fun _ _ _ _ _ _ _ => trivial

section Rounds
variable {Fits : CoveragePlanningFields → CoverageStage → Prop} {round : PlanningRound}
  {stored : Table Stage.stageId} {planned planned' : PlannedStages} {item : PlanItem}
  {items : List PlanItem} {fresh : InputPath → UUID}

/-- The entry is a plan for the item. -/
structure PlansFor (Fits : CoveragePlanningFields → CoverageStage → Prop) (fresh : InputPath → UUID)
    (item : PlanItem) (entry : InputPath × CoverageStage) : Prop where
  path : entry.1 = item.path
  stageId : entry.2.stageId = item.stageId.getD (fresh item.path)
  fits : Fits item.fields entry.2

/-- The item is planned, or names a stored stage that needs no planning. -/
def Done (stored : Table Stage.stageId) (Fits : CoveragePlanningFields → CoverageStage → Prop)
    (planned : PlannedStages) (item : PlanItem) : Prop :=
  (planned.lookup item.path).isSome ∨ ∃ i kept, item.stageId = some i ∧
    storedCoverage stored i = some kept ∧ Fits item.fields kept

theorem Done.append (h : Done stored Fits planned item) (entries : PlannedStages) :
    Done stored Fits (planned ++ entries) item := by
  obtain h | h := h
  · refine .inl ?_
    rw [List.lookup_append, Option.isSome_or, h]
    rfl
  · exact .inr h

/-- What one item adds to the plans. -/
def Grows (stored : Table Stage.stageId) (Fits : CoveragePlanningFields → CoverageStage → Prop)
    (fresh : InputPath → UUID) (item : PlanItem) (planned planned' : PlannedStages) : Prop :=
  (planned' = planned ∨ ∃ entry, planned' = planned ++ [entry] ∧ PlansFor Fits fresh item entry) ∧
    Done stored Fits planned' item

theorem planStep_grows (hfit : Fitting round Fits)
    (h : round.planStep stored planned item = .ok planned') :
    Grows stored Fits round.fresh item planned planned' := by
  obtain ⟨result, hplan, h⟩ := bind_eq_ok.mp h
  obtain ⟨inputs, hinputs, hplan⟩ := bind_eq_ok.mp hplan
  obtain ⟨same, hsame, hplan⟩ := bind_eq_ok.mp hplan
  cases same with
  | true =>
    obtain rfl := Except.ok.inj hplan
    obtain rfl := Except.ok.inj h
    refine ⟨.inl rfl, .inr ?_⟩
    unfold PlanningRound.keptUnchanged at hsame
    cases hk : item.stageId.bind (storedCoverage stored) with
    | none =>
      rw [hk] at hsame
      cases hsame
    | some kept =>
      rw [hk] at hsame
      obtain ⟨i, hi, hkept⟩ := Option.bind_eq_some_iff.mp hk
      exact ⟨i, kept, hi, hkept, hfit.kept _ _ ⟨inputs, hinputs, fun _ => unchanged_drawn hsame⟩⟩
  | false =>
    obtain ⟨stage, hstage, hplan⟩ := bind_eq_ok.mp hplan
    obtain rfl := Except.ok.inj hplan
    obtain rfl := Except.ok.inj h
    have hp := planCoverageStage_ok hstage
    refine ⟨.inr ⟨_, rfl, rfl, hp.stageId, hfit.planned _ _ _ _ _ hinputs hp⟩, .inl ?_⟩
    rw [List.lookup_append, Option.isSome_or, List.lookup_cons_self, Option.isSome_some,
      Bool.or_true]

theorem replanStep_grows (hfit : Fitting round Fits) {missionId : UUID}
    (h : round.replanStep stored missionId planned item = .ok planned') :
    Grows stored Fits round.fresh item planned planned' := by
  unfold PlanningRound.replanStep at h
  by_cases hp : (planned.lookup item.path).isSome
  · rw [if_pos hp] at h
    obtain rfl := Except.ok.inj h
    exact ⟨.inl rfl, .inl hp⟩
  · rw [if_neg hp] at h
    obtain ⟨kept, -, h⟩ := bind_eq_ok.mp h
    exact planStep_grows hfit h

/-- After a round over the items each is done, and what was added are plans for them. -/
theorem foldlM_grows {step : PlannedStages → PlanItem → Except ServiceError PlannedStages}
    (hstep : ∀ planned item planned', step planned item = .ok planned' →
      Grows stored Fits fresh item planned planned')
    (h : items.foldlM step planned = .ok planned') :
    (∃ entries, planned' = planned ++ entries ∧
      ∀ entry ∈ entries, ∃ item ∈ items, PlansFor Fits fresh item entry) ∧
    ∀ item ∈ items, Done stored Fits planned' item := by
  induction items generalizing planned with
  | nil =>
    obtain rfl := Except.ok.inj h
    exact ⟨⟨[], (List.append_nil _).symm, fun _ h => by cases h⟩, fun _ h => by cases h⟩
  | cons item rest ih =>
    rw [List.foldlM_cons] at h
    obtain ⟨planned₁, hone, h⟩ := bind_eq_ok.mp h
    obtain ⟨⟨entries, rfl, hentries⟩, hdone⟩ := ih h
    obtain ⟨hgrow, hitem⟩ := hstep _ _ _ hone
    refine ⟨?_, List.forall_mem_cons.mpr ⟨hitem.append entries, hdone⟩⟩
    have hlater : ∀ entry ∈ entries, ∃ it ∈ item :: rest, PlansFor Fits fresh it entry := by
      intro entry he
      obtain ⟨it, hit, hp⟩ := hentries entry he
      exact ⟨it, List.mem_cons_of_mem _ hit, hp⟩
    obtain rfl | ⟨entry, rfl, hp⟩ := hgrow
    · exact ⟨entries, rfl, hlater⟩
    · refine ⟨entry :: entries, by simp, List.forall_mem_cons.mpr ⟨?_, hlater⟩⟩
      exact ⟨item, List.mem_cons_self, hp⟩

theorem mem_coverageInputsToPlan {inputs : List StageInput} :
    item ∈ coverageInputsToPlan inputs ↔
      ∃ cs, (item.path, .mk item.stageId cs (.coverage item.fields)) ∈ walkInputs inputs ∧
        item.fields.carries = false := by
  unfold coverageInputsToPlan
  rw [List.mem_filterMap]
  constructor
  · rintro ⟨⟨path, ⟨i, cs, d⟩⟩, hx, he⟩
    cases d with
    | navigation => cases he
    | coverage fields =>
      unfold planItem? at he
      dsimp only at he
      by_cases hc : fields.carries = true
      · rw [if_pos hc] at he
        cases he
      · rw [if_neg hc] at he
        obtain rfl := Option.some.inj he
        exact ⟨cs, hx, Bool.eq_false_iff.mpr hc⟩
  · rintro ⟨cs, hx, hc⟩
    refine ⟨_, hx, ?_⟩
    unfold planItem?
    dsimp only
    rw [if_neg (Bool.eq_false_iff.mp hc)]

/-- Plans for the request's items settle all of its inputs once the items are done. -/
theorem settled_of_done {inputs : List StageInput}
    (hentries : ∀ entry ∈ planned, ∃ item ∈ coverageInputsToPlan inputs, PlansFor Fits fresh item entry)
    (hdone : ∀ item ∈ coverageInputsToPlan inputs, Done stored Fits planned item) :
    ∀ x ∈ walkInputs inputs, Settled stored Fits fresh planned x := by
  rintro ⟨path, ⟨i, cs, d⟩⟩ hx
  cases d with
  | navigation => trivial
  | coverage fields =>
    -- A plan kept under this position was made for the input that is there.
    have hentry : ∀ stage, planned.lookup path = some stage → fields.carries = false ∧
        stage.stageId = i.getD (fresh path) ∧ Fits fields stage := by
      intro stage hl
      have hmem : (path, stage) ∈ planned := by
        obtain ⟨before, after, rfl, -⟩ := List.lookup_eq_some_iff.mp hl
        simp
      obtain ⟨item, hitem, hp⟩ := hentries (path, stage) hmem
      obtain ⟨cs', hx', hc⟩ := mem_coverageInputsToPlan.mp hitem
      obtain ⟨rfl, he⟩ := Prod.mk.inj (walk_unique hx hx' hp.path)
      obtain ⟨rfl, -, he⟩ := StageInput.mk.inj he
      obtain rfl := InputDetail.coverage.inj he
      exact ⟨hc, hp.stageId, hp.fits⟩
    unfold Settled
    dsimp only
    by_cases hc : fields.carries = true
    · rw [if_pos hc]
      cases hl : planned.lookup path with
      | none => rfl
      | some stage =>
        have hn := (hentry stage hl).1
        rw [hc] at hn
        cases hn
    · rw [if_neg hc]
      cases hl : planned.lookup path with
      | some stage => exact (hentry stage hl).2
      | none =>
        have hitem : (⟨path, i, fields⟩ : PlanItem) ∈ coverageInputsToPlan inputs :=
          mem_coverageInputsToPlan.mpr ⟨cs, hx, Bool.eq_false_iff.mpr hc⟩
        obtain hsome | hkept := hdone _ hitem
        · rw [hl] at hsome
          cases hsome
        · exact hkept

theorem planInputs_entries (hfit : Fitting round Fits) {inputs : List StageInput}
    {missionId : Option UUID} (h : round.planInputs inputs stored missionId = .ok planned) :
    (∀ entry ∈ planned, ∃ item ∈ coverageInputsToPlan inputs, PlansFor Fits round.fresh item entry) ∧
      ∀ item ∈ coverageInputsToPlan inputs, Done stored Fits planned item := by
  obtain ⟨u, -, h⟩ := bind_eq_ok.mp h
  obtain ⟨⟨entries, rfl, hentries⟩, hdone⟩ := foldlM_grows (fun _ _ _ => planStep_grows hfit) h
  exact ⟨by simpa using hentries, hdone⟩

/-- After both rounds every input is settled by the stages stored at the second. -/
theorem settled_replanned {round' : PlanningRound} {stored' : Table Stage.stageId}
    (hfit : Fitting round Fits) (hfit' : Fitting round' Fits) (hfresh : round'.fresh = round.fresh)
    {inputs : List StageInput} {missionId : Option UUID} {missionId' : UUID}
    (h : round.planInputs inputs stored missionId = .ok planned)
    (h' : round'.replanChangedMeanwhile missionId' inputs stored' planned = .ok planned') :
    ∀ x ∈ walkInputs inputs, Settled stored' Fits round.fresh planned' x := by
  obtain ⟨hentries, -⟩ := planInputs_entries hfit h
  obtain ⟨⟨entries, rfl, hmore⟩, hdone⟩ :=
    foldlM_grows (fun _ _ _ => replanStep_grows hfit') h'
  rw [hfresh] at hmore
  exact settled_of_done (List.forall_mem_append.mpr ⟨hentries, hmore⟩) hdone

end Rounds

end Leitstand
