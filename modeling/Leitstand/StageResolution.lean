import Leitstand.StageInputs

namespace Leitstand

/-- A named input keeps its id, which is a stored one; any other gets one that was drawn for it. -/
def Identified (stored : Table Stage.stageId) (Drawn : UUID → Prop) : Option UUID → UUID → Prop
  | some i, s => s = i ∧ (stored.find? i).isSome
  | none, s => Drawn s

/-- The stages that answer a request, one for each input at its place. `stored` are the stages the
mission has, and `Fits` tells whether a coverage stage is one for the planning inputs. -/
inductive Resolves (stored : Table Stage.stageId) (Drawn : UUID → Prop)
    (Fits : CoveragePlanningFields → CoverageStage → Prop) : List StageInput → List Stage → Prop
  | nil : Resolves stored Drawn Fits [] []
  | navigation {stageId : Option UUID} {s : UUID} {cs : Option (List StageInput)}
      {cs' : Option (List Stage)} {waypoints : List Waypoint} {rest : List StageInput}
      {stages : List Stage} (identified : Identified stored Drawn stageId s)
      (children : Resolves stored Drawn Fits (cs.getD []) (cs'.getD []))
      (others : Resolves stored Drawn Fits rest stages) :
      Resolves stored Drawn Fits (.mk stageId cs (.navigation waypoints) :: rest)
        (.mk s cs' (.navigation waypoints) :: stages)
  | carriedWhole {i : UUID} {fields : CoveragePlanningFields} {kept : CoverageStage}
      {rest : List StageInput} {stages : List Stage} (carries : fields.carries = true)
      (found : storedCoverage stored i = some kept)
      (others : Resolves stored Drawn Fits rest stages) :
      Resolves stored Drawn Fits (.mk (some i) none (.coverage fields) :: rest)
        (.mk i kept.onCancel (.coverage kept.segments kept.provenance) :: stages)
  | carried {i : UUID} {cs : List StageInput} {cs' : Option (List Stage)}
      {fields : CoveragePlanningFields} {kept : CoverageStage} {rest : List StageInput}
      {stages : List Stage} (carries : fields.carries = true)
      (found : storedCoverage stored i = some kept)
      (children : Resolves stored Drawn Fits cs (cs'.getD []))
      (others : Resolves stored Drawn Fits rest stages) :
      Resolves stored Drawn Fits (.mk (some i) (some cs) (.coverage fields) :: rest)
        (.mk i cs' (.coverage kept.segments kept.provenance) :: stages)
  | planned {stageId : Option UUID} {cs : Option (List StageInput)} {cs' : Option (List Stage)}
      {fields : CoveragePlanningFields} {stage : CoverageStage} {rest : List StageInput}
      {stages : List Stage} (plans : fields.carries = false)
      (identified : Identified stored Drawn stageId stage.stageId)
      (fits : Fits fields { stage with onCancel := cs' })
      (children : Resolves stored Drawn Fits (cs.getD []) (cs'.getD []))
      (others : Resolves stored Drawn Fits rest stages) :
      Resolves stored Drawn Fits (.mk stageId cs (.coverage fields) :: rest)
        (.mk stage.stageId cs' (.coverage stage.segments stage.provenance) :: stages)

section Inversion
variable {ctx : IdContext} {path : InputPath} {n : Nat} {seen seen' : List UUID}

/-- The first input is named, then its children are built, and then it is staged. -/
theorem buildFrom_cons_eq (i : Option UUID) (cs : Option (List StageInput)) (d : InputDetail)
    (rest : List StageInput) : buildFrom ctx path n seen (.mk i cs d :: rest) =
      ctx.name seen i >>= fun seen₁ =>
        buildFrom ctx (path ++ [n]) 0 seen₁ (cs.getD []) >>= fun below =>
          ctx.staged (path ++ [n]) below.2 i cs (cleanupOf below.1) d >>= fun own =>
            buildFrom ctx path (n + 1) own.2 rest >>= fun others =>
              pure (own.1 :: others.1, others.2) := by
  have hcleanup : ∀ taken, buildCleanup ctx (path ++ [n]) taken cs =
      buildFrom ctx (path ++ [n]) 0 taken (cs.getD []) >>= fun below =>
        pure (cleanupOf below.1, below.2) := by
    intro taken
    cases cs <;> rfl
  rw [buildFrom, StageInput.build]
  simp only [hcleanup, bind_assoc, pure_bind]

/-- What building the stages of a request did for its first input. -/
theorem buildFrom_cons {i : Option UUID} {cs : Option (List StageInput)} {d : InputDetail}
    {rest : List StageInput} {result : List Stage}
    (h : buildFrom ctx path n seen (.mk i cs d :: rest) = .ok (result, seen')) :
    ∃ seen₁ children seen₂ stage seen₃ stages,
      ctx.name seen i = .ok seen₁ ∧
      buildFrom ctx (path ++ [n]) 0 seen₁ (cs.getD []) = .ok (children, seen₂) ∧
      ctx.staged (path ++ [n]) seen₂ i cs (cleanupOf children) d = .ok (stage, seen₃) ∧
      buildFrom ctx path (n + 1) seen₃ rest = .ok (stages, seen') ∧ result = stage :: stages := by
  rw [buildFrom_cons_eq] at h
  obtain ⟨seen₁, hname, h⟩ := bind_eq_ok.mp h
  obtain ⟨⟨children, seen₂⟩, hchildren, h⟩ := bind_eq_ok.mp h
  obtain ⟨⟨stage, seen₃⟩, hstage, h⟩ := bind_eq_ok.mp h
  obtain ⟨⟨stages, seen₄⟩, hrest, h⟩ := bind_eq_ok.mp h
  obtain ⟨rfl, rfl⟩ := Prod.mk.inj (Except.ok.inj h)
  exact ⟨seen₁, children, seen₂, stage, seen₃, stages, hname, hchildren, hstage, hrest, rfl⟩

theorem IdContext.staged_coverage {here : InputPath} {i : Option UUID}
    {cs : Option (List StageInput)} {onCancel : Option (List Stage)}
    {fields : CoveragePlanningFields} {stage : Stage}
    (h : ctx.staged here seen i cs onCancel (.coverage fields) = .ok (stage, seen')) :
    ∃ resolved, ctx.resolve here i = .ok resolved ∧
      ((fields.carries = true ∧ cs = none) ∧
        IdContext.claimIds seen (stageIds (resolved.onCancel.getD [])).eraseDups = .ok seen' ∧
        stage = .mk resolved.stageId resolved.onCancel
          (.coverage resolved.segments resolved.provenance) ∨
      ¬ (fields.carries = true ∧ cs = none) ∧ seen' = seen ∧
        stage = .mk resolved.stageId onCancel (.coverage resolved.segments resolved.provenance)) := by
  obtain ⟨resolved, hr, h⟩ := bind_eq_ok.mp h
  refine ⟨resolved, hr, ?_⟩
  dsimp only at h
  by_cases hc : fields.carries = true ∧ cs = none
  · rw [if_pos ⟨hc.1, Option.isNone_iff_eq_none.mpr hc.2⟩] at h
    obtain ⟨seen'', hclaim, h⟩ := bind_eq_ok.mp h
    obtain ⟨rfl, rfl⟩ := Prod.mk.inj (Except.ok.inj h)
    exact .inl ⟨hc, hclaim, rfl⟩
  · rw [if_neg fun hy => hc ⟨hy.1, Option.isNone_iff_eq_none.mp hy.2⟩] at h
    obtain ⟨rfl, rfl⟩ := Prod.mk.inj (Except.ok.inj h)
    exact .inr ⟨hc, rfl, rfl⟩

end Inversion

theorem stageId_of_storedCoverage {stored : Table Stage.stageId} {i : UUID} {kept : CoverageStage}
    (h : storedCoverage stored i = some kept) : kept.stageId = i := by
  obtain ⟨⟨j, cs, d⟩, hf, hc⟩ := Option.bind_eq_some_iff.mp h
  have hj : j = i := Table.key_of_find? hf
  subst hj
  cases d with
  | navigation => cases hc
  | coverage =>
    obtain rfl := Option.some.inj hc
    rfl

/-- What the plans made for a request have to be for its input at a position to be answered. -/
def Settled (stored : Table Stage.stageId) (Fits : CoveragePlanningFields → CoverageStage → Prop)
    (fresh : InputPath → UUID) (planned : PlannedStages) : InputPath × StageInput → Prop
  | (_, .mk _ _ (.navigation _)) => True
  | (path, .mk stageId _ (.coverage fields)) =>
    if fields.carries then planned.lookup path = none
    else match planned.lookup path with
      | some stage => stage.stageId = stageId.getD (fresh path) ∧ Fits fields stage
      | none => ∃ i kept, stageId = some i ∧ storedCoverage stored i = some kept ∧ Fits fields kept

section Resolution
variable {Fits : CoveragePlanningFields → CoverageStage → Prop} {ctx : IdContext}

theorem IdContext.resolve_carried {here : InputPath} {i : Option UUID} {resolved : CoverageStage}
    (hn : ctx.planned.lookup here = none) (h : ctx.resolve here i = .ok resolved) :
    ∃ j, i = some j ∧ storedCoverage ctx.stored j = some resolved := by
  rcases resolve_eq_ok.mp h with hl | ⟨-, hstored⟩
  · cases hn.symm.trans hl
  · exact hstored

/-- A planned input is answered by its plan, or by the stored stage that the plan would reproduce. -/
theorem IdContext.resolve_planned {here : InputPath} {i : Option UUID}
    {cs : Option (List StageInput)} {fields : CoveragePlanningFields} {resolved : CoverageStage}
    (hp : fields.carries = false)
    (hs : Settled ctx.stored Fits ctx.fresh ctx.planned (here, .mk i cs (.coverage fields)))
    (h : ctx.resolve here i = .ok resolved) :
    resolved.stageId = i.getD (ctx.fresh here) ∧ Fits fields resolved := by
  unfold Settled at hs
  simp only [hp, Bool.false_eq_true, if_false] at hs
  rcases resolve_eq_ok.mp h with hl | ⟨hl, j', hj', hr⟩
  · rw [hl] at hs
    exact hs
  · rw [hl] at hs
    obtain ⟨j, kept, rfl, hk, hf⟩ := hs
    obtain rfl := Option.some.inj hj'
    obtain rfl := Option.some.inj (hk.symm.trans hr)
    exact ⟨stageId_of_storedCoverage hk, hf⟩

theorem IdContext.identified {Drawn : UUID → Prop} {here : InputPath} {i : Option UUID}
    {seen seen' : List UUID} (hex : ∀ i ∈ ctx.existing, (ctx.stored.find? i).isSome)
    (hdrawn : Drawn (ctx.fresh here)) (h : ctx.name seen i = .ok seen') :
    Identified ctx.stored Drawn i (i.getD (ctx.fresh here)) := by
  cases i with
  | none => exact hdrawn
  | some j =>
    obtain ⟨u, -, h⟩ := bind_eq_ok.mp h
    obtain ⟨u', hold, -⟩ := bind_eq_ok.mp h
    exact ⟨rfl, hex j (not_not.mp (raiseIf_eq_ok.mp hold))⟩

theorem buildFrom_resolves {Drawn : UUID → Prop}
    (hfits : ∀ fields stage cs, Fits fields stage → Fits fields { stage with onCancel := cs })
    (hex : ∀ i ∈ ctx.existing, (ctx.stored.find? i).isSome)
    {path : InputPath} {n : Nat} {seen seen' : List UUID} {inputs : List StageInput}
    {stages : List Stage} (h : buildFrom ctx path n seen inputs = .ok (stages, seen'))
    (hs : ∀ x ∈ walkFrom path n inputs, Settled ctx.stored Fits ctx.fresh ctx.planned x)
    (hd : ∀ x ∈ walkFrom path n inputs, Drawn (ctx.fresh x.1)) :
    Resolves ctx.stored Drawn Fits inputs stages := by
  induction inputs using inputsInduction generalizing path n seen seen' stages with
  | nil =>
    obtain ⟨rfl, -⟩ := Prod.mk.inj (Except.ok.inj h)
    exact .nil
  | cons i cs d rest ihs ih =>
    obtain ⟨seen₁, children, seen₂, stage, seen₃, stages, hname, hchildren, hstage, hrest, rfl⟩ :=
      buildFrom_cons h
    rw [walkFrom_cons, List.forall_mem_cons, List.forall_mem_append] at hs hd
    obtain ⟨hhere, hbelow, hothers⟩ := hs
    obtain ⟨hdraw, hdbelow, hdothers⟩ := hd
    have hch := ihs hchildren hbelow hdbelow
    have hot := ih hrest hothers hdothers
    have hown := IdContext.identified hex hdraw hname
    cases d with
    | navigation waypoints =>
      obtain ⟨rfl, -⟩ := Prod.mk.inj (Except.ok.inj hstage)
      exact .navigation hown (by rwa [getD_cleanupOf]) hot
    | coverage fields =>
      obtain ⟨resolved, hr, hkind⟩ := IdContext.staged_coverage hstage
      cases hc : fields.carries with
      | true =>
        have hn : ctx.planned.lookup (path ++ [n]) = none := by
          unfold Settled at hhere
          simpa only [hc, if_true] using hhere
        obtain ⟨j, rfl, hk⟩ := IdContext.resolve_carried hn hr
        have hid := stageId_of_storedCoverage hk
        obtain ⟨⟨-, rfl⟩, -, rfl⟩ | ⟨hnot, -, rfl⟩ := hkind
        · rw [hid]
          exact .carriedWhole hc hk hot
        · cases cs with
          | none => exact absurd ⟨hc, rfl⟩ hnot
          | some cs =>
            rw [hid]
            exact .carried hc hk (by rwa [getD_cleanupOf]) hot
      | false =>
        obtain ⟨hid, hfit⟩ := IdContext.resolve_planned hc hhere hr
        obtain ⟨⟨hyes, -⟩, -⟩ | ⟨-, -, rfl⟩ := hkind
        · rw [hc] at hyes
          cases hyes
        · exact .planned hc (hid ▸ hown) (hfits _ _ _ hfit) (by rwa [getD_cleanupOf]) hot

theorem Identified.mem {stored : Table Stage.stageId} {Drawn : UUID → Prop} {i : Option UUID}
    {s : UUID} (h : Identified stored Drawn i s) : (stored.find? s).isSome ∨ Drawn s := by
  cases i with
  | none => exact .inr h
  | some i =>
    obtain ⟨rfl, hi⟩ := h
    exact .inl hi

/-- The stages that answer a request are stored ones or get ids drawn for it. -/
theorem Resolves.mem_stageIds {stored : Table Stage.stageId} {Drawn : UUID → Prop}
    (hkids : ∀ i kept, storedCoverage stored i = some kept →
      ∀ j ∈ stageIds (kept.onCancel.getD []), (stored.find? j).isSome)
    {inputs : List StageInput} {stages : List Stage} (h : Resolves stored Drawn Fits inputs stages)
    {i : UUID} (hi : i ∈ stageIds stages) : (stored.find? i).isSome ∨ Drawn i := by
  have hcons : ∀ (s : UUID) (cs : Option (List Stage)) (d : StageDetail) (rest : List Stage),
      i ∈ stageIds (.mk s cs d :: rest) ↔ i = s ∨ i ∈ stageIds (cs.getD []) ∨ i ∈ stageIds rest := by
    intro s cs d rest
    rw [stageIds, Stage.ids_eq, List.cons_append, List.mem_cons, List.mem_append]
    rfl
  have hfound : ∀ {s : UUID} {kept : CoverageStage}, storedCoverage stored s = some kept →
      (stored.find? s).isSome := fun hk => by
    obtain ⟨stage, hf, -⟩ := Option.bind_eq_some_iff.mp hk
    rw [hf]
    rfl
  induction h with
  | nil => cases hi
  | navigation identified _ _ ihc iho =>
    obtain rfl | hi | hi := (hcons _ _ _ _).mp hi
    · exact identified.mem
    · exact ihc hi
    · exact iho hi
  | carriedWhole _ found _ iho =>
    obtain rfl | hi | hi := (hcons _ _ _ _).mp hi
    · exact .inl (hfound found)
    · exact .inl (hkids _ _ found i hi)
    · exact iho hi
  | carried _ found _ _ ihc iho =>
    obtain rfl | hi | hi := (hcons _ _ _ _).mp hi
    · exact .inl (hfound found)
    · exact ihc hi
    · exact iho hi
  | planned _ identified _ _ _ ihc iho =>
    obtain rfl | hi | hi := (hcons _ _ _ _).mp hi
    · exact identified.mem
    · exact ihc hi
    · exact iho hi

end Resolution

end Leitstand
