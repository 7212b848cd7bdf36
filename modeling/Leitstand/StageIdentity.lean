import Leitstand.StoredStages
import Leitstand.KeyClaims

namespace Leitstand

def StageInput.stageId : StageInput → Option UUID
  | .mk i _ _ => i

/-- The stage at a position of the tree. -/
def stageAt (stages : List Stage) : InputPath → Option Stage
  | [] => none
  | [n] => stages[n]?
  | n :: m :: below => stages[n]?.bind fun s => stageAt s.children (m :: below)

namespace IdContext

/-- The id of the stage at an input's position: the named one, or the one drawn for it. -/
def ownId (ctx : IdContext) (x : InputPath × StageInput) : UUID :=
  x.2.stageId.getD (ctx.fresh x.1)

/-- The stored coverage stage that an input names and carries whole, children included. -/
def carriedWhole (ctx : IdContext) : InputPath × StageInput → Option CoverageStage
  | (here, .mk (some i) none (.coverage fields)) =>
    if fields.carries ∧ (ctx.planned.lookup here).isNone then storedCoverage ctx.stored i else none
  | _ => none

/-- The ids of the children that an input carries whole. -/
def carriedIds (ctx : IdContext) (x : InputPath × StageInput) : List UUID :=
  (ctx.carriedWhole x).elim [] fun kept => stageIds (kept.onCancel.getD [])

/-- The id an input names and the ids of the children it carries whole. -/
def claimedIds (ctx : IdContext) (x : InputPath × StageInput) : List UUID :=
  x.2.stageId.toList ++ ctx.carriedIds x

/-- At the position stands the stage of the input, with what the input carries whole under it. -/
def AnsweredAt (ctx : IdContext) (stages : List Stage) (position : InputPath)
    (x : InputPath × StageInput) : Prop :=
  ∃ s, stageAt stages position = some s ∧ s.stageId = ctx.ownId x ∧
    ∀ kept, ctx.carriedWhole x = some kept → s.onCancel = kept.onCancel

/-- The input names a stage that the mission does not have. -/
def Unknown (ctx : IdContext) (x : InputPath × StageInput) : Prop :=
  ∃ i, x.2.stageId = some i ∧ i ∉ ctx.existing

/-- A coverage input without a planned stage that does not name a stored coverage stage. -/
def Unplanned (ctx : IdContext) : InputPath × StageInput → Prop
  | (_, .mk _ _ (.navigation _)) => False
  | (here, .mk i _ (.coverage _)) =>
    ctx.planned.lookup here = none ∧ i.bind (storedCoverage ctx.stored) = none

/-- A stage planned for a coverage input has its named id or the one drawn there, and brings no
children where the input would carry them. -/
def PlannedAt (ctx : IdContext) : InputPath × StageInput → Prop
  | (_, .mk _ _ (.navigation _)) => True
  | (here, .mk i cs (.coverage fields)) => ∀ stage, ctx.planned.lookup here = some stage →
    stage.stageId = i.getD (ctx.fresh here) ∧
      (fields.carries = true → cs = none → stage.onCancel.getD [] = [])

/-- The ids and plans are for the request, on a mission with these stages. -/
structure Serves (ctx : IdContext) (tree : List Stage) (inputs : List StageInput) : Prop where
  stored : ctx.stored = byStageId tree
  existing : ∀ i, i ∈ ctx.existing ↔ i ∈ stageIds tree
  distinct : (stageIds tree).Nodup
  planned : ∀ x ∈ walkInputs inputs, ctx.PlannedAt x
  unused : ∀ x ∈ walkInputs inputs, ctx.fresh x.1 ∉ stageIds tree
  fresh : ((walkInputs inputs).map fun x => ctx.fresh x.1).Nodup

/-- The error is for an input that names no stage of the mission, or none it could be taken from. -/
def NotInMission (ctx : IdContext) (xs : List (InputPath × StageInput)) (e : ServiceError) : Prop :=
  ∃ x ∈ xs, (ctx.Unknown x ∨ ctx.Unplanned x) ∧ e = .stageNotInMission ctx.missionId x.2.stageId

/-- Of a computation that identifies these inputs: it fails for an id met twice, or for an input
that is not in the mission, and for nothing else. -/
abbrev Identifies (ctx : IdContext) (seen : List UUID) (xs : List (InputPath × StageInput))
    {α : Type} (x : Except ServiceError (α × List UUID)) : Prop :=
  KeyClaims .duplicateStageId (ctx.NotInMission xs) seen (xs.flatMap ctx.claimedIds) Prod.snd x

end IdContext

/-- The children of a stored coverage stage have ids of their own among the mission's. -/
def ChildrenKnown (ctx : IdContext) : Prop :=
  ∀ i kept, storedCoverage ctx.stored i = some kept →
    (stageIds (kept.onCancel.getD [])).Nodup ∧
      ∀ j ∈ stageIds (kept.onCancel.getD []), j ∈ ctx.existing

theorem eraseDups_of_nodup {α : Type} [DecidableEq α] {xs : List α} (h : xs.Nodup) :
    xs.eraseDups = xs := by
  induction xs with
  | nil => rfl
  | cons x rest ih =>
    rw [List.nodup_cons] at h
    have hrest : rest.filter (fun b => !b == x) = rest := by
      rw [List.filter_eq_self]
      intro b hb
      have hne : b ≠ x := fun he => h.1 (he ▸ hb)
      simpa using hne
    rw [List.eraseDups_cons, hrest, ih h.2]

theorem IdContext.notInMission_cons {ctx : IdContext} {here : InputPath} {i : Option UUID}
    {cs : Option (List StageInput)} {d : InputDetail} {xs : List (InputPath × StageInput)}
    {e : ServiceError} : ctx.NotInMission ((here, .mk i cs d) :: xs) e ↔
      (ctx.Unknown (here, .mk i cs d) ∨ ctx.Unplanned (here, .mk i cs d)) ∧
        e = .stageNotInMission ctx.missionId i ∨ ctx.NotInMission xs e := by
  simp [NotInMission, StageInput.stageId]

theorem IdContext.notInMission_append {ctx : IdContext} {xs ys : List (InputPath × StageInput)}
    {e : ServiceError} :
    ctx.NotInMission (xs ++ ys) e ↔ ctx.NotInMission xs e ∨ ctx.NotInMission ys e := by
  simp [NotInMission, or_and_right, exists_or]

section Carried
variable {ctx : IdContext} {here : InputPath} {i : Option UUID}
  {cs : Option (List StageInput)} {fields : CoveragePlanningFields} {kept resolved : CoverageStage}
  {x : InputPath × StageInput}

theorem IdContext.carriedWhole_eq_some (h : ctx.carriedWhole x = some kept) :
    ∃ here j fields, x = (here, .mk (some j) none (.coverage fields)) ∧ fields.carries = true ∧
      ctx.planned.lookup here = none ∧ storedCoverage ctx.stored j = some kept := by
  unfold carriedWhole at h
  split at h
  · split_ifs at h with hc
    exact ⟨_, _, _, rfl, hc.1, Option.isNone_iff_eq_none.mp hc.2, h⟩
  · cases h

/-- The children carried whole are stages of the mission, each with its own id. -/
theorem IdContext.carriedIds_known (hknown : ChildrenKnown ctx) (x : InputPath × StageInput) :
    (ctx.carriedIds x).Nodup ∧ ∀ k ∈ ctx.carriedIds x, k ∈ ctx.existing := by
  unfold carriedIds
  cases h : ctx.carriedWhole x with
  | none => exact ⟨List.nodup_nil, fun k hk => by cases hk⟩
  | some kept =>
    obtain ⟨here, j, fields, -, -, -, hk⟩ := carriedWhole_eq_some h
    exact hknown j kept hk

theorem IdContext.resolve_eq_error {e : ServiceError} : ctx.resolve here i = .error e ↔
    ctx.Unplanned (here, .mk i cs (.coverage fields)) ∧
      e = .stageNotInMission ctx.missionId i := by
  unfold resolve Unplanned
  dsimp only
  cases ctx.planned.lookup here with
  | some stage => exact iff_of_false nofun (by rintro ⟨⟨⟨⟩, -⟩, -⟩)
  | none =>
    cases i.bind (storedCoverage ctx.stored) with
    | some kept => exact iff_of_false nofun (by rintro ⟨⟨-, ⟨⟩⟩, -⟩)
    | none => exact ⟨fun h => ⟨⟨rfl, rfl⟩, (Except.error.inj h).symm⟩, fun h => h.2 ▸ rfl⟩

/-- What a coverage input takes over is what it carries whole. -/
theorem IdContext.carriedIds_of_resolve (hplan : ctx.PlannedAt (here, .mk i cs (.coverage fields)))
    (hr : ctx.resolve here i = .ok resolved) : ctx.carriedIds (here, .mk i cs (.coverage fields)) =
      if fields.carries ∧ cs.isNone then stageIds (resolved.onCancel.getD []) else [] := by
  split_ifs with hc
  · obtain ⟨hcarries, hnone⟩ := hc
    obtain rfl := Option.isNone_iff_eq_none.mp hnone
    rcases resolve_eq_ok.mp hr with hl | ⟨hl, j, rfl, hk⟩
    · rw [(hplan resolved hl).2 hcarries rfl]
      cases i <;> simp [carriedIds, carriedWhole, hl, stageIds]
    · simp [carriedIds, carriedWhole, hl, hcarries, hk]
  · have hnone : ctx.carriedWhole (here, .mk i cs (.coverage fields)) = none := by
      cases h : ctx.carriedWhole (here, .mk i cs (.coverage fields)) with
      | none => rfl
      | some kept =>
        obtain ⟨_, _, _, hx, hcarries, -, -⟩ := carriedWhole_eq_some h
        cases hx
        exact absurd ⟨hcarries, rfl⟩ hc
    unfold carriedIds
    rw [hnone]
    rfl

end Carried

section Claims
variable {ctx : IdContext} {here path : InputPath} {n : Nat} {seen : List UUID} {i : Option UUID}
  {cs : Option (List StageInput)} {d : InputDetail}

theorem claimIds_claims (ids : List UUID) : KeyClaims .duplicateStageId (fun _ => False) seen ids id
    (IdContext.claimIds seen ids) := by
  induction ids generalizing seen with
  | nil => exact .pure rfl
  | cons k rest ih =>
    rw [IdContext.claimIds, raiseIf_bind]
    exact .claim ih

theorem IdContext.name_claims : KeyClaims .duplicateStageId
    (fun e => ctx.Unknown (here, .mk i cs d) ∧ e = .stageNotInMission ctx.missionId i) seen i.toList id
    (ctx.name seen i) := by
  cases i with
  | none =>
    refine .congr (.pure (a := seen) rfl) (.refl _) fun e => ?_
    simp [Unknown, StageInput.stageId]
  | some j =>
    unfold name
    dsimp only
    rw [raiseIf_bind, raiseIf_bind]
    refine .claim ?_
    split_ifs with hj
    · refine .congr (.pure rfl) (.refl _) fun e => ?_
      simp [Unknown, StageInput.stageId, hj]
    · exact .fail ⟨⟨j, rfl, hj⟩, rfl⟩

/-- The children that a coverage stage takes over are claimed in turn. -/
theorem IdContext.staged_coverage_claims {fields : CoveragePlanningFields} {resolved : CoverageStage}
    {onCancel : Option (List Stage)} {taken : List UUID}
    (hr : ctx.resolve here i = .ok resolved)
    (htaken : taken = if fields.carries ∧ cs.isNone then stageIds (resolved.onCancel.getD []) else [])
    (hnodup : taken.Nodup) :
    KeyClaims .duplicateStageId (fun _ => False) seen taken Prod.snd
      (ctx.staged here seen i cs onCancel (.coverage fields)) := by
  unfold staged
  dsimp only
  rw [hr]
  change KeyClaims _ _ _ _ _ (if _ then _ else _)
  split_ifs at htaken ⊢ with hc
  · rw [htaken] at hnodup
    rw [eraseDups_of_nodup hnodup, htaken]
    refine .congr ((claimIds_claims _).bind fun _ _ => .pure rfl) ?_ fun e => or_self_iff
    simp
  · exact htaken ▸ .pure rfl

theorem IdContext.staged_claims {onCancel : Option (List Stage)} (hknown : ChildrenKnown ctx)
    (hplan : ctx.PlannedAt (here, .mk i cs d)) : KeyClaims .duplicateStageId
      (fun e => ctx.Unplanned (here, .mk i cs d) ∧ e = .stageNotInMission ctx.missionId i) seen
      (ctx.carriedIds (here, .mk i cs d)) Prod.snd (ctx.staged here seen i cs onCancel d) := by
  cases d with
  | navigation waypoints =>
    refine .congr (.pure rfl) ?_ fun e => ?_
    · cases i <;> cases cs <;> exact .refl _
    · simp [Unplanned]
  | coverage fields =>
    cases hr : ctx.resolve here i with
    | ok resolved =>
      have hplanned : ¬ ctx.Unplanned (here, .mk i cs (.coverage fields)) := by
        intro hn
        rw [resolve_eq_error.mpr ⟨hn, rfl⟩] at hr
        cases hr
      refine .congr (staged_coverage_claims hr (carriedIds_of_resolve hplan hr)
        (carriedIds_known hknown _).1) (.refl _) fun e => ?_
      simp [hplanned]
    | error e =>
      unfold staged
      dsimp only
      rw [hr]
      exact .fail (resolve_eq_error.mp hr)

/-- The walk over a request claims the named ids and those of the children carried whole. -/
theorem buildFrom_claims {inputs : List StageInput} (hknown : ChildrenKnown ctx)
    (hplan : ∀ x ∈ walkFrom path n inputs, ctx.PlannedAt x) :
    ctx.Identifies seen (walkFrom path n inputs) (buildFrom ctx path n seen inputs) := by
  induction inputs using inputsInduction generalizing path n seen with
  | nil => exact .congr (.pure rfl) (.refl _) fun e => by simp [IdContext.NotInMission]
  | cons i cs d rest ihs ih =>
    rw [walkFrom_cons, List.forall_mem_cons, List.forall_mem_append] at hplan
    obtain ⟨hhere, hbelow, hothers⟩ := hplan
    rw [buildFrom_cons_eq, walkFrom_cons]
    have hname := @IdContext.name_claims ctx (path ++ [n]) seen i cs d
    refine .congr (hname.bind fun taken _ => (ihs hbelow).bind fun below _ =>
      (IdContext.staged_claims hknown hhere).bind fun own _ =>
        (ih hothers).bind fun others _ => .pure rfl) ?_ fun e => ?_
    · rw [List.perm_iff_count]
      intro a
      simp only [IdContext.claimedIds, StageInput.stageId, List.flatMap_cons, List.flatMap_append,
        List.count_append, List.count_nil]
      omega
    · rw [IdContext.notInMission_cons, IdContext.notInMission_append]
      tauto

end Claims

section Answers
variable {ctx : IdContext} {here path : InputPath} {n : Nat} {seen seen' : List UUID}
  {i : Option UUID} {cs : Option (List StageInput)} {d : InputDetail} {stage : Stage}
  {children stages : List Stage} {resolved : CoverageStage} {fields : CoveragePlanningFields}
  {x : InputPath × StageInput}

theorem IdContext.stageId_of_resolve (hplan : ctx.PlannedAt (here, .mk i cs (.coverage fields)))
    (hr : ctx.resolve here i = .ok resolved) : resolved.stageId = i.getD (ctx.fresh here) := by
  rcases resolve_eq_ok.mp hr with hl | ⟨-, j, rfl, hk⟩
  · exact (hplan resolved hl).1
  · exact stageId_of_storedCoverage hk

theorem IdContext.resolve_of_carriedWhole {kept : CoverageStage}
    (h : ctx.carriedWhole (here, .mk i cs d) = some kept) : ctx.resolve here i = .ok kept := by
  obtain ⟨_, j, fields, hx, -, hl, hk⟩ := carriedWhole_eq_some h
  cases hx
  exact resolve_eq_ok.mpr (.inr ⟨hl, j, rfl, hk⟩)

/-- The stage that answers an input: its id, and under it the children built for the input or those
it carries whole. -/
theorem IdContext.staged_answers (hplan : ctx.PlannedAt (here, .mk i cs d))
    (hbuilt : cs = none → children = [])
    (h : ctx.staged here seen i cs (cleanupOf children) d = .ok (stage, seen')) :
    stage.stageId = ctx.ownId (here, .mk i cs d) ∧
      stageIds stage.children = ctx.carriedIds (here, .mk i cs d) ++ stageIds children ∧
      (cs ≠ none → stage.children = children) ∧
      ∀ kept, ctx.carriedWhole (here, .mk i cs d) = some kept → stage.onCancel = kept.onCancel := by
  cases d with
  | navigation waypoints =>
    obtain ⟨rfl, -⟩ := Prod.mk.inj (Except.ok.inj h)
    have hnone : ctx.carriedWhole (here, .mk i cs (.navigation waypoints)) = none := by
      cases i <;> cases cs <;> rfl
    refine ⟨rfl, ?_, fun _ => getD_cleanupOf children, ?_⟩
    · rw [carriedIds, hnone]
      exact congrArg stageIds (getD_cleanupOf children)
    · rw [hnone]
      rintro kept ⟨⟩
  | coverage fields =>
    obtain ⟨resolved, hr, hkind⟩ := staged_coverage h
    have hid := stageId_of_resolve hplan hr
    have hcarried := carriedIds_of_resolve hplan hr
    obtain ⟨⟨hc, rfl⟩, -, rfl⟩ | ⟨hnot, -, rfl⟩ := hkind
    · obtain rfl := hbuilt rfl
      refine ⟨hid, ?_, fun hn => absurd rfl hn, fun kept hk => ?_⟩
      · rw [hcarried, if_pos ⟨hc, rfl⟩, stageIds, List.append_nil]
        rfl
      · obtain rfl := Except.ok.inj (hr.symm.trans (resolve_of_carriedWhole hk))
        rfl
    · have hbuilt' : ¬ (fields.carries = true ∧ cs.isNone = true) := fun hy =>
        hnot ⟨hy.1, Option.isNone_iff_eq_none.mp hy.2⟩
      refine ⟨hid, ?_, fun _ => getD_cleanupOf children, fun kept hk => ?_⟩
      · rw [hcarried, if_neg hbuilt']
        exact congrArg stageIds (getD_cleanupOf children)
      · obtain ⟨_, _, _, hx, hc, -, -⟩ := carriedWhole_eq_some hk
        cases hx
        exact absurd ⟨hc, rfl⟩ hnot

theorem stageAt_succ (k : Nat) (below : InputPath) :
    stageAt (stage :: stages) ((k + 1) :: below) = stageAt stages (k :: below) := by
  cases below <;> rfl

/-- Where the request names no children none are built. -/
theorem built_of_none (h : buildFrom ctx path n seen (cs.getD []) = .ok (children, seen'))
    (hnone : cs = none) : children = [] := by
  subst hnone
  exact (Prod.mk.inj (Except.ok.inj h)).1.symm

/-- The ids of the stages built, in the order of the walk over the request. -/
theorem buildFrom_stageIds {inputs : List StageInput}
    (hplan : ∀ x ∈ walkFrom path n inputs, ctx.PlannedAt x)
    (h : buildFrom ctx path n seen inputs = .ok (stages, seen')) : stageIds stages =
      (walkFrom path n inputs).flatMap fun x => ctx.ownId x :: ctx.carriedIds x := by
  induction inputs using inputsInduction generalizing path n seen seen' stages with
  | nil =>
    obtain ⟨rfl, -⟩ := Prod.mk.inj (Except.ok.inj h)
    rfl
  | cons i cs d rest ihs ih =>
    obtain ⟨seen₁, children, seen₂, stage, seen₃, stages, -, hchildren, hstage, hrest, rfl⟩ :=
      buildFrom_cons h
    rw [walkFrom_cons, List.forall_mem_cons, List.forall_mem_append] at hplan
    obtain ⟨hhere, hbelow, hothers⟩ := hplan
    have hbuilt := built_of_none hchildren
    obtain ⟨hid, hkids, -, -⟩ := IdContext.staged_answers hhere hbuilt hstage
    rw [stageIds, Stage.ids_eq, hid, hkids, ihs hbelow hchildren, ih hothers hrest, walkFrom_cons,
      List.flatMap_cons, List.flatMap_append]
    simp

/-- Every input is answered at its own position. -/
theorem buildFrom_answers {inputs : List StageInput}
    (hplan : ∀ x ∈ walkFrom path n inputs, ctx.PlannedAt x)
    (h : buildFrom ctx path n seen inputs = .ok (stages, seen')) (hx : x ∈ walkFrom path n inputs) :
    ∃ k below, x.1 = path ++ (n + k) :: below ∧ ctx.AnsweredAt stages (k :: below) x := by
  induction inputs using inputsInduction generalizing path n seen seen' stages with
  | nil => cases hx
  | cons i cs d rest ihs ih =>
    obtain ⟨seen₁, children, seen₂, stage, seen₃, stages, -, hchildren, hstage, hrest, rfl⟩ :=
      buildFrom_cons h
    rw [walkFrom_cons, List.forall_mem_cons, List.forall_mem_append] at hplan
    obtain ⟨hhere, hbelow, hothers⟩ := hplan
    have hbuilt := built_of_none hchildren
    obtain ⟨hid, -, hsame, hwhole⟩ := IdContext.staged_answers hhere hbuilt hstage
    rw [walkFrom_cons, List.mem_cons, List.mem_append] at hx
    obtain rfl | hx | hx := hx
    · exact ⟨0, [], rfl, stage, rfl, hid, hwhole⟩
    · obtain ⟨k, below, hpath, s, hs, hown⟩ := ihs hbelow hchildren hx
      have hsome : cs ≠ none := by
        rintro rfl
        cases hx
      refine ⟨0, k :: below, ?_, s, ?_, hown⟩
      · rw [hpath, List.append_assoc]
        simp
      · change stageAt stage.children (k :: below) = some s
        rw [hsame hsome, hs]
    · obtain ⟨k, below, hpath, s, hs, hown⟩ := ih hothers hrest hx
      refine ⟨k + 1, below, ?_, s, (stageAt_succ k below).trans hs, hown⟩
      rw [hpath, Nat.add_right_comm, Nat.add_assoc]

end Answers

section Identity

/-- Ids taken while `seen` grew to `seen'`: each is one of `existing`, taken once, or from `pool`. -/
structure Accounts (existing pool seen seen' ids : List UUID) : Prop where
  split : ∃ kept drawn, ids.Perm (kept ++ drawn) ∧ seen'.Perm (kept ++ seen) ∧ drawn.Sublist pool ∧
    ∀ i ∈ kept, i ∈ existing
  nodup : seen.Nodup → seen'.Nodup

variable {existing pool seen seen' ids : List UUID} {ctx : IdContext}

/-- Ids taken from a pool of new ones are distinct. -/
theorem Accounts.nodup_ids (h : Accounts existing pool [] seen' ids) (hpool : pool.Nodup)
    (hnew : ∀ i ∈ pool, i ∉ existing) : ids.Nodup := by
  obtain ⟨⟨kept, drawn, hids, hseen, hdrawn, hkept⟩, hn⟩ := h
  rw [hids.nodup_iff, List.nodup_append]
  refine ⟨?_, hdrawn.nodup hpool, ?_⟩
  · rw [List.append_nil] at hseen
    exact hseen.nodup_iff.mp (hn List.nodup_nil)
  · rintro i hi j hj rfl
    exact hnew i (hdrawn.subset hj) (hkept i hi)

theorem Accounts.mem (h : Accounts existing pool seen seen' ids) {i : UUID} (hi : i ∈ ids) :
    i ∈ existing ∨ i ∈ pool := by
  obtain ⟨⟨kept, drawn, hids, -, hdrawn, hkept⟩, -⟩ := h
  obtain hi | hi := List.mem_append.mp (hids.mem_iff.mp hi)
  · exact .inl (hkept i hi)
  · exact .inr (hdrawn.subset hi)

namespace IdContext
variable {x : InputPath × StageInput}

/-- The id that is drawn for an input. -/
def drawnIds (ctx : IdContext) (x : InputPath × StageInput) : List UUID :=
  if x.2.stageId = none then [ctx.fresh x.1] else []

theorem ownIds_perm (x : InputPath × StageInput) :
    (ctx.ownId x :: ctx.carriedIds x).Perm (ctx.claimedIds x ++ ctx.drawnIds x) := by
  unfold ownId claimedIds drawnIds
  cases x.2.stageId with
  | none => exact (List.perm_append_singleton _ _).symm
  | some i => simp

theorem drawnIds_sublist (xs : List (InputPath × StageInput)) :
    (xs.flatMap ctx.drawnIds).Sublist (xs.map fun x => ctx.fresh x.1) := by
  induction xs with
  | nil => exact .slnil
  | cons x rest ih =>
    rw [List.flatMap_cons, List.map_cons]
    unfold drawnIds
    split_ifs
    · exact ih.cons_cons _
    · exact ih.cons _

theorem mem_drawnIds {i : UUID} : i ∈ ctx.drawnIds x ↔ x.2.stageId = none ∧ i = ctx.fresh x.1 := by
  unfold drawnIds
  split_ifs with hx <;> simp [hx]

/-- What an input claims is the mission's where it does not name another stage. -/
theorem claimedIds_known (hknown : ChildrenKnown ctx) (hx : ¬ ctx.Unknown x) {i : UUID}
    (hi : i ∈ ctx.claimedIds x) : i ∈ ctx.existing := by
  obtain hi | hi := List.mem_append.mp hi
  · by_contra hn
    exact hx ⟨i, by simpa using hi, hn⟩
  · exact (carriedIds_known hknown x).2 i hi

end IdContext

/-- A request whose stages are built names no stage of another mission. -/
theorem not_unknown_of_build {path : InputPath} {n : Nat} {inputs : List StageInput}
    {stages : List Stage} (hknown : ChildrenKnown ctx)
    (hplan : ∀ x ∈ walkFrom path n inputs, ctx.PlannedAt x)
    (h : buildFrom ctx path n seen inputs = .ok (stages, seen')) {x : InputPath × StageInput}
    (hx : x ∈ walkFrom path n inputs) : ¬ ctx.Unknown x := fun hn =>
  ((buildFrom_claims hknown hplan).ok _ h).2.2 _ ⟨x, hx, .inl hn, rfl⟩

/-- Every stage of a request has an id that was named or carried once, or one drawn for its place. -/
theorem buildFrom_accounts (hknown : ChildrenKnown ctx) {path : InputPath} {n : Nat}
    {inputs : List StageInput} {stages : List Stage}
    (hplan : ∀ x ∈ walkFrom path n inputs, ctx.PlannedAt x)
    (h : buildFrom ctx path n seen inputs = .ok (stages, seen')) :
    Accounts ctx.existing ((walkFrom path n inputs).map fun x => ctx.fresh x.1) seen seen'
      (stageIds stages) := by
  obtain ⟨htaken, hnodup, -⟩ := (buildFrom_claims hknown hplan).ok _ h
  refine ⟨⟨_, _, ?_, htaken, IdContext.drawnIds_sublist _, ?_⟩, hnodup⟩
  · rw [buildFrom_stageIds hplan h]
    exact (List.Perm.flatMap_left _ fun x _ => IdContext.ownIds_perm x).trans
      (List.flatMap_append_perm _ _ _).symm
  · intro i hi
    obtain ⟨x, hx, hi⟩ := List.mem_flatMap.mp hi
    exact IdContext.claimedIds_known hknown (not_unknown_of_build hknown hplan h hx) hi

/-- The plans that answer a request are plans for its inputs. -/
theorem Settled.plannedAt {Fits : CoveragePlanningFields → CoverageStage → Prop}
    {x : InputPath × StageInput} (h : Settled ctx.stored Fits ctx.fresh ctx.planned x) :
    ctx.PlannedAt x := by
  obtain ⟨here, i, cs, d⟩ := x
  cases d with
  | navigation waypoints => trivial
  | coverage fields =>
    intro stage hl
    unfold Settled at h
    dsimp only at h
    rw [hl] at h
    split_ifs at h with hc
    exact ⟨h.1, fun hcarries => absurd hcarries hc⟩

end Identity

namespace IdContext
variable {ctx : IdContext} {tree stages : List Stage} {inputs : List StageInput}
  {xs : List (InputPath × StageInput)} {x : InputPath × StageInput}

/-- An id is met twice among the named ones and those of the children carried whole. -/
def Twice (ctx : IdContext) (inputs : List StageInput) (i : UUID) : Prop :=
  2 ≤ ((walkInputs inputs).flatMap ctx.claimedIds).count i

/-- The stages are an answer to the request: no id occurs twice, each input is answered at its
position, and what no input names was drawn for one or is a child carried whole under the stage an
input names. -/
structure Assigns (ctx : IdContext) (tree : List Stage) (inputs : List StageInput)
    (stages : List Stage) : Prop where
  distinct : (stageIds stages).Nodup
  answered : ∀ x ∈ walkInputs inputs, ctx.AnsweredAt stages x.1 x
  sources : ∀ i ∈ stageIds stages, ∃ x ∈ walkInputs inputs,
    x.2.stageId = some i ∨ x.2.stageId = none ∧ i = ctx.fresh x.1 ∨ i ∈ ctx.carriedIds x
  known : ∀ i ∈ stageIds stages, i ∈ stageIds tree ∨
    ∃ x ∈ walkInputs inputs, x.2.stageId = none ∧ i = ctx.fresh x.1

theorem Serves.childrenKnown (h : ctx.Serves tree inputs) : ChildrenKnown ctx := by
  intro i kept hk
  have hsub := children_of_storedCoverage (h.stored ▸ hk)
  exact ⟨hsub.nodup h.distinct, fun j hj => (h.existing j).mpr (hsub.subset hj)⟩

theorem assigns (h : ctx.Serves tree inputs) (hok : withIds ctx inputs = .ok stages) :
    ctx.Assigns tree inputs stages := by
  obtain ⟨seen, hbuild⟩ := withIds_eq_ok.mp hok
  have hknown := h.childrenKnown
  have hids := buildFrom_stageIds h.planned hbuild
  constructor
  · refine (buildFrom_accounts hknown h.planned hbuild).nodup_ids h.fresh fun i hi he => ?_
    obtain ⟨x, hx, rfl⟩ := List.mem_map.mp hi
    exact h.unused x hx ((h.existing _).mp he)
  · intro x hx
    obtain ⟨k, below, hpath, hanswer⟩ := buildFrom_answers h.planned hbuild hx
    rw [hpath, List.nil_append, Nat.zero_add]
    exact hanswer
  · intro i hi
    rw [hids] at hi
    obtain ⟨x, hx, hi⟩ := List.mem_flatMap.mp hi
    refine ⟨x, hx, ?_⟩
    obtain rfl | hi := List.mem_cons.mp hi
    · unfold ownId
      cases x.2.stageId <;> simp
    · exact .inr (.inr hi)
  · intro i hi
    rw [hids] at hi
    obtain ⟨x, hx, hi⟩ := List.mem_flatMap.mp hi
    obtain hi | hi := List.mem_append.mp ((ownIds_perm x).mem_iff.mp hi)
    · have hmission := not_unknown_of_build hknown h.planned hbuild hx
      exact .inl ((h.existing i).mp (claimedIds_known hknown hmission hi))
    · exact .inr ⟨x, hx, mem_drawnIds.mp hi⟩

end IdContext

theorem withIds_eq_error {ctx : IdContext} {inputs : List StageInput} {e : ServiceError} :
    withIds ctx inputs = .error e ↔ buildFrom ctx [] 0 [] inputs = .error e := by
  unfold withIds
  cases buildFrom ctx [] 0 [] inputs with
  | ok result => exact iff_of_false nofun nofun
  | error e' =>
    constructor
    · intro h
      obtain rfl := Except.error.inj h
      rfl
    · intro h
      obtain rfl := Except.error.inj h
      rfl

/-- What becomes of a request's identities: an answer to it, or an error, which is raised exactly if
an id is met twice among those named and carried or an input is not in the mission, and tells which
of the two it was. -/
theorem withIds_identities {ctx : IdContext} {tree : List Stage} {inputs : List StageInput}
    (h : ctx.Serves tree inputs) :
    (∀ stages, withIds ctx inputs = .ok stages → ctx.Assigns tree inputs stages) ∧
    ((∃ e, withIds ctx inputs = .error e) ↔ (∃ i, ctx.Twice inputs i) ∨
      ∃ x ∈ walkInputs inputs, ctx.Unknown x ∨ ctx.Unplanned x) ∧
    ∀ e, withIds ctx inputs = .error e → (∃ i, e = .duplicateStageId i ∧ ctx.Twice inputs i) ∨
      ctx.NotInMission (walkInputs inputs) e := by
  have hclaims : ctx.Identifies [] (walkInputs inputs) (buildFrom ctx [] 0 [] inputs) :=
    buildFrom_claims h.childrenKnown h.planned
  refine ⟨fun stages => IdContext.assigns h, ?_, fun e he => ?_⟩
  · simp only [withIds_eq_error]
    refine hclaims.fails_iff.trans (or_congr Iff.rfl ⟨?_, ?_⟩)
    · rintro ⟨e, x, hx, hmissing, -⟩
      exact ⟨x, hx, hmissing⟩
    · rintro ⟨x, hx, hmissing⟩
      exact ⟨_, x, hx, hmissing, rfl⟩
  · obtain ⟨i, hi, hcount⟩ | hmissing := hclaims.error e (withIds_eq_error.mp he)
    · rw [List.append_nil] at hcount
      exact .inl ⟨i, hi, hcount⟩
    · exact .inr hmissing

section Demo
open Definitions

/-- The id drawn for the stage planned at the demo's third input. -/
def demoDrawn (path : InputPath) : UUID :=
  BitVec.ofNat 128 (100 + path.foldl (fun k n => 10 * k + n + 1) 0)

/-- The mission of stage 12 and of stage 10 with its cleanup stage 11, and a route planned anew. -/
def demoIds : IdContext :=
  { existing := stageIds [demoDriven 12 none, demoCovered []], missionId := some 1
    stored := byStageId [demoDriven 12 none, demoCovered []]
    planned := ((demoCovered []).coverage?.map fun kept =>
      ([2], { kept with stageId := demoDrawn [2], onCancel := none })).toList
    fresh := demoDrawn }

/-- Stage 10 carried whole, stage 12 with a cleanup stage of its own, and a route over the field. -/
def demoNamed : List StageInput :=
  [.mk (some 10) none (.coverage {}),
    .mk (some 12) (some [.mk none none (.navigation [])]) (.navigation [.wgs84 52 8 none]),
    .mk none none (.coverage { fieldId := some 7 })]

theorem demoIds_serves : demoIds.Serves [demoDriven 12 none, demoCovered []] demoNamed where
  stored := rfl
  existing := fun _ => Iff.rfl
  distinct := by decide
  planned := by
    simp only [demoNamed, walkInputs, walkFrom_cons, walkFrom_nil, Option.getD_some,
      Option.getD_none, List.forall_mem_cons, List.nil_append, List.append_nil, List.cons_append]
    refine ⟨?_, trivial, trivial, ?_, by simp⟩
    all_goals
      intro stage hl
      cases hl
    exact ⟨rfl, fun _ _ => rfl⟩
  unused := by decide
  fresh := by decide

theorem withIds_identities_carried : ∃ stages, withIds demoIds demoNamed = .ok stages ∧
    demoIds.Assigns [demoDriven 12 none, demoCovered []] demoNamed stages := by
  have hrun : (withIds demoIds demoNamed).toOption.isSome := by decide
  obtain ⟨stages, hstages⟩ := exists_eq_ok hrun
  exact ⟨stages, hstages, (withIds_identities demoIds_serves).1 stages hstages⟩

end Demo

end Leitstand
