import Leitstand.PlannerCalls

namespace Leitstand
open TxM

section Asks

/-- What planning one input comes to: a question, or none where the stored stage is kept. -/
def PlanningRound.asks (round : PlanningRound) (stored : Table Stage.stageId) (item : PlanItem) :
    Except ServiceError (Option PlannerQuestion) := do
  let inputs ← CoverageInputs.fromFields item.fields
  let same ← round.keptUnchanged item inputs stored
  if same then return none
  let question ← plannerQuestion round.data round.settings (round.fresh item.path) inputs
  return some question

/-- The same under the lock, for an input that was not planned ahead of it. -/
def PlanningRound.asksUnderLock (round : PlanningRound) (stored : Table Stage.stageId)
    (missionId : UUID) (item : PlanItem) : Except ServiceError (Option PlannerQuestion) := do
  let _ ← orRaise (.stageNotInMission (some missionId) item.stageId)
    (item.stageId.bind (storedCoverage stored))
  round.asks stored item

/-- Taken in order, an item comes to a question, the stages of all before it being kept. -/
def ComesToAsk (ask : PlanItem → Except ServiceError (Option PlannerQuestion))
    (items : List PlanItem) : Prop :=
  ∃ kept item rest question, items = kept ++ item :: rest ∧ (∀ k ∈ kept, ask k = .ok none) ∧
    ask item = .ok (some question)

variable {ask : PlanItem → Except ServiceError (Option PlannerQuestion)} {item : PlanItem}
  {items : List PlanItem} {step : PlannedStages → PlanItem → Asking PlannedStages}
  {step' : PlannedStages → PlanItem → Except ServiceError PlannedStages}

theorem not_comesToAsk_nil : ¬ ComesToAsk ask [] := by
  rintro ⟨kept, item, rest, question, h, -⟩
  simp at h

theorem comesToAsk_cons : ComesToAsk ask (item :: items) ↔
    (∃ question, ask item = .ok (some question)) ∨ ask item = .ok none ∧ ComesToAsk ask items := by
  constructor
  · rintro ⟨kept, item', rest, question, h, hkept, hask⟩
    cases kept with
    | nil =>
      obtain ⟨rfl, rfl⟩ := List.cons.inj h
      exact .inl ⟨question, hask⟩
    | cons k kept =>
      obtain ⟨rfl, rfl⟩ := List.cons.inj h
      rw [List.forall_mem_cons] at hkept
      exact .inr ⟨hkept.1, kept, item', rest, question, rfl, hkept.2, hask⟩
  · rintro (⟨question, hask⟩ | ⟨hkept, kept, item', rest, question, rfl, hkept', hask⟩)
    · exact ⟨[], item, items, question, rfl, by simp, hask⟩
    · exact ⟨item :: kept, item', rest, question, rfl, List.forall_mem_cons.mpr ⟨hkept, hkept'⟩, hask⟩

/-- Where nothing is planned yet, a step asks what it comes to. -/
structure AsksBy (ask : PlanItem → Except ServiceError (Option PlannerQuestion))
    (step : PlannedStages → PlanItem → Asking PlannedStages)
    (step' : PlannedStages → PlanItem → Except ServiceError PlannedStages) : Prop where
  gives : ∀ planned item, Gives (step planned item) (step' planned item)
  refused : ∀ item e, ask item = .error e → Yields (step [] item) (.error e) []
  kept : ∀ item, ask item = .ok none → Yields (step [] item) (.ok []) []
  asked : ∀ item question, ask item = .ok (some question) →
    ∃ x questions, Yields (step [] item) x (question :: questions)

/-- A round over the items asks nothing unless one of them comes to be asked for, and then it plans
nothing: either every stage is kept or the round fails. -/
theorem AsksBy.foldlM (h : AsksBy ask step step') (items : List PlanItem) :
    ∃ x questions, Yields (items.foldlM step []) x questions ∧
      (questions = [] ↔ ¬ ComesToAsk ask items) ∧
      (questions = [] → x = .ok [] ∧ (∀ item ∈ items, ask item = .ok none) ∨
        (∃ e, x = .error e) ∧ ¬ ∀ item ∈ items, ask item = .ok none) := by
  induction items with
  | nil =>
    refine ⟨.ok [], [], .check (.ok []), iff_of_true rfl not_comesToAsk_nil, fun _ => .inl ⟨rfl, ?_⟩⟩
    simp
  | cons item rest ih =>
    simp only [List.foldlM_cons, comesToAsk_cons, List.forall_mem_cons]
    cases hask : ask item with
    | error e =>
      refine ⟨.error e, [], (h.refused item e hask).bind_error _, ?_, fun _ => .inr ⟨⟨e, rfl⟩, ?_⟩⟩
      · simp
      · simp
    | ok answer =>
      cases answer with
      | none =>
        obtain ⟨x, questions, hx, hnone, hplans⟩ := ih
        exact ⟨x, questions, (h.kept item hask).bind_ok hx, by simp [hnone], by simpa using hplans⟩
      | some question =>
        obtain ⟨x, questions, hx⟩ := h.asked item question hask
        cases x with
        | error e => exact ⟨.error e, _, hx.bind_error _, by simp, by simp⟩
        | ok planned =>
          obtain ⟨more, hrest⟩ := Gives.foldlM h.gives rest planned
          exact ⟨_, _, hx.bind_ok hrest, by simp, by simp⟩

end Asks

section Steps
variable {round : PlanningRound} {stored : Table Stage.stageId} {item : PlanItem}

/-- The planning of one input asks what it comes to. -/
theorem planIfChanged_asks : match round.asks stored item with
    | .error e => PlannerCalls.planIfChanged round item stored = check (.error e)
    | .ok none => PlannerCalls.planIfChanged round item stored = check (.ok none)
    | .ok (some question) => ∃ x,
      Yields (PlannerCalls.planIfChanged round item stored) x [question] := by
  unfold PlanningRound.asks PlannerCalls.planIfChanged
  cases CoverageInputs.fromFields item.fields with
  | error e => rfl
  | ok inputs =>
    simp only [ok_bind, check_ok_bind]
    cases round.keptUnchanged item inputs stored with
    | error e => rfl
    | ok same =>
      simp only [ok_bind, check_ok_bind]
      cases same with
      | true => rfl
      | false =>
        simp only [Bool.false_eq_true, if_false]
        unfold PlannerCalls.planCoverageStage
        cases plannerQuestion round.data round.settings (round.fresh item.path) inputs with
        | error e => rfl
        | ok question =>
          simp only [check_ok_bind]
          have hask : ∃ y, Yields (send question >>= fun _ =>
              check (round.planner item.path question.boundary question.params) >>= fun plan =>
                check (planCoverageStage round.data round.settings (fun _ _ => .ok plan)
                  (round.fresh item.path) (round.now item.path) inputs item.stageId) :
                Asking CoverageStage) y [question] := by
            cases round.planner item.path question.boundary question.params with
            | error e => exact ⟨_, (Yields.send question).bind_ok (.check (.error e))⟩
            | ok plan => exact ⟨_, (Yields.send question).bind_ok (.check _)⟩
          obtain ⟨y, hy⟩ := hask
          cases y with
          | error e => exact ⟨_, hy.bind_error _⟩
          | ok stage => exact ⟨_, hy.bind_ok (.check (.ok (some stage)))⟩

theorem planStep_asks : AsksBy (round.asks stored) (PlannerCalls.planStep round stored)
    (round.planStep stored) where
  gives := PlannerCalls.planStep_gives stored
  refused := by
    intro item e h
    have hplan := @planIfChanged_asks round stored item
    rw [h] at hplan
    unfold PlannerCalls.planStep
    rw [hplan]
    exact .check (.error e)
  kept := by
    intro item h
    have hplan := @planIfChanged_asks round stored item
    rw [h] at hplan
    unfold PlannerCalls.planStep
    rw [hplan]
    exact .check (.ok [])
  asked := by
    intro item question h
    have hplan := @planIfChanged_asks round stored item
    rw [h] at hplan
    obtain ⟨x, hx⟩ := hplan
    cases x with
    | error e => exact ⟨_, [], hx.bind_error _⟩
    | ok answer =>
      cases answer with
      | none => exact ⟨_, [], hx.bind_ok (.check (.ok []))⟩
      | some fresh => exact ⟨_, [], hx.bind_ok (.check (.ok [(item.path, fresh)]))⟩

theorem replanStep_asks {missionId : UUID} : AsksBy (round.asksUnderLock stored missionId)
    (PlannerCalls.replanStep round stored missionId) (round.replanStep stored missionId) where
  gives := PlannerCalls.replanStep_gives stored missionId
  refused := by
    intro item e h
    unfold PlanningRound.asksUnderLock at h
    change Yields (check _ >>= fun _ => PlannerCalls.planStep round stored [] item) _ _
    cases hk : item.stageId.bind (storedCoverage stored) with
    | none =>
      rw [hk] at h
      obtain rfl := Except.error.inj h
      exact .check (.error _)
    | some kept =>
      rw [hk] at h
      exact planStep_asks.refused item e h
  kept := by
    intro item h
    obtain ⟨kept, hk, h⟩ := bind_eq_ok.mp h
    change Yields (check _ >>= fun _ => PlannerCalls.planStep round stored [] item) _ _
    rw [hk]
    exact planStep_asks.kept item h
  asked := by
    intro item question h
    obtain ⟨kept, hk, h⟩ := bind_eq_ok.mp h
    change ∃ x questions,
      Yields (check _ >>= fun _ => PlannerCalls.planStep round stored [] item) x _
    rw [hk]
    exact planStep_asks.asked item question h

end Steps

section Refusal

/-- The ids of a stored mission, to check a request with these plans against. -/
def storedIds (tree : List Stage) (missionId : Option UUID) (fresh : InputPath → UUID)
    (planned : PlannedStages) : IdContext :=
  { existing := (byStageId tree).rows.map Stage.stageId, missionId, stored := byStageId tree, planned
    fresh }

/-- The request is refused for its ids against the stored mission, whatever is planned for it. -/
def RefusedForIds (tree : List Stage) (missionId : Option UUID) (fresh : InputPath → UUID)
    (inputs : List StageInput) : Prop :=
  ∀ planned, (∀ x ∈ walkInputs inputs,
    Settled (byStageId tree) (fun _ _ => True) fresh planned x) →
    ∃ e, withIds (storedIds tree missionId fresh planned) inputs = .error e

/-- The ids pass the check ahead of the planning. -/
def PassesCheck (tree : List Stage) (missionId : Option UUID) (inputs : List StageInput) : Prop :=
  PlanningRound.checkInputIds (byStageId tree) missionId [] ((walkInputs inputs).map (·.2)) = .ok ()

/-- What that check does not look for: a navigation input that names no stage of the mission, a
carried coverage input that names none at all, and an id met twice once the children that are
carried whole are counted. -/
def Overlooked (ctx : IdContext) (inputs : List StageInput) : Prop :=
  (∃ here i cs waypoints, (here, .mk (some i) cs (.navigation waypoints)) ∈ walkInputs inputs ∧
    i ∉ ctx.existing) ∨
  (∃ here cs fields, (here, .mk none cs (.coverage fields)) ∈ walkInputs inputs ∧
    fields.carries = true) ∨
  ∃ i, ctx.Twice inputs i

variable {tree : List Stage} {missionId : Option UUID} {fresh : InputPath → UUID}
  {inputs : List StageInput} {planned : PlannedStages} {x : InputPath × StageInput}

theorem mem_storedIds {i : UUID} :
    i ∈ (storedIds tree missionId fresh planned).existing ↔ i ∈ stageIds tree := by
  rw [← byStageId_isSome, Option.isSome_iff_exists]
  change i ∈ (byStageId tree).rows.map Stage.stageId ↔ _
  simp only [List.mem_map, Table.find?_eq_some_iff]

theorem storedIds_childrenKnown (hn : (stageIds tree).Nodup) :
    ChildrenKnown (storedIds tree missionId fresh planned) := by
  intro i kept hk
  have hsub := children_of_storedCoverage hk
  exact ⟨hsub.nodup hn, fun j hj => mem_storedIds.mpr (hsub.subset hj)⟩

/-- A named coverage input that passes names a stored coverage stage. -/
theorem storedCoverage_of_check {stored : Table Stage.stageId} {seen : List UUID}
    {xs : List StageInput} {u : Unit}
    (h : PlanningRound.checkInputIds stored missionId seen xs = .ok u) {i : UUID}
    {cs : Option (List StageInput)} {fields : CoveragePlanningFields}
    (hx : .mk (some i) cs (.coverage fields) ∈ xs) : (storedCoverage stored i).isSome := by
  induction xs generalizing seen with
  | nil => cases hx
  | cons x rest ih =>
    obtain ⟨_ | j, cs', d⟩ := x
    · obtain hx | hx := List.mem_cons.mp hx
      · cases hx
      · exact ih h hx
    · obtain ⟨u₁, -, h⟩ := bind_eq_ok.mp h
      cases d with
      | navigation waypoints =>
        obtain hx | hx := List.mem_cons.mp hx
        · cases hx
        · exact ih h hx
      | coverage fields' =>
        obtain ⟨u₂, hstored, h⟩ := bind_eq_ok.mp h
        obtain hx | hx := List.mem_cons.mp hx
        · cases hx
          simpa [Option.isSome_iff_ne_none] using raiseIf_eq_ok.mp hstored
        · exact ih h hx

/-- Every request has plans that settle it. -/
theorem exists_settled (stored : Table Stage.stageId) (fresh : InputPath → UUID)
    (inputs : List StageInput) :
    ∃ planned, ∀ x ∈ walkInputs inputs, Settled stored (fun _ _ => True) fresh planned x := by
  obtain ⟨blank, -⟩ : ∃ blank, (demoCovered []).coverage? = some blank := ⟨_, rfl⟩
  refine ⟨(coverageInputsToPlan inputs).map fun item =>
    (item.path, { blank with stageId := item.stageId.getD (fresh item.path) }), ?_⟩
  refine settled_of_done (fun entry he => ?_) fun item hi => .inl ?_
  · obtain ⟨item, hi, rfl⟩ := List.mem_map.mp he
    exact ⟨item, hi, rfl, rfl, trivial⟩
  · exact List.lookup_isSome_iff.mpr ⟨_, List.mem_map_of_mem hi, beq_self_eq_true _⟩

section Checked
variable (hs : ∀ x ∈ walkInputs inputs, Settled (byStageId tree) (fun _ _ => True) fresh planned x)
include hs

/-- Plans for the request leave what is carried as it is without them. -/
theorem carriedIds_of_settled (hx : x ∈ walkInputs inputs) :
    (storedIds tree missionId fresh planned).carriedIds x =
      (storedIds tree missionId fresh []).carriedIds x := by
  obtain ⟨here, i, cs, d⟩ := x
  unfold IdContext.carriedIds
  congr 1
  cases d with
  | navigation waypoints => cases i <;> cases cs <;> rfl
  | coverage fields =>
    cases i with
    | none => cases cs <;> rfl
    | some i =>
      cases cs with
      | some cs => rfl
      | none =>
        have hsettled := hs _ hx
        unfold Settled at hsettled
        unfold IdContext.carriedWhole
        by_cases hc : fields.carries = true
        · simp only [hc, if_true] at hsettled
          simp [storedIds, hsettled]
        · simp [hc]

theorem twice_of_settled {i : UUID} : (storedIds tree missionId fresh planned).Twice inputs i ↔
    (storedIds tree missionId fresh []).Twice inputs i := by
  have hids : (walkInputs inputs).flatMap (storedIds tree missionId fresh planned).claimedIds =
      (walkInputs inputs).flatMap (storedIds tree missionId fresh []).claimedIds := by
    refine List.flatMap_congr fun x hx => ?_
    unfold IdContext.claimedIds
    rw [carriedIds_of_settled hs hx]
  unfold IdContext.Twice
  rw [hids]

/-- Once a request has passed the check, what is not in the mission is a stage to drive or an input
that carries a stage it does not name. -/
theorem missing_iff_of_check (hcheck : PassesCheck tree missionId inputs) :
    (∃ x ∈ walkInputs inputs, (storedIds tree missionId fresh planned).Unknown x ∨
      (storedIds tree missionId fresh planned).Unplanned x) ↔
    (∃ here i cs waypoints, (here, .mk (some i) cs (.navigation waypoints)) ∈ walkInputs inputs ∧
      i ∉ stageIds tree) ∨
    ∃ here cs fields, (here, .mk none cs (.coverage fields)) ∈ walkInputs inputs ∧
      fields.carries = true := by
  have hnamed : ∀ {here i cs fields}, (here, .mk (some i) cs (.coverage fields)) ∈ walkInputs inputs →
      (storedCoverage (byStageId tree) i).isSome := fun hx =>
    storedCoverage_of_check hcheck (List.mem_map_of_mem (f := (·.2)) hx)
  constructor
  · rintro ⟨⟨here, i, cs, d⟩, hx, hmissing⟩
    cases d with
    | navigation waypoints =>
      obtain ⟨j, hj, hn⟩ := hmissing.resolve_right id
      obtain rfl : i = some j := hj
      exact .inl ⟨here, j, cs, waypoints, hx, fun h => hn (mem_storedIds.mpr h)⟩
    | coverage fields =>
      cases i with
      | some i =>
        have hstored := hnamed hx
        obtain ⟨j, hj, hn⟩ | ⟨-, hn⟩ := hmissing
        · obtain rfl : i = j := Option.some.inj hj
          obtain ⟨kept, hk⟩ := Option.isSome_iff_exists.mp hstored
          obtain ⟨s, hs', -⟩ := Option.bind_eq_some_iff.mp hk
          refine absurd (mem_storedIds.mpr (byStageId_isSome.mp ?_)) hn
          rw [hs']
          rfl
        · change storedCoverage (byStageId tree) i = none at hn
          rw [hn] at hstored
          cases hstored
      | none =>
        refine .inr ⟨here, cs, fields, hx, ?_⟩
        by_contra hc
        have hsettled := hs _ hx
        unfold Settled at hsettled
        simp only [hc] at hsettled
        obtain ⟨j, hj, -⟩ | ⟨hl, -⟩ := hmissing
        · cases hj
        · change planned.lookup here = none at hl
          rw [hl] at hsettled
          obtain ⟨j, kept, hj, -⟩ := hsettled
          cases hj
  · rintro (⟨here, i, cs, waypoints, hx, hn⟩ | ⟨here, cs, fields, hx, hc⟩)
    · exact ⟨_, hx, .inl ⟨i, rfl, fun h => hn (mem_storedIds.mp h)⟩⟩
    · refine ⟨_, hx, .inr ⟨?_, rfl⟩⟩
      have hsettled := hs _ hx
      unfold Settled at hsettled
      simp only [hc, if_true] at hsettled
      exact hsettled

end Checked

/-- A request that passes the check is refused for its ids exactly for what the check overlooks. -/
theorem refusedForIds_iff (hn : (stageIds tree).Nodup) (hcheck : PassesCheck tree missionId inputs) :
    RefusedForIds tree missionId fresh inputs ↔
      Overlooked (storedIds tree missionId fresh []) inputs := by
  have hone : ∀ planned, (∀ x ∈ walkInputs inputs,
      Settled (byStageId tree) (fun _ _ => True) fresh planned x) →
      ((∃ e, withIds (storedIds tree missionId fresh planned) inputs = .error e) ↔
        Overlooked (storedIds tree missionId fresh []) inputs) := by
    intro planned hs
    have hclaims : (storedIds tree missionId fresh planned).Identifies [] (walkInputs inputs)
        (buildFrom (storedIds tree missionId fresh planned) [] 0 [] inputs) :=
      buildFrom_claims (storedIds_childrenKnown hn) fun x hx => (hs x hx).plannedAt
    simp only [withIds_eq_error]
    rw [hclaims.fails_iff]
    have hmissing := missing_iff_of_check hs hcheck
    have htwice : (∃ i, (storedIds tree missionId fresh planned).Twice inputs i) ↔
        ∃ i, (storedIds tree missionId fresh []).Twice inputs i :=
      exists_congr fun i => twice_of_settled hs
    refine (or_congr htwice (Iff.trans ⟨?_, ?_⟩ hmissing)).trans ?_
    · rintro ⟨e, x, hx, hmiss, -⟩
      exact ⟨x, hx, hmiss⟩
    · rintro ⟨x, hx, hmiss⟩
      exact ⟨_, x, hx, hmiss, rfl⟩
    · unfold Overlooked
      simp only [mem_storedIds]
      exact or_comm.trans or_assoc
  obtain ⟨planned, hs⟩ := exists_settled (byStageId tree) fresh inputs
  exact ⟨fun h => (hone planned hs).mp (h planned hs), fun h planned' hs' => (hone planned' hs').mpr h⟩

/-- So is a request that names a stage the mission does not have, whether it passes or not. -/
theorem refusedForIds_of_unknown {i : UUID} (hn : (stageIds tree).Nodup) (hx : x ∈ walkInputs inputs)
    (hid : x.2.stageId = some i) (hi : i ∉ stageIds tree) :
    RefusedForIds tree missionId fresh inputs := by
  intro planned hs
  have hclaims : (storedIds tree missionId fresh planned).Identifies [] (walkInputs inputs)
      (buildFrom (storedIds tree missionId fresh planned) [] 0 [] inputs) :=
    buildFrom_claims (storedIds_childrenKnown hn) fun x hx => (hs x hx).plannedAt
  simp only [withIds_eq_error]
  rw [hclaims.fails_iff]
  exact .inr ⟨_, x, hx, .inl ⟨i, hid, fun h => hi (mem_storedIds.mp h)⟩, rfl⟩

end Refusal

section Asked
variable {round round' : PlanningRound} {now : Datetime} {inputs : List StageInput}

theorem Asking.asked_of_yields {β : Type} {m : Asking β} {x : Except ServiceError β}
    {questions : List PlannerQuestion} (h : Yields m x questions) : m.asked = questions := by
  unfold asked
  rw [h]
  rfl

theorem Asking.asked_bind {β γ : Type} {m : Asking β} {f : β → Asking γ}
    (hf : ∀ b, Silent (f b)) : (m >>= f).asked = m.asked := by
  unfold asked
  rw [exec_bind]
  rcases m.exec { store := () } with ⟨e | b, tx⟩
  · rfl
  · exact hf b tx

theorem Asking.silent_check {β : Type} (x : Except ServiceError β) : Silent (check x : Asking β) :=
  Silent.composes.check x

/-- The planning ahead asks where the ids pass the check and an input comes to be asked for, and
otherwise it plans nothing: every stage is kept or it fails. -/
theorem planInputs_asked (stored : Table Stage.stageId) (missionId : Option UUID) :
    ∃ x questions, Yields (PlannerCalls.planInputs round inputs stored missionId) x questions ∧
      (questions = [] ↔ ¬ (PlanningRound.checkInputIds stored missionId []
          ((walkInputs inputs).map (·.2)) = .ok () ∧
        ComesToAsk (round.asks stored) (coverageInputsToPlan inputs))) ∧
      (questions = [] →
        x = .ok [] ∧ (PlanningRound.checkInputIds stored missionId []
            ((walkInputs inputs).map (·.2)) = .ok () ∧
          ∀ item ∈ coverageInputsToPlan inputs, round.asks stored item = .ok none) ∨
        (∃ e, x = .error e) ∧ ¬ (PlanningRound.checkInputIds stored missionId []
            ((walkInputs inputs).map (·.2)) = .ok () ∧
          ∀ item ∈ coverageInputsToPlan inputs, round.asks stored item = .ok none)) := by
  unfold PlannerCalls.planInputs
  cases PlanningRound.checkInputIds stored missionId [] ((walkInputs inputs).map (·.2)) with
  | error e => exact ⟨.error e, [], .check (.error e), by simp, by simp⟩
  | ok u =>
    obtain ⟨x, questions, hx, hnone, hplans⟩ :=
      (@planStep_asks round stored).foldlM (coverageInputsToPlan inputs)
    exact ⟨x, questions, hx, by simp [hnone], by simpa using hplans⟩

theorem create_asked (d : Definitions) (missionId : UUID) (command : CreateMissionCommand) :
    (PlannerCalls.create round d now missionId command).asked = [] ↔
      ¬ (PassesCheck [] none command.stages ∧
        ComesToAsk (round.asks .empty) (coverageInputsToPlan command.stages)) := by
  obtain ⟨x, questions, hx, hnone, -⟩ :=
    @planInputs_asked round command.stages .empty none
  unfold PlannerCalls.create
  rw [Asking.asked_bind, Asking.asked_of_yields hx]
  · exact hnone
  · intro planned
    refine Silent.composes.bind (Asking.silent_check _) fun stages => ?_
    exact Silent.composes.bind (Asking.silent_check _) fun _ => Asking.silent_check _

/-- After a planning ahead that kept every stage, the request asks under the lock where an input
comes to be asked for there. -/
theorem updatedStages_asked (d : Definitions) (before : MissionDefinition) :
    (PlannerCalls.updatedStages round d before [] (some inputs)).asked = [] ↔
      ¬ ComesToAsk (round.asksUnderLock (byStageId before.stages) before.missionId)
        (coverageInputsToPlan inputs) := by
  obtain ⟨x, questions, hx, hnone, -⟩ := (@replanStep_asks round
    (byStageId before.stages) before.missionId).foldlM (coverageInputsToPlan inputs)
  unfold PlannerCalls.updatedStages
  rw [Asking.asked_bind]
  · unfold PlannerCalls.replanChangedMeanwhile
    rw [Asking.asked_of_yields hx]
    exact hnone
  · intro planned
    refine Silent.composes.bind (Asking.silent_check _) fun stages => ?_
    exact Silent.composes.bind (Asking.silent_check _) fun _ => Silent.composes.pure _

/-- The planner comes to be asked for an update: ahead of the lock, or, every stage having been kept
there, under the lock for a stage that was edited meanwhile. -/
def UpdateComesToAsk (round round' : PlanningRound) (unlocked : MissionDefinition)
    (locked : Definitions) (missionId : UUID) (inputs : List StageInput) : Prop :=
  ComesToAsk (round.asks (byStageId unlocked.stages)) (coverageInputsToPlan inputs) ∨
  (∀ item ∈ coverageInputsToPlan inputs,
      round.asks (byStageId unlocked.stages) item = .ok none) ∧
    ∃ before, MissionEditing.requireOpen locked missionId = .ok before ∧
      ComesToAsk (round'.asksUnderLock (byStageId before.stages) before.missionId)
        (coverageInputsToPlan inputs)

theorem update_asked {d : Definitions} {command : UpdateMissionCommand}
    (hcmd : command.stages = some inputs) :
    (PlannerCalls.update round d now command []).asked = [] ↔
      ¬ ∃ before, MissionEditing.requireOpen d command.missionId = .ok before ∧
        ComesToAsk (round.asksUnderLock (byStageId before.stages) before.missionId)
          (coverageInputsToPlan inputs) := by
  unfold PlannerCalls.update
  rw [hcmd]
  cases MissionEditing.requireOpen d command.missionId with
  | error e => exact iff_of_true rfl (by simp)
  | ok before =>
    rw [check_ok_bind, Asking.asked_bind fun _ => Silent.composes.pure _, updatedStages_asked]
    simp

theorem updateRequest_asked {first locked : Definitions} {command : UpdateMissionCommand}
    {unlocked : MissionDefinition} (hcmd : command.stages = some inputs)
    (hopen : MissionEditing.requireOpen first command.missionId = .ok unlocked) :
    (PlannerCalls.updateRequest round round' first locked now command).asked = [] ↔
      ¬ (PassesCheck unlocked.stages (some command.missionId) inputs ∧
        UpdateComesToAsk round round' unlocked locked command.missionId inputs) := by
  have hplan : PlannerCalls.updatePlan round first command = PlannerCalls.planInputs round inputs
      (byStageId unlocked.stages) (some command.missionId) := by
    unfold PlannerCalls.updatePlan
    rw [hcmd]
    dsimp only
    rw [hopen, check_ok_bind]
  obtain ⟨x, questions, hx, hnone, hplans⟩ := @planInputs_asked round inputs
    (byStageId unlocked.stages) (some command.missionId)
  unfold PlannerCalls.updateRequest
  rw [hplan]
  cases questions with
  | cons question questions =>
    have hasked := not_not.mp (mt hnone.mpr (List.cons_ne_nil question questions))
    refine iff_of_false ?_ (not_not.mpr ⟨hasked.1, .inl hasked.2⟩)
    cases x with
    | error e =>
      rw [Asking.asked_of_yields (hx.bind_error _)]
      exact List.cons_ne_nil _ _
    | ok planned =>
      obtain ⟨more, hmore⟩ := @PlannerCalls.update_gives round' locked now command planned
      rw [Asking.asked_of_yields (hx.bind_ok hmore)]
      exact List.cons_ne_nil _ _
  | nil =>
    obtain ⟨rfl, hpasses, hkept⟩ | ⟨⟨e, rfl⟩, hfails⟩ := hplans rfl
    · obtain ⟨more, hmore⟩ := @PlannerCalls.update_gives round' locked now command []
      have hsame : (PlannerCalls.planInputs round inputs (byStageId unlocked.stages)
          (some command.missionId) >>= PlannerCalls.update round' locked now command).asked =
          (PlannerCalls.update round' locked now command []).asked := by
        rw [Asking.asked_of_yields (hx.bind_ok hmore), Asking.asked_of_yields hmore]
        rfl
      rw [hsame, update_asked hcmd]
      refine not_congr ⟨fun hlocked => ⟨hpasses, .inr ⟨hkept, hlocked⟩⟩, ?_⟩
      rintro ⟨-, hasks | ⟨-, hlocked⟩⟩
      · exact absurd ⟨hpasses, hasks⟩ (hnone.mp rfl)
      · exact hlocked
    · rw [Asking.asked_of_yields (hx.bind_error _)]
      refine iff_of_true rfl ?_
      rintro ⟨hpasses, hasks | ⟨hall, -⟩⟩
      · exact hnone.mp rfl ⟨hpasses, hasks⟩
      · exact hfails ⟨hpasses, hall⟩

/-- A request refused for its ids asks the planner nothing, unless what it is refused for is nothing
that the check ahead of the planning looks for and an input comes to be asked for. `unlocked` is the
mission as it was stored when the planning began. -/
theorem refused_asks_nothing_iff (round round' : PlanningRound) (first locked : Definitions)
    (now : Datetime) :
    (∀ (missionId : UUID) (command : CreateMissionCommand),
      (RefusedForIds [] none round.fresh command.stages →
        (PlannerCalls.create round first now missionId command).asked = []) ↔
      ¬ (PassesCheck [] none command.stages ∧
        Overlooked (storedIds [] none round.fresh []) command.stages ∧
        ComesToAsk (round.asks .empty) (coverageInputsToPlan command.stages))) ∧
    ∀ (command : UpdateMissionCommand) (inputs : List StageInput) (unlocked : MissionDefinition),
      command.stages = some inputs →
      MissionEditing.requireOpen first command.missionId = .ok unlocked →
      (stageIds unlocked.stages).Nodup →
      ((RefusedForIds unlocked.stages (some command.missionId) round.fresh inputs →
        (PlannerCalls.updateRequest round round' first locked now command).asked = []) ↔
      ¬ (PassesCheck unlocked.stages (some command.missionId) inputs ∧
        Overlooked (storedIds unlocked.stages (some command.missionId) round.fresh []) inputs ∧
        UpdateComesToAsk round round' unlocked locked command.missionId inputs)) := by
  constructor
  · intro missionId command
    rw [create_asked]
    have hrefused := @refusedForIds_iff [] none round.fresh command.stages List.nodup_nil
    tauto
  · intro command inputs unlocked hcmd hopen hn
    rw [updateRequest_asked hcmd hopen]
    have hrefused := @refusedForIds_iff unlocked.stages (some command.missionId) round.fresh inputs hn
    tauto

end Asked

section Demo
open Definitions

/-- A stage to drive that names an id no mission has, and a route to plan. -/
def demoStray : CreateMissionCommand :=
  { name := "stray", description := none
    stages := [.mk (some 99) none (.navigation [.wgs84 52 8 none]), .mk none none (.coverage
      { fieldId := some 7, operationWidthM := some 3, turningRadiusM := some 2 })] }

/-- An update to a route to plan and a covered stage carried. -/
def demoStrayUpdate (carried : UUID) : UpdateMissionCommand :=
  { missionId := 1, name := none, description := none
    stages := some [.mk none none (.coverage
        { fieldId := some 7, operationWidthM := some 3, turningRadiusM := some 2 }),
      .mk (some carried) none (.coverage {})] }

/-- The route is asked for where the stage carried is the mission's, and not where it is stray. -/
theorem refused_asks_nothing_iff_stray :
    (PlannerCalls.updateRequest demoRound demoRound demoUnlocked demoUnlocked 0
      (demoStrayUpdate 10)).asked.length = 1 ∧
    (PlannerCalls.updateRequest demoRound demoRound demoUnlocked demoUnlocked 0
      (demoStrayUpdate 99)).asked = [] := by
  refine ⟨by decide +kernel, ?_⟩
  have hrun : ((MissionEditing.requireOpen demoUnlocked 1).toOption.map fun unlocked =>
      stageIds unlocked.stages) = some [10, 11] := by
    decide +kernel
  obtain ⟨unlocked, hopen, hids⟩ := Option.map_eq_some_iff.mp hrun
  have hopen' : MissionEditing.requireOpen demoUnlocked 1 = .ok unlocked := by
    cases h : MissionEditing.requireOpen demoUnlocked 1 with
    | error e =>
      rw [h] at hopen
      cases hopen
    | ok mission =>
      rw [h] at hopen
      exact congrArg Except.ok (Option.some.inj hopen)
  have hnodup : (stageIds unlocked.stages).Nodup := by
    rw [hids]
    decide
  have hstray : (99 : UUID) ∉ stageIds unlocked.stages := by
    rw [hids]
    decide
  have hasks := (refused_asks_nothing_iff demoRound demoRound demoUnlocked demoUnlocked 0).2
    (demoStrayUpdate 99) _ unlocked rfl hopen' hnodup
  have hcarried : (([1], .mk (some 99) none (.coverage {})) : InputPath × StageInput) ∈
      walkInputs ((demoStrayUpdate 99).stages.getD []) := List.mem_cons_of_mem _ List.mem_cons_self
  refine hasks.mpr ?_ (refusedForIds_of_unknown hnodup hcarried rfl hstray)
  rintro ⟨hpasses, -⟩
  have hstored := storedCoverage_of_check hpasses (List.mem_map_of_mem (f := (·.2)) hcarried)
  obtain ⟨kept, hk⟩ := Option.isSome_iff_exists.mp hstored
  obtain ⟨stage, hfound, -⟩ := Option.bind_eq_some_iff.mp hk
  exact hstray (byStageId_isSome.mp (Option.isSome_iff_exists.mpr ⟨stage, hfound⟩))

/-- The stray id is refused, but not before the route has been planned. -/
theorem planner_asked_ahead_of_refusal :
    RefusedForIds [] none demoRound.fresh demoStray.stages ∧
      (PlannerCalls.create demoRound demoBare 0 9 demoStray).asked.length = 1 := by
  have hpasses : PassesCheck [] none demoStray.stages := rfl
  have hbare : (stageIds []).Nodup := List.nodup_nil
  refine ⟨(refusedForIds_iff hbare hpasses).mpr (.inl ?_), by decide +kernel⟩
  exact ⟨[0], 99, none, _, List.mem_cons_self, by decide⟩

end Demo

end Leitstand
