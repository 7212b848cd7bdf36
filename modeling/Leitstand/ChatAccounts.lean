import Leitstand.ChatOutcomes
import Leitstand.ToolCallGate
import Leitstand.UuidText

namespace Leitstand

/-- Where the row of a decided call stands, given the first outcome that was recorded of it. -/
def ToolCall.StandsAt (call : ToolCall) : ApprovalVerdict → Option ToolOutcome → Prop
  | .denied _, _ => call.status = .denied
  | .approved, none => call.status = .approved
  | .approved, some outcome =>
    call.status = outcome.status ∧ call.result = outcome.result ∧ call.error = outcome.error

namespace ToolOutcome

@[simp] theorem status_ne_open (outcome : ToolOutcome) : outcome.status ≠ .awaitingApproval := by
  unfold status
  split_ifs <;> simp

@[simp] theorem status_ne_approved (outcome : ToolOutcome) : outcome.status ≠ .approved := by
  unfold status
  split_ifs <;> simp

end ToolOutcome

/-- A row fresh from its decision. -/
theorem ToolCall.standsAt_verdict {call : ToolCall} {decision : OperatorDecision}
    (h : call.status = if decision.approved then .approved else .denied) :
    call.StandsAt (ChatTurn.verdict decision) none := by
  unfold ChatTurn.verdict
  split_ifs at h ⊢ with happroved
  · exact h
  · split <;> exact h

namespace ToolCall.StandsAt
variable {call : ToolCall} {verdict : ApprovalVerdict} {outcome : Option ToolOutcome}

theorem not_open (h : call.StandsAt verdict outcome) : call.status ≠ .awaitingApproval := by
  cases verdict with
  | denied message =>
    have hs : call.status = .denied := h
    simp [hs]
  | approved =>
    cases outcome with
    | none =>
      have hs : call.status = .approved := h
      simp [hs]
    | some outcome =>
      have hs : call.status = outcome.status := h.1
      simp [hs]

theorem approved_iff (h : call.StandsAt .approved outcome) :
    call.status = .approved ↔ outcome = none := by
  cases outcome with
  | none => exact ⟨fun _ => rfl, fun _ => h⟩
  | some outcome =>
    have hs : call.status = outcome.status := h.1
    simp [hs]

end ToolCall.StandsAt

namespace Turn
open ChatTurn ChatWire

def verdictOf (turn : Turn) (callId : String) : Option ApprovalVerdict :=
  (turn.settled.approvals.find? callId).map (·.2)

def rowOf (turn : Turn) (callId : String) : Option UUID := settledRowId turn.settled callId

/-- The first outcome that was recorded of the call. -/
def outcomeOf (turn : Turn) (callId : String) : Option ToolOutcome :=
  (turn.outcomes.find? fun entry => entry.1 = callId).map (·.2)

/-- The row that was settled for a user's call stands as its turn left it. -/
structure Backed (store : ToolCallStore) (userId callId : String) (verdict : ApprovalVerdict)
    (outcome : Option ToolOutcome) (id : UUID) (call : ToolCall) : Prop where
  stored : store.calls.find? id = some call
  user : call.userId = userId
  provider : call.providerToolCallId = callId
  stands : call.StandsAt verdict outcome

/-- What holds of a turn and of the rows behind it. -/
structure Sound (store : ToolCallStore) (turn : Turn) : Prop where
  backed : ∀ callId verdict, turn.verdictOf callId = some verdict →
    ∃ id call, turn.rowOf callId = some id ∧
      Backed store turn.userId callId verdict (turn.outcomeOf callId) id call
  known : ∀ callId id, turn.rowOf callId = some id → ∃ verdict, turn.verdictOf callId = some verdict
  nodup : (turn.decisions.map (·.providerToolCallId)).Nodup
  fresh : ∀ decision ∈ turn.decisions, turn.verdictOf decision.providerToolCallId = none
  target : ∀ id, turn.target = some id → ∃ decision rest call, turn.decisions = decision :: rest ∧
    store.calls.find? id = some call ∧ (decisionKey turn.userId decision).matchesCall call
  idle : turn.phase = .settling → turn.outcomes = []
  ended : turn.phase = .ended → turn.warned = turn.finish.warned

theorem verdictOf_eq_some_iff {turn : Turn} {callId : String} {verdict : ApprovalVerdict} :
    turn.verdictOf callId = some verdict ↔ (callId, verdict) ∈ turn.settled.approvals.rows := by
  unfold verdictOf
  constructor
  · intro h
    obtain ⟨⟨callId', verdict'⟩, hf, hv⟩ := Option.map_eq_some_iff.mp h
    have hid : callId' = callId := Table.key_of_find? hf
    have hverdict : verdict' = verdict := hv
    rw [← hid, ← hverdict]
    exact Table.mem_of_find? hf
  · intro h
    have hf : turn.settled.approvals.find? callId = some (callId, verdict) := Table.find?_of_mem h
    rw [hf]
    rfl

theorem mem_approved {turn : Turn} {callId : String} :
    callId ∈ turn.approved ↔ turn.verdictOf callId = some .approved := by
  rw [verdictOf_eq_some_iff]
  unfold approved
  simp [List.mem_filterMap]

theorem outcomeOf_eq_none_iff {turn : Turn} {callId : String} :
    turn.outcomeOf callId = none ↔ callId ∉ turn.recorded := by
  unfold outcomeOf recorded
  rw [Option.map_eq_none_iff, List.find?_eq_none, List.mem_map]
  constructor
  · rintro h ⟨entry, he, hid⟩
    exact h entry he (decide_eq_true hid)
  · intro h entry he hid
    exact h ⟨entry, he, of_decide_eq_true hid⟩

theorem mem_unaccounted {turn : Turn} {callId : String} : callId ∈ turn.unaccounted ↔
    turn.verdictOf callId = some .approved ∧ turn.outcomeOf callId = none := by
  unfold unaccounted
  rw [List.mem_insertionSort, List.mem_filter, mem_approved, outcomeOf_eq_none_iff, decide_eq_true_iff]

/-- The calls the warning at the end names. -/
theorem mem_warned_finish {turn : Turn} {callId : String} :
    (∃ names, turn.finish.warned = some names ∧ callId ∈ names) ↔ callId ∈ turn.unaccounted := by
  unfold finish
  dsimp only
  split_ifs with h
  · simp [h]
  · simp

theorem outcomeOf_record {turn : Turn} {callId callId' : String} {outcome : ToolOutcome} :
    outcomeOf { turn with outcomes := turn.outcomes ++ [(callId, outcome)] } callId' =
      (turn.outcomeOf callId').or (if callId = callId' then some outcome else none) := by
  unfold outcomeOf
  dsimp only
  rw [List.find?_append]
  cases turn.outcomes.find? fun entry => entry.1 = callId' with
  | some entry => rfl
  | none =>
    by_cases h : callId = callId'
    · simp [h]
    · simp [h]

section SettleOne
variable {userId : String} {settled : DeferredToolResults} {decision : OperatorDecision} {id : UUID}

theorem find?_settleOne_approvals (callId : String) :
    ((settleOne userId settled (decision, some id)).approvals.find? callId).map (·.2) =
      if callId = decision.providerToolCallId then some (verdict decision)
      else (settled.approvals.find? callId).map (·.2) := by
  unfold settleOne
  dsimp only
  rw [Table.find?_upsert_true]
  by_cases h : callId = decision.providerToolCallId
  · rw [if_pos h, if_pos h]
    rfl
  · rw [if_neg h, if_neg h]

theorem str_ne_empty (id : UUID) : id.str ≠ "" := by
  intro h
  have hparse := UUID.parse_str id
  have hempty : UUID.parse "" = none := by decide
  rw [h, hempty] at hparse
  cases hparse

theorem settledRowId_settleOne (callId : String) :
    settledRowId (settleOne userId settled (decision, some id)) callId =
      if callId = decision.providerToolCallId then some id else settledRowId settled callId := by
  unfold settledRowId settleOne
  dsimp only
  rw [Table.find?_upsert_true]
  by_cases h : callId = decision.providerToolCallId
  · rw [if_pos h, if_pos h, Option.bind_eq_bind, Option.bind_some, if_neg (str_ne_empty id),
      UUID.parse_str]
  · rw [if_neg h, if_neg h]

end SettleOne

end Turn

namespace ToolCalls
open ToolCallApproval

/-- A decision is recorded of an open call only, and moves no other row. -/
theorem settleDecision_cases (now : Datetime) (target : UUID) (decidedBy : String) (approved : Bool)
    (store : ToolCallStore) :
    settleDecision now target decidedBy approved store = (none, store) ∨
    ∃ call, store.calls.find? target = some call ∧ call.status = .awaitingApproval ∧
      (settleDecision now target decidedBy approved store).1 = some target ∧
      ∀ id, (settleDecision now target decidedBy approved store).2.calls.find? id =
        if id = target then some
          { call with
            status := if approved then .approved else .denied, decidedBy := some decidedBy,
            decidedAt := some now }
        else store.calls.find? id := by
  unfold settleDecision settleToolCall
  cases hf : store.calls.find? target with
  | none => exact .inl rfl
  | some call =>
    have hid : call.id = target := Table.key_of_find? hf
    dsimp only
    by_cases hs : call.status = .awaitingApproval
    · rw [if_neg (not_not.mpr hs)]
      refine .inr ⟨call, rfl, hs, rfl, fun id => ?_⟩
      refine Table.find?_replace_of_find? ?_ hf id
      exact hid
    · rw [if_pos hs]
      exact .inl rfl

/-- An outcome is recorded of an approved call only, and moves no other row. -/
theorem find?_recordToolCallOutcome {id : UUID} {store : ToolCallStore} {call : ToolCall}
    (hf : store.calls.find? id = some call) (succeeded : Bool) (result : Option Dict)
    (error : Option String) (id' : UUID) :
    (recordToolCallOutcome id succeeded result error store).2.calls.find? id' =
      if id' = id ∧ call.status = .approved then
        some { call with status := if succeeded then .succeeded else .failed, result, error }
      else store.calls.find? id' := by
  have hid : call.id = id := Table.key_of_find? hf
  unfold recordToolCallOutcome
  rw [hf]
  dsimp only
  by_cases hs : call.status = .approved
  · rw [if_neg (not_not.mpr hs)]
    simp only [hs, and_true]
    refine Table.find?_replace_of_find? ?_ hf id'
    exact hid
  · rw [if_pos hs, if_neg (fun h => hs h.2)]

theorem find?_addToolCall {id : UUID} {store : ToolCallStore} {call : ToolCall}
    (hf : store.calls.find? id = some call) (proposal : ToolCall) :
    ((addToolCall proposal store).getD store).calls.find? id = some call := by
  unfold addToolCall
  split
  · exact hf
  · rename_i habsent
    rw [Option.getD_some, Table.find?_insert, if_neg, hf]
    rintro rfl
    rw [hf] at habsent
    cases habsent

end ToolCalls

namespace Turn
open ChatTurn Approvals
variable {store store' : ToolCallStore} {turn : Turn} {callId : String} {id : UUID}

/-- A store that keeps the proposals, and what the turn decided, backs the turn as well. -/
theorem Sound.mono (h : turn.Sound store) (hk : Kept store.calls store'.calls)
    (hrows : ∀ callId id call, turn.rowOf callId = some id → store.calls.find? id = some call →
      call.status ≠ .awaitingApproval → store'.calls.find? id = some call) : turn.Sound store' where
  backed callId verdict hv := by
    obtain ⟨id, call, hid, hb⟩ := h.backed callId verdict hv
    have hf := hrows callId id call hid hb.stored hb.stands.not_open
    exact ⟨id, call, hid, hf, hb.user, hb.provider, hb.stands⟩
  known := h.known
  nodup := h.nodup
  fresh := h.fresh
  target id hid := by
    obtain ⟨decision, rest, call, hd, hf, hm⟩ := h.target id hid
    obtain ⟨call', hf', hm'⟩ := hk.matched ⟨call, hf, hm⟩
    exact ⟨decision, rest, call', hd, hf', hm'⟩
  idle := h.idle
  ended := h.ended

theorem Sound.row (h : turn.Sound store) (hid : turn.rowOf callId = some id) :
    ∃ verdict call, turn.verdictOf callId = some verdict ∧
      Backed store turn.userId callId verdict (turn.outcomeOf callId) id call := by
  obtain ⟨verdict, hv⟩ := h.known callId id hid
  obtain ⟨id', call, hid', hb⟩ := h.backed callId verdict hv
  obtain rfl := Option.some.inj (hid.symm.trans hid')
  exact ⟨verdict, call, hv, hb⟩

theorem Sound.settled_row (h : turn.Sound store) (hid : turn.rowOf callId = some id) :
    ∃ call, store.calls.find? id = some call ∧ call.status ≠ .awaitingApproval := by
  obtain ⟨verdict, call, -, hb⟩ := h.row hid
  exact ⟨call, hb.stored, hb.stands.not_open⟩

/-- A new turn has settled nothing. -/
theorem sound_new {userId : String} {decisions : List OperatorDecision}
    (h : (decisions.map (·.providerToolCallId)).Nodup) : Turn.Sound store { userId, decisions } where
  backed _ _ hv := by cases hv
  known _ _ hid := by cases hid
  nodup := h
  fresh _ _ := rfl
  target _ hid := by cases hid
  idle _ := rfl
  ended h := by cases h

section Decision
variable {decision : OperatorDecision} {rest : List OperatorDecision}

theorem Sound.tail (h : turn.Sound store) (hd : turn.decisions = decision :: rest) :
    Turn.Sound store { turn with decisions := rest, target := none } where
  backed := h.backed
  known := h.known
  nodup := by
    have hnodup := h.nodup
    rw [hd, List.map_cons, List.nodup_cons] at hnodup
    exact hnodup.2
  fresh other hother := h.fresh other (hd ▸ List.mem_cons_of_mem decision hother)
  target _ hid := by cases hid
  idle := h.idle
  ended := h.ended

/-- A settled decision: its call gets the row that was its target, which stands decided. -/
theorem Sound.settle (h : turn.Sound store) (hphase : turn.phase = .settling)
    (hd : turn.decisions = decision :: rest) {call : ToolCall} (hf : store.calls.find? id = some call)
    (huser : call.userId = turn.userId) (hprovider : call.providerToolCallId = decision.providerToolCallId)
    (hstands : call.StandsAt (verdict decision) none) :
    Turn.Sound store { turn with
      decisions := rest
      target := none
      settled := settleOne turn.userId turn.settled (decision, some id) } where
  backed callId v hv := by
    unfold verdictOf at hv
    rw [find?_settleOne_approvals] at hv
    unfold rowOf
    rw [settledRowId_settleOne]
    split_ifs at hv ⊢ with hcall
    · obtain rfl := Option.some.inj hv
      refine ⟨id, call, rfl, hf, huser, hprovider.trans hcall.symm, ?_⟩
      unfold outcomeOf
      rw [h.idle hphase]
      exact hstands
    · obtain ⟨id', call', hid', hb⟩ := h.backed callId v hv
      exact ⟨id', call', hid', hb.stored, hb.user, hb.provider, hb.stands⟩
  known callId id' hid' := by
    unfold rowOf at hid'
    rw [settledRowId_settleOne] at hid'
    unfold verdictOf
    rw [find?_settleOne_approvals]
    split_ifs at hid' ⊢ with hcall
    · exact ⟨verdict decision, rfl⟩
    · exact h.known callId id' hid'
  nodup := (h.tail hd).nodup
  fresh other hother := by
    have hnodup := h.nodup
    rw [hd, List.map_cons, List.nodup_cons] at hnodup
    unfold verdictOf
    rw [find?_settleOne_approvals, if_neg]
    · exact h.fresh other (hd ▸ List.mem_cons_of_mem decision hother)
    · intro hcall
      exact hnodup.1 (hcall ▸ List.mem_map_of_mem hother)
  target _ hid := by cases hid
  idle := h.idle
  ended hended := by
    rw [hphase] at hended
    cases hended

end Decision

/-- What a recorded outcome makes of the row of its call. -/
theorem Backed.record {userId : String} {verdict : ApprovalVerdict} {before : Option ToolOutcome}
    {call : ToolCall} (hb : Backed store userId callId verdict before id call) (outcome : ToolOutcome) :
    ∃ call', Backed (ToolCalls.recordToolCallOutcome id outcome.succeeded outcome.result outcome.error
      store).2 userId callId verdict (before.or (some outcome)) id call' := by
  have hf := ToolCalls.find?_recordToolCallOutcome hb.stored outcome.succeeded outcome.result
    outcome.error id
  by_cases hs : call.status = .approved
  · rw [if_pos ⟨rfl, hs⟩] at hf
    refine ⟨_, hf, hb.user, hb.provider, ?_⟩
    cases verdict with
    | denied message =>
      have hdenied : call.status = .denied := hb.stands
      rw [hs] at hdenied
      cases hdenied
    | approved =>
      rw [hb.stands.approved_iff.mp hs]
      exact ⟨rfl, rfl, rfl⟩
  · rw [if_neg (fun h => hs h.2)] at hf
    refine ⟨call, hf.trans hb.stored, hb.user, hb.provider, ?_⟩
    cases verdict with
    | denied message => exact hb.stands
    | approved =>
      cases before with
      | none => exact absurd (hb.stands.approved_iff.mpr rfl) hs
      | some first => exact hb.stands

theorem recordable_row {settled : DeferredToolResults} {part : ResultPart} {outcome : ToolOutcome}
    (h : recordable settled part = some (id, outcome)) :
    settledRowId settled part.toolCallId = some id ∧ part.outcome? = some outcome := by
  unfold recordable at h
  obtain ⟨id', hid, h⟩ := Option.bind_eq_some_iff.mp h
  obtain ⟨outcome', houtcome, h⟩ := Option.bind_eq_some_iff.mp h
  cases h
  exact ⟨hid, houtcome⟩

theorem Sound.record (h : turn.Sound store) (hphase : turn.phase = .running) {part : ResultPart}
    {outcome : ToolOutcome} (hrecordable : recordable turn.settled part = some (id, outcome))
    (hone : ∀ callId, turn.rowOf callId = some id → callId = part.toolCallId) :
    Turn.Sound (ToolCalls.recordToolCallOutcome id outcome.succeeded outcome.result outcome.error store).2
      { turn with outcomes := turn.outcomes ++ [(part.toolCallId, outcome)] } where
  backed callId v hv := by
    obtain ⟨id', call, hid', hb⟩ := h.backed callId v hv
    rw [outcomeOf_record]
    by_cases hcall : part.toolCallId = callId
    · have hid : turn.rowOf part.toolCallId = some id := (recordable_row hrecordable).1
      rw [hcall, hid'] at hid
      obtain rfl := Option.some.inj hid
      rw [if_pos hcall]
      obtain ⟨call', hb'⟩ := hb.record outcome
      exact ⟨id', call', hid', hb'⟩
    · have hrow : turn.rowOf part.toolCallId = some id := (recordable_row hrecordable).1
      have hne : id' ≠ id := by
        rintro rfl
        exact hcall (hone callId hid').symm
      obtain ⟨old, hold, -⟩ := h.settled_row hrow
      have hf := ToolCalls.find?_recordToolCallOutcome hold outcome.succeeded outcome.result
        outcome.error id'
      rw [if_neg (fun h => hne h.1)] at hf
      rw [if_neg hcall, Option.or_none]
      exact ⟨id', call, hid', hf.trans hb.stored, hb.user, hb.provider, hb.stands⟩
  known := h.known
  nodup := h.nodup
  fresh := h.fresh
  target id' hid' := by
    obtain ⟨decision, rest, call, hd, hf, hm⟩ := h.target id' hid'
    have hk := (recordToolCallOutcome_step id outcome.succeeded outcome.result outcome.error store).kept
    obtain ⟨call', hf', hm'⟩ := hk.matched ⟨call, hf, hm⟩
    exact ⟨decision, rest, call', hd, hf', hm'⟩
  idle hidle := by
    rw [hphase] at hidle
    cases hidle
  ended hended := by
    rw [hphase] at hended
    cases hended

end Turn

namespace ChatSystem
open ChatTurn ChatWire ToolCalls ToolCallApproval
variable {s s' : ChatSystem} {a : ChatAction}

/-- What a step of turn `t` makes of the rows and of the turn. -/
inductive TurnMove (before : ToolCallStore) (t : Nat) (turn : Turn) :
    ChatAction → ToolCallStore → Turn → Prop
  | passed {decision : OperatorDecision} {rest : List OperatorDecision}
      (phase : turn.phase = .settling) (target : turn.target = none)
      (decisions : turn.decisions = decision :: rest) :
      TurnMove before t turn (.readDecision t) before { turn with decisions := rest }
  | read {decision : OperatorDecision} {rest : List OperatorDecision} {id : UUID}
      (phase : turn.phase = .settling) (target : turn.target = none)
      (decisions : turn.decisions = decision :: rest)
      (found : decisionTarget (decisionKey turn.userId decision) before = some id) :
      TurnMove before t turn (.readDecision t) before { turn with target := some id }
  | settled {decision : OperatorDecision} {rest : List OperatorDecision} {id : UUID} {now : Datetime}
      {answer : Option UUID} {store : ToolCallStore} (phase : turn.phase = .settling)
      (target : turn.target = some id) (decisions : turn.decisions = decision :: rest)
      (settles : ToolCallApproval.settleDecision now id turn.userId decision.approved before = (answer, store)) :
      TurnMove before t turn (.settleDecision t now) store { turn with
        decisions := rest
        target := none
        settled := settleOne turn.userId turn.settled (decision, answer) }
  | begun (phase : turn.phase = .settling) (decisions : turn.decisions = []) :
      TurnMove before t turn (.run t) before { turn with phase := .running }
  | recorded {part : ResultPart} {id : UUID} {outcome : ToolOutcome} (phase : turn.phase = .running)
      (recordable : recordable turn.settled part = some (id, outcome)) :
      TurnMove before t turn (.event t part true)
        (recordToolCallOutcome id outcome.succeeded outcome.result outcome.error before).2
        { turn with outcomes := turn.outcomes ++ [(part.toolCallId, outcome)] }
  | passedOn {part : ResultPart} {stored : Bool} (phase : turn.phase = .running)
      (unrecordable : stored = true → recordable turn.settled part = none) :
      TurnMove before t turn (.event t part stored) before turn
  | ended (phase : turn.phase = .running) :
      TurnMove before t turn (.finish t) before turn.finish
  | abandoned (phase : turn.phase = .settling) :
      TurnMove before t turn (.abandon t) before { turn with phase := .abandoned }

/-- What a step does. -/
inductive Moves (s : ChatSystem) : ChatAction → ChatSystem → Prop
  | propose {userId : String} {id : UUID} {now : Datetime} {providerToolCallId toolName : String}
      {arguments : Option Dict} {model promptVersion : Option String} :
      Moves s (.propose userId id now providerToolCallId toolName arguments model promptVersion)
        { s with store := (addToolCall (pendingToolCall userId id now providerToolCallId toolName
          arguments model promptVersion) s.store).getD s.store }
  | request {userId : String} {received : List UIMessage}
      (unrepeated : rejectRepeatedToolCallIds (withoutAttachments received) = .ok ()) :
      Moves s (.request userId received) { s with turns := s.turns ++
        [{ userId, decisions := approvalResponses (withoutAttachments received) }] }
  | turn {t : Nat} {turn turn' : Turn} {a : ChatAction} {store : ToolCallStore}
      (found : s.turns[t]? = some turn) (move : TurnMove s.store t turn a store turn') :
      Moves s a ({ s with store }.setTurn t turn')

theorem setTurn_self {t : Nat} {turn : Turn} (h : s.turns[t]? = some turn) : s.setTurn t turn = s := by
  obtain ⟨hlt, rfl⟩ := List.getElem?_eq_some_iff.mp h
  unfold setTurn
  rw [List.set_getElem_self hlt]

theorem Moves.passedOn {t : Nat} {turn : Turn} {part : ResultPart} {stored : Bool}
    (ht : s.turns[t]? = some turn) (phase : turn.phase = .running)
    (unrecordable : stored = true → recordable turn.settled part = none) :
    Moves s (.event t part stored) s := by
  have hmove : Moves s (.event t part stored) (s.setTurn t turn) :=
    .turn ht (.passedOn phase unrecordable)
  rwa [setTurn_self ht] at hmove

theorem step_cases (h : s.step a = some s') : Moves s a s' := by
  cases a with
  | propose userId id now providerToolCallId toolName arguments model promptVersion =>
    cases h
    exact .propose
  | request userId received =>
    simp only [step, request] at h
    split at h
    · cases h
    · rename_i unrepeated
      cases h
      exact .request unrepeated
  | readDecision t =>
    obtain ⟨turn, ht, h⟩ := Option.bind_eq_some_iff.mp h
    split at h
    · rename_i decision rest phase target decisions
      split at h
      · cases h
        exact .turn ht (.passed phase target decisions)
      · rename_i found
        cases h
        exact .turn ht (.read phase target decisions found)
    · cases h
  | settleDecision t now =>
    obtain ⟨turn, ht, h⟩ := Option.bind_eq_some_iff.mp h
    split at h
    · rename_i phase target decisions
      cases h
      exact .turn ht (.settled phase target decisions rfl)
    · cases h
  | run t =>
    obtain ⟨turn, ht, h⟩ := Option.bind_eq_some_iff.mp h
    split_ifs at h with hphase
    cases h
    exact .turn ht (.begun hphase.1 hphase.2)
  | event t part stored =>
    obtain ⟨turn, ht, h⟩ := Option.bind_eq_some_iff.mp h
    split_ifs at h with hphase
    have phase := not_not.mp hphase
    cases hrecordable : recordable turn.settled part with
    | none =>
      rw [hrecordable] at h
      cases h
      exact .passedOn ht phase fun _ => hrecordable
    | some entry =>
      rw [hrecordable] at h
      cases stored with
      | true =>
        cases h
        exact .turn ht (.recorded phase hrecordable)
      | false =>
        cases h
        exact .passedOn ht phase (nomatch ·)
  | finish t =>
    obtain ⟨turn, ht, h⟩ := Option.bind_eq_some_iff.mp h
    split_ifs at h with hphase
    cases h
    exact .turn ht (.ended hphase)
  | abandon t =>
    obtain ⟨turn, ht, h⟩ := Option.bind_eq_some_iff.mp h
    split_ifs at h with hphase
    cases h
    exact .turn ht (.abandoned hphase)

end ChatSystem

/-- Every turn is sound, and no row was settled for two calls. -/
structure ChatSystem.Accounted (s : ChatSystem) : Prop where
  sound : ∀ t : Nat, ∀ turn : Turn, s.turns[t]? = some turn → turn.Sound s.store
  distinct : ∀ t t' : Nat, ∀ turn turn' : Turn, ∀ callId callId' id, s.turns[t]? = some turn →
    s.turns[t']? = some turn' → turn.rowOf callId = some id → turn'.rowOf callId' = some id →
    t = t' ∧ callId = callId'

namespace ChatSystem.Accounted
open ChatTurn ChatWire Approvals ToolCalls ToolCallApproval
variable {s s' : ChatSystem} {t : Nat} {turn turn' : Turn} {store : ToolCallStore}

theorem getElem?_setTurn (h : s.turns[t]? = some turn) (t' : Nat) :
    (s.setTurn t turn').turns[t']? = if t' = t then some turn' else s.turns[t']? := by
  have hlt := (List.getElem?_eq_some_iff.mp h).1
  unfold setTurn
  dsimp only
  rw [List.getElem?_set]
  split_ifs with h₁ h₂ h₂
  · rfl
  · exact absurd h₁.symm h₂
  · exact absurd h₂.symm h₁
  · rfl

/-- What a step of one turn has to keep. -/
theorem set (h : s.Accounted) (ht : s.turns[t]? = some turn)
    (hk : Kept s.store.calls store.calls)
    (hrows : ∀ t' other callId id call, t' ≠ t → s.turns[t']? = some other →
      other.rowOf callId = some id → s.store.calls.find? id = some call →
      call.status ≠ .awaitingApproval → store.calls.find? id = some call)
    (hsound : turn'.Sound store)
    (howned : ∀ callId id, turn'.rowOf callId = some id → turn.rowOf callId = some id ∨
      (∃ call, s.store.calls.find? id = some call ∧ call.status = .awaitingApproval) ∧
        ∀ callId', turn'.rowOf callId' = some id → callId' = callId) :
    ({ s with store }.setTurn t turn').Accounted := by
  have hlookup : ∀ t', ({ s with store }.setTurn t turn').turns[t']? =
      if t' = t then some turn' else s.turns[t']? := getElem?_setTurn (s := { s with store }) ht
  -- A row that was open is no other turn's.
  have hother : ∀ t' other callId callId' id, t' ≠ t → s.turns[t']? = some other →
      turn'.rowOf callId = some id → other.rowOf callId' ≠ some id := by
    intro t' other callId callId' id hne hother hid hid'
    obtain hold | ⟨⟨call, hf, hopen⟩, -⟩ := howned callId id hid
    · exact hne (h.distinct t t' turn other callId callId' id ht hother hold hid').1.symm
    · obtain ⟨call', hf', hclosed⟩ := (h.sound t' other hother).settled_row hid'
      obtain rfl := Option.some.inj (hf.symm.trans hf')
      exact hclosed hopen
  constructor
  · intro t' other hget
    rw [hlookup] at hget
    split_ifs at hget with he
    · obtain rfl := Option.some.inj hget
      exact hsound
    · exact (h.sound t' other hget).mono hk fun callId id call =>
        hrows t' other callId id call he hget
  · intro t₁ t₂ turn₁ turn₂ callId₁ callId₂ id h₁ h₂ hid₁ hid₂
    rw [hlookup] at h₁ h₂
    split_ifs at h₁ h₂ with he₁ he₂ he₂
    · obtain rfl := Option.some.inj h₁
      obtain rfl := Option.some.inj h₂
      refine ⟨he₁.trans he₂.symm, ?_⟩
      obtain hold₁ | ⟨-, honly⟩ := howned callId₁ id hid₁
      · obtain hold₂ | ⟨-, honly⟩ := howned callId₂ id hid₂
        · exact (h.distinct t t turn turn callId₁ callId₂ id ht ht hold₁ hold₂).2
        · exact honly callId₁ hid₁
      · exact (honly callId₂ hid₂).symm
    · obtain rfl := Option.some.inj h₁
      exact absurd hid₂ (hother t₂ turn₂ callId₁ callId₂ id he₂ h₂ hid₁)
    · obtain rfl := Option.some.inj h₂
      exact absurd hid₁ (hother t₁ turn₁ callId₂ callId₁ id he₁ h₁ hid₂)
    · exact h.distinct t₁ t₂ turn₁ turn₂ callId₁ callId₂ id h₁ h₂ hid₁ hid₂

/-- A step that leaves the rows and the turn's settled calls alone. -/
theorem set_same (h : s.Accounted) (ht : s.turns[t]? = some turn) (hsound : turn'.Sound s.store)
    (hsettled : turn'.settled = turn.settled) : (s.setTurn t turn').Accounted := by
  refine h.set ht (fun _ call hf => ⟨call, hf, .refl call, fun hs => hs⟩)
    (fun _ _ _ _ _ _ _ _ hf _ => hf) hsound fun callId id hid => .inl ?_
  unfold Turn.rowOf at hid ⊢
  rw [← hsettled]
  exact hid

section Steps
variable {a : ChatAction} {userId : String} {received : List UIMessage}

theorem propose (h : s.Accounted) (call : ToolCall) (hopen : call.status = .awaitingApproval) :
    ({ s with store := (addToolCall call s.store).getD s.store } : ChatSystem).Accounted where
  sound t turn ht := (h.sound t turn ht).mono (addToolCall_step hopen s.store).kept
    fun _ _ _ _ hf _ => find?_addToolCall hf call
  distinct := h.distinct

theorem request (h : s.Accounted)
    (hunrepeated : rejectRepeatedToolCallIds (withoutAttachments received) = .ok ()) :
    ChatSystem.Accounted { s with turns := s.turns ++
      [{ userId, decisions := approvalResponses (withoutAttachments received) }] } := by
  have hnodup := decisions_nodup hunrepeated
  -- A new turn has no row yet.
  have hold : ∀ t : Nat, ∀ turn : Turn, ∀ callId id, (s.turns ++ [({
      userId := userId, decisions := approvalResponses (withoutAttachments received) } : Turn)])[t]? =
      some turn → turn.rowOf callId = some id → s.turns[t]? = some turn := by
    intro t turn callId id ht hid
    rw [List.getElem?_append] at ht
    split_ifs at ht with hlt
    · exact ht
    · obtain rfl := List.mem_singleton.mp (List.mem_of_getElem? ht)
      cases hid
  constructor
  · intro t turn ht
    rw [List.getElem?_append] at ht
    split_ifs at ht with hlt
    · exact h.sound t turn ht
    · obtain rfl := List.mem_singleton.mp (List.mem_of_getElem? ht)
      exact Turn.sound_new hnodup
  · intro t₁ t₂ turn₁ turn₂ callId₁ callId₂ id h₁ h₂ hid₁ hid₂
    exact h.distinct t₁ t₂ turn₁ turn₂ callId₁ callId₂ id (hold t₁ turn₁ callId₁ id h₁ hid₁)
      (hold t₂ turn₂ callId₂ id h₂ hid₂) hid₁ hid₂

/-- A settled decision leaves its row to its own call. -/
theorem settled (h : s.Accounted) (ht : s.turns[t]? = some turn) {now : Datetime} {decision : OperatorDecision}
    {rest : List OperatorDecision} {target : UUID} {answer : Option UUID}
    (hphase : turn.phase = .settling) (htarget : turn.target = some target)
    (hd : turn.decisions = decision :: rest)
    (hsettled : ToolCallApproval.settleDecision now target turn.userId decision.approved s.store = (answer, store)) :
    ({ s with store }.setTurn t { turn with
      decisions := rest
      target := none
      settled := settleOne turn.userId turn.settled (decision, answer) }).Accounted := by
  have hsound := h.sound t turn ht
  have hk : Kept s.store.calls
      (ToolCallApproval.settleDecision now target turn.userId decision.approved s.store).2.calls :=
    (settleToolCall_step now target turn.userId decision.approved s.store).kept
  have hmoves := settleDecision_cases now target turn.userId decision.approved s.store
  rw [hsettled] at hk hmoves
  obtain heq | ⟨call, hf, hopen, hanswer, hfind⟩ := hmoves
  · cases heq
    exact h.set_same ht (hsound.tail hd) rfl
  · cases hanswer
    obtain ⟨decision', rest', call', hd', hf', hm⟩ := hsound.target target htarget
    obtain ⟨rfl, rfl⟩ := List.cons.inj (hd.symm.trans hd')
    obtain rfl := Option.some.inj (hf.symm.trans hf')
    obtain ⟨huser, hprovider, -, -⟩ := DecisionKey.matchesCall_iff.mp hm
    -- A decided row is not the one that this decision moves.
    have hrows : ∀ id other, s.store.calls.find? id = some other →
        other.status ≠ .awaitingApproval → store.calls.find? id = some other := by
      intro id other hother hclosed
      rw [hfind, if_neg, hother]
      rintro rfl
      obtain rfl := Option.some.inj (hf.symm.trans hother)
      exact hclosed hopen
    have hmoved := hfind target
    rw [if_pos rfl] at hmoved
    refine h.set ht hk (fun _ _ _ id other _ _ _ => hrows id other) ?_ ?_
    · have hkept := hsound.mono hk fun _ id other _ => hrows id other
      exact hkept.settle hphase hd hmoved huser hprovider (ToolCall.standsAt_verdict rfl)
    · intro callId id hid
      unfold Turn.rowOf at hid ⊢
      rw [Turn.settledRowId_settleOne] at hid
      split_ifs at hid with hcall
      · obtain rfl := Option.some.inj hid
        refine .inr ⟨⟨call, hf, hopen⟩, fun callId' hid' => ?_⟩
        rw [Turn.settledRowId_settleOne] at hid'
        split_ifs at hid' with hcall'
        · exact hcall'.trans hcall.symm
        · obtain ⟨other, hother, hclosed⟩ := hsound.settled_row hid'
          obtain rfl := Option.some.inj (hf.symm.trans hother)
          exact absurd hopen hclosed
      · exact .inl hid

theorem recorded (h : s.Accounted) (ht : s.turns[t]? = some turn) {part : ResultPart} {id : UUID}
    {outcome : ToolOutcome} (hphase : turn.phase = .running)
    (hrecordable : recordable turn.settled part = some (id, outcome)) :
    ({ s with store := (recordToolCallOutcome id outcome.succeeded outcome.result outcome.error
      s.store).2 }.setTurn t
      { turn with outcomes := turn.outcomes ++ [(part.toolCallId, outcome)] }).Accounted := by
  have hsound := h.sound t turn ht
  have hrow : turn.rowOf part.toolCallId = some id := (Turn.recordable_row hrecordable).1
  obtain ⟨row, hf, -⟩ := hsound.settled_row hrow
  have hk := (recordToolCallOutcome_step id outcome.succeeded outcome.result outcome.error
    s.store).kept
  refine h.set ht hk ?_ (hsound.record hphase hrecordable ?_) fun _ _ hid => .inl hid
  · -- The row is this turn's, so no other turn's row moves.
    intro t' other callId id' call hne hother hid' hcall _
    rw [find?_recordToolCallOutcome hf, if_neg, hcall]
    rintro ⟨rfl, -⟩
    exact hne (h.distinct t' t other turn callId part.toolCallId id' hother ht hid' hrow).1
  · intro callId hid
    exact (h.distinct t t turn turn callId part.toolCallId id ht ht hid hrow).2

theorem move (h : s.Accounted) (ht : s.turns[t]? = some turn)
    (hm : TurnMove s.store t turn a store turn') : ({ s with store }.setTurn t turn').Accounted := by
  have hsound := h.sound t turn ht
  cases hm with
  | passed phase target decisions =>
    have hrest := hsound.tail decisions
    rw [← target] at hrest
    exact h.set_same ht hrest rfl
  | read phase target decisions found =>
    obtain ⟨call, rfl, hnew, -⟩ := decisionTarget_some found
    refine h.set_same ht { hsound with target := ?_ } rfl
    intro id hid
    obtain rfl := Option.some.inj hid
    exact ⟨_, _, call, decisions, hnew.stored, hnew.matched⟩
  | settled phase target decisions settles => exact h.settled ht phase target decisions settles
  | begun phase decisions =>
    exact h.set_same ht { hsound with idle := (nomatch ·), ended := (nomatch ·) } rfl
  | recorded phase recordable => exact h.recorded ht phase recordable
  | passedOn phase unrecordable => exact h.set_same ht hsound rfl
  | ended phase => exact h.set_same ht { hsound with idle := (nomatch ·), ended := fun _ => rfl } rfl
  | abandoned phase =>
    exact h.set_same ht { hsound with idle := (nomatch ·), ended := (nomatch ·) } rfl

theorem step (h : s.Accounted) (hs : s.step a = some s') : s'.Accounted := by
  cases step_cases hs with
  | propose => exact h.propose _ rfl
  | request unrepeated => exact h.request unrepeated
  | turn found move => exact h.move found move

end Steps

theorem initial (h : s.turns = []) : s.Accounted where
  sound t turn ht := by
    rw [h] at ht
    cases ht
  distinct t _ turn _ _ _ _ ht := by
    rw [h] at ht
    cases ht

end ChatSystem.Accounted
end Leitstand
