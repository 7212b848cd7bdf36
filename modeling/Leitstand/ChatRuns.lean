import Leitstand.ChatAccounts

namespace Leitstand

/-- The result of an event of turn `t` whose recording went through. -/
def ChatAction.storedResult? (t : Nat) : ChatAction → Option ResultPart
  | .event t' part stored => if t' = t ∧ stored = true then some part else none
  | _ => none

theorem ChatAction.storedResult?_stored (t : Nat) (part : ResultPart) :
    (ChatAction.event t part true).storedResult? t = some part := if_pos ⟨rfl, rfl⟩

theorem ChatAction.storedResult?_lost (t : Nat) (part : ResultPart) :
    (ChatAction.event t part false).storedResult? t = none := if_neg fun h => nomatch h.2

def storedResults (t : Nat) (acts : List ChatAction) : List ResultPart :=
  acts.filterMap fun a => a.storedResult? t

/-- The first of the results that is an outcome of the call. -/
def firstOutcome (callId : String) (results : List ResultPart) : Option ToolOutcome :=
  results.findSome? fun part => if part.toolCallId = callId then part.outcome? else none

namespace ChatTurn

/-- What a turn notes of a stored result. -/
def noted (settled : DeferredToolResults) (part : ResultPart) : Option (String × ToolOutcome) :=
  (recordable settled part).map fun entry => (part.toolCallId, entry.2)

theorem noted_of_row {settled : DeferredToolResults} {part : ResultPart} {id : UUID}
    (h : settledRowId settled part.toolCallId = some id) :
    noted settled part = part.outcome?.map fun outcome => (part.toolCallId, outcome) := by
  unfold noted recordable
  rw [h]
  cases part.outcome? <;> rfl

theorem noted_call {settled : DeferredToolResults} {part : ResultPart} {entry : String × ToolOutcome}
    (h : noted settled part = some entry) : entry.1 = part.toolCallId := by
  obtain ⟨_, -, rfl⟩ := Option.map_eq_some_iff.mp h
  rfl

/-- The first outcome a turn noted of a call that it settled is the first among the results. -/
theorem find?_noted {settled : DeferredToolResults} {callId : String} {id : UUID}
    (h : settledRowId settled callId = some id) (results : List ResultPart) :
    ((results.filterMap (noted settled)).find? fun entry => entry.1 = callId).map (·.2) =
      firstOutcome callId results := by
  unfold firstOutcome
  induction results with
  | nil => rfl
  | cons part results ih =>
    rw [List.findSome?_cons]
    by_cases hcall : part.toolCallId = callId
    · rw [if_pos hcall]
      have hnoted := noted_of_row (hcall.symm ▸ h)
      cases houtcome : part.outcome? with
      | none =>
        rw [houtcome, Option.map_none] at hnoted
        rw [List.filterMap_cons_none hnoted]
        exact ih
      | some outcome =>
        rw [houtcome, Option.map_some] at hnoted
        rw [List.filterMap_cons_some hnoted, List.find?_cons_of_pos]
        · rfl
        · exact decide_eq_true hcall
    · rw [if_neg hcall]
      cases hnoted : noted settled part with
      | none =>
        rw [List.filterMap_cons_none hnoted]
        exact ih
      | some entry =>
        rw [List.filterMap_cons_some hnoted, List.find?_cons_of_neg]
        · exact ih
        · intro hentry
          exact hcall ((noted_call hnoted).symm.trans (of_decide_eq_true hentry))

end ChatTurn

namespace ChatSystem
open ChatTurn ChatWire StepSystem
variable {s s' : ChatSystem} {a : ChatAction} {past : List ChatAction} {t t' : Nat}
  {turn turn' : Turn} {before store : ToolCallStore}

theorem storedResults_snoc (past : List ChatAction) (a : ChatAction) :
    storedResults t (past ++ [a]) = storedResults t past ++ (a.storedResult? t).toList := by
  unfold storedResults
  rw [List.filterMap_append]
  cases h : a.storedResult? t <;> simp [h]

theorem storedResults_of_none (h : a.storedResult? t = none) :
    storedResults t (past ++ [a]) = storedResults t past := by
  rw [storedResults_snoc, h, Option.toList_none, List.append_nil]

namespace TurnMove

theorem other (hm : TurnMove before t turn a store turn') (h : t' ≠ t) : a.storedResult? t' = none := by
  cases hm with
  | recorded | passedOn => exact if_neg fun he => h he.1.symm
  | _ => rfl

/-- Once a turn runs, what it settled is fixed, and it notes the results that are stored. -/
theorem notes (hm : TurnMove before t turn a store turn') :
    (turn.phase = .settling ∧ a.storedResult? t = none ∧ turn'.outcomes = turn.outcomes) ∨
      (turn'.settled = turn.settled ∧
        turn'.outcomes = turn.outcomes ++ ((a.storedResult? t).bind (noted turn.settled)).toList) := by
  cases hm with
  | settled phase => exact .inl ⟨phase, rfl, rfl⟩
  | recorded phase recordable =>
    refine .inr ⟨rfl, ?_⟩
    rw [ChatAction.storedResult?_stored, Option.bind_some]
    unfold noted
    rw [recordable]
    rfl
  | @passedOn part stored phase unrecordable =>
    refine .inr ⟨rfl, ?_⟩
    cases stored with
    | false =>
      rw [ChatAction.storedResult?_lost]
      exact (List.append_nil _).symm
    | true =>
      rw [ChatAction.storedResult?_stored, Option.bind_some]
      unfold noted
      rw [unrecordable rfl]
      exact (List.append_nil _).symm
  | _ => exact .inr ⟨rfl, (List.append_nil _).symm⟩

theorem settling (hm : TurnMove before t turn a store turn') (h : turn'.phase = .settling) :
    turn.phase = .settling ∧ a.storedResult? t = none := by
  cases hm with
  | passed phase | read phase | settled phase => exact ⟨phase, rfl⟩
  | recorded phase | passedOn phase =>
    rw [phase] at h
    cases h
  | _ => cases h

end TurnMove

/-- The outcomes of a turn are those of its stored results; it has none before it runs. -/
structure Noted (past : List ChatAction) (s : ChatSystem) : Prop where
  outcomes : ∀ t : Nat, ∀ turn : Turn, s.turns[t]? = some turn →
    turn.outcomes = (storedResults t past).filterMap (noted turn.settled)
  idle : ∀ t : Nat, (∀ turn : Turn, s.turns[t]? = some turn → turn.phase = .settling) →
    storedResults t past = []

theorem Noted.move (h : Noted past s) (ht : s.turns[t]? = some turn)
    (hm : TurnMove s.store t turn a store turn') :
    Noted (past ++ [a]) ({ s with store }.setTurn t turn') := by
  have hlookup : ∀ t', ({ s with store }.setTurn t turn').turns[t']? =
      if t' = t then some turn' else s.turns[t']? :=
    Accounted.getElem?_setTurn (s := { s with store }) ht
  constructor
  · intro t₁ turn₁ hget
    rw [hlookup] at hget
    split_ifs at hget with he
    · obtain rfl := Option.some.inj hget
      subst he
      rw [storedResults_snoc]
      have hbefore := h.outcomes t₁ turn ht
      obtain ⟨hphase, hnone, hsame⟩ | ⟨hsettled, hnotes⟩ := hm.notes
      · have hidle : storedResults t₁ past = [] := by
          refine h.idle t₁ fun other hget => ?_
          obtain rfl := Option.some.inj (ht.symm.trans hget)
          exact hphase
        rw [hidle] at hbefore ⊢
        rw [hnone, hsame, hbefore]
        rfl
      · rw [List.filterMap_append, hnotes, hsettled, hbefore]
        cases a.storedResult? t₁ with
        | none => rfl
        | some part => cases h : noted turn.settled part <;> simp [h]
    · rw [storedResults_of_none (hm.other he)]
      exact h.outcomes t₁ turn₁ hget
  · intro t₁ hall
    by_cases he : t₁ = t
    · subst he
      obtain ⟨hphase, hnone⟩ := hm.settling (hall turn' (by rw [hlookup, if_pos rfl]))
      rw [storedResults_of_none hnone]
      refine h.idle t₁ fun turn₁ hget => ?_
      obtain rfl := Option.some.inj (ht.symm.trans hget)
      exact hphase
    · rw [storedResults_of_none (hm.other he)]
      refine h.idle t₁ fun turn₁ hget => hall turn₁ ?_
      rw [hlookup, if_neg he]
      exact hget

theorem Noted.step (h : Noted past s) (hs : s.step a = some s') : Noted (past ++ [a]) s' := by
  cases step_cases hs with
  | propose =>
    constructor
    · intro t turn ht
      rw [storedResults_of_none rfl]
      exact h.outcomes t turn ht
    · intro t hall
      rw [storedResults_of_none rfl]
      exact h.idle t hall
  | request unrepeated =>
    constructor
    · intro t turn ht
      rw [storedResults_of_none rfl]
      dsimp only at ht
      rw [List.getElem?_append] at ht
      split_ifs at ht with hlt
      · exact h.outcomes t turn ht
      · obtain rfl := List.mem_singleton.mp (List.mem_of_getElem? ht)
        rw [h.idle t fun turn hget => absurd (List.getElem?_eq_some_iff.mp hget).1 hlt]
        rfl
    · intro t hall
      rw [storedResults_of_none rfl]
      refine h.idle t fun turn hget => hall turn ?_
      dsimp only
      rw [List.getElem?_append_left (List.getElem?_eq_some_iff.mp hget).1]
      exact hget
  | turn found move => exact h.move found move

theorem reach {s₀ : ChatSystem} {acts : List ChatAction} (h₀ : s₀.turns = [])
    (h : exec ChatSystem.step s₀ acts = some s) : s.Accounted ∧ Noted acts s := by
  refine exec_history (I := fun past s => s.Accounted ∧ Noted past s) ⟨.initial h₀, ?_⟩ ?_ h
  · constructor
    · intro t turn ht
      rw [h₀] at ht
      cases ht
    · exact fun t _ => rfl
  · intro past m a m' _ ⟨hm, hn⟩ ha
    exact ⟨hm.step ha, hn.step ha⟩

end ChatSystem

open ChatTurn StepSystem in
/-- Every decision a turn settled is accounted for by a row of its own: a denied call's row stands
denied, an approved call's is closed by the first outcome that was stored of it, and by no later one.
The warning at the end names the approved calls whose row has no outcome, and no others. -/
theorem ChatSystem.decisions_accounted {s₀ s : ChatSystem} {acts : List ChatAction}
    (h₀ : s₀.turns = []) (h : exec ChatSystem.step s₀ acts = some s) {t : Nat} {turn : Turn}
    (ht : s.turns[t]? = some turn) :
    (∀ callId verdict, (callId, verdict) ∈ turn.settled.approvals.rows → ∃ id call,
      settledRowId turn.settled callId = some id ∧
      Turn.Backed s.store turn.userId callId verdict (firstOutcome callId (storedResults t acts)) id call ∧
      ∀ t' turn' callId', s.turns[t']? = some turn' →
        settledRowId turn'.settled callId' = some id → t' = t ∧ callId' = callId) ∧
    (turn.phase = .ended → ∀ callId, (∃ names, turn.warned = some names ∧ callId ∈ names) ↔
      (callId, ApprovalVerdict.approved) ∈ turn.settled.approvals.rows ∧ ∃ id call,
        settledRowId turn.settled callId = some id ∧ s.store.calls.find? id = some call ∧
        call.status = .approved) := by
  obtain ⟨hs, hn⟩ := reach h₀ h
  have hsound := hs.sound t turn ht
  have hfirst : ∀ callId id, turn.rowOf callId = some id →
      turn.outcomeOf callId = firstOutcome callId (storedResults t acts) := fun callId id hid => by
    unfold Turn.outcomeOf
    rw [hn.outcomes t turn ht]
    exact find?_noted hid _
  refine ⟨fun callId verdict hrow => ?_, fun hended callId => ?_⟩
  · obtain ⟨id, call, hid, hb⟩ := hsound.backed callId verdict (Turn.verdictOf_eq_some_iff.mpr hrow)
    rw [hfirst callId id hid] at hb
    exact ⟨id, call, hid, hb, fun t' turn' callId' ht' hid' =>
      hs.distinct t' t turn' turn callId' callId id ht' ht hid' hid⟩
  · rw [hsound.ended hended, Turn.mem_warned_finish, Turn.mem_unaccounted, ← Turn.verdictOf_eq_some_iff]
    refine and_congr_right fun hv => ?_
    obtain ⟨id, call, hid, hb⟩ := hsound.backed callId .approved hv
    rw [← hb.stands.approved_iff]
    constructor
    · exact fun hs => ⟨id, call, hid, hb.stored, hs⟩
    · rintro ⟨id', call', hid', hf', hs'⟩
      obtain rfl := Option.some.inj (hid.symm.trans hid')
      obtain rfl := Option.some.inj (hb.stored.symm.trans hf')
      exact hs'

namespace ChatSystem
open ChatTurn StepSystem

def demoProposal (id : UUID) (callId : String) : ChatAction :=
  .propose "operator" id 10 callId "leitstand_dispatch_mission" (some [("mission_id", .str "m-1")])
    none none

def demoMessage : UIMessage :=
  { role := "assistant", parts := [.tool (demoPart "call_1"), .tool (demoPart "call_2")] }

/-- Two approved calls: one returns twice, of the other nothing comes back. -/
def demoTurn : List ChatAction :=
  [demoProposal 1 "call_1", demoProposal 2 "call_2",
    .request "operator" [demoMessage],
    .readDecision 0, .settleDecision 0 20, .readDecision 0, .settleDecision 0 21, .run 0,
    .event 0 (.toolReturn "call_1" .success (.json (.str "dispatched"))) true,
    .event 0 (.retryPrompt "call_1" "already running") true, .finish 0]

theorem decisions_accounted_turn : ∃ s turn, exec ChatSystem.step {} demoTurn = some s ∧
    s.turns[0]? = some turn ∧ turn.warned = some ["call_2"] ∧ ∃ id call,
      settledRowId turn.settled "call_1" = some id ∧ s.store.calls.find? id = some call ∧
      call.status = .succeeded ∧ call.result = some [("content", .str "dispatched")] := by
  have hrun : ((exec ChatSystem.step {} demoTurn).bind fun s => s.turns[0]?.map fun turn =>
      (turn.warned, turn.verdictOf "call_1")) = some (some ["call_2"], some .approved) := by
    decide +kernel
  obtain ⟨s, hs, hrun⟩ := Option.bind_eq_some_iff.mp hrun
  obtain ⟨turn, ht, hturn⟩ := Option.map_eq_some_iff.mp hrun
  obtain ⟨hwarned, hverdict⟩ := Prod.mk.inj hturn
  obtain ⟨id, call, hid, hb, -⟩ := (decisions_accounted rfl hs ht).1 "call_1" .approved
    (Turn.verdictOf_eq_some_iff.mp hverdict)
  have hfirst : firstOutcome "call_1" (storedResults 0 demoTurn) =
      some { succeeded := true, result := some [("content", .str "dispatched")] } := rfl
  rw [hfirst] at hb
  exact ⟨s, turn, hs, ht, hwarned, id, call, hid, hb.stored, hb.stands.1, hb.stands.2.1⟩

end ChatSystem
end Leitstand
