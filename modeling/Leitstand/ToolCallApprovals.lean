import Leitstand.ToolCall
import Leitstand.Walk

namespace Leitstand

/-- A decision between its read and its compare-and-set. -/
structure Decision where
  caller : Nat
  key : DecisionKey
  target : UUID
  decidedBy : String
  approved : Bool

/-- The tool calls and the decisions on them. `returned` are the decisions whose callers got the id
of their target back. -/
structure Approvals where
  store : ToolCallStore := {}
  callers : Nat := 0
  pending : List Decision := []
  returned : List Decision := []

namespace Approvals
open ToolCalls ToolCallApproval

inductive Action where
  | propose (userId : String) (id : UUID) (now : Datetime) (providerToolCallId toolName : String)
      (arguments : Option Dict) (model promptVersion : Option String)
  | startDecision (key : DecisionKey) (decidedBy : String) (approved : Bool)
  | settle (i : Nat) (now : Datetime)
  | recordOutcome (id : UUID) (succeeded : Bool) (result : Option Dict) (error : Option String)

/-- The proposal is stored, unless its id is taken. -/
def propose (s : Approvals) (call : ToolCall) : Approvals :=
  { s with store := (addToolCall call s.store).getD s.store }

def startDecision (s : Approvals) (key : DecisionKey) (decidedBy : String) (approved : Bool) :
    Approvals :=
  { s with
    callers := s.callers + 1
    pending := s.pending ++ ((decisionTarget key s.store).map fun target =>
      { caller := s.callers, key, target, decidedBy, approved }).toList }

def settle (s : Approvals) (i : Nat) (now : Datetime) : Option Approvals :=
  s.pending[i]?.map fun d =>
    let (id, store) := settleDecision now d.target d.decidedBy d.approved s.store
    { s with store, pending := s.pending.eraseIdx i,
             returned := if id = none then s.returned else s.returned ++ [d] }

def step (s : Approvals) : Action → Option Approvals
  | .propose userId id now providerToolCallId toolName arguments model promptVersion =>
    some (s.propose
      (pendingToolCall userId id now providerToolCallId toolName arguments model promptVersion))
  | .startDecision key decidedBy approved => some (s.startDecision key decidedBy approved)
  | .settle i now => s.settle i now
  | .recordOutcome id succeeded result error =>
    some { s with store := (recordToolCallOutcome id succeeded result error s.store).2 }

def statusOf (s : Approvals) (id : UUID) : Option ToolCallStatus :=
  (s.store.calls.find? id).map (·.status)

/-- Any stored calls; no decision is under way. -/
def Initial (s : Approvals) : Prop := s.pending = [] ∧ s.returned = []

end Approvals

/-- A later step of a call keeps what was proposed. -/
structure ToolCall.SameProposal (a b : ToolCall) : Prop where
  id : b.id = a.id
  userId : b.userId = a.userId
  providerToolCallId : b.providerToolCallId = a.providerToolCallId
  toolName : b.toolName = a.toolName
  arguments : b.arguments = a.arguments
  createdAt : b.createdAt = a.createdAt

theorem DecisionKey.matchesCall_iff {key : DecisionKey} {call : ToolCall} :
    key.matchesCall call = true ↔ call.userId = key.userId ∧
      call.providerToolCallId = key.providerToolCallId ∧ some call.toolName = key.toolName ∧
      argumentsEq call.arguments key.arguments = true := by
  simp [matchesCall, and_assoc]

namespace ToolCall.SameProposal
variable {a b c : ToolCall}

theorem refl (a : ToolCall) : a.SameProposal a := ⟨rfl, rfl, rfl, rfl, rfl, rfl⟩

theorem trans (h : a.SameProposal b) (h' : b.SameProposal c) : a.SameProposal c where
  id := h'.id.trans h.id
  userId := h'.userId.trans h.userId
  providerToolCallId := h'.providerToolCallId.trans h.providerToolCallId
  toolName := h'.toolName.trans h.toolName
  arguments := h'.arguments.trans h.arguments
  createdAt := h'.createdAt.trans h.createdAt

theorem matchesCall (h : a.SameProposal b) (key : DecisionKey) :
    key.matchesCall b = key.matchesCall a := by
  unfold DecisionKey.matchesCall
  rw [h.userId, h.providerToolCallId, h.toolName, h.arguments]

end ToolCall.SameProposal

/-- Where the status of a call, or its absence, leads. -/
inductive ToolCallStatus.Leads : Option ToolCallStatus → Option ToolCallStatus → Prop
  | proposed : Leads none (some .awaitingApproval)
  | approved : Leads (some .awaitingApproval) (some .approved)
  | denied : Leads (some .awaitingApproval) (some .denied)
  | succeeded : Leads (some .approved) (some .succeeded)
  | failed : Leads (some .approved) (some .failed)

namespace ToolCallStatus
variable {status status' : ToolCallStatus} {before after : Option ToolCallStatus}

theorem Leads.not_open (h : Leads (some status) (some status')) : status' ≠ .awaitingApproval := by
  cases h <;> simp

/-- How far a call has come. -/
def rank : Option ToolCallStatus → Nat
  | none => 0
  | some .awaitingApproval => 1
  | some .approved => 2
  | some _ => 3

theorem Leads.rank_lt (h : Leads before after) : rank before < rank after := by
  cases h <;> decide

end ToolCallStatus

namespace Approvals
open ToolCalls ToolCallApproval ToolCallStatus StepSystem
variable {s s' t u : Approvals} {a : Action}

/-- What a statement does to the calls: nothing, a new proposal, or one call's next status. -/
inductive CallsStep (calls calls' : Table ToolCall.id) : Prop
  | same (calls_eq : calls' = calls)
  | proposed (call : ToolCall) (absent : calls.find? call.id = none)
      (status : call.status = .awaitingApproval) (calls_eq : calls' = calls.insert call absent)
  | moved (call call' : ToolCall) (found : calls.find? call.id = some call)
      (same : call.SameProposal call') (leads : Leads (some call.status) (some call'.status))
      (calls_eq : calls' = calls.replace call')

theorem settleToolCall_step (now : Datetime) (id : UUID) (decidedBy : String) (approved : Bool)
    (store : ToolCallStore) :
    CallsStep store.calls (settleToolCall now id decidedBy approved store).2.calls := by
  unfold settleToolCall
  split
  · exact .same rfl
  · rename_i call hf
    have hid := Table.key_of_find? hf
    by_cases hs : call.status = .awaitingApproval
    · rw [if_neg (not_not.mpr hs)]
      refine .moved call _ (hid ▸ hf) ?_ ?_ rfl
      · exact ⟨rfl, rfl, rfl, rfl, rfl, rfl⟩
      cases approved
      · exact hs ▸ .denied
      · exact hs ▸ .approved
    · rw [if_pos hs]
      exact .same rfl

theorem recordToolCallOutcome_step (id : UUID) (succeeded : Bool) (result : Option Dict)
    (error : Option String) (store : ToolCallStore) :
    CallsStep store.calls (recordToolCallOutcome id succeeded result error store).2.calls := by
  unfold recordToolCallOutcome
  split
  · exact .same rfl
  · rename_i call hf
    have hid := Table.key_of_find? hf
    by_cases hs : call.status = .approved
    · rw [if_neg (not_not.mpr hs)]
      refine .moved call _ (hid ▸ hf) ?_ ?_ rfl
      · exact ⟨rfl, rfl, rfl, rfl, rfl, rfl⟩
      cases succeeded
      · exact hs ▸ .failed
      · exact hs ▸ .succeeded
    · rw [if_pos hs]
      exact .same rfl

theorem addToolCall_step {call : ToolCall} (h : call.status = .awaitingApproval)
    (store : ToolCallStore) :
    CallsStep store.calls ((addToolCall call store).getD store).calls := by
  unfold addToolCall
  split
  · exact .same rfl
  · rename_i hf
    exact .proposed call hf h rfl

/-- A settled decision finds its target open and leaves it decided. -/
theorem settleDecision_some {now : Datetime} {target : UUID} {decidedBy : String} {approved : Bool}
    {store : ToolCallStore}
    (h : (settleDecision now target decidedBy approved store).1 ≠ none) :
    (∃ call, store.calls.find? target = some call ∧ call.status = .awaitingApproval) ∧
      ∃ call, (settleDecision now target decidedBy approved store).2.calls.find? target = some call ∧
        call.status ≠ .awaitingApproval := by
  unfold settleDecision settleToolCall at h ⊢
  cases hf : store.calls.find? target with
  | none =>
    rw [hf] at h
    exact absurd rfl h
  | some call =>
    rw [hf] at h
    obtain rfl := Table.key_of_find? hf
    by_cases hs : call.status = .awaitingApproval
    · refine ⟨⟨call, rfl, hs⟩, ?_⟩
      dsimp only
      rw [if_neg (not_not.mpr hs)]
      refine ⟨_, Table.find?_replace_self hf, ?_⟩
      cases approved <;> simp
    · dsimp only at h
      rw [if_pos hs] at h
      exact absurd rfl h

theorem step_calls (h : s.step a = some s') : CallsStep s.store.calls s'.store.calls := by
  cases a with
  | propose userId id now providerToolCallId toolName arguments model promptVersion =>
    cases h
    exact addToolCall_step rfl s.store
  | startDecision key decidedBy approved =>
    cases h
    exact .same rfl
  | settle i now =>
    obtain ⟨d, -, rfl⟩ := Option.map_eq_some_iff.mp h
    exact settleToolCall_step now d.target d.decidedBy d.approved s.store
  | recordOutcome id succeeded result error =>
    cases h
    exact recordToolCallOutcome_step id succeeded result error s.store

/-- Every call is still there, as it was proposed; none is open again. -/
def Kept (calls calls' : Table ToolCall.id) : Prop :=
  ∀ id call, calls.find? id = some call → ∃ call', calls'.find? id = some call' ∧
    call.SameProposal call' ∧ (call'.status = .awaitingApproval → call.status = .awaitingApproval)

theorem Kept.trans {c₁ c₂ c₃ : Table ToolCall.id} (h : Kept c₁ c₂) (h' : Kept c₂ c₃) :
    Kept c₁ c₃ := by
  intro id call hf
  obtain ⟨call', hf', hsame, hopen⟩ := h id call hf
  obtain ⟨call'', hf'', hsame', hopen'⟩ := h' id call' hf'
  exact ⟨call'', hf'', hsame.trans hsame', fun hs => hopen (hopen' hs)⟩

theorem Kept.matched {calls calls' : Table ToolCall.id} (hk : Kept calls calls') {id : UUID}
    {key : DecisionKey} (h : ∃ call, calls.find? id = some call ∧ key.matchesCall call) :
    ∃ call, calls'.find? id = some call ∧ key.matchesCall call := by
  obtain ⟨call, hf, hm⟩ := h
  obtain ⟨call', hf', hsame, -⟩ := hk id call hf
  exact ⟨call', hf', hsame.matchesCall key ▸ hm⟩

theorem Kept.decided {calls calls' : Table ToolCall.id} (hk : Kept calls calls') {id : UUID}
    {key : DecisionKey} (h : ∃ call, calls.find? id = some call ∧ key.matchesCall call ∧
      call.status ≠ .awaitingApproval) :
    ∃ call, calls'.find? id = some call ∧ key.matchesCall call ∧
      call.status ≠ .awaitingApproval := by
  obtain ⟨call, hf, hm, hs⟩ := h
  obtain ⟨call', hf', hsame, hopen⟩ := hk id call hf
  exact ⟨call', hf', hsame.matchesCall key ▸ hm, fun he => hs (hopen he)⟩

theorem CallsStep.kept {calls calls' : Table ToolCall.id} (h : CallsStep calls calls') :
    Kept calls calls' := by
  intro id call hf
  cases h with
  | same calls_eq => exact ⟨call, calls_eq ▸ hf, .refl call, fun hs => hs⟩
  | proposed new absent _ calls_eq =>
    refine ⟨call, ?_, .refl call, fun hs => hs⟩
    rw [calls_eq, Table.find?_insert, if_neg, hf]
    rintro rfl
    rw [hf] at absent
    cases absent
  | moved old call' found same leads calls_eq =>
    subst calls_eq
    rw [Table.find?_replace]
    split_ifs with hid
    · subst hid
      rw [same.id, found] at hf
      obtain rfl := Option.some.inj hf
      rw [same.id, found]
      exact ⟨call', rfl, same, fun hs => absurd hs leads.not_open⟩
    · exact ⟨call, hf, .refl call, fun hs => hs⟩

theorem exec_kept {acts : List Action} (h : exec step s acts = some t) :
    Kept s.store.calls t.store.calls :=
  exec_invariant (I := fun u => Kept s.store.calls u.store.calls)
    (fun _ _ _ hu ha => hu.trans (step_calls ha).kept)
    (fun _ call hf => ⟨call, hf, .refl call, fun hs => hs⟩) h

theorem CallsStep.statusOf (h : CallsStep s.store.calls s'.store.calls) (id : UUID) :
    s'.statusOf id = s.statusOf id ∨ Leads (s.statusOf id) (s'.statusOf id) := by
  unfold Approvals.statusOf
  cases h with
  | same calls_eq => exact .inl (by rw [calls_eq])
  | proposed call absent status calls_eq =>
    rw [calls_eq, Table.find?_insert]
    split_ifs with hid
    · subst hid
      rw [absent, Option.map_some, status]
      exact .inr .proposed
    · exact .inl rfl
  | moved call call' found same leads calls_eq =>
    rw [calls_eq, Table.find?_replace]
    split_ifs with hid
    · subst hid
      rw [same.id, found]
      exact .inr leads
    · exact .inl rfl

instance : Std.Total Precedes where
  total a b := by
    unfold Precedes
    obtain hlt | heq | hlt := lt_trichotomy a.createdAt b.createdAt
    · exact .inr (.inl hlt)
    · obtain hle | hle := BitVec.le_total b.id a.id
      · exact .inl (.inr ⟨heq, hle⟩)
      · exact .inr (.inr ⟨heq.symm, hle⟩)
    · exact .inl (.inl hlt)

instance : IsTrans ToolCall Precedes where
  trans a b c := by
    rintro (hab | ⟨hab, hid⟩) (hbc | ⟨hbc, hid'⟩)
    · exact .inl (hbc.trans hab)
    · exact .inl (hbc ▸ hab)
    · exact .inl (hab ▸ hbc)
    · exact .inr ⟨hab.trans hbc, BitVec.le_trans hid' hid⟩

/-- The newest stored proposal of what the key names. -/
structure Newest (store : ToolCallStore) (key : DecisionKey) (call : ToolCall) : Prop where
  stored : store.calls.find? call.id = some call
  matched : key.matchesCall call
  newest : ∀ other ∈ store.calls.rows, key.matchesCall other → Precedes call other

/-- A decision answers the newest proposal of what it names, and only while that is open. -/
theorem decisionTarget_some {key : DecisionKey} {store : ToolCallStore} {id : UUID}
    (h : decisionTarget key store = some id) :
    ∃ call, call.id = id ∧ Newest store key call ∧ call.status = .awaitingApproval := by
  unfold decisionTarget at h
  dsimp only at h
  split at h
  · cases h
  · rename_i call hf
    split_ifs at h with hs
    obtain ⟨hp, before, after, hsplit, hbefore⟩ := List.find?_eq_some_iff_append.mp hf
    have hmem : ∀ other, other ∈ listToolCallsByProviderId key.userId key.providerToolCallId store ↔
        other ∈ store.calls.rows ∧ other.userId = key.userId ∧
          other.providerToolCallId = key.providerToolCallId := fun other => by
      simp [listToolCallsByProviderId]
    obtain ⟨hrow, huser, hprovider⟩ := (hmem call).mp (List.mem_of_find?_eq_some hf)
    refine ⟨call, Option.some.inj h, ⟨Table.find?_of_mem hrow, ?_, ?_⟩, not_not.mp hs⟩
    · simpa [DecisionKey.matchesCall, huser, hprovider] using hp
    · intro other hother hmatch
      obtain ⟨huser', hprovider', htool, harguments⟩ := DecisionKey.matchesCall_iff.mp hmatch
      have hlist := (hmem other).mpr ⟨hother, huser', hprovider'⟩
      have hsorted : (listToolCallsByProviderId key.userId key.providerToolCallId store).Pairwise
          Precedes := List.pairwise_insertionSort _ _
      rw [hsplit, List.mem_append, List.mem_cons] at hlist
      rw [hsplit, List.pairwise_append, List.pairwise_cons] at hsorted
      obtain hb | rfl | ha := hlist
      · have hno := hbefore other hb
        simp [htool, harguments] at hno
      · exact or_self_iff.mp (Std.Total.total other other)
      · exact hsorted.2.1.1 other ha

/-- What is known of a decision under way, and of one whose caller got the id back. -/
structure Accounted (s : Approvals) : Prop where
  pending : ∀ d ∈ s.pending, d.caller < s.callers ∧ ∃ call,
    s.store.calls.find? d.target = some call ∧ d.key.matchesCall call
  returned : ∀ d ∈ s.returned, d.caller < s.callers ∧ ∃ call,
    s.store.calls.find? d.target = some call ∧ d.key.matchesCall call ∧
      call.status ≠ .awaitingApproval
  once : (s.returned.map (·.target)).Nodup

namespace Accounted

theorem initial (h : s.Initial) : Accounted s where
  pending := by simp [h.1]
  returned := by simp [h.2]
  once := by simp [h.2]

theorem step (h : Accounted s) (ha : s.step a = some s') : Accounted s' := by
  have hk := (step_calls ha).kept
  cases a with
  | propose | recordOutcome =>
    cases ha
    exact ⟨fun d hd => ⟨(h.pending d hd).1, hk.matched (h.pending d hd).2⟩,
      fun d hd => ⟨(h.returned d hd).1, hk.decided (h.returned d hd).2⟩, h.once⟩
  | startDecision key decidedBy approved =>
    cases ha
    refine ⟨fun d hd => ?_, fun d hd => ⟨Nat.lt_succ_of_lt (h.returned d hd).1,
      (h.returned d hd).2⟩, h.once⟩
    obtain hd | hd := List.mem_append.mp hd
    · exact ⟨Nat.lt_succ_of_lt (h.pending d hd).1, (h.pending d hd).2⟩
    · obtain ⟨target, ht, rfl⟩ := Option.map_eq_some_iff.mp (Option.mem_toList.mp hd)
      obtain ⟨call, rfl, hnew, -⟩ := decisionTarget_some ht
      exact ⟨Nat.lt_succ_self _, call, hnew.stored, hnew.matched⟩
  | settle i now =>
    obtain ⟨d, hd, rfl⟩ := Option.map_eq_some_iff.mp ha
    have hpend := h.pending d (List.mem_of_getElem? hd)
    refine ⟨fun e he => ?_, fun e he => ?_, ?_⟩
    · have he := List.mem_of_mem_eraseIdx he
      exact ⟨(h.pending e he).1, hk.matched (h.pending e he).2⟩
    · dsimp only at he
      split_ifs at he with hid
      · exact ⟨(h.returned e he).1, hk.decided (h.returned e he).2⟩
      · obtain he | he := List.mem_append.mp he
        · exact ⟨(h.returned e he).1, hk.decided (h.returned e he).2⟩
        · obtain rfl := List.mem_singleton.mp he
          obtain ⟨call, hf, hs⟩ := (settleDecision_some hid).2
          obtain ⟨call', hf', hm⟩ := hk.matched hpend.2
          obtain rfl := Option.some.inj (hf.symm.trans hf')
          exact ⟨hpend.1, call, hf, hm, hs⟩
    · dsimp only
      split_ifs with hid
      · exact h.once
      · rw [List.map_append, List.nodup_append]
        refine ⟨h.once, by simp, ?_⟩
        intro id hid' id' hid'' he
        obtain ⟨e, he', rfl⟩ := List.mem_map.mp hid'
        obtain rfl : id' = d.target := by simpa using hid''
        -- The target was still open, and what has been returned is decided.
        obtain ⟨call, hf, hs⟩ := (settleDecision_some hid).1
        obtain ⟨call', hf', -, hs'⟩ := (h.returned e he').2
        obtain rfl := Option.some.inj ((he ▸ hf').symm.trans hf)
        exact hs' hs

theorem exec {acts : List Action} (h : Accounted s) (hx : exec Approvals.step s acts = some t) :
    Accounted t :=
  exec_invariant (fun _ _ _ hs ha => hs.step ha) h hx

end Accounted

/-- The decision of the caller has that target and no other. -/
structure Answers (caller : Nat) (target : Option UUID) (s : Approvals) : Prop where
  drawn : caller < s.callers
  pending : ∀ d ∈ s.pending, d.caller = caller → target = some d.target
  returned : ∀ d ∈ s.returned, d.caller = caller → target = some d.target

namespace Answers
variable {caller : Nat} {target : Option UUID}

theorem startDecision (h : Accounted s) (key : DecisionKey) (decidedBy : String) (approved : Bool) :
    Answers s.callers (decisionTarget key s.store) (s.startDecision key decidedBy approved) where
  drawn := Nat.lt_succ_self s.callers
  pending := by
    intro d hd hc
    obtain hd | hd := List.mem_append.mp hd
    · exact absurd hc (Nat.ne_of_lt (h.pending d hd).1)
    · obtain ⟨id, ht, rfl⟩ := Option.map_eq_some_iff.mp (Option.mem_toList.mp hd)
      exact ht
  returned := fun d hd hc => absurd hc (Nat.ne_of_lt (h.returned d hd).1)

theorem step (h : Answers caller target s) (ha : s.step a = some s') :
    Answers caller target s' := by
  cases a with
  | propose | recordOutcome =>
    cases ha
    exact ⟨h.drawn, h.pending, h.returned⟩
  | startDecision key decidedBy approved =>
    cases ha
    refine ⟨Nat.lt_succ_of_lt h.drawn, fun d hd hc => ?_, h.returned⟩
    obtain hd | hd := List.mem_append.mp hd
    · exact h.pending d hd hc
    · obtain ⟨id, -, rfl⟩ := Option.map_eq_some_iff.mp (Option.mem_toList.mp hd)
      exact absurd hc (Nat.ne_of_gt h.drawn)
  | settle i now =>
    obtain ⟨d, hd, rfl⟩ := Option.map_eq_some_iff.mp ha
    refine ⟨h.drawn, fun e he => h.pending e (List.mem_of_mem_eraseIdx he), fun e he hc => ?_⟩
    dsimp only at he
    split_ifs at he with hid
    · exact h.returned e he hc
    · obtain he | he := List.mem_append.mp he
      · exact h.returned e he hc
      · obtain rfl := List.mem_singleton.mp he
        exact h.pending e (List.mem_of_getElem? hd) hc

end Answers

/-- `call` is listed before `other`, and is not the same. -/
def Newer (call other : ToolCall) : Prop :=
  other.createdAt < call.createdAt ∨ call.createdAt = other.createdAt ∧ other.id < call.id

theorem newer_of_precedes {call other : ToolCall} (h : Precedes call other)
    (hne : call.id ≠ other.id) : Newer call other :=
  h.imp_right fun ⟨hc, hid⟩ => ⟨hc, BitVec.lt_of_le_ne hid hne.symm⟩

theorem newer_asymm {call other : ToolCall} (h : Newer call other) : ¬ Precedes other call := by
  unfold Newer Precedes at *
  grind

/-- Once the newest proposal is decided, a decision is answered only by a newer one. -/
theorem target_newer {key : DecisionKey} {newest : ToolCall} {id : UUID}
    (hnew : Newest s.store key newest) (hdecided : newest.status ≠ .awaitingApproval)
    (hk : Kept s.store.calls t.store.calls) (ht : decisionTarget key t.store = some id) :
    s.store.calls.find? id = none ∧ ∃ call, t.store.calls.find? id = some call ∧
      key.matchesCall call ∧ Newer call newest := by
  obtain ⟨call, rfl, hcall, hopen⟩ := decisionTarget_some ht
  obtain ⟨newest', hf', hsame, hopen'⟩ := hk newest.id newest hnew.stored
  have hmatch' : key.matchesCall newest' := hsame.matchesCall key ▸ hnew.matched
  have hne : call.id ≠ newest.id := by
    intro he
    have hsame := hcall.stored
    rw [he, hf'] at hsame
    obtain rfl := Option.some.inj hsame
    exact hdecided (hopen' hopen)
  have hprec : Precedes call newest := by
    have hp := hcall.newest newest' (Table.mem_of_find? hf') hmatch'
    unfold Precedes at hp ⊢
    rwa [hsame.createdAt, hsame.id] at hp
  have hnewer := newer_of_precedes hprec hne
  refine ⟨?_, call, hcall.stored, hcall.matched, hnewer⟩
  -- Stored before, it would have been the newest one then.
  cases hold : s.store.calls.find? call.id with
  | none => rfl
  | some old =>
    obtain ⟨call', hc', hsameOld, -⟩ := hk call.id old hold
    obtain rfl := Option.some.inj (hc'.symm.trans hcall.stored)
    have hp := hnew.newest old (Table.mem_of_find? hold) (hsameOld.matchesCall key ▸ hcall.matched)
    unfold Precedes at hp
    rw [← hsameOld.createdAt, ← hsameOld.id] at hp
    exact absurd hp (newer_asymm hnewer)

/-- What a run from `s₀` to `s` does with the proposals: the statuses of a call follow its life cycle
and none is left twice; a row's id goes to one caller at most, whose decision names what the row
proposes; and once the newest proposal of a key is decided, a decision on the key that starts
later gets the id of a newer one, proposed since, or none. -/
structure ConsumedOnce (s₀ : Approvals) (acts : List Action) (s : Approvals) : Prop where
  leads : ∀ id, ∀ e ∈ changes Approvals.step (·.statusOf id) s₀ acts, Leads e.1 e.2
  leftOnce : ∀ id, ((changes Approvals.step (·.statusOf id) s₀ acts).map Prod.fst).Nodup
  returnedOnce : (s.returned.map (·.target)).Nodup
  returnedMatching : ∀ d ∈ s.returned, ∃ call, s.store.calls.find? d.target = some call ∧
    d.key.matchesCall call
  spent : ∀ key newest, Newest s.store key newest → newest.status ≠ .awaitingApproval →
    ∀ between t, exec Approvals.step s between = some t → ∀ decidedBy approved after u,
      exec Approvals.step t (.startDecision key decidedBy approved :: after) = some u →
      ∀ d ∈ u.returned, d.caller = t.callers → s.store.calls.find? d.target = none ∧
        ∃ call, t.store.calls.find? d.target = some call ∧ key.matchesCall call ∧ Newer call newest

def demoKey : DecisionKey :=
  { userId := "operator", providerToolCallId := "call_1",
    toolName := some "leitstand_dispatch_mission", arguments := .obj [("mission_id", .str "m-1")] }

/-- Two decisions read one open proposal, and both go on to settle it. -/
def demoRace : List Action :=
  [.propose "operator" 1 10 "call_1" "leitstand_dispatch_mission"
      (some [("mission_id", .str "m-1")]) none none,
    .startDecision demoKey "operator" true, .startDecision demoKey "operator" true, .settle 0 11,
    .settle 0 12]

end Approvals

open StepSystem Approvals in
theorem approvals_are_consumed_once {s₀ s : Approvals} {acts : List Approvals.Action}
    (h₀ : s₀.Initial) (h : exec Approvals.step s₀ acts = some s) : ConsumedOnce s₀ acts s := by
  have hacc := (Accounted.initial h₀).exec h
  have hleads : ∀ id, ∀ e ∈ changes Approvals.step (·.statusOf id) s₀ acts,
      ToolCallStatus.Leads e.1 e.2 := fun id e he =>
    mem_changes (fun _ _ _ ha => (step_calls ha).statusOf id) he
  refine ⟨hleads, fun id => ?_, hacc.once, fun d hd => ?_, ?_⟩
  · exact (isWalk_changes h).nodup_src ToolCallStatus.rank fun e he => (hleads id e he).rank_lt
  · obtain ⟨call, hf, hm, -⟩ := (hacc.returned d hd).2
    exact ⟨call, hf, hm⟩
  · intro key newest hnew hdecided between t ht decidedBy approved after u hu d hd hcaller
    obtain ⟨t', ht', hu⟩ := exec_cons_iff.mp hu
    cases ht'
    have hans := Answers.startDecision (hacc.exec ht) key decidedBy approved
    have htarget := (exec_invariant (fun _ _ _ hs ha => hs.step ha) hans hu).returned d hd hcaller
    exact target_newer hnew hdecided (exec_kept ht) htarget

open StepSystem Approvals in
theorem approvals_are_consumed_once_raced : ∃ s, exec Approvals.step {} demoRace = some s ∧
    (s.returned.map fun d => (d.caller, d.target)) = [(0, 1)] ∧ s.statusOf 1 = some .approved ∧
    ConsumedOnce {} demoRace s :=
  ⟨_, rfl, rfl, rfl, approvals_are_consumed_once ⟨rfl, rfl⟩ rfl⟩

end Leitstand
