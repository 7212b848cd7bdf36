import Leitstand.ChatRuns

namespace Leitstand

def ToolCallAudit.id : ToolCallAudit → UUID
  | .decided _ _ id _ _ _ _ => id
  | .failed _ id _ _ _ _ _ _ => id

/-- What the audit log holds of a call whose own user decided it. -/
def ToolCall.trail (call : ToolCall) : List ToolCallAudit :=
  let decided (approved : Bool) : ToolCallAudit :=
    .decided approved call.userId call.id call.toolName call.arguments call.createdAt call.userId
  match call.status with
  | .awaitingApproval => []
  | .denied => [decided false]
  | .approved | .succeeded => [decided true]
  | .failed => [decided true, .failed call.userId call.id call.toolName call.arguments call.error
      (some call.userId) call.model call.promptVersion]

namespace ToolCallStore
open ToolCalls ToolCallApproval
variable {store : ToolCallStore}

def auditOf (id : UUID) (store : ToolCallStore) : List ToolCallAudit :=
  store.audit.filter fun entry => entry.id = id

/-- The log holds the trail of every stored call and nothing else; only its user decides a call. -/
structure Audited (store : ToolCallStore) : Prop where
  trail : ∀ id, store.auditOf id = (store.calls.find? id).elim [] ToolCall.trail
  decider : ∀ id call, store.calls.find? id = some call → call.status ≠ .awaitingApproval →
    call.decidedBy = some call.userId

namespace Audited

theorem empty : Audited {} where
  trail _ := rfl
  decider _ _ hf := by cases hf

/-- A row changed, and the log gains what its trail gains. -/
theorem replace (h : store.Audited) {call call' : ToolCall} {entries : List ToolCallAudit}
    (hf : store.calls.find? call.id = some call) (hid : call'.id = call.id)
    (hentries : ∀ entry ∈ entries, entry.id = call.id) (htrail : call'.trail = call.trail ++ entries)
    (hdecider : call'.decidedBy = some call'.userId) :
    Audited { calls := store.calls.replace call', audit := store.audit ++ entries } where
  trail id := by
    have hbefore := h.trail id
    unfold auditOf at hbefore ⊢
    rw [List.filter_append, hbefore, Table.find?_replace_of_find? hid hf]
    by_cases he : id = call.id
    · subst he
      rw [if_pos rfl, hf, Option.elim_some, Option.elim_some, htrail, List.filter_eq_self.mpr]
      exact fun entry hentry => decide_eq_true (hentries entry hentry)
    · rw [if_neg he, List.filter_eq_nil_iff.mpr, List.append_nil]
      intro entry hentry hentryId
      exact he ((of_decide_eq_true hentryId).symm.trans (hentries entry hentry))
  decider id other hother hs := by
    dsimp only at hother
    rw [Table.find?_replace_of_find? hid hf] at hother
    split_ifs at hother with he
    · obtain rfl := Option.some.inj hother
      exact hdecider
    · exact h.decider id other hother hs

theorem add (h : store.Audited) {call : ToolCall} (hs : call.status = .awaitingApproval) :
    ((addToolCall call store).getD store).Audited := by
  unfold addToolCall
  split
  · exact h
  rename_i habsent
  have htrail : call.trail = [] := by
    unfold ToolCall.trail
    rw [hs]
  constructor
  · intro id
    have hbefore := h.trail id
    dsimp only [Option.getD_some]
    rw [Table.find?_insert]
    split_ifs with hid
    · subst hid
      rw [habsent] at hbefore
      rw [Option.elim_some, htrail]
      exact hbefore
    · exact hbefore
  · intro id call₁ hf₁ hs₁
    dsimp only [Option.getD_some] at hf₁
    rw [Table.find?_insert] at hf₁
    split_ifs at hf₁ with hid
    · obtain rfl := Option.some.inj hf₁
      exact absurd hs hs₁
    · exact h.decider id call₁ hf₁ hs₁

theorem settle (h : store.Audited) {call : ToolCall} {target : UUID} {decidedBy : String}
    (hf : store.calls.find? target = some call) (huser : call.userId = decidedBy) (now : Datetime)
    (approved : Bool) : (settleDecision now target decidedBy approved store).2.Audited := by
  obtain rfl : call.id = target := Table.key_of_find? hf
  unfold settleDecision settleToolCall
  rw [hf]
  dsimp only
  by_cases hs : call.status = .awaitingApproval
  · rw [if_neg (not_not.mpr hs)]
    refine h.replace hf rfl ?_ ?_ (congrArg some huser.symm)
    · intro entry he
      obtain rfl := List.mem_singleton.mp he
      rfl
    · unfold ToolCall.trail
      rw [hs]
      cases approved <;> rw [huser] <;> rfl
  · rw [if_pos hs]
    exact h

theorem record (h : store.Audited) {call : ToolCall} {id : UUID}
    (hf : store.calls.find? id = some call) (outcome : ToolOutcome) :
    (recordToolCallOutcome id outcome.succeeded outcome.result outcome.error store).2.Audited := by
  obtain rfl : call.id = id := Table.key_of_find? hf
  unfold recordToolCallOutcome
  rw [hf]
  dsimp only
  by_cases hs : call.status = .approved
  · rw [if_neg (not_not.mpr hs)]
    have hdecider := h.decider call.id call hf (by simp [hs])
    cases outcome.succeeded with
    | true =>
      rw [if_pos rfl, if_pos rfl, ← List.append_nil store.audit]
      refine h.replace hf rfl (fun entry he => absurd he List.not_mem_nil) ?_ hdecider
      unfold ToolCall.trail
      rw [hs]
      rfl
    | false =>
      rw [if_neg Bool.false_ne_true, if_neg Bool.false_ne_true]
      refine h.replace hf rfl ?_ ?_ hdecider
      · intro entry he
        obtain rfl := List.mem_singleton.mp he
        rfl
      · unfold ToolCall.trail
        rw [hs, hdecider]
        rfl
  · rw [if_pos hs]
    exact h

end Audited
end ToolCallStore

namespace ChatSystem
open ToolCalls ToolCallApproval Approvals StepSystem
variable {s s' : ChatSystem} {a : ChatAction}

theorem Accounted.step_audited (h : s.Accounted) (ha : s.store.Audited) (hs : s.step a = some s') :
    s'.store.Audited := by
  cases step_cases hs with
  | propose => exact ha.add rfl
  | request => exact ha
  | @turn t turn turn' a store found move =>
    have hsound := h.sound t turn found
    cases move with
    | @settled decision rest id now answer store phase target decisions settles =>
      obtain ⟨asked, others, call, hd, hf, hm⟩ := hsound.target id target
      have huser : call.userId = turn.userId := (DecisionKey.matchesCall_iff.mp hm).1
      have hsettle := ha.settle hf huser now decision.approved
      rw [settles] at hsettle
      exact hsettle
    | recorded phase recordable =>
      obtain ⟨call, hf, -⟩ := hsound.settled_row (Turn.recordable_row recordable).1
      exact ha.record hf _
    | _ => exact ha

/-- In every run from an empty store the audit log is what the rows say, call by call: one record of
each decision, by the user the call was proposed to, one of each failure, and no others. -/
theorem audit_follows_rows {s : ChatSystem} {acts : List ChatAction}
    (h : exec ChatSystem.step {} acts = some s) : s.store.Audited := by
  have hboth : s.Accounted ∧ s.store.Audited :=
    exec_invariant (I := fun s => s.Accounted ∧ s.store.Audited)
      (fun s a s' ⟨hs, ha⟩ hstep => ⟨hs.step hstep, hs.step_audited ha hstep⟩)
      ⟨.initial rfl, .empty⟩ h
  exact hboth.2

/-- The second of the two calls fails as well. -/
def demoFailure : List ChatAction :=
  demoTurn.dropLast ++ [.event 0 (.retryPrompt "call_2" "robot offline") true]

theorem audit_follows_rows_failure : ∃ s, exec ChatSystem.step {} demoFailure = some s ∧
    (s.store.auditOf 1).length = 1 ∧ (s.store.auditOf 2).length = 2 ∧ s.store.Audited := by
  have hrun : ((exec ChatSystem.step {} demoFailure).map fun s =>
      ((s.store.auditOf 1).length, (s.store.auditOf 2).length)) = some (1, 2) := by decide +kernel
  obtain ⟨s, hs, hlengths⟩ := Option.map_eq_some_iff.mp hrun
  obtain ⟨hone, htwo⟩ := Prod.mk.inj hlengths
  exact ⟨s, hs, hone, htwo, audit_follows_rows hs⟩

end ChatSystem
end Leitstand
