import Leitstand.ChatTurn

namespace Leitstand
namespace ChatWire
variable {messages : List UIMessage} {part : ToolPart} {decision : OperatorDecision}

theorem toolParts_filterParts (keep : UIPart → Bool) (messages : List UIMessage) :
    toolParts (filterParts keep messages) =
      (toolParts messages).filter fun part => keep (.tool part) := by
  have hparts : ∀ parts : List UIPart, (parts.filter keep).filterMap toolPart? =
      (parts.filterMap toolPart?).filter fun part => keep (.tool part) := by
    intro parts
    rw [List.filterMap_filter, List.filter_filterMap]
    congr 1
    funext part
    cases part <;> simp [toolPart?, Option.filter]
  induction messages with
  | nil => rfl
  | cons message rest ih =>
    unfold toolParts filterParts at ih ⊢
    rw [List.flatMap_cons, List.filter_append, List.filterMap_cons, ← ih, ← hparts]
    dsimp only
    split_ifs with h
    · simp [h]
    · rfl

theorem toolParts_pruned (messages : List UIMessage) (settledIds : List String) :
    toolParts (pruned messages settledIds) = (toolParts messages).filter fun part =>
      part.state.isTerminal || part.toolCallId ∈ settledIds :=
  toolParts_filterParts _ messages

theorem mem_pruned {settledIds : List String} : part ∈ toolParts (pruned messages settledIds) ↔
    part ∈ toolParts messages ∧ (part.state.isTerminal = true ∨ part.toolCallId ∈ settledIds) := by
  simp [toolParts_pruned]

theorem occurrences_pruned_le (messages : List UIMessage) (settledIds : List String)
    (callId : String) : occurrences (pruned messages settledIds) callId ≤
      occurrences messages callId := by
  unfold occurrences
  rw [toolParts_pruned]
  exact List.filter_sublist.countP_le

theorem occurrences_pos (h : part ∈ toolParts messages) :
    0 < occurrences messages part.toolCallId := by
  unfold occurrences
  rw [List.countP_pos_iff]
  exact ⟨part, h, by simp⟩

theorem mem_decisions (h : decision ∈ approvalResponses messages) : ∃ part ∈ toolParts messages,
    part.state = .approvalResponded ∧ decision.providerToolCallId = part.toolCallId ∧
      decision.toolName = toolNameOf part ∧ decision.arguments = part.input := by
  unfold approvalResponses at h
  split at h
  · cases h
  · rename_i latest hl
    obtain ⟨part, hp, hd⟩ := List.mem_filterMap.mp h
    have hmem : latest ∈ messages := List.mem_reverse.mp (List.mem_of_find?_eq_some hl)
    refine ⟨part, List.mem_flatMap.mpr ⟨latest, hmem, hp⟩, ?_⟩
    unfold decision? at hd
    split_ifs at hd with hs
    obtain ⟨approval, -, rfl⟩ := Option.map_eq_some_iff.mp hd
    exact ⟨not_not.mp hs, rfl, rfl, rfl⟩

theorem occurrences_le_one (h : rejectRepeatedToolCallIds messages = .ok ())
    (hp : part ∈ toolParts messages) (hs : part.state = .approvalResponded) :
    occurrences messages part.toolCallId ≤ 1 := by
  unfold rejectRepeatedToolCallIds at h
  dsimp only at h
  split at h
  · cases h
  · rename_i hn
    have hle := List.find?_eq_none.mp hn part (List.mem_filter.mpr ⟨hp, by simpa using hs⟩)
    simpa using hle

theorem eq_of_occurrences {other : ToolPart} (h : occurrences messages part.toolCallId ≤ 1)
    (hp : part ∈ toolParts messages) (ho : other ∈ toolParts messages)
    (hid : other.toolCallId = part.toolCallId) : other = part := by
  unfold occurrences at h
  rw [List.countP_eq_length_filter] at h
  have hp' : part ∈ (toolParts messages).filter fun q => q.toolCallId = part.toolCallId :=
    List.mem_filter.mpr ⟨hp, by simp⟩
  have ho' : other ∈ (toolParts messages).filter fun q => q.toolCallId = part.toolCallId :=
    List.mem_filter.mpr ⟨ho, by simpa using hid⟩
  obtain ⟨only, honly⟩ := List.length_eq_one_iff.mp
    (Nat.le_antisymm h (List.length_pos_of_mem hp'))
  rw [honly, List.mem_singleton] at hp' ho'
  exact ho'.trans hp'.symm

theorem count_decisions_le (messages : List UIMessage) (callId : String) :
    ((approvalResponses messages).map (·.providerToolCallId)).count callId ≤
      occurrences messages callId := by
  unfold approvalResponses
  split
  · simp
  · rename_i latest hl
    have hmem : latest ∈ messages := List.mem_reverse.mp (List.mem_of_find?_eq_some hl)
    have hsub : (latest.parts.filterMap toolPart?).Sublist (toolParts messages) :=
      List.sublist_flatten_of_mem (List.mem_map_of_mem hmem)
    refine le_trans ?_ hsub.countP_le
    rw [List.count_eq_countP, List.countP_map, List.countP_filterMap]
    apply List.countP_mono_left
    intro part _ hpart
    unfold decision? at hpart
    split_ifs at hpart
    · cases hpart
    · cases happ : part.approval <;> simp_all

/-- In an accepted history the part of a decision is the only one with its id. -/
theorem decided_part (h : rejectRepeatedToolCallIds messages = .ok ())
    (hd : decision ∈ approvalResponses messages) (hp : part ∈ toolParts messages)
    (hid : part.toolCallId = decision.providerToolCallId) :
    occurrences messages part.toolCallId ≤ 1 ∧ part.state.isTerminal = false ∧
      decision.toolName = toolNameOf part ∧ decision.arguments = part.input := by
  obtain ⟨own, hown, hs, hcall, hname, hinput⟩ := mem_decisions hd
  have hle := occurrences_le_one h hown hs
  obtain rfl : part = own := eq_of_occurrences hle hown hp (hid.trans hcall)
  exact ⟨hle, by rw [hs]; rfl, hname, hinput⟩

/-- The decisions of an accepted history are about different calls. -/
theorem decisions_nodup (h : rejectRepeatedToolCallIds messages = .ok ()) :
    ((approvalResponses messages).map (·.providerToolCallId)).Nodup := by
  rw [List.nodup_iff_count_le_one]
  intro callId
  by_cases hmem : callId ∈ (approvalResponses messages).map (·.providerToolCallId)
  · obtain ⟨decision, hd, rfl⟩ := List.mem_map.mp hmem
    obtain ⟨part, hp, hs, hid, -⟩ := mem_decisions hd
    exact (count_decisions_le messages _).trans (hid ▸ occurrences_le_one h hp hs)
  · rw [List.count_eq_zero_of_not_mem hmem]
    exact Nat.zero_le 1

end ChatWire

namespace ChatTurn
open ChatWire ToolCallApproval Approvals StepSystem
variable {userId : String} {s t : Approvals} {decision : OperatorDecision}
  {answered : List (OperatorDecision × Option UUID)}

theorem RecordsDecision.kept {key : DecisionKey} {decidedBy : String} {approved : Bool}
    {answer : Option UUID} (h : RecordsDecision s key decidedBy approved answer t) :
    Kept s.store.calls t.store.calls := by
  unfold RecordsDecision at h
  have hstart : Kept s.store.calls (s.startDecision key decidedBy approved).store.calls :=
    (step_calls (a := .startDecision key decidedBy approved) rfl).kept
  split at h
  · obtain ⟨-, rfl⟩ := h
    exact hstart
  · obtain ⟨between, u, i, now, hu, -, ht, -⟩ := h
    exact hstart.trans ((exec_kept hu).trans (step_calls (a := .settle i now) ht).kept)

/-- An answered decision has settled a proposal of what it names. -/
theorem RecordsDecision.settled {key : DecisionKey} {decidedBy : String} {approved : Bool} {id : UUID}
    (h : RecordsDecision s key decidedBy approved (some id) t) :
    ∃ call, t.store.calls.find? id = some call ∧ key.matchesCall call ∧
      call.status ≠ .awaitingApproval := by
  unfold RecordsDecision at h
  split at h
  · cases h.1
  · rename_i target htarget
    obtain ⟨between, u, i, now, hu, hi, ht, hanswer⟩ := h
    obtain ⟨call, rfl, hnew, -⟩ := decisionTarget_some htarget
    obtain ⟨d, hd, rfl⟩ := Option.map_eq_some_iff.mp ht
    obtain rfl := Option.some.inj (hi.symm.trans hd)
    have hid : id = call.id := by
      simp only [settleDecision] at hanswer
      split_ifs at hanswer
      exact Option.some.inj hanswer
    subst hid
    have hne : (settleDecision now call.id decidedBy approved u.store).1 ≠ none := by
      rw [← hanswer]
      exact Option.some_ne_none _
    have hk := (exec_kept hu).trans (settleToolCall_step now call.id decidedBy approved u.store).kept
    obtain ⟨after, hafter, hopen⟩ := (settleDecision_some hne).2
    obtain ⟨after', hafter', hsame, -⟩ := hk call.id call hnew.stored
    obtain rfl := Option.some.inj (hafter.symm.trans hafter')
    exact ⟨after, hafter, hsame.matchesCall key ▸ hnew.matched, hopen⟩

/-- A decision that finds no open proposal of what it names is not answered. -/
theorem RecordsDecision.unmatched {key : DecisionKey} {decidedBy : String} {approved : Bool}
    {answer : Option UUID} (h : RecordsDecision s key decidedBy approved answer t)
    (hnone : ∀ call ∈ s.store.calls.rows, key.matchesCall call → call.status ≠ .awaitingApproval) :
    answer = none := by
  unfold RecordsDecision at h
  split at h
  · exact h.1
  · rename_i target htarget
    obtain ⟨call, -, hnew, hopen⟩ := decisionTarget_some htarget
    exact absurd hopen (hnone call (Table.mem_of_find? hnew.stored) hnew.matched)

theorem Settles.kept (h : Settles userId s answered t) : Kept s.store.calls t.store.calls := by
  induction h with
  | done s => exact exec_kept (show exec Approvals.step s [] = some s from rfl)
  | next others records _ ih => exact (exec_kept others).trans (records.kept.trans ih)

/-- Every answered decision has its settled proposal in the store. -/
theorem Settles.settled (h : Settles userId s answered t) {id : UUID}
    (hd : (decision, some id) ∈ answered) : ∃ call, t.store.calls.find? id = some call ∧
      (decisionKey userId decision).matchesCall call ∧ call.status ≠ .awaitingApproval := by
  induction h with
  | done => cases hd
  | next others records onward ih =>
    obtain hd | hd := List.mem_cons.mp hd
    · obtain ⟨rfl, rfl⟩ := Prod.mk.inj hd
      exact onward.kept.decided records.settled
    · exact ih hd

def settledEntry : OperatorDecision × Option UUID → Option (String × ApprovalVerdict)
  | (_, none) => none
  | (decision, some _) => some (decision.providerToolCallId, verdict decision)

theorem approvals_settleApprovals (userId : String)
    (answered : List (OperatorDecision × Option UUID)) :
    (settleApprovals userId answered).approvals = .ofRows (answered.filterMap settledEntry) := by
  have hall : ∀ acc : DeferredToolResults, (answered.foldl (settleOne userId) acc).approvals =
      acc.approvals.upsertAll (answered.filterMap settledEntry) fun _ _ => true := by
    induction answered with
    | nil => exact fun acc => rfl
    | cons entry rest ih =>
      intro acc
      obtain ⟨decision, _ | id⟩ := entry
      · exact ih acc
      · exact ih _
  exact hall {}

theorem nodup_settledEntry
    (h : (answered.map fun entry => entry.1.providerToolCallId).Nodup) :
    ((answered.filterMap settledEntry).map Prod.fst).Nodup := by
  refine h.sublist ?_
  induction answered with
  | nil => simp
  | cons entry rest ih =>
    obtain ⟨decision, _ | id⟩ := entry
    · exact (ih (List.nodup_cons.mp h).2).cons _
    · exact (ih (List.nodup_cons.mp h).2).cons_cons _

/-- The approvals of the run are those of the answered decisions. -/
theorem mem_approvals (h : (answered.map fun entry => entry.1.providerToolCallId).Nodup)
    (entry : String × ApprovalVerdict) :
    entry ∈ (settleApprovals userId answered).approvals.rows ↔ ∃ decision id,
      (decision, some id) ∈ answered ∧ entry = (decision.providerToolCallId, verdict decision) := by
  rw [approvals_settleApprovals]
  have hperm := Table.upsertAll_perm (t := Table.empty) (nodup_settledEntry h) (fun _ ha => nomatch ha)
  rw [Table.ofRows, hperm.mem_iff, List.mem_filterMap]
  constructor
  · rintro ⟨⟨decision, _ | id⟩, hd, he⟩
    · cases he
    · exact ⟨decision, id, hd, (Option.some.inj he).symm⟩
  · rintro ⟨decision, id, hd, rfl⟩
    exact ⟨(decision, some id), hd, rfl⟩

/-- What the agent is handed as approved or denied. -/
def handedApprovals (input : AgentInput) : List (String × ApprovalVerdict) :=
  input.deferredToolResults.elim [] fun settled => settled.approvals.rows

theorem handedApprovals_agentInput (messages : List UIMessage) :
    handedApprovals (agentInput userId messages answered) =
      (settleApprovals userId answered).approvals.rows := by
  unfold handedApprovals agentInput
  dsimp only
  split_ifs with h
  · exact h.symm
  · rfl

/-- What an accepted chat request lets through to the agent. -/
structure Gated (userId : String) (received : List UIMessage)
    (answered : List (OperatorDecision × Option UUID)) (t : Approvals) (input : AgentInput) :
    Prop where
  /-- A tool part that is not answered yet is the one part with its id, was decided in this request,
  and names the tool and the input of the proposal that the decision settled. -/
  parts : ∀ part ∈ toolParts input.messages, part.state.isTerminal = false →
    occurrences received part.toolCallId = 1 ∧ occurrences input.messages part.toolCallId = 1 ∧
    ∃ decision id call, (decision, some id) ∈ answered ∧
      decision.providerToolCallId = part.toolCallId ∧ t.store.calls.find? id = some call ∧
      call.userId = userId ∧ call.providerToolCallId = part.toolCallId ∧
      call.toolName = toolNameOf part ∧ argumentsEq call.arguments part.input
  approvals : ∀ entry, entry ∈ handedApprovals input ↔ ∃ decision id,
    (decision, some id) ∈ answered ∧ entry = (decision.providerToolCallId, verdict decision)
  refused : ∀ decision, (decision, none) ∈ answered →
    (∀ part ∈ toolParts input.messages, part.toolCallId ≠ decision.providerToolCallId) ∧
      ∀ entry ∈ handedApprovals input, entry.1 ≠ decision.providerToolCallId

section Accepted
variable {messages : List UIMessage}

/-- The ids of the settled approvals are those of the answered decisions. -/
theorem mem_settledIds (h : (answered.map fun entry => entry.1.providerToolCallId).Nodup)
    {callId : String} :
    callId ∈ (settleApprovals userId answered).approvals.rows.map Prod.fst ↔
      ∃ decision id, (decision, some id) ∈ answered ∧ decision.providerToolCallId = callId := by
  rw [List.mem_map]
  constructor
  · rintro ⟨entry, he, rfl⟩
    obtain ⟨decision, id, hd, rfl⟩ := (mem_approvals h entry).mp he
    exact ⟨decision, id, hd, rfl⟩
  · rintro ⟨decision, id, hd, rfl⟩
    exact ⟨_, (mem_approvals h _).mpr ⟨decision, id, hd, rfl⟩, rfl⟩

theorem not_mem_settledIds (h : (answered.map fun entry => entry.1.providerToolCallId).Nodup)
    (hd : (decision, none) ∈ answered) : decision.providerToolCallId ∉
      (settleApprovals userId answered).approvals.rows.map Prod.fst := by
  intro hmem
  obtain ⟨decision', id, hd', hid⟩ := (mem_settledIds h).mp hmem
  have heq := List.inj_on_of_nodup_map h hd' hd hid
  cases heq

theorem answered_nodup (hunrepeated : rejectRepeatedToolCallIds messages = .ok ())
    (hdecisions : answered.map Prod.fst = approvalResponses messages) :
    (answered.map fun entry => entry.1.providerToolCallId).Nodup := by
  have hnd := decisions_nodup hunrepeated
  rwa [← hdecisions, List.map_map] at hnd

/-- A part kept without an answer is the part of an answered decision. -/
theorem open_part (hunrepeated : rejectRepeatedToolCallIds messages = .ok ())
    (hdecisions : answered.map Prod.fst = approvalResponses messages) {part : ToolPart}
    (hp : part ∈ toolParts (agentInput userId messages answered).messages)
    (hopen : part.state.isTerminal = false) : occurrences messages part.toolCallId ≤ 1 ∧
      ∃ decision id, (decision, some id) ∈ answered ∧
        decision.providerToolCallId = part.toolCallId ∧ decision.toolName = toolNameOf part ∧
        decision.arguments = part.input := by
  obtain ⟨hreceived, hterminal | hid⟩ := mem_pruned.mp hp
  · rw [hterminal] at hopen
    cases hopen
  · obtain ⟨decision, id, hd, hcall⟩ :=
      (mem_settledIds (answered_nodup hunrepeated hdecisions)).mp hid
    have hmem : decision ∈ approvalResponses messages := hdecisions ▸ List.mem_map_of_mem hd
    obtain ⟨hle, -, hname, hinput⟩ := decided_part hunrepeated hmem hreceived hcall.symm
    exact ⟨hle, decision, id, hd, hcall, hname, hinput⟩

/-- No part is kept of a decision that was not answered. -/
theorem refused_part (hunrepeated : rejectRepeatedToolCallIds messages = .ok ())
    (hdecisions : answered.map Prod.fst = approvalResponses messages)
    (hd : (decision, none) ∈ answered) {part : ToolPart}
    (hp : part ∈ toolParts (agentInput userId messages answered).messages) :
    part.toolCallId ≠ decision.providerToolCallId := by
  intro hid
  have hmem : decision ∈ approvalResponses messages := hdecisions ▸ List.mem_map_of_mem hd
  obtain ⟨hreceived, hterminal | hsettled⟩ := mem_pruned.mp hp
  · have hopen := (decided_part hunrepeated hmem hreceived hid).2.1
    rw [hterminal] at hopen
    cases hopen
  · exact not_mem_settledIds (answered_nodup hunrepeated hdecisions) hd (hid ▸ hsettled)

end Accepted

end ChatTurn

open ChatWire ChatTurn in
/-- A tool call reaches the agent run only through a proposal that this very request settled; a
decision that finds no open proposal of what it names settles none. -/
theorem only_settled_calls_reach_the_run {userId : String} {received : List UIMessage}
    {s t : Approvals} {answered : List (OperatorDecision × Option UUID)} {input : AgentInput}
    (h : Runs userId received s answered t input) :
    Gated userId (withoutAttachments received) answered t input ∧
    ∀ s key approved answer s', RecordsDecision s key userId approved answer s' →
      (∀ call ∈ s.store.calls.rows, key.matchesCall call → call.status ≠ .awaitingApproval) →
      answer = none := by
  refine ⟨?_, fun s key approved answer s' hr hn => hr.unmatched hn⟩
  obtain ⟨hunrepeated, hdecisions, hsettles⟩ := h
  have hnd := answered_nodup hunrepeated hdecisions
  constructor
  · intro part hp hopen
    obtain ⟨hle, decision, id, hd, hcall, hname, hinput⟩ :=
      open_part hunrepeated hdecisions hp hopen
    obtain ⟨call, hf, hm, -⟩ := hsettles.settled hd
    obtain ⟨huser, hprovider, htool, harguments⟩ := DecisionKey.matchesCall_iff.mp hm
    have hpos := occurrences_pos hp
    have hkept : occurrences (agentInput userId (withoutAttachments received) answered).messages
        part.toolCallId ≤ occurrences (withoutAttachments received) part.toolCallId :=
      occurrences_pruned_le _ _ _
    exact ⟨by omega, by omega, decision, id, call, hd, hcall, hf, huser, hprovider.trans hcall,
      (Option.some.inj htool).trans hname, hinput ▸ harguments⟩
  · intro entry
    rw [handedApprovals_agentInput]
    exact mem_approvals hnd entry
  · intro decision hd
    refine ⟨fun part hp => refused_part hunrepeated hdecisions hd hp, fun entry he hid => ?_⟩
    rw [handedApprovals_agentInput] at he
    exact not_mem_settledIds hnd hd (List.mem_map.mpr ⟨entry, he, hid⟩)

namespace ChatTurn
open ChatWire

def demoPart (callId : String) : ToolPart :=
  { type := "tool-leitstand_dispatch_mission", toolName := none, toolCallId := callId,
    state := .approvalResponded, approval := some { approved := true, reason := none },
    input := .obj [("mission_id", .str "m-1")] }

/-- A decision on a recorded proposal, and one in an older message on a call nobody proposed. -/
def demoHistory : List UIMessage :=
  [{ role := "user", parts := [.other (.str "dispatch it"), .file] },
    { role := "assistant", parts := [.tool (demoPart "call_0")] },
    { role := "assistant", parts := [.tool (demoPart "call_1")] }]

def demoStore : Approvals :=
  Approvals.propose {} (ToolCallApproval.pendingToolCall "operator" 1 10 "call_1"
    "leitstand_dispatch_mission" (some [("mission_id", .str "m-1")]) none none)

end ChatTurn

open ChatWire ChatTurn in
theorem only_settled_calls_reach_the_run_one_of_two : ∃ answered t input,
    Runs "operator" demoHistory demoStore answered t input ∧ answered.length = 1 ∧
    (toolParts input.messages).map (·.toolCallId) = ["call_1"] ∧
    handedApprovals input = [("call_1", .approved)] ∧
    Gated "operator" (withoutAttachments demoHistory) answered t input := by
  have hrecords : RecordsDecision demoStore (decisionKey "operator"
      { providerToolCallId := "call_1", approved := true, reason := none,
        toolName := "leitstand_dispatch_mission", arguments := .obj [("mission_id", .str "m-1")] })
      "operator" true (some 1) _ := ⟨[], _, 0, 11, rfl, rfl, rfl, rfl⟩
  have hruns : Runs "operator" demoHistory demoStore _ _ _ :=
    .accepted rfl rfl (.next (show StepSystem.exec Approvals.step demoStore [] = _ from rfl) hrecords
      (.done _))
  exact ⟨_, _, _, hruns, rfl, rfl, rfl, (only_settled_calls_reach_the_run hruns).1⟩

end Leitstand
