import Leitstand.ChatWire
import Leitstand.ToolCallApprovals

namespace Leitstand

/-- `True`, or `ToolDenied` with its message. -/
inductive ApprovalVerdict where
  | approved
  | denied (message : String)
  deriving DecidableEq

structure DecisionMetadata where
  approvedBy : String
  decisionId : String
  deriving DecidableEq

/-- What the run resumes with, by the id of the tool call. -/
structure DeferredToolResults where
  approvals : Table (Prod.fst : String × ApprovalVerdict → String) := .empty
  metadata : Table (Prod.fst : String × DecisionMetadata → String) := .empty

/-- What the agent is run on. -/
structure AgentInput where
  messages : List UIMessage
  deferredToolResults : Option DeferredToolResults

namespace ChatTurn
open ChatWire ToolCallApproval StepSystem

def verdict (decision : OperatorDecision) : ApprovalVerdict :=
  if decision.approved then .approved
  else
    match decision.reason with
    | none | some "" => .denied "Denied by the operator."
    | some reason => .denied reason

def decisionKey (userId : String) (decision : OperatorDecision) : DecisionKey :=
  { userId, providerToolCallId := decision.providerToolCallId, toolName := some decision.toolName,
    arguments := decision.arguments }

/-- One round of the loop: `answer` is what recording the decision returned. -/
def settleOne (userId : String) (settled : DeferredToolResults) :
    OperatorDecision × Option UUID → DeferredToolResults
  | (_, none) => settled
  | (decision, some id) =>
    { approvals := settled.approvals.upsert (decision.providerToolCallId, verdict decision) fun _ => true
      metadata := settled.metadata.upsert
        (decision.providerToolCallId, { approvedBy := userId, decisionId := id.str }) fun _ => true }

def settleApprovals (userId : String) (answered : List (OperatorDecision × Option UUID)) :
    DeferredToolResults := answered.foldl (settleOne userId) {}

/-- Settle, then prune, then run. -/
def agentInput (userId : String) (messages : List UIMessage)
    (answered : List (OperatorDecision × Option UUID)) : AgentInput :=
  let settled := settleApprovals userId answered
  { messages := pruned messages (settled.approvals.rows.map Prod.fst)
    deferredToolResults := if settled.approvals.rows = [] then none else some settled }

/-- `record_decision`, other requests' statements between its two: from `s` it leads to `t` and
returns the answer. -/
def RecordsDecision (s : Approvals) (key : DecisionKey) (decidedBy : String) (approved : Bool)
    (answer : Option UUID) (t : Approvals) : Prop :=
  match decisionTarget key s.store with
  | none => answer = none ∧ t = s.startDecision key decidedBy approved
  | some target => ∃ between u i now,
      exec Approvals.step (s.startDecision key decidedBy approved) between = some u ∧
      u.pending[i]? = some { caller := s.callers, key, target, decidedBy, approved } ∧
      u.settle i now = some t ∧ answer = (settleDecision now target decidedBy approved u.store).1

/-- The loop over the decisions, other requests' statements anywhere in between. -/
inductive Settles (userId : String) :
    Approvals → List (OperatorDecision × Option UUID) → Approvals → Prop
  | done (s : Approvals) : Settles userId s [] s
  | next {s s₁ s₂ t : Approvals} {between : List Approvals.Action} {decision : OperatorDecision}
      {answer : Option UUID} {rest : List (OperatorDecision × Option UUID)}
      (others : exec Approvals.step s between = some s₁)
      (records : RecordsDecision s₁ (decisionKey userId decision) userId decision.approved answer s₂)
      (onward : Settles userId s₂ rest t) : Settles userId s ((decision, answer) :: rest) t

/-- The chat request is accepted and its agent run on `input`; its parsed messages are `received`. -/
inductive Runs (userId : String) (received : List UIMessage) (s : Approvals) :
    List (OperatorDecision × Option UUID) → Approvals → AgentInput → Prop
  | accepted {answered : List (OperatorDecision × Option UUID)} {t : Approvals}
      (unrepeated : rejectRepeatedToolCallIds (withoutAttachments received) = .ok ())
      (decisions : answered.map Prod.fst = approvalResponses (withoutAttachments received))
      (settles : Settles userId s answered t) :
      Runs userId received s answered t (agentInput userId (withoutAttachments received) answered)

end ChatTurn
end Leitstand
