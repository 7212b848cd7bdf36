import Mathlib.Data.List.Sort
import Leitstand.Json
import Leitstand.Table
import Leitstand.Uuid

namespace Leitstand

inductive ToolCallStatus where
  | awaitingApproval | approved | denied | succeeded | failed
  deriving DecidableEq

structure ToolCall where
  id : UUID
  userId : String
  providerToolCallId : String
  toolName : String
  arguments : Option Dict
  result : Option Dict := none
  status : ToolCallStatus
  decidedBy : Option String := none
  decidedAt : Option Datetime := none
  error : Option String := none
  model : Option String
  promptVersion : Option String
  createdAt : Datetime

/-- What the audit log keeps of a tool call's decision, and of its failure. -/
inductive ToolCallAudit where
  | decided (approved : Bool) (userId : String) (id : UUID) (toolName : String)
      (arguments : Option Dict) (proposedAt : Datetime) (decidedBy : String)
  | failed (userId : String) (id : UUID) (toolName : String) (arguments : Option Dict)
      (error : Option String) (decidedBy model promptVersion : Option String)

structure ToolCallStore where
  calls : Table ToolCall.id := .empty
  audit : List ToolCallAudit := []

namespace ToolCalls

/-- The order of the listing: the later creation first, then the greater id. -/
def Precedes (a b : ToolCall) : Prop :=
  b.createdAt < a.createdAt ∨ a.createdAt = b.createdAt ∧ b.id ≤ a.id

instance : DecidableRel Precedes := fun a b =>
  inferInstanceAs (Decidable (b.createdAt < a.createdAt ∨ a.createdAt = b.createdAt ∧ b.id ≤ a.id))

/-- The row, or `none` where its id is taken. -/
def addToolCall (call : ToolCall) (store : ToolCallStore) : Option ToolCallStore :=
  match h : store.calls.find? call.id with
  | some _ => none
  | none => some { store with calls := store.calls.insert call h }

def listToolCallsByProviderId (userId providerToolCallId : String) (store : ToolCallStore) :
    List ToolCall :=
  (store.calls.rows.filter fun call =>
    call.userId = userId ∧ call.providerToolCallId = providerToolCallId).insertionSort Precedes

/-- Compare-and-set out of `awaiting_approval`; whether the row moved. -/
def settleToolCall (now : Datetime) (id : UUID) (decidedBy : String) (approved : Bool)
    (store : ToolCallStore) : Bool × ToolCallStore :=
  match store.calls.find? id with
  | none => (false, store)
  | some call =>
    if call.status ≠ .awaitingApproval then (false, store)
    else
      (true,
        { calls := store.calls.replace
            { call with
              status := if approved then .approved else .denied, decidedBy := some decidedBy,
              decidedAt := some now }
          -- The record of the decision commits with the flip.
          audit := store.audit ++ [.decided approved call.userId id call.toolName call.arguments
            call.createdAt decidedBy] })

/-- Move an approved call to its outcome; whether the row moved. -/
def recordToolCallOutcome (id : UUID) (succeeded : Bool) (result : Option Dict)
    (error : Option String) (store : ToolCallStore) : Bool × ToolCallStore :=
  match store.calls.find? id with
  | none => (false, store)
  | some call =>
    if call.status ≠ .approved then (false, store)
    else
      (true,
        { calls := store.calls.replace
            { call with status := if succeeded then .succeeded else .failed, result, error }
          audit := if succeeded then store.audit
            else store.audit ++ [.failed call.userId id call.toolName call.arguments error
              call.decidedBy call.model call.promptVersion] })

end ToolCalls

/-- What an operator's decision names. -/
structure DecisionKey where
  userId : String
  providerToolCallId : String
  toolName : Option String
  arguments : Json

/-- The row is a proposal of what the decision names. -/
def DecisionKey.matchesCall (key : DecisionKey) (call : ToolCall) : Bool :=
  call.userId = key.userId && call.providerToolCallId = key.providerToolCallId &&
    some call.toolName = key.toolName && argumentsEq call.arguments key.arguments

namespace ToolCallApproval
open ToolCalls

/-- A call the run paused on, under a fresh id. -/
def pendingToolCall (userId : String) (id : UUID) (now : Datetime) (providerToolCallId toolName : String)
    (arguments : Option Dict) (model promptVersion : Option String) : ToolCall :=
  { id, userId, providerToolCallId, toolName, arguments, status := .awaitingApproval, model,
    promptVersion, createdAt := now }

/-- The first half of `record_decision`: the proposal it answers, if it is still open. -/
def decisionTarget (key : DecisionKey) (store : ToolCallStore) : Option UUID :=
  let candidates := listToolCallsByProviderId key.userId key.providerToolCallId store
  match candidates.find? fun call =>
      some call.toolName = key.toolName && argumentsEq call.arguments key.arguments with
  | none => none
  | some call => if call.status ≠ .awaitingApproval then none else some call.id

/-- The second half: the row's id where this decision moved it. -/
def settleDecision (now : Datetime) (target : UUID) (decidedBy : String) (approved : Bool)
    (store : ToolCallStore) : Option UUID × ToolCallStore :=
  let (settled, store) := settleToolCall now target decidedBy approved store
  (if settled then some target else none, store)

end ToolCallApproval
end Leitstand
