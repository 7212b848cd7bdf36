import Leitstand.ChatTurn

namespace Leitstand

/-- What a tool returned: a value that the JSON column can hold, or the `str` of any other. -/
inductive ToolContent where
  | json (value : Json)
  | other (text : String)

inductive ReturnOutcome where
  | success | failed | denied | interrupted
  deriving DecidableEq

/-- The part of a tool's result event; a tool that raised comes as a retry prompt. -/
inductive ResultPart where
  | toolReturn (toolCallId : String) (outcome : ReturnOutcome) (content : ToolContent)
  | retryPrompt (toolCallId : String) (content : String)

/-- What is recorded as having come of an approved call. -/
structure ToolOutcome where
  succeeded : Bool
  result : Option Dict := none
  error : Option String := none

def ToolContent.jsonable : ToolContent → Json
  | .json value => value
  | .other text => .str text

def ResultPart.toolCallId : ResultPart → String
  | .toolReturn toolCallId _ _ => toolCallId
  | .retryPrompt toolCallId _ => toolCallId

/-- A denial and an interruption are no outcome of an execution. -/
def ResultPart.outcome? : ResultPart → Option ToolOutcome
  | .toolReturn _ .success content =>
    some { succeeded := true, result := some [("content", content.jsonable)] }
  | .toolReturn _ _ _ => none
  | .retryPrompt _ content => some { succeeded := false, error := some content }

def ToolOutcome.status (outcome : ToolOutcome) : ToolCallStatus :=
  if outcome.succeeded then .succeeded else .failed

namespace ChatTurn

/-- The row that was settled for the call, `none` also where its id is no UUID. -/
def settledRowId (settled : DeferredToolResults) (callId : String) : Option UUID := do
  let decision ← settled.metadata.find? callId
  if decision.2.decisionId = "" then none else UUID.parse decision.2.decisionId

/-- What `_record_outcome` writes, and where. -/
def recordable (settled : DeferredToolResults) (part : ResultPart) : Option (UUID × ToolOutcome) := do
  let id ← settledRowId settled part.toolCallId
  let outcome ← part.outcome?
  some (id, outcome)

end ChatTurn

inductive TurnPhase where
  | settling | running | ended | abandoned
  deriving DecidableEq

/-- A chat request. `decisions` are not settled yet, `target` is the proposal that was read for the
first of them; `outcomes` were recorded, and `warned` is named by the warning at the end. -/
structure Turn where
  userId : String
  decisions : List OperatorDecision
  target : Option UUID := none
  settled : DeferredToolResults := {}
  phase : TurnPhase := .settling
  outcomes : List (String × ToolOutcome) := []
  warned : Option (List String) := none

/-- The stored tool calls and the chat requests that came in. -/
structure ChatSystem where
  store : ToolCallStore := {}
  turns : List Turn := []

/-- `stored` says whether recording the outcome of an event went through. -/
inductive ChatAction where
  | propose (userId : String) (id : UUID) (now : Datetime) (providerToolCallId toolName : String)
      (arguments : Option Dict) (model promptVersion : Option String)
  | request (userId : String) (received : List UIMessage)
  | readDecision (t : Nat)
  | settleDecision (t : Nat) (now : Datetime)
  | run (t : Nat)
  | event (t : Nat) (part : ResultPart) (stored : Bool)
  | finish (t : Nat)
  | abandon (t : Nat)

namespace Turn
open ChatTurn

/-- The calls that the turn settled as approved. -/
def approved (turn : Turn) : List String :=
  turn.settled.approvals.rows.filterMap fun (callId, verdict) =>
    if verdict = .approved then some callId else none

def recorded (turn : Turn) : List String := turn.outcomes.map (·.1)

def unaccounted (turn : Turn) : List String :=
  (turn.approved.filter fun callId => callId ∉ turn.recorded).insertionSort (· ≤ ·)

/-- The end of the stream. -/
def finish (turn : Turn) : Turn :=
  { turn with
    phase := .ended
    warned := if turn.unaccounted = [] then none else some turn.unaccounted }

end Turn

namespace ChatSystem
open ChatWire ChatTurn ToolCalls ToolCallApproval

def setTurn (s : ChatSystem) (t : Nat) (turn : Turn) : ChatSystem :=
  { s with turns := s.turns.set t turn }

/-- An accepted request settles the decisions in its history. -/
def request (s : ChatSystem) (userId : String) (received : List UIMessage) : Option ChatSystem :=
  let messages := withoutAttachments received
  match rejectRepeatedToolCallIds messages with
  | .error _ => none
  | .ok _ => some { s with
      turns := s.turns ++ [{ userId, decisions := approvalResponses messages }] }

/-- The first half of `record_decision`. -/
def readDecision (s : ChatSystem) (t : Nat) : Option ChatSystem := do
  let turn ← s.turns[t]?
  match turn.phase, turn.target, turn.decisions with
  | .settling, none, decision :: rest =>
    match decisionTarget (decisionKey turn.userId decision) s.store with
    | none => some (s.setTurn t { turn with decisions := rest })
    | some target => some (s.setTurn t { turn with target := some target })
  | _, _, _ => none

/-- The second half, and what the turn keeps of it. -/
def settleDecision (s : ChatSystem) (t : Nat) (now : Datetime) : Option ChatSystem := do
  let turn ← s.turns[t]?
  match turn.phase, turn.target, turn.decisions with
  | .settling, some target, decision :: rest =>
    let (answer, store) :=
      ToolCallApproval.settleDecision now target turn.userId decision.approved s.store
    some ({ s with store }.setTurn t { turn with
      decisions := rest
      target := none
      settled := settleOne turn.userId turn.settled (decision, answer) })
  | _, _, _ => none

def run (s : ChatSystem) (t : Nat) : Option ChatSystem := do
  let turn ← s.turns[t]?
  if turn.phase = .settling ∧ turn.decisions = [] then
    some (s.setTurn t { turn with phase := .running })
  else none

/-- An outcome is recorded before its event goes on to the client; where that fails the event goes on
all the same. -/
def event (s : ChatSystem) (t : Nat) (part : ResultPart) (stored : Bool) : Option ChatSystem := do
  let turn ← s.turns[t]?
  if turn.phase ≠ .running then none
  else match recordable turn.settled part, stored with
    | some (id, outcome), true =>
      let store :=
        (recordToolCallOutcome id outcome.succeeded outcome.result outcome.error s.store).2
      some ({ s with store }.setTurn t
        { turn with outcomes := turn.outcomes ++ [(part.toolCallId, outcome)] })
    | _, _ => some s

def finish (s : ChatSystem) (t : Nat) : Option ChatSystem := do
  let turn ← s.turns[t]?
  if turn.phase = .running then some (s.setTurn t turn.finish) else none

/-- The request ends before its stream begins. -/
def abandon (s : ChatSystem) (t : Nat) : Option ChatSystem := do
  let turn ← s.turns[t]?
  if turn.phase = .settling then some (s.setTurn t { turn with phase := .abandoned }) else none

def step (s : ChatSystem) : ChatAction → Option ChatSystem
  | .propose userId id now providerToolCallId toolName arguments model promptVersion =>
    let call :=
      pendingToolCall userId id now providerToolCallId toolName arguments model promptVersion
    some { s with store := (addToolCall call s.store).getD s.store }
  | .request userId received => s.request userId received
  | .readDecision t => s.readDecision t
  | .settleDecision t now => s.settleDecision t now
  | .run t => s.run t
  | .event t part stored => s.event t part stored
  | .finish t => s.finish t
  | .abandon t => s.abandon t

end ChatSystem
end Leitstand
