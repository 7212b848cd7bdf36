import Mathlib.Data.List.Basic
import Leitstand.Json

namespace Leitstand

/-- The classes of tool parts the endpoint tells apart; `earlier` is any that comes before them. -/
inductive ToolPartState where
  | earlier | approvalResponded | outputAvailable | outputError | outputDenied
  deriving DecidableEq

structure ToolApprovalResponded where
  approved : Bool
  reason : Option String

/-- A tool part. A static one has its tool in its `type`, a dynamic one in `toolName`; `approval` is
the operator's answer, where it is one. -/
structure ToolPart where
  type : String
  toolName : Option String
  toolCallId : String
  state : ToolPartState
  approval : Option ToolApprovalResponded
  input : Json

inductive UIPart where
  | tool (part : ToolPart)
  | file
  | other (content : Json)

structure UIMessage where
  role : String
  parts : List UIPart

/-- One approve or deny, reduced from the wire to what settling it needs. -/
structure OperatorDecision where
  providerToolCallId : String
  approved : Bool
  reason : Option String
  toolName : String
  arguments : Json

/-- The refusals of a chat request. -/
inductive ChatError where
  | toolCallRepeated (callId : String)
  deriving DecidableEq

/-- The part carries its result. -/
def ToolPartState.isTerminal : ToolPartState → Bool
  | .outputAvailable | .outputError | .outputDenied => true
  | _ => false

namespace ChatWire

def toolPart? : UIPart → Option ToolPart
  | .tool part => some part
  | _ => none

def toolParts (messages : List UIMessage) : List ToolPart :=
  messages.flatMap fun message => message.parts.filterMap toolPart?

def isFile : UIPart → Bool
  | .file => true
  | _ => false

/-- Keep the parts that pass, and the messages that have one. -/
def filterParts (keep : UIPart → Bool) (messages : List UIMessage) : List UIMessage :=
  messages.filterMap fun message =>
    let parts := message.parts.filter keep
    if parts = [] then none else some { message with parts }

def withoutAttachments (messages : List UIMessage) : List UIMessage :=
  if messages.any fun message => message.parts.any isFile then
    filterParts (fun part => !isFile part) messages
  else messages

/-- How many tool parts carry the id. -/
def occurrences (messages : List UIMessage) (callId : String) : Nat :=
  (toolParts messages).countP fun part => part.toolCallId = callId

def rejectRepeatedToolCallIds (messages : List UIMessage) : Except ChatError Unit :=
  let decided := (toolParts messages).filter fun part => part.state = .approvalResponded
  match decided.find? fun part => occurrences messages part.toolCallId > 1 with
  | some part => .error (.toolCallRepeated part.toolCallId)
  | none => .ok ()

def toolPrefix : String := "tool-"

def removePrefix (start text : String) : String :=
  if start.toList.isPrefixOf text.toList then String.ofList (text.toList.drop start.length) else text

/-- The tool a part names, statically or not. -/
def toolNameOf (part : ToolPart) : String :=
  match part.toolName with
  | some name => if name = "" then removePrefix toolPrefix part.type else name
  | none => removePrefix toolPrefix part.type

def decision? (part : ToolPart) : Option OperatorDecision :=
  if part.state ≠ .approvalResponded then none
  else part.approval.map fun approval =>
    { providerToolCallId := part.toolCallId, approved := approval.approved,
      reason := approval.reason, toolName := toolNameOf part, arguments := part.input }

/-- The decisions in the newest assistant message. -/
def approvalResponses (messages : List UIMessage) : List OperatorDecision :=
  match messages.reverse.find? fun message => message.role = "assistant" with
  | none => []
  | some latest => (latest.parts.filterMap toolPart?).filterMap decision?

/-- Without the tool parts that are neither answered nor settled this turn. -/
def pruned (messages : List UIMessage) (settledIds : List String) : List UIMessage :=
  filterParts (fun part => match part with
    | .tool part => part.state.isTerminal || part.toolCallId ∈ settledIds
    | _ => true) messages

end ChatWire
end Leitstand
