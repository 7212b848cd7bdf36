import Leitstand.ControlReceipt
import Leitstand.FinalRows

namespace Leitstand
open TxM

/-- The message a robot answers a dispatch with. -/
structure DispatchResponse where
  accepted : Bool := false
  reason : Option String := none

/-- What becomes of a reply's body; `raised` is any error but a `ParseError`, as type and text. -/
inductive ParsedDispatch where
  | message (response : DispatchResponse)
  | parseError
  | raised (error : String)

/-- How asking the robot ended. -/
inductive DispatchEnd where
  | accepted
  | rejected (reason : Option String)
  | timeout
  | failed (reason : String)
  deriving DecidableEq

/-- What a start raises once its run is committed. -/
inductive StartError where
  | missionRejectedByRobot (runId : UUID) (robotId : RobotId) (reason : Option String)
  | missionDispatchTimeout (runId : UUID) (robotId : RobotId)
  | missionDispatchFailed (runId : UUID) (robotId : RobotId) (reason : String)
  | service (error : ServiceError)
  deriving DecidableEq

namespace MissionDispatcher

/-- The first reply that can be read decides; one that cannot is passed over. -/
def dispatchReply (parse : Bytes → ParsedDispatch) : List Reply → DispatchEnd
  | [] => .timeout
  | reply :: replies =>
    match replyPayloadBytes reply with
    | none => dispatchReply parse replies
    | some body =>
      match parse body with
      | .parseError => dispatchReply parse replies
      | .raised error => .failed error
      | .message response => if response.accepted then .accepted else .rejected response.reason

/-- Ask the robot; an error where the request cannot be encoded or sent. -/
def dispatch (parse : Bytes → ParsedDispatch) : Except String (List Reply) → DispatchEnd
  | .error error => .failed error
  | .ok replies => dispatchReply parse replies

end MissionDispatcher

namespace DispatchEnd

def outcome : DispatchEnd → DispatchOutcome
  | .accepted => .accepted
  | .rejected _ => .rejected
  | .timeout => .timeout
  | .failed _ => .error

def reason : DispatchEnd → Option String
  | .accepted | .timeout => none
  | .rejected reason => reason
  | .failed reason => some reason

def error? (run : MissionRun) : DispatchEnd → Option StartError
  | .accepted => none
  | .rejected reason => some (.missionRejectedByRobot run.runId run.robotId reason)
  | .timeout => some (.missionDispatchTimeout run.runId run.robotId)
  | .failed reason => some (.missionDispatchFailed run.runId run.robotId reason)

/-- What the second transaction is given. -/
def settleCommand (runId : UUID) (repliedAt : Datetime) (answer : DispatchEnd) : SettleRunCommand :=
  { runId, outcome := answer.outcome, repliedAt, reason := answer.reason }

end DispatchEnd

inductive CallPhase where
  | asking
  | heard (answer : DispatchEnd)
  | answered (answer : DispatchEnd) (result : Except StartError RunStatus)
  | lost

/-- A start between its two transactions, or after them; `run` is what the first one committed. -/
structure StartCall where
  run : MissionRun
  phase : CallPhase := .asking

/-- The backend with the starts whose run it has committed. -/
structure Starts where
  system : System
  calls : List StartCall := []

inductive StartAction where
  | insert (i : Nat) (runId : UUID)
  | hear (k : Nat) (asked : Except String (List Reply))
  | settle (k : Nat)
  | lose (k : Nat)
  | other (a : Action)

namespace StartCall

/-- The statuses that nothing confirms a run in. -/
def unconfirmed (status : RunStatus) : Bool :=
  status = .pending || status = .rejected || status = .failed

/-- The failure of the dispatch is reported unless the run has moved on. -/
def result (call : StartCall) (answer : DispatchEnd) :
    Except ServiceError MissionRun → Except StartError RunStatus
  | .error e => .error (.service e)
  | .ok settled =>
    match answer.error? call.run with
    | none => .ok settled.status
    | some e => if unconfirmed settled.status then .error e else .ok settled.status

end StartCall

/-- A run is inserted and settled by its own start alone. -/
def Action.ofStart : Action → Bool
  | .insert _ _ | .settle _ => true
  | _ => false

namespace Starts

def setPhase (s : Starts) (k : Nat) (call : StartCall) (phase : CallPhase) : Starts :=
  { s with calls := s.calls.set k { call with phase } }

/-- The first transaction commits, or refuses the run and the call is over. -/
def insert (s : Starts) (i : Nat) (runId : UUID) : Option Starts := do
  let system ← s.system.step (.insert i runId)
  let p ← s.system.dispatches[i]?
  match s.system.outcome (RunService.prepareInsert s.system.digests runId p) with
  | .error _ => some { s with system }
  | .ok run => some { system, calls := s.calls ++ [{ run }] }

def hear (parse : Bytes → ParsedDispatch) (s : Starts) (k : Nat)
    (asked : Except String (List Reply)) : Option Starts := do
  let call ← s.calls[k]?
  match call.phase with
  | .asking => some (s.setPhase k call (.heard (MissionDispatcher.dispatch parse asked)))
  | _ => none

/-- The second transaction, and what the caller is told of it. -/
def settle (s : Starts) (k : Nat) : Option Starts := do
  let call ← s.calls[k]?
  match call.phase with
  | .heard answer =>
    let command := answer.settleCommand call.run.runId s.system.clock
    let system ← s.system.step (.settle command)
    let settled := s.system.outcome (RunService.settle s.system.clock command)
    some ({ s with system }.setPhase k call (.answered answer (call.result answer settled)))
  | _ => none

/-- The process ends, or the database does not answer, before the second transaction is committed. -/
def lose (s : Starts) (k : Nat) : Option Starts := do
  let call ← s.calls[k]?
  match call.phase with
  | .asking | .heard _ => some (s.setPhase k call .lost)
  | _ => none

def step (parse : Bytes → ParsedDispatch) (s : Starts) : StartAction → Option Starts
  | .insert i runId => s.insert i runId
  | .hear k asked => s.hear parse k asked
  | .settle k => s.settle k
  | .lose k => s.lose k
  | .other a => if a.ofStart then none else (s.system.step a).map fun system => { s with system }

end Starts
end Leitstand
