import Leitstand.MissionState

namespace Leitstand

inductive RunStatus where
  | pending | dispatched | running | paused | succeeded | failed | cancelled | rejected
  | pausing | resuming | cancelling
  deriving DecidableEq

inductive RunTrigger where
  | accept | reject | timeout | dispatchUnconfirmed | reconcile
  | pauseRequest | resumeRequest | cancelRequest | close
  | ack | pause | resume | complete | fail | cancel
  deriving DecidableEq

def RunTrigger.value : RunTrigger → String
  | accept => "accept"
  | reject => "reject"
  | timeout => "timeout"
  | dispatchUnconfirmed => "dispatch_unconfirmed"
  | reconcile => "reconcile"
  | pauseRequest => "pause_request"
  | resumeRequest => "resume_request"
  | cancelRequest => "cancel_request"
  | close => "close"
  | ack => "ack"
  | pause => "pause"
  | resume => "resume"
  | complete => "complete"
  | fail => "fail"
  | cancel => "cancel"

inductive Actor where
  | operator | robot | backend
  deriving DecidableEq

def actorOf : RunTrigger → Actor
  | .pauseRequest | .resumeRequest | .cancelRequest | .close => .operator
  | .accept | .reject | .timeout | .dispatchUnconfirmed | .reconcile => .backend
  | .ack | .pause | .resume | .complete | .fail | .cancel => .robot

def isTerminal : RunStatus → Bool
  | .succeeded | .failed | .cancelled | .rejected => true
  | _ => false

@[simp] theorem isTerminal_pending : isTerminal .pending = false := rfl
@[simp] theorem isTerminal_dispatched : isTerminal .dispatched = false := rfl
@[simp] theorem isTerminal_running : isTerminal .running = false := rfl
@[simp] theorem isTerminal_paused : isTerminal .paused = false := rfl
@[simp] theorem isTerminal_pausing : isTerminal .pausing = false := rfl
@[simp] theorem isTerminal_resuming : isTerminal .resuming = false := rfl
@[simp] theorem isTerminal_cancelling : isTerminal .cancelling = false := rfl
@[simp] theorem isTerminal_succeeded : isTerminal .succeeded = true := rfl
@[simp] theorem isTerminal_failed : isTerminal .failed = true := rfl
@[simp] theorem isTerminal_cancelled : isTerminal .cancelled = true := rfl
@[simp] theorem isTerminal_rejected : isTerminal .rejected = true := rfl

/-- The robot has, or may have, the goal. -/
def isExecuting : RunStatus → Bool
  | .dispatched | .running | .paused | .pausing | .resuming | .cancelling => true
  | _ => false

/-- The run occupies its robot and counts against the mission. -/
def isActive (s : RunStatus) : Bool := isExecuting s || s == .pending

def replyTransitions : RunStatus → RunTrigger → Option RunStatus
  | .pending, .accept => some .dispatched
  | .pending, .reject => some .rejected
  | .cancelling, .reject => some .cancelled
  | _, _ => none

def requestTransitions : RunStatus → RunTrigger → Option RunStatus
  | .dispatched, .pauseRequest | .running, .pauseRequest | .resuming, .pauseRequest => some .pausing
  | .paused, .resumeRequest | .pausing, .resumeRequest => some .resuming
  | .pending, .cancelRequest | .dispatched, .cancelRequest | .running, .cancelRequest
  | .paused, .cancelRequest | .pausing, .cancelRequest | .resuming, .cancelRequest
  | .cancelling, .cancelRequest => some .cancelling
  | _, _ => none

def progressTransitions : RunStatus → RunTrigger → Option RunStatus
  | .pending, .ack | .dispatched, .ack | .resuming, .ack => some .running
  | .dispatched, .pause | .running, .pause | .pausing, .pause => some .paused
  | .paused, .resume => some .running
  | _, _ => none

def closeTransitions (s : RunStatus) : RunTrigger → Option RunStatus
  | .close => if isTerminal s then none else some .cancelled
  | _ => none

def reconcileTransitions : RunStatus → RunTrigger → Option RunStatus
  | .cancelling, .reconcile => some .cancelled
  | .pending, .reconcile | .dispatched, .reconcile | .running, .reconcile | .paused, .reconcile
  | .pausing, .reconcile | .resuming, .reconcile => some .failed
  | _, _ => none

def outcomes : RunTrigger → Option RunStatus
  | .complete => some .succeeded
  | .fail => some .failed
  | .cancel => some .cancelled
  | .timeout => some .failed
  | _ => none

def outcomeTransitions (s : RunStatus) (t : RunTrigger) : Option RunStatus :=
  if isTerminal s then none else outcomes t

/-- The table, the groups merged in the source's order; no two of them share a key. -/
def allowedTransitions (s : RunStatus) (t : RunTrigger) : Option RunStatus :=
  outcomeTransitions s t <|> reconcileTransitions s t <|> closeTransitions s t <|>
    progressTransitions s t <|> requestTransitions s t <|> replyTransitions s t

/-- `none` where `next_state` raises and `try_next_state` returns `None`. -/
def tryNextState (current : RunStatus) (trigger : RunTrigger) : Option RunStatus :=
  allowedTransitions current trigger

def isOutcome : MissionExecStatus → Bool
  | .succeeded | .failed | .cancelled => true
  | .running | .paused => false

def triggerForReport (current : RunStatus) : MissionExecStatus → RunTrigger
  | .succeeded => .complete
  | .failed => .fail
  | .cancelled => .cancel
  | .running => if current = .paused then .resume else .ack
  | .paused => .pause

theorem isActive_eq_not_isTerminal (s : RunStatus) : isActive s = !isTerminal s := by
  cases s <;> rfl

theorem isTerminal_of_isExecuting {s : RunStatus} (h : isExecuting s = true) :
    isTerminal s = false := by
  cases s <;> first | rfl | cases h

/-- A terminal state has no way out. -/
theorem allowedTransitions_terminal {s : RunStatus} (h : isTerminal s = true) (t : RunTrigger) :
    allowedTransitions s t = none := by
  cases s <;> first | (cases t <;> rfl) | cases h

theorem not_isTerminal_of_allowed {s s' : RunStatus} {t : RunTrigger}
    (h : allowedTransitions s t = some s') : isTerminal s = false := by
  cases hs : isTerminal s with
  | false => rfl
  | true => rw [allowedTransitions_terminal hs] at h; cases h

theorem allowedTransitions_close {s : RunStatus} (h : isTerminal s = false) :
    allowedTransitions s .close = some .cancelled := by
  cases s <;> first | rfl | cases h

theorem allowedTransitions_cancelRequest {s : RunStatus} (h : isTerminal s = false) :
    allowedTransitions s .cancelRequest = some .cancelling := by
  cases s <;> first | rfl | cases h

/-- A cancelling run stays so until it ends. -/
theorem allowedTransitions_cancelling {s' : RunStatus} {t : RunTrigger}
    (h : allowedTransitions .cancelling t = some s') : s' = .cancelling ∨ isTerminal s' = true := by
  cases t <;> cases h <;> simp

/-- A request leaves the run live. -/
theorem not_isTerminal_of_request {s s' : RunStatus} {t : RunTrigger}
    (ht : t = .pauseRequest ∨ t = .resumeRequest) (h : allowedTransitions s t = some s') :
    isTerminal s' = false := by
  obtain rfl | rfl := ht <;> cases s <;> cases h <;> rfl

/-- A report of no outcome leaves the run live. -/
theorem not_isTerminal_of_report {s s' : RunStatus} {exec : MissionExecStatus}
    (he : isOutcome exec = false) (h : allowedTransitions s (triggerForReport s exec) = some s') :
    isTerminal s' = false := by
  cases exec <;> cases he <;> cases s <;> cases h <;> rfl

end Leitstand
