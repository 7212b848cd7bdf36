import Leitstand.RunEffects

namespace Leitstand

/-- What can happen to one stored run, as the run's row sees it. -/
inductive RunInput where
  | settled (now : Datetime) (command : SettleRunCommand)
  | cancelled (now : Datetime) (mode : CancelMode) (offline : Bool) (reply : ControlReply)
  | closed (now : Datetime)
  | paused (now : Datetime)
  | resumed (now : Datetime)
  | reported (now : Datetime) (state : MissionStateMessage)
  | unclaimed (now : Datetime) (judged : RunStatus)
  | annotated (now : Datetime) (notes : Option String)

/-- The frame the run takes in. -/
def RunInput.frame? : RunInput → Option MissionStateMessage
  | .reported _ state => some state
  | _ => none

/-- The row an input leaves, and the events and commands it causes. -/
structure Response where
  row : StoredRun
  events : List Event := []
  commands : List Command := []

namespace StoredRun
open MissionStateService RunReconciliation RunService
variable (r : StoredRun) (now : Datetime)

def acceptUpdate (command : SettleRunCommand) : StatusUpdate :=
  { newStatus := .dispatched, expected := .pending, trigger := .accept,
    dispatchedAt := some command.repliedAt }

def unconfirmedUpdate (command : SettleRunCommand) : StatusUpdate :=
  { newStatus := .pending, expected := .pending, trigger := .dispatchUnconfirmed,
    detail := some [("error_type", some (unconfirmedCause command).1),
      ("reason", some (unconfirmedCause command).2)],
    errors := some [dispatchWarning (unconfirmedCause command).1 (unconfirmedCause command).2] }

def rejectionText (command : SettleRunCommand) : String :=
  orText command.reason "The robot rejected the dispatch."

def rejectUpdate (command : SettleRunCommand) : StatusUpdate :=
  { newStatus := if r.status = .cancelling then .cancelled else .rejected, expected := r.status,
    trigger := .reject, errors := some [dispatchRejection (rejectionText command)] }

def cancelUpdate (mode : CancelMode) : StatusUpdate :=
  { newStatus := .cancelling, expected := r.status, trigger := .cancelRequest,
    reportHeaderId := some (lastHeaderId r.run), detail := some [("mode", some mode.value)] }

def refusedUpdate (reason : Option String) : StatusUpdate :=
  { newStatus := .cancelled, expected := .cancelling, trigger := .reconcile,
    detail := some [("reason", reason)] }

def closeUpdate : StatusUpdate :=
  { newStatus := .cancelled, expected := r.status, trigger := .close,
    detail := some [("reason", some closedOffline)] }

def steerUpdate (trigger : RunTrigger) (target : RunStatus) : StatusUpdate :=
  { newStatus := target, expected := r.status, trigger := trigger,
    reportHeaderId := some (lastHeaderId r.run), acknowledged := some true }

def unclaimedUpdate : StatusUpdate :=
  { newStatus := if r.status = .cancelling then .cancelled else .failed, expected := r.status,
    trigger := .reconcile, detail := some [("reason", some unclaimedReason)],
    errors := some [unclaimedError] }

/-- The change `u` that ends the run, with the two events that announce it. -/
def ending (u : StatusUpdate) (overlay : List StageStateRecord) (reason : Option String) :
    Response :=
  { row := r.closed now u overlay
    events := [r.stateEvent (r.finalRows now u.newStatus overlay) u.errors,
      r.lifecycleEvent u.newStatus u.trigger reason] }

theorem isTerminal_rejectUpdate (command : SettleRunCommand) :
    isTerminal (r.rejectUpdate command).newStatus = true := by
  unfold rejectUpdate
  split_ifs <;> rfl

theorem isTerminal_unclaimedUpdate : isTerminal r.unclaimedUpdate.newStatus = true := by
  unfold unclaimedUpdate
  split_ifs <;> rfl

/-- A cancel that landed while the dispatch was in flight must still reach the robot. -/
def lateReply (command : SettleRunCommand) : Response :=
  { row := r.withDispatchedAt command.repliedAt
    commands := if r.status = .cancelling then [.cancel r.runId r.robotId .graceful] else [] }

def settle (command : SettleRunCommand) : Response :=
  match command.outcome with
  | .accepted =>
    if r.status = .pending then
      { row := r.withStatus now (acceptUpdate command)
        events := [r.lifecycleEvent .dispatched .accept] }
    else r.lateReply command
  | .rejected =>
    if r.status = .pending ∨ r.status = .cancelling then
      r.ending now (r.rejectUpdate command) [] (some (rejectionText command))
    -- The run moved on before the rejection, so its status stands.
    else { row := r }
  | .timeout | .error =>
    if r.status = .pending then { row := r.withStatus now (unconfirmedUpdate command) }
    else r.lateReply command

/-- How the request's entry is marked once the robot has answered, or cannot. -/
def cancelReceipt (offline : Bool) (reply : ControlReply) : Bool × Option Detail :=
  if offline then (false, some [("deferred", some "robot offline")])
  else match reply.applied with
    | some true => (true, none)
    | none => (false, none)
    | some false => (false, some [("reason", reply.reason)])

def cancelRequested (mode : CancelMode) (offline : Bool) (reply : ControlReply) : StoredRun :=
  (r.withStatus now (r.cancelUpdate mode)).withAcknowledged (cancelReceipt offline reply).1
    (cancelReceipt offline reply).2

/-- The robot does not hold the run, so a cancelling one has nothing to wait for. -/
def cancelRefused (offline : Bool) (reply : ControlReply) : Bool :=
  !offline && decide (reply.applied = some false) &&
    decide (reply.refusal = some .notExecutingRun) && decide (r.status ≠ .pending)

def cancel (mode : CancelMode) (offline : Bool) (reply : ControlReply) : Response :=
  if isTerminal r.status then { row := r }
  else
    let requested := r.cancelRequested now mode offline reply
    -- A repeated cancel is written again and sent again, but announced once.
    let announced :=
      if r.status = .cancelling then [] else [r.lifecycleEvent .cancelling .cancelRequest]
    let commands := if offline then [] else [.cancel r.runId r.robotId mode]
    if r.cancelRefused offline reply then
      let ended := requested.ending now (refusedUpdate reply.reason) [] reply.reason
      { row := ended.row, events := announced ++ ended.events, commands }
    else { row := requested, events := announced, commands }

def close : Response :=
  if isTerminal r.status then { row := r }
  else r.ending now r.closeUpdate [] (some closedOffline)

def steer (trigger : RunTrigger) (command : Command) : Response :=
  match allowedTransitions r.status trigger with
  | none => { row := r }
  | some target =>
    { row := r.withStatus now (r.steerUpdate trigger target)
      events := [r.lifecycleEvent target trigger]
      commands := [command] }

/-- The rows of a frame, written by a run the robot executes and announced as they then stand. -/
def recordLive (live : List StageStateRecord) : Response :=
  if live ≠ [] ∧ isExecuting r.status then
    { row := r.withStageRows live true
      events := [r.stateEvent (r.withStageRows live true).stageRows none] }
  else { row := r }

/-- Postgres refuses a statement that writes one row twice. -/
def refusesLive (live : List StageStateRecord) : Bool :=
  decide (live ≠ []) && isExecuting r.status && rewritesRow true r.stageRuns [] live

def touched (state : MissionStateMessage) : StoredRun :=
  if isTerminal r.status then r else r.withReport (lastReportOf now state)

def report (state : MissionStateMessage) : Response :=
  let live := liveRecords state r.plan
  match reportUpdate r.toRun state with
  | none => (r.touched now state).recordLive live
  | some u =>
    if isTerminal u.newStatus then (r.touched now state).ending now u live none
    else
      let written := ((r.touched now state).withStatus now u).recordLive live
      { row := written.row
        events := written.events ++ [(r.touched now state).lifecycleEvent u.newStatus u.trigger] }

/-- The frame's rows are refused, so its whole transaction is. -/
def refusesReport (state : MissionStateMessage) : Bool :=
  let live := liveRecords state r.plan
  match reportUpdate r.toRun state with
  | none => (r.touched now state).refusesLive live
  | some u =>
    if isTerminal u.newStatus then
      rewritesRow false (r.touched now state).stageRuns []
        ((r.touched now state).finalRows now u.newStatus live)
    else ((r.touched now state).withStatus now u).refusesLive live

def unclaimed (judged : RunStatus) : Response :=
  if r.status = judged ∧ isTerminal r.status = false then
    r.ending now r.unclaimedUpdate [] (some unclaimedReason)
  else { row := r }

def respond : RunInput → Response
  | .settled now command => r.settle now command
  | .cancelled now mode offline reply => r.cancel now mode offline reply
  | .closed now => r.close now
  | .paused now => r.steer now .pauseRequest (.pause r.runId r.robotId)
  | .resumed now => r.steer now .resumeRequest (.resume r.runId r.robotId)
  | .reported now state => r.report now state
  | .unclaimed now judged => r.unclaimed now judged
  | .annotated now notes => { row := r.withNotes now notes }

theorem cancel_row (mode : CancelMode) (offline : Bool) (reply : ControlReply) :
    (r.cancel now mode offline reply).row =
      if isTerminal r.status then r
      else if r.cancelRefused offline reply then
        ((r.cancelRequested now mode offline reply).ending now (refusedUpdate reply.reason) []
          reply.reason).row
      else r.cancelRequested now mode offline reply := by
  unfold cancel
  dsimp only
  split_ifs <;> rfl

/-- The run's own row stays as it is when the rows of a frame are written. -/
theorem run_recordLive (live : List StageStateRecord) : (r.recordLive live).row.run = r.run := by
  unfold recordLive
  split_ifs <;> rfl

/-- A report that is noted changes nothing but the last report. -/
theorem touched_eq (state : MissionStateMessage) :
    ∃ report, r.touched now state = { r with run := { r.run with lastReport := report } } := by
  unfold touched
  split_ifs
  · exact ⟨r.run.lastReport, rfl⟩
  · exact ⟨some (lastReportOf now state), rfl⟩

section Kept
variable (live : List StageStateRecord) (state : MissionStateMessage)

theorem status_recordLive : (r.recordLive live).row.status = r.status := by
  unfold status
  rw [run_recordLive]

theorem errors_recordLive : (r.recordLive live).row.errors = r.errors := by
  unfold errors
  rw [run_recordLive]

theorem transitions_recordLive : (r.recordLive live).row.transitions = r.transitions := by
  unfold transitions
  rw [run_recordLive]

theorem frozen_recordLive : (r.recordLive live).row.frozen = r.frozen := by
  unfold frozen runId missionId robotId
  rw [run_recordLive]

theorem errors_touched : (r.touched now state).errors = r.errors := by
  obtain ⟨report, h⟩ := r.touched_eq now state
  rw [h]
  rfl

theorem transitions_touched : (r.touched now state).transitions = r.transitions := by
  obtain ⟨report, h⟩ := r.touched_eq now state
  rw [h]
  rfl

theorem frozen_touched : (r.touched now state).frozen = r.frozen := by
  obtain ⟨report, h⟩ := r.touched_eq now state
  rw [h]
  rfl

end Kept

/-- A frame leaves the status of the run, ends the run or moves it on. -/
theorem report_cases (state : MissionStateMessage) :
    (reportUpdate r.toRun state = none ∧ r.report now state =
      (r.touched now state).recordLive (liveRecords state r.plan)) ∨
    ∃ u, reportUpdate r.toRun state = some u ∧
      (isTerminal u.newStatus = true ∧ r.report now state =
        (r.touched now state).ending now u (liveRecords state r.plan) none ∨
      isTerminal u.newStatus = false ∧ r.report now state =
        let written := ((r.touched now state).withStatus now u).recordLive (liveRecords state r.plan)
        { row := written.row
          events := written.events ++
            [(r.touched now state).lifecycleEvent u.newStatus u.trigger] }) := by
  unfold report
  cases hu : reportUpdate r.toRun state with
  | none => exact .inl ⟨rfl, rfl⟩
  | some u =>
    refine .inr ⟨u, rfl, ?_⟩
    cases ht : isTerminal u.newStatus with
    | true => exact .inl ⟨rfl, if_pos ht⟩
    | false => exact .inr ⟨rfl, if_neg (Bool.eq_false_iff.mp ht)⟩

/-- No input changes what a run was started with. -/
theorem frozen_respond (input : RunInput) : (r.respond input).row.frozen = r.frozen := by
  cases input with
  | settled now command =>
    dsimp only [respond, settle]
    split <;> split_ifs <;> rfl
  | cancelled now mode offline reply =>
    dsimp only [respond, cancel]
    split_ifs <;> rfl
  | closed now =>
    dsimp only [respond, close]
    split_ifs <;> rfl
  | paused now =>
    dsimp only [respond, steer]
    split <;> rfl
  | resumed now =>
    dsimp only [respond, steer]
    split <;> rfl
  | reported now state =>
    dsimp only [respond]
    obtain ⟨-, h⟩ | ⟨u, -, ⟨-, h⟩ | ⟨-, h⟩⟩ := r.report_cases now state <;> rw [h]
    · rw [frozen_recordLive, frozen_touched]
    · exact frozen_touched r now state
    · rw [frozen_recordLive, frozen_withStatus, frozen_touched]
  | unclaimed now judged =>
    dsimp only [respond, unclaimed]
    split_ifs <;> rfl
  | annotated now notes => rfl

theorem runId_respond (input : RunInput) : (r.respond input).row.runId = r.runId :=
  congrArg FrozenRun.runId (r.frozen_respond input)

end StoredRun
end Leitstand
