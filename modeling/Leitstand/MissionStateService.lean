import Leitstand.RunStateView

namespace Leitstand
namespace MissionStateService
open TxM

/-- Each planned stage with its position and, for a cleanup stage, the stage it belongs to. -/
def indexById (stages : List Stage) : List (UUID × Nat × Option UUID) :=
  (stages.mapIdx fun index stage =>
    (stage.stageId, index, none) ::
      stage.children.map fun child => (child.stageId, index, some stage.stageId)).flatten

/-- The last entry for an id counts, as in a dictionary. -/
def lookupIndex (stages : List Stage) (stageId : UUID) : Option (Nat × Option UUID) :=
  ((indexById stages).reverse.find? fun entry => entry.1 = stageId).map (·.2)

/-- A frame's stage states as rows, indexed by the run's own plan; a stage absent from the plan is
ignored. -/
def liveRecords (state : MissionStateMessage) (stages : List Stage) : List StageStateRecord :=
  state.stageStates.filterMap fun stageState =>
    (lookupIndex stages stageState.stageId).map fun found =>
      { stageId := stageState.stageId
        headerId := state.headerId
        stageIndex := found.1
        status := stageState.status
        progress := stageState.progress
        startedAt := stageState.startedAt
        endedAt := stageState.endedAt
        result := stageState.result
        sourceTs := state.timestamp
        parentStageId := found.2 }

/-- The report could not yet reflect the operator's pending pause or resume. -/
def predatesRequest (run : MissionRun) (headerId : Nat) (trigger : RunTrigger) : Bool :=
  if run.status ≠ .pausing ∧ run.status ≠ .resuming then false
  else if trigger ≠ .pause ∧ trigger ≠ .ack then false
  else match run.transitions.getLast? with
    | none => false
    | some request => request.reportHeaderId.any (headerId ≤ ·)

/-- Where a frame takes the run, `none` where it moves nothing. -/
def reportTarget (run : MissionRun) (state : MissionStateMessage) : Option RunStatus :=
  let trigger := triggerForReport run.status state.execStatus
  if predatesRequest run state.headerId trigger then none else tryNextState run.status trigger

/-- A failure keeps the dispatch warning beside the robot's errors, any other move clears it. -/
def reportErrors (run : MissionRun) (state : MissionStateMessage) (target : RunStatus) :
    Option (List MissionError) :=
  if target = .failed then some (run.failureErrors.getD [] ++ state.errors)
  else run.failureErrors.map fun _ => []

def lastReportOf (now : Datetime) (state : MissionStateMessage) : LastReport :=
  { receivedAt := now, headerId := state.headerId, execStatus := state.execStatus,
    robotTimestamp := state.timestamp }

/-- The status change a frame makes, if any. -/
def reportUpdate (run : MissionRun) (state : MissionStateMessage) : Option StatusUpdate :=
  (reportTarget run state).map fun target =>
    { newStatus := target, expected := run.status,
      trigger := triggerForReport run.status state.execStatus,
      reportHeaderId := some state.headerId, errors := reportErrors run state target }

/-- A frame moves a run as the lifecycle allows, unless it predates the last request. -/
theorem reportUpdate_eq_some {run : MissionRun} {state : MissionStateMessage} {u : StatusUpdate} :
    reportUpdate run state = some u ↔
      predatesRequest run state.headerId (triggerForReport run.status state.execStatus) = false ∧
      ∃ target,
        allowedTransitions run.status (triggerForReport run.status state.execStatus) = some target ∧
        u = { newStatus := target, expected := run.status,
              trigger := triggerForReport run.status state.execStatus,
              reportHeaderId := some state.headerId, errors := reportErrors run state target } := by
  unfold reportUpdate reportTarget tryNextState
  constructor
  · intro h
    obtain ⟨target, htarget, rfl⟩ := Option.map_eq_some_iff.mp h
    dsimp only at htarget
    split_ifs at htarget with hp
    exact ⟨Bool.eq_false_iff.mpr hp, target, htarget, rfl⟩
  · rintro ⟨hp, target, htarget, rfl⟩
    dsimp only
    rw [hp, htarget]
    rfl

/-- A report after the end must not keep the run's report age ticking. -/
def touchReport (now : Datetime) (run : MissionRun) (state : MissionStateMessage) : ServiceM Unit :=
  if isTerminal run.status then return ()
  else Runs.touchLastReport run.runId (lastReportOf now state)

/-- The rows are read back before they are published: a frame that lost the header ordering wrote
nothing. -/
def recordLive (run : MissionRun) (status : RunStatus) (live : List StageStateRecord) :
    ServiceM Unit := do
  if live ≠ [] ∧ isExecuting status then
    Runs.upsertStageRuns run.runId live
    let rows ← Runs.getStageRuns run.runId
    publishRunState run rows none

def recordStages (now : Datetime) (run : MissionRun) (update : StatusUpdate)
    (live : List StageStateRecord) : ServiceM Unit := do
  if isTerminal update.newStatus then
    let _ ← settleStageState now run update.newStatus update.errors live
  else recordLive run update.newStatus live

/-- The lifecycle and the stage rows, as the frame moves them. -/
def applyReport (now : Datetime) (run : MissionRun) (state : MissionStateMessage) :
    ServiceM Unit := do
  let live := liveRecords state run.stages.stages
  match reportUpdate run state with
  | none => recordLive run run.status live
  | some update =>
    match ← Runs.updateStatus now run.runId update with
    -- The run is not what it was read as, so the frame moves nothing.
    | none => recordLive run run.status live
    | some _ =>
      recordStages now run update live
      emitRunLifecycle run.missionId run.runId run.robotId update.newStatus update.trigger

def record (now : Datetime) (robotId : RobotId) (state : MissionStateMessage) : ServiceM Unit := do
  match ← Runs.getForUpdate state.runId with
  | none => return ()
  | some run =>
    -- A robot must not write another robot's run.
    if run.robotId ≠ robotId then return ()
    else
      touchReport now run state
      applyReport now run state

end MissionStateService
end Leitstand
