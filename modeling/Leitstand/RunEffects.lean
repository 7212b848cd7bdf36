import Leitstand.RunService
import Leitstand.MissionStateService
import Leitstand.RobotConnectivity

namespace Leitstand

/-- What no operation on a run may change. -/
structure FrozenRun where
  runId : UUID
  missionId : UUID
  robotId : RobotId
  stages : Plan
  stagesDigest : String
  siteAnchors : Option (List (String × RunSiteAnchor))
  origin : RunOrigin
  createdAt : Datetime

namespace StoredRun
variable (r : StoredRun) (now : Datetime) (u : StatusUpdate)

def frozen : FrozenRun :=
  { runId := r.runId, missionId := r.missionId, robotId := r.robotId, stages := r.run.stages
    stagesDigest := r.run.stagesDigest, siteAnchors := r.run.siteAnchors
    origin := r.run.origin, createdAt := r.run.createdAt }

-- Not definitional: a side condition these lemmas settle must get a proof of its own.
@[simp] theorem toRun_runId : r.toRun.runId = r.runId := (rfl)
@[simp] theorem toRun_missionId : r.toRun.missionId = r.missionId := (rfl)
@[simp] theorem toRun_robotId : r.toRun.robotId = r.robotId := (rfl)
@[simp] theorem toRun_status : r.toRun.status = r.status := (rfl)
@[simp] theorem toRun_stages : r.toRun.stages = r.run.stages := (rfl)
@[simp] theorem returned_runId : r.returned.runId = r.runId := (rfl)
@[simp] theorem returned_missionId : r.returned.missionId = r.missionId := (rfl)
@[simp] theorem returned_status : r.returned.status = r.status := (rfl)
@[simp] theorem returned_stages : r.returned.stages = r.run.stages := (rfl)

@[simp] theorem frozen_withStatus : (r.withStatus now u).frozen = r.frozen := (rfl)
@[simp] theorem runId_withStatus : (r.withStatus now u).runId = r.runId := (rfl)
@[simp] theorem missionId_withStatus : (r.withStatus now u).missionId = r.missionId := (rfl)
@[simp] theorem stages_withStatus : (r.withStatus now u).run.stages = r.run.stages := (rfl)
@[simp] theorem stageRuns_withStatus : (r.withStatus now u).stageRuns = r.stageRuns := (rfl)
@[simp] theorem status_withStatus : (r.withStatus now u).status = u.newStatus := (rfl)

section Acknowledged
variable (acknowledged : Bool) (detail : Option Detail)

@[simp] theorem frozen_withAcknowledged :
    (r.withAcknowledged acknowledged detail).frozen = r.frozen := (rfl)
@[simp] theorem runId_withAcknowledged :
    (r.withAcknowledged acknowledged detail).runId = r.runId := (rfl)
@[simp] theorem missionId_withAcknowledged :
    (r.withAcknowledged acknowledged detail).missionId = r.missionId := (rfl)
@[simp] theorem stages_withAcknowledged :
    (r.withAcknowledged acknowledged detail).run.stages = r.run.stages := (rfl)
@[simp] theorem stageRuns_withAcknowledged :
    (r.withAcknowledged acknowledged detail).stageRuns = r.stageRuns := (rfl)
@[simp] theorem status_withAcknowledged :
    (r.withAcknowledged acknowledged detail).status = r.status := (rfl)

end Acknowledged

@[simp] theorem frozen_withDispatchedAt : (r.withDispatchedAt now).frozen = r.frozen := (rfl)
@[simp] theorem runId_withDispatchedAt : (r.withDispatchedAt now).runId = r.runId := (rfl)
@[simp] theorem status_withDispatchedAt : (r.withDispatchedAt now).status = r.status := (rfl)

@[simp] theorem frozen_withNotes (notes : Option String) :
    (r.withNotes now notes).frozen = r.frozen := (rfl)
@[simp] theorem runId_withNotes (notes : Option String) :
    (r.withNotes now notes).runId = r.runId := (rfl)

section Report
variable (report : LastReport)

@[simp] theorem frozen_withReport : (r.withReport report).frozen = r.frozen := (rfl)
@[simp] theorem runId_withReport : (r.withReport report).runId = r.runId := (rfl)
@[simp] theorem missionId_withReport : (r.withReport report).missionId = r.missionId := (rfl)
@[simp] theorem stages_withReport : (r.withReport report).run.stages = r.run.stages := (rfl)
@[simp] theorem stageRuns_withReport : (r.withReport report).stageRuns = r.stageRuns := (rfl)
@[simp] theorem status_withReport : (r.withReport report).status = r.status := (rfl)

end Report

section StageRows
variable (records : List StageStateRecord) (versioned : Bool)

@[simp] theorem frozen_withStageRows : (r.withStageRows records versioned).frozen = r.frozen := (rfl)
@[simp] theorem runId_withStageRows : (r.withStageRows records versioned).runId = r.runId := (rfl)
@[simp] theorem missionId_withStageRows :
    (r.withStageRows records versioned).missionId = r.missionId := (rfl)
@[simp] theorem stages_withStageRows :
    (r.withStageRows records versioned).run.stages = r.run.stages := (rfl)
@[simp] theorem status_withStageRows : (r.withStageRows records versioned).status = r.status := (rfl)

end StageRows

/-- The rows the run is closed out with. -/
def finalRows (status : RunStatus) (overlay : List StageStateRecord) : List StageStateRecord :=
  finalStageStatuses r.plan ((Table.ofRows r.stageRows).upsertAll overlay fun _ _ => true) status
    now

/-- The status change that ends a run, with its stages closed out. -/
def closed (overlay : List StageStateRecord) : StoredRun :=
  (r.withStatus now u).withStageRows (r.finalRows now u.newStatus overlay) false

@[simp] theorem frozen_closed (overlay : List StageStateRecord) :
    (r.closed now u overlay).frozen = r.frozen := (rfl)

@[simp] theorem finalRows_withStatus (status : RunStatus) (overlay : List StageStateRecord) :
    (r.withStatus now u).finalRows now status overlay = r.finalRows now status overlay := (rfl)

@[simp] theorem finalRows_withAcknowledged (status : RunStatus) (overlay : List StageStateRecord)
    (acknowledged : Bool) (detail : Option Detail) :
    (r.withAcknowledged acknowledged detail).finalRows now status overlay =
      r.finalRows now status overlay := (rfl)

@[simp] theorem finalRows_withReport (status : RunStatus) (overlay : List StageStateRecord)
    (report : LastReport) :
    (r.withReport report).finalRows now status overlay = r.finalRows now status overlay := (rfl)

def stateEvent (rows : List StageStateRecord) (errors : Option (List MissionError)) : Event :=
  .publish (.missionState r.missionId) (.state (buildRunStateView r.runId r.missionId rows errors))
    true

def lifecycleEvent (status : RunStatus) (trigger : RunTrigger) (reason : Option String := none) :
    Event :=
  .publish (.missionLifecycle r.missionId)
    (.lifecycle r.missionId r.runId r.robotId status trigger reason) false

end StoredRun

theorem finalStageStatuses_ne_nil {stages : List Stage} (h : stages ≠ []) (live : StageRuns)
    (status : RunStatus) (now : Datetime) : finalStageStatuses stages live status now ≠ [] := by
  obtain ⟨stage, rest, rfl⟩ := List.exists_cons_of_ne_nil h
  simp [finalStageStatuses]

/-- The transaction after it wrote the run `r` and left these traces. -/
def saving (tx : Tx Store Event Command) (r : StoredRun) (events : List Event)
    (entries : List AuditEntry) (commands : List Command) : Tx Store Event Command :=
  { store := { tx.store with
      runs := tx.store.runs.replace r, audit := tx.store.audit ++ entries }
    queued := tx.queued ++ events
    sent := tx.sent ++ commands }

/-- The transaction has the row of this run, which it holds locked. -/
def Holds (tx : Tx Store Event Command) (runId : UUID) : Prop :=
  (tx.store.runs.find? runId).isSome

theorem saving_self {tx : Tx Store Event Command} {r : StoredRun}
    (h : tx.store.runs.find? r.runId = some r) : saving tx r [] [] [] = tx := by
  unfold saving
  rw [Table.replace_of_find? h]
  simp

section Exec
open TxM Runs
variable {tx : Tx Store Event Command} {r : StoredRun} {events : List Event}
  {entries : List AuditEntry} {commands : List Command} {runId : UUID}

theorem exec_find : (Runs.find runId).exec tx = (.ok (tx.store.runs.find? runId), tx) := rfl

theorem exec_get : (Runs.get runId).exec tx =
    (.ok ((tx.store.runs.find? runId).map StoredRun.toRun), tx) := rfl

theorem find?_saving (h : Holds tx r.runId) (hr : runId = r.runId) :
    (saving tx r events entries commands).store.runs.find? runId = some r := by
  obtain ⟨b, hb⟩ := Option.isSome_iff_exists.mp h
  exact hr ▸ Table.find?_replace_self hb

theorem saving_save {q : StoredRun} (h : r.runId = q.runId) :
    { saving tx r events entries commands with
        store := saveRun q (saving tx r events entries commands).store } =
      saving tx q events entries commands := by
  unfold saving saveRun
  simp only [Table.replace_replace _ h]

@[simp] theorem exec_find_saving (h : Holds tx r.runId) (hr : runId = r.runId) :
    (Runs.find runId).exec (saving tx r events entries commands) =
      (.ok (some r), saving tx r events entries commands) := by
  change (Except.ok _, _) = _
  rw [find?_saving h hr]

@[simp] theorem exec_get_saving (h : Holds tx r.runId) (hr : runId = r.runId) :
    (Runs.get runId).exec (saving tx r events entries commands) =
      (.ok (some r.toRun), saving tx r events entries commands) := by
  simp [Runs.get, h, hr]

@[simp] theorem exec_getStageRuns_saving (h : Holds tx r.runId) (hr : runId = r.runId) :
    (Runs.getStageRuns runId).exec (saving tx r events entries commands) =
      (.ok r.stageRows, saving tx r events entries commands) := by
  simp [Runs.getStageRuns, h, hr]

@[simp] theorem exec_publish_saving (topic : Topic) (payload : Payload) (latch : Bool) :
    (publish topic payload latch).exec (saving tx r events entries commands) =
      (.ok (), saving tx r (events ++ [.publish topic payload latch]) entries commands) := by
  simp [publish, saving, exec_enqueue]

@[simp] theorem exec_audit_saving (entry : AuditEntry) :
    (audit entry).exec (saving tx r events entries commands) =
      (.ok (), saving tx r events (entries ++ [entry]) commands) := by
  simp [audit, saving, exec_setStore]

@[simp] theorem exec_send_saving (command : Command) :
    (send command : ServiceM Unit).exec (saving tx r events entries commands) =
      (.ok (), saving tx r events entries (commands ++ [command])) := by
  simp [saving, exec_send]

@[simp] theorem exec_updateStatus_saving (h : Holds tx r.runId) (hr : runId = r.runId)
    {u : StatusUpdate} (hu : r.status = u.expected) (ht : isTerminal r.status = false)
    (now : Datetime) :
    (Runs.updateStatus now runId u).exec (saving tx r events entries commands) =
      (.ok (some (r.withStatus now u).returned),
        saving tx (r.withStatus now u) events entries commands) := by
  simp only [Runs.updateStatus, exec_bind, exec_find_saving h hr]
  rw [if_pos ⟨hu, ht⟩]
  simp [exec_setStore, saving_save (r := r) (q := r.withStatus now u) rfl]

@[simp] theorem exec_updateStatus_saving_ne (h : Holds tx r.runId) (hr : runId = r.runId)
    {u : StatusUpdate} (hu : r.status ≠ u.expected) (now : Datetime) :
    (Runs.updateStatus now runId u).exec (saving tx r events entries commands) =
      (.ok none, saving tx r events entries commands) := by
  simp [Runs.updateStatus, h, hr, hu]

theorem exec_updateRow_saving (h : Holds tx r.runId) (hr : runId = r.runId)
    {f : StoredRun → StoredRun} (hf : r.runId = (f r).runId) :
    (Runs.updateRow runId f).exec (saving tx r events entries commands) =
      (.ok (), saving tx (f r) events entries commands) := by
  simp [Runs.updateRow, h, hr, exec_setStore, saving_save hf]

@[simp] theorem exec_setAcknowledged_saving (h : Holds tx r.runId) (hr : runId = r.runId)
    (acknowledged : Bool) (detail : Option Detail) :
    (setAcknowledged runId acknowledged detail).exec (saving tx r events entries commands) =
      (.ok (), saving tx (r.withAcknowledged acknowledged detail) events entries commands) :=
  exec_updateRow_saving h hr rfl

@[simp] theorem exec_markDispatchedAt_saving (h : Holds tx r.runId) (hr : runId = r.runId)
    (when_ : Datetime) :
    (markDispatchedAt runId when_).exec (saving tx r events entries commands) =
      (.ok (), saving tx (r.withDispatchedAt when_) events entries commands) :=
  exec_updateRow_saving h hr rfl

@[simp] theorem exec_touchLastReport_saving (h : Holds tx r.runId) (hr : runId = r.runId)
    (report : LastReport) :
    (touchLastReport runId report).exec (saving tx r events entries commands) =
      (.ok (), saving tx (r.withReport report) events entries commands) :=
  exec_updateRow_saving h hr rfl

theorem exec_writeStageRows_saving (h : Holds tx r.runId) (hr : runId = r.runId)
    (records : List StageStateRecord) (versioned : Bool) :
    (writeStageRows runId records versioned).exec (saving tx r events entries commands) =
      if rewritesRow versioned r.stageRuns [] records then
        (.error .cardinalityViolation, saving tx r events entries commands)
      else (.ok (), saving tx (r.withStageRows records versioned) events entries commands) := by
  simp only [writeStageRows, exec_bind, exec_find_saving h hr]
  split_ifs
  · rfl
  · simp [exec_setStore, saving_save (r := r) (q := r.withStageRows records versioned) rfl]

section Settle
variable {run : MissionRun} {now : Datetime} {status : RunStatus} {overlay : List StageStateRecord}

theorem exec_settleStageState_eq (h : Holds tx r.runId) (hid : run.runId = r.runId)
    (hm : run.missionId = r.missionId) (hs : run.stages = r.run.stages)
    (errors : Option (List MissionError)) :
    (settleStageState now run status errors overlay).exec (saving tx r events entries commands) =
      if rewritesRow false r.stageRuns [] (r.finalRows now status overlay) then
        (.error .cardinalityViolation, saving tx r events entries commands)
      else (.ok (r.finalRows now status overlay),
        saving tx (r.withStageRows (r.finalRows now status overlay) false)
          (events ++ [r.stateEvent (r.finalRows now status overlay) errors]) entries commands) := by
  have hr : finalStageStatuses run.stages.stages
      ((Table.ofRows r.stageRows).upsertAll overlay fun _ _ => true) status now =
        r.finalRows now status overlay := by rw [hs]; rfl
  have hne : r.finalRows now status overlay ≠ [] :=
    finalStageStatuses_ne_nil r.run.stages.nonempty _ _ _
  simp only [settleStageState, exec_bind, exec_getStageRuns_saving h hid, hr, overwriteStageRuns,
    if_neg hne, exec_writeStageRows_saving h hid]
  split_ifs with hd
  · simp
  · simp [publishRunState, StoredRun.stateEvent, hid, hm]

@[simp] theorem exec_settleStageState_saving (h : Holds tx r.runId) (hid : run.runId = r.runId)
    (hm : run.missionId = r.missionId) (hs : run.stages = r.run.stages)
    (hd : rewritesRow false r.stageRuns [] (r.finalRows now status overlay) = false)
    (errors : Option (List MissionError)) :
    (settleStageState now run status errors overlay).exec (saving tx r events entries commands) =
      (.ok (r.finalRows now status overlay),
        saving tx (r.withStageRows (r.finalRows now status overlay) false)
          (events ++ [r.stateEvent (r.finalRows now status overlay) errors]) entries commands) := by
  rw [exec_settleStageState_eq h hid hm hs, if_neg (by simp [hd])]

@[simp] theorem exec_settleStageState_saving_error (h : Holds tx r.runId)
    (hid : run.runId = r.runId) (hm : run.missionId = r.missionId) (hs : run.stages = r.run.stages)
    (hd : rewritesRow false r.stageRuns [] (r.finalRows now status overlay) = true)
    (errors : Option (List MissionError)) :
    (settleStageState now run status errors overlay).exec (saving tx r events entries commands) =
      (.error .cardinalityViolation, saving tx r events entries commands) := by
  rw [exec_settleStageState_eq h hid hm hs, if_pos hd]

end Settle

@[simp] theorem exec_emitRunLifecycle_saving (missionId : UUID) (robotId : RobotId)
    (status : RunStatus) (trigger : RunTrigger) (reason : Option String) :
    (emitRunLifecycle missionId runId robotId status trigger reason).exec
        (saving tx r events entries commands) =
      (.ok (), saving tx r (events ++ [.publish (.missionLifecycle missionId)
        (.lifecycle missionId runId robotId status trigger reason) false]) entries commands) :=
  exec_publish_saving _ _ _

end Exec
end Leitstand
