import Leitstand.RunMachine

namespace Leitstand
open TxM RunService

/-- The transaction did to its run what the run's machine answers. -/
def Answers (tx tx' : Tx Store Event Command) (response : Response) : Prop :=
  ∃ entries, tx' = saving tx response.row response.events entries response.commands

variable {tx tx' : Tx Store Event Command} {r : StoredRun} {now : Datetime}

section Settle
variable {command : SettleRunCommand} {run : MissionRun}

theorem settleAccepted_answers (h : Holds tx r.runId) (hc : command.outcome = .accepted)
    (hx : (settleAccepted now command r.toRun).exec (saving tx r [] [] []) = (.ok run, tx')) :
    Answers tx tx' (r.settle now command) := by
  unfold StoredRun.settle settleAccepted at *
  simp only [hc]
  by_cases hp : r.status = .pending
  · simp [h, hp, Option.filter] at hx
    rw [if_pos hp]
    exact ⟨_, hx.2.symm⟩
  · simp [h, hp] at hx
    rw [if_neg hp]
    unfold StoredRun.lateReply
    split_ifs at hx ⊢ with hc
    · simp at hx
      exact ⟨_, hx.2.symm⟩
    · simp at hx
      exact ⟨_, hx.2.symm⟩

theorem settleUnconfirmed_answers (h : Holds tx r.runId)
    (hc : command.outcome = .timeout ∨ command.outcome = .error)
    (hx : (settleUnconfirmed now command r.toRun).exec (saving tx r [] [] []) = (.ok run, tx')) :
    Answers tx tx' (r.settle now command) := by
  have hs : r.settle now command =
      if r.status = .pending then
        { row := r.withStatus now (StoredRun.unconfirmedUpdate command) }
      else r.lateReply command := by
    unfold StoredRun.settle
    obtain hc | hc := hc <;> rw [hc]
  unfold settleUnconfirmed at hx
  rw [hs]
  by_cases hp : r.status = .pending
  · simp [h, hp] at hx
    rw [if_pos hp]
    exact ⟨_, hx.2.symm⟩
  · simp [h, hp] at hx
    rw [if_neg hp]
    unfold StoredRun.lateReply
    split_ifs at hx ⊢ with hc
    · simp [h] at hx
      exact ⟨_, hx.2.symm⟩
    · simp [h] at hx
      exact ⟨_, hx.2.symm⟩

theorem settleRejected_answers (h : Holds tx r.runId) (hc : command.outcome = .rejected)
    (hx : (settleRejected now command r.toRun).exec (saving tx r [] [] []) = (.ok run, tx')) :
    Answers tx tx' (r.settle now command) := by
  unfold StoredRun.settle settleRejected at *
  simp only [hc]
  by_cases hp : r.status = .pending ∨ r.status = .cancelling
  · have ht : isTerminal r.status = false := by obtain hp | hp := hp <;> rw [hp] <;> rfl
    rw [if_pos hp]
    by_cases hd : rewritesRow false r.stageRuns []
        (r.finalRows now (r.rejectUpdate command).newStatus []) = true
    · simp [StoredRun.rejectUpdate] at hd
      simp [h, hp, ht, finalize, hd] at hx
    · simp [StoredRun.rejectUpdate] at hd
      simp [h, hp, ht, finalize, hd] at hx
      exact ⟨_, hx.2.symm⟩
  · simp [h, hp] at hx
    rw [if_neg hp]
    exact ⟨_, hx.2.symm⟩

theorem settle_answers (hx : (settle now command).exec tx = (.ok run, tx')) :
    ∃ r, tx.store.runs.find? command.runId = some r ∧ Answers tx tx' (r.settle now command) := by
  unfold settle at hx
  cases hf : tx.store.runs.find? command.runId with
  | none => simp [Runs.getForUpdate, exec_get, hf] at hx
  | some r =>
    obtain hid := Table.key_of_find? hf
    have hr : tx.store.runs.find? r.runId = some r := hid ▸ hf
    have h : Holds tx r.runId := Option.isSome_iff_exists.mpr ⟨r, hr⟩
    refine ⟨r, rfl, ?_⟩
    simp only [Runs.getForUpdate, exec_bind, exec_get, hf, Option.map_some] at hx
    rw [← saving_self hr] at hx
    cases hc : command.outcome with
    | accepted => exact settleAccepted_answers h hc (by simpa only [hc, saving_self hr] using hx)
    | rejected => exact settleRejected_answers h hc (by simpa only [hc] using hx)
    | timeout => exact settleUnconfirmed_answers h (.inl hc) (by simpa only [hc] using hx)
    | error => exact settleUnconfirmed_answers h (.inr hc) (by simpa only [hc] using hx)

end Settle

def isOffline (store : Store) (robotId : RobotId) : Bool :=
  (store.robots.find? robotId).any fun robot => !robot.online

@[simp] theorem exec_offline (robotId : RobotId) :
    (offline robotId).exec tx = (.ok (isOffline tx.store robotId), tx) := by
  cases h : tx.store.robots.find? robotId <;> simp [offline, Robots.get, isOffline, h]

@[simp] theorem isOffline_saving {events entries commands} (robotId : RobotId) :
    isOffline (saving tx r events entries commands).store robotId = isOffline tx.store robotId :=
  (rfl)

theorem mem_listActive {p : StoredRun → Bool} {store : Store} {s : MissionRunSummary}
    (h : s ∈ Runs.listActive p store) : ∃ r, store.runs.find? r.runId = some r ∧
      p r = true ∧ isActive r.status = true ∧ s = r.run.toMissionRunSummary := by
  rw [Runs.listActive, List.mem_insertionSort] at h
  obtain ⟨r, hr, rfl⟩ := List.mem_map.mp h
  obtain ⟨hr, hp⟩ := List.mem_filter.mp hr
  rw [Bool.and_eq_true] at hp
  exact ⟨r, Table.find?_of_mem hr, hp.1, hp.2, rfl⟩

/-- The command's run: a stored, active run of the mission; nothing is written. -/
theorem target_ok {missionId : UUID} {runId : Option UUID} {run : MissionRun}
    (hx : (target missionId runId).exec tx = (.ok run, tx')) : tx = tx' ∧
      ∃ r, tx.store.runs.find? r.runId = some r ∧ run = r.toRun ∧ isActive r.status = true ∧
        r.missionId = missionId := by
  unfold target at hx
  simp only [Missions.getForUpdate, Runs.getForUpdate, exec_bind, exec_store, exec_pure] at hx
  cases hm : tx.store.missions.find? missionId with
  | none => simp [hm] at hx
  | some mission =>
    simp only [hm] at hx
    cases runId with
    | some runId =>
      simp only [exec_bind, exec_get] at hx
      cases hf : tx.store.runs.find? runId with
      | none => simp [hf] at hx
      | some r =>
        simp only [hf, Option.map_some, exec_bind_ok, exec_check, exec_pure, Prod.mk.injEq,
          raiseIf_eq_ok, Except.ok.injEq] at hx
        obtain ⟨-, _, ⟨hmi, rfl⟩, -, _, ⟨ha, rfl⟩, rfl, rfl⟩ := hx
        simp at hmi ha
        exact ⟨rfl, r, (Table.key_of_find? hf).symm ▸ hf, rfl, ha, hmi⟩
    | none =>
      simp only [Runs.listActiveByMission, exec_bind, exec_store, exec_pure] at hx
      split at hx
      · rename_i summary hl
        obtain ⟨r, hr, hp, ha, rfl⟩ := mem_listActive (hl ▸ List.mem_singleton_self summary)
        have hr' : tx.store.runs.find? r.run.runId = some r := hr
        simp [exec_get, hr'] at hx
        exact ⟨hx.2, r, hr, hx.1.symm, ha, by simpa using hp⟩
      · rw [exec_bind_ok] at hx
        obtain ⟨latest, _, -, hx⟩ := hx
        cases latest <;> simp at hx
      · simp at hx

/-- What a command's run and the transition table allow. -/
theorem nextState_ok {current target : RunStatus} {trigger : RunTrigger} :
    (nextState current trigger).exec tx = (.ok target, tx') ↔
      allowedTransitions current trigger = some target ∧ tx = tx' := by
  simp [nextState, tryNextState]

/-- A command goes on with an active run of the mission and what its status allows. -/
theorem command_ok {β : Type} {missionId : UUID} {runId : Option UUID} {trigger : RunTrigger}
    {rest : MissionRun → RunStatus → ServiceM β} {b : β}
    (hx : (target missionId runId >>= fun run =>
      nextState run.status trigger >>= rest run).exec tx = (.ok b, tx')) :
    ∃ r next, tx.store.runs.find? r.runId = some r ∧
      (target missionId runId).exec tx = (.ok r.toRun, tx) ∧ isTerminal r.status = false ∧
      allowedTransitions r.status trigger = some next ∧
      (rest r.toRun next).exec tx = (.ok b, tx') := by
  rw [exec_bind_ok] at hx
  obtain ⟨_, _, ht, hx⟩ := hx
  obtain ⟨rfl, r, hr, rfl, ha, -⟩ := target_ok ht
  rw [exec_bind_ok] at hx
  obtain ⟨next, _, hnext, hx⟩ := hx
  obtain ⟨hn, rfl⟩ := nextState_ok.mp hnext
  exact ⟨r, next, hr, ht, by simpa [isActive_eq_not_isTerminal] using ha, hn, hx⟩

section Cancel
variable {events : List Event} {entries : List AuditEntry} {commands : List Command}
  {mode : CancelMode} {reply : ControlReply}

theorem announceCancel_saving {run : StoredRun} :
    (announceCancel run.toRun).exec (saving tx r events entries commands) =
      (.ok (), saving tx r (events ++ if run.status = .cancelling then [] else
        [run.lifecycleEvent .cancelling .cancelRequest]) entries commands) := by
  unfold announceCancel
  by_cases hs : run.status = .cancelling <;> simp [hs, StoredRun.lifecycleEvent]

theorem closeRefused_saving {run : MissionRun} {b : Unit} (h : Holds tx r.runId)
    (hs : r.status = .cancelling) (hm : run.missionId = r.missionId) (hid : run.runId = r.runId)
    (hb : run.robotId = r.robotId) {reason : Option String}
    (hx : (closeRefused now run reason).exec (saving tx r events entries commands) =
      (.ok b, tx')) :
    tx' = saving tx (r.ending now (StoredRun.refusedUpdate reason) [] reason).row
      (events ++ (r.ending now (StoredRun.refusedUpdate reason) [] reason).events) entries
      commands := by
  unfold closeRefused at hx
  by_cases hd : rewritesRow false r.stageRuns [] (r.finalRows now .cancelled []) = true
  · simp [h, hid, hs, finalize, hd] at hx
  · rw [Bool.not_eq_true] at hd
    simp [h, hid, hs, hm, hb, finalize, hd] at hx
    exact hx.symm

/-- What the robot's answer to a forwarded cancel leaves. -/
theorem forwardCancel_saving {run : StoredRun} {b : Unit} (h : Holds tx r.runId)
    (hf : r.frozen = run.frozen) (hs : r.status = .cancelling)
    (hx : (forwardCancel now run.toRun mode reply).exec (saving tx r events entries commands) =
      (.ok b, tx')) {requested : StoredRun}
    (hq : requested = r.withAcknowledged (StoredRun.cancelReceipt false reply).1
      (StoredRun.cancelReceipt false reply).2) {ended : Response}
    (he : ended = requested.ending now (StoredRun.refusedUpdate reply.reason) [] reply.reason) :
    tx' = if run.cancelRefused false reply then
        saving tx ended.row (events ++ ended.events) entries
          (commands ++ [.cancel run.runId run.robotId mode])
      else saving tx requested events entries (commands ++ [.cancel run.runId run.robotId mode]) := by
  have hid : run.runId = r.runId := (congrArg FrozenRun.runId hf).symm
  have hm : run.missionId = r.missionId := (congrArg FrozenRun.missionId hf).symm
  have hb : run.robotId = r.robotId := (congrArg FrozenRun.robotId hf).symm
  unfold forwardCancel at hx
  simp only [exec_bind, exec_send_saving, StoredRun.toRun_runId, StoredRun.toRun_robotId] at hx
  subst he hq
  rcases ha : reply.applied with _ | _ | _
  · simp [ha, h, hid] at hx
    simp [StoredRun.cancelRefused, StoredRun.cancelReceipt, ha, hx, hid]
  · simp only [ha, exec_bind, exec_setAcknowledged_saving h hid] at hx
    have hack : StoredRun.cancelReceipt false reply = (false, some [("reason", reply.reason)]) := by
      simp [StoredRun.cancelReceipt, ha]
    by_cases hr : reply.refusal = some .notExecutingRun ∧ run.toRun.status ≠ .pending
    · rw [if_pos hr] at hx
      have hc := closeRefused_saving (r := r.withAcknowledged false _) h hs hm hid hb hx
      have hp : run.status ≠ .pending := hr.2
      simp [StoredRun.cancelRefused, ha, hr, hp, hack, hc]
    · rw [if_neg hr] at hx
      have hn : run.cancelRefused false reply = false := by
        simpa [StoredRun.cancelRefused, ha] using hr
      simp at hx
      simp [hn, hack, hx]
  · simp [ha, h, hid] at hx
    simp [StoredRun.cancelRefused, StoredRun.cancelReceipt, ha, hx, hid]

theorem cancel_answers {command : CancelRunCommand} {reply : ControlReply} {run : MissionRun}
    (hx : (cancel now command reply).exec tx = (.ok run, tx')) :
    ∃ r, tx.store.runs.find? r.runId = some r ∧
      (target command.missionId command.runId).exec tx = (.ok r.toRun, tx) ∧
      Answers tx tx' (r.cancel now command.mode (isOffline tx.store r.robotId) reply) := by
  unfold cancel at hx
  obtain ⟨r, _, hr, ht, hnt, hn, hx⟩ := command_ok hx
  refine ⟨r, hr, ht, ?_⟩
  have h : Holds tx r.runId := Option.isSome_iff_exists.mpr ⟨r, hr⟩
  rw [allowedTransitions_cancelRequest hnt] at hn
  cases hn
  rw [← saving_self hr] at hx
  simp only [StoredRun.toRun_runId, StoredRun.toRun_status, StoredRun.toRun_robotId] at hx
  rw [exec_bind, exec_updateStatus_saving h rfl rfl hnt] at hx
  simp only [exec_bind, exec_offline] at hx
  rw [announceCancel_saving] at hx
  simp only [exec_audit_saving, isOffline_saving] at hx
  unfold StoredRun.cancel
  rw [if_neg (by simp [hnt])]
  by_cases hoff : isOffline tx.store r.robotId = true
  · simp [hoff, h] at hx
    rw [if_neg (by simp [StoredRun.cancelRefused, hoff])]
    exact ⟨_, by simp only [hoff]; exact hx.2.symm⟩
  · rw [Bool.not_eq_true] at hoff
    simp only [hoff, Bool.false_eq_true, ↓reduceIte, exec_bind_ok] at hx
    obtain ⟨_, tx₁, hw, hx⟩ := hx
    have hf : (r.withStatus now (r.cancelUpdate command.mode)).frozen = r.frozen := rfl
    have hc := forwardCancel_saving (r := r.withStatus now (r.cancelUpdate command.mode))
      h hf rfl hw rfl rfl
    simp only [exec_get, exec_pure, Prod.mk.injEq, Except.ok.injEq] at hx
    obtain ⟨_, _, ⟨-, rfl⟩, -, rfl⟩ := hx
    rw [hoff]
    by_cases hr : r.cancelRefused false reply = true
    · rw [if_pos hr] at hc ⊢
      exact ⟨_, hc⟩
    · rw [if_neg hr] at hc ⊢
      exact ⟨_, hc⟩

end Cancel

theorem close_answers {command : ControlRunCommand} {run : MissionRun}
    (hx : (close now command).exec tx = (.ok run, tx')) :
    ∃ r, tx.store.runs.find? r.runId = some r ∧
      (target command.missionId command.runId).exec tx = (.ok r.toRun, tx) ∧
      isOffline tx.store r.robotId = true ∧ Answers tx tx' (r.close now) := by
  unfold close at hx
  obtain ⟨r, _, hr, ht, hnt, hn, hx⟩ := command_ok hx
  have h : Holds tx r.runId := Option.isSome_iff_exists.mpr ⟨r, hr⟩
  rw [allowedTransitions_close hnt] at hn
  cases hn
  simp only [exec_bind_ok, exec_offline, exec_check, raiseIf_eq_ok, Prod.mk.injEq,
    Except.ok.injEq] at hx
  obtain ⟨_, _, ⟨rfl, rfl⟩, _, _, ⟨hoff, rfl⟩, hx⟩ := hx
  refine ⟨r, hr, ht, by simpa using hoff, ?_⟩
  rw [← saving_self hr] at hx
  unfold StoredRun.close
  rw [if_neg (by simp [hnt])]
  by_cases hd : rewritesRow false r.stageRuns [] (r.finalRows now .cancelled []) = true
  · simp [h, hnt, finalize, hd] at hx
  · rw [Bool.not_eq_true] at hd
    simp [h, hnt, finalize, hd] at hx
    obtain ⟨_, _, ⟨-, rfl⟩, -, rfl⟩ := hx
    exact ⟨_, rfl⟩

theorem steer_answers {command : ControlRunCommand} {trigger : RunTrigger} {action : String}
    {dispatch : UUID → RobotId → Command} {entry : UUID → UUID → AuditEntry}
    {reply : ControlReply} {run : MissionRun}
    (hx : (steer now command trigger action dispatch entry reply).exec tx = (.ok run, tx')) :
    ∃ r, tx.store.runs.find? r.runId = some r ∧
      (target command.missionId command.runId).exec tx = (.ok r.toRun, tx) ∧
      Answers tx tx' (r.steer now trigger (dispatch r.runId r.robotId)) := by
  unfold steer at hx
  obtain ⟨r, _, hr, ht, hnt, hn, hx⟩ := command_ok hx
  have h : Holds tx r.runId := Option.isSome_iff_exists.mpr ⟨r, hr⟩
  simp only [exec_bind_ok, exec_offline, exec_check, raiseIf_eq_ok, Prod.mk.injEq,
    Except.ok.injEq] at hx
  obtain ⟨_, _, ⟨rfl, rfl⟩, _, _, ⟨-, rfl⟩, hx⟩ := hx
  refine ⟨r, hr, ht, ?_⟩
  rw [← saving_self hr] at hx
  simp only [exec_send_saving, Prod.mk.injEq] at hx
  obtain ⟨_, _, ⟨-, rfl⟩, _, _, ⟨-, rfl⟩, _, _, ⟨-, rfl⟩, hx⟩ := hx
  unfold StoredRun.steer
  rw [hn]
  simp [h, hnt] at hx
  obtain ⟨_, _, ⟨rfl, rfl⟩, -, rfl⟩ := hx
  exact ⟨_, rfl⟩

section Record
open MissionStateService
variable {events : List Event} {entries : List AuditEntry} {commands : List Command}
  {state : MissionStateMessage}

theorem recordLive_eq (h : Holds tx r.runId) {run : MissionRun} (hid : run.runId = r.runId)
    (hm : run.missionId = r.missionId) (live : List StageStateRecord) :
    (recordLive run r.status live).exec (saving tx r events entries commands) =
      if r.refusesLive live then
        (.error .cardinalityViolation, saving tx r events entries commands)
      else (.ok (), saving tx (r.recordLive live).row (events ++ (r.recordLive live).events)
        entries commands) := by
  unfold recordLive StoredRun.recordLive StoredRun.refusesLive
  by_cases hl : live ≠ [] ∧ isExecuting r.status = true
  · obtain ⟨hne, hex⟩ := hl
    have hw := @exec_writeStageRows_saving tx r events entries commands _ h rfl live true
    by_cases hd : rewritesRow true r.stageRuns [] live = true
    · rw [if_pos hd] at hw
      simp [hne, hex, hd, Runs.upsertStageRuns, hid, hw]
    · rw [if_neg hd] at hw
      simp [hne, hex, hd, Runs.upsertStageRuns, hw, h, hid, publishRunState, hm,
        StoredRun.stateEvent]
  · have hr : (decide (live ≠ []) && isExecuting r.status) = false := by
      rw [Bool.eq_false_iff]
      simpa using hl
    rw [if_neg hl, if_neg hl, hr]
    simp

theorem touchReport_eq (h : Holds tx r.runId) :
    (touchReport now r.toRun state).exec (saving tx r events entries commands) =
      (.ok (), saving tx (r.touched now state) events entries commands) := by
  unfold touchReport StoredRun.touched
  cases ht : isTerminal r.status <;> simp [h, ht]

theorem reportUpdate_expected {run : MissionRun} {u : StatusUpdate}
    (h : reportUpdate run state = some u) :
    run.status = u.expected ∧ isTerminal run.status = false := by
  obtain ⟨-, target, htarget, rfl⟩ := reportUpdate_eq_some.mp h
  exact ⟨rfl, not_isTerminal_of_allowed htarget⟩

theorem touched_same : (r.touched now state).frozen = r.frozen ∧
    (r.touched now state).status = r.status ∧ (r.touched now state).stageRuns = r.stageRuns := by
  obtain ⟨report, h⟩ := r.touched_eq now state
  rw [h]
  exact ⟨rfl, rfl, rfl⟩

/-- A frame the rows of which are refused fails; any other is recorded as the run's machine says. -/
theorem applyReport_eq (h : Holds tx r.runId) :
    (applyReport now r.toRun state).exec (saving tx (r.touched now state) [] [] []) =
      if r.refusesReport now state then (.error .cardinalityViolation,
        saving tx ((reportUpdate r.toRun state).elim (r.touched now state)
          ((r.touched now state).withStatus now)) [] [] [])
      else (.ok (), saving tx (r.report now state).row (r.report now state).events [] []) := by
  obtain ⟨hf, hs, -⟩ := @touched_same r now state
  unfold applyReport StoredRun.refusesReport StoredRun.report
  dsimp only
  generalize hq : r.touched now state = q at *
  have hid : r.toRun.runId = q.runId := (congrArg FrozenRun.runId hf).symm
  have hm : r.toRun.missionId = q.missionId := (congrArg FrozenRun.missionId hf).symm
  have hp : r.toRun.stages = q.run.stages := (congrArg FrozenRun.stages hf).symm
  have hb : r.toRun.robotId = q.robotId := (congrArg FrozenRun.robotId hf).symm
  have h : Holds tx q.runId := hid ▸ h
  generalize hl : liveRecords state r.toRun.stages.stages = live
  rw [show liveRecords state r.plan = live from hl]
  cases hu : reportUpdate r.toRun state with
  | none =>
    rw [StoredRun.toRun_status, ← hs, recordLive_eq h hid hm]
    rfl
  | some u =>
    obtain ⟨he, ht⟩ := reportUpdate_expected hu
    have hw : Holds tx (q.withStatus now u).runId := h
    rw [exec_bind, exec_updateStatus_saving h hid (hs.trans he) (hs ▸ ht)]
    dsimp only
    rw [exec_bind]
    unfold recordStages
    by_cases hterm : isTerminal u.newStatus = true
    · simp only [if_pos hterm, exec_bind, exec_settleStageState_eq hw hid hm hp,
        StoredRun.stageRuns_withStatus, StoredRun.finalRows_withStatus]
      by_cases hd : rewritesRow false q.stageRuns [] (q.finalRows now u.newStatus live) = true
      · simp [hd]
      · simp only [if_neg hd, exec_pure, exec_emitRunLifecycle_saving, hid, hm, hb]
        rfl
    · simp only [if_neg hterm]
      have hrec := @recordLive_eq tx (q.withStatus now u) [] [] [] hw _ hid hm live
      simp only [StoredRun.status_withStatus] at hrec
      rw [hrec]
      by_cases hd : (q.withStatus now u).refusesLive live = true
      · simp [hd]
      · simp only [if_neg hd, exec_emitRunLifecycle_saving, hid, hm, hb]
        rfl

theorem record_eq {robotId : RobotId} (hr : tx.store.runs.find? state.runId = some r)
    (hb : r.robotId = robotId) : (record now robotId state).exec tx =
      if r.refusesReport now state then (.error .cardinalityViolation,
        saving tx ((reportUpdate r.toRun state).elim (r.touched now state)
          ((r.touched now state).withStatus now)) [] [] [])
      else (.ok (), saving tx (r.report now state).row (r.report now state).events [] []) := by
  have hid := Table.key_of_find? hr
  rw [← hid] at hr
  have h : Holds tx r.runId := Option.isSome_iff_exists.mpr ⟨r, hr⟩
  rw [← applyReport_eq h]
  unfold record
  simp only [Runs.getForUpdate, exec_bind, exec_get, ← hid, hr, Option.map_some,
    StoredRun.toRun_robotId, hb, ne_eq, not_true_eq_false, ↓reduceIte]
  have htouch := @touchReport_eq tx r now [] [] [] state h
  rw [saving_self hr] at htouch
  rw [htouch]

/-- A frame of an unknown run, or of another robot's, is dropped. -/
theorem record_dropped {robotId : RobotId}
    (h : ∀ r, tx.store.runs.find? state.runId = some r → r.robotId ≠ robotId) :
    (record now robotId state).exec tx = (.ok (), tx) := by
  unfold record
  simp only [Runs.getForUpdate, exec_bind, exec_get]
  cases hf : tx.store.runs.find? state.runId with
  | none => simp
  | some r => simp [h r hf]

end Record

theorem annotate_answers {runId : UUID} {notes : Option String} {run : MissionRun}
    (hx : (annotate now runId notes).exec tx = (.ok run, tx')) :
    ∃ r, tx.store.runs.find? runId = some r ∧ Answers tx tx' { row := r.withNotes now notes } := by
  unfold annotate Runs.setNotes at hx
  cases hf : tx.store.runs.find? runId with
  | none => simp [Runs.updateRow, exec_find, hf] at hx
  | some r =>
    have hid := Table.key_of_find? hf
    have hr : tx.store.runs.find? r.runId = some r := hid ▸ hf
    have h : Holds tx r.runId := Option.isSome_iff_exists.mpr ⟨r, hr⟩
    rw [← saving_self hr, ← hid] at hx
    have hu := @exec_updateRow_saving tx r [] [] [] _ h rfl (fun r => r.withNotes now notes) rfl
    simp only [exec_bind, hu] at hx
    simp [h] at hx
    exact ⟨r, rfl, _, hx.2.symm⟩

section Reconcile
open RunReconciliation

/-- A run that is as it was judged is closed, unless its rows are refused; any other is left. -/
theorem closeUnclaimed_eq {run : MissionRun} {r : StoredRun}
    (hr : tx.store.runs.find? run.runId = some r) (hf : r.run.stages = run.stages)
    (hm : r.missionId = run.missionId) (hb : r.robotId = run.robotId) :
    (closeUnclaimed now run).exec tx =
      if r.status = run.status ∧ isTerminal r.status = false then
        if rewritesRow false r.stageRuns [] (r.finalRows now r.unclaimedUpdate.newStatus []) then
          (.error .cardinalityViolation, saving tx (r.withStatus now r.unclaimedUpdate) [] [] [])
        else (.ok (some r.runId), saving tx (r.unclaimed now run.status).row
          (r.unclaimed now run.status).events [] [])
      else (.ok none, tx) := by
  have hid := Table.key_of_find? hr
  rw [← hid] at hr
  have h : Holds tx r.runId := Option.isSome_iff_exists.mpr ⟨r, hr⟩
  have hself := saving_self hr
  by_cases hs : r.status = run.status ∧ isTerminal r.status = false
  · have hset := @exec_settleStageState_eq tx (r.withStatus now r.unclaimedUpdate) [] [] [] run now
      r.unclaimedUpdate.newStatus [] h hid.symm hm.symm hf.symm (some [unclaimedError])
    have hupdate := @exec_updateStatus_saving tx r [] [] [] _ h rfl r.unclaimedUpdate rfl hs.2 now
    rw [hself] at hupdate
    rw [if_pos hs]
    unfold closeUnclaimed StoredRun.unclaimed
    rw [if_pos hs, exec_bind, ← hid, ← hs.1]
    erw [hupdate]
    dsimp only
    rw [exec_bind]
    erw [hset]
    by_cases hd : rewritesRow false r.stageRuns []
        (r.finalRows now r.unclaimedUpdate.newStatus []) = true
    · rw [if_pos hd]
      erw [if_pos hd]
    · rw [if_neg hd]
      erw [if_neg hd]
      simp only [hm.symm, hb.symm, exec_bind, exec_emitRunLifecycle_saving]
      rfl
  · have hc : (Runs.updateStatus now run.runId
        { newStatus := if run.status = .cancelling then .cancelled else .failed
          expected := run.status, trigger := .reconcile
          detail := some [("reason", some unclaimedReason)]
          errors := some [unclaimedError] }).exec (saving tx r [] [] []) =
        (.ok none, saving tx r [] [] []) := by
      simp only [Runs.updateStatus, exec_bind, exec_find_saving h hid.symm]
      rw [if_neg hs]
      rfl
    rw [hself] at hc
    rw [if_neg hs]
    unfold closeUnclaimed
    rw [exec_bind, hc]
    rfl

theorem closeUnclaimed_answers {run : MissionRun} {ended : Option UUID} {r : StoredRun}
    (hr : tx.store.runs.find? run.runId = some r) (hf : r.run.stages = run.stages)
    (hm : r.missionId = run.missionId) (hb : r.robotId = run.robotId)
    (hx : (closeUnclaimed now run).exec tx = (.ok ended, tx')) :
    Answers tx tx' (r.unclaimed now run.status) := by
  rw [closeUnclaimed_eq hr hf hm hb] at hx
  split_ifs at hx with hs hd
  · cases (Prod.mk.inj hx).1
  · have hnone : (r.unclaimed now run.status).commands = [] := by
      rw [StoredRun.unclaimed, if_pos hs]
      rfl
    exact ⟨[], hnone ▸ (Prod.mk.inj hx).2.symm⟩
  · have hr' : tx.store.runs.find? r.runId = some r := Table.key_of_find? hr ▸ hr
    have hrow : r.unclaimed now run.status = { row := r } := if_neg hs
    exact ⟨[], by rw [hrow, saving_self hr', (Prod.mk.inj hx).2]⟩

theorem closeUnclaimed_absent {run : MissionRun} (h : tx.store.runs.find? run.runId = none) :
    (closeUnclaimed now run).exec tx = (.ok none, tx) := by
  simp [closeUnclaimed, Runs.updateStatus, exec_find, h]

end Reconcile
end Leitstand
