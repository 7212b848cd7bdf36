import Leitstand.WholeOperations

namespace Leitstand
open TxM RunService

/-- The command is one to a robot to cancel a run. -/
def Command.IsCancel : Command → Prop
  | .cancel _ _ _ => True
  | _ => False

section Composed
variable {P : ∀ {β : Type}, ServiceM β → Prop} (h : Composes P)
include h

theorem composed_get (runId : UUID) : P (Runs.get runId) :=
  h.bind (composed_find h runId) fun _ => h.pure _

theorem composed_getMission (missionId : UUID) : P (Missions.getForUpdate missionId) :=
  h.bind h.store fun _ => h.pure _

theorem composed_listActiveByMission (missionId : UUID) : P (Runs.listActiveByMission missionId) :=
  h.bind h.store fun _ => h.pure _

theorem composed_target (missionId : UUID) (runId : Option UUID) : P (target missionId runId) := by
  unfold target
  refine h.bind (composed_getMission h missionId) fun mission => ?_
  cases mission with
  | none => exact h.throw _
  | some mission =>
    cases runId with
    | some runId =>
      refine h.bind (composed_get h runId) fun run => ?_
      cases run with
      | none => exact h.throw _
      | some run => exact h.bind (h.check _) fun _ => h.bind (h.check _) fun _ => h.pure _
    | none =>
      refine h.bind (composed_listActiveByMission h missionId) fun active => ?_
      split
      · refine h.bind (composed_get h _) fun run => ?_
        cases run <;> first | exact h.throw _ | exact h.pure _
      · refine h.bind (h.bind h.store fun _ => h.pure _) fun latest => ?_
        cases latest <;> exact h.throw _
      · exact h.throw _

theorem composed_offline (robotId : RobotId) : P (offline robotId) := by
  refine h.bind (h.bind h.store fun _ => h.pure _) fun robot => ?_
  cases robot <;> exact h.pure _

theorem composed_finalize (now : Datetime) (run : MissionRun)
    (errors : Option (List MissionError)) : P (finalize now run errors) :=
  h.bind (composed_settleStageState h now run run.status errors []) fun _ => h.pure _

theorem composed_close (now : Datetime) (command : ControlRunCommand) : P (close now command) := by
  unfold close
  refine h.bind (composed_target h _ _) fun run => h.bind (h.check _) fun status => ?_
  refine h.bind (composed_offline h _) fun offline => h.bind (h.check _) fun _ => ?_
  refine h.bind (composed_updateStatus h now _ _) fun updated => ?_
  cases updated with
  | none => exact h.pure _
  | some closed =>
    refine h.bind (composed_finalize h now closed none) fun _ => h.bind (h.enqueue _) fun _ => ?_
    exact h.bind (composed_audit h _) fun _ => h.pure _

/-- A pause or a resume sends its own command and no other. -/
theorem composed_steer {dispatch : UUID → RobotId → Command}
    (hsend : ∀ runId robotId, P (send (dispatch runId robotId))) (now : Datetime)
    (command : ControlRunCommand) (trigger : RunTrigger) (action : String)
    (entry : UUID → UUID → AuditEntry) (reply : ControlReply) :
    P (steer now command trigger action dispatch entry reply) := by
  unfold steer
  refine h.bind (composed_target h _ _) fun run => h.bind (h.check _) fun status => ?_
  refine h.bind (composed_offline h _) fun offline => h.bind (h.check _) fun _ => ?_
  refine h.bind (hsend _ _) fun _ => h.bind (h.check _) fun _ => h.bind (h.check _) fun _ => ?_
  refine h.bind (composed_updateStatus h now _ _) fun updated => ?_
  cases updated with
  | none => exact h.pure _
  | some updated =>
    exact h.bind (h.enqueue _) fun _ => h.bind (composed_audit h _) fun _ => h.pure _

theorem composed_updateRow (runId : UUID) (f : StoredRun → StoredRun) :
    P (Runs.updateRow runId f) := by
  refine h.bind (composed_find h runId) fun r => ?_
  cases r with
  | none => exact h.pure _
  | some r => exact h.setStore _

theorem composed_annotate (now : Datetime) (runId : UUID) (notes : Option String) :
    P (annotate now runId notes) := by
  refine h.bind (h.bind (composed_updateRow h _ _) fun _ =>
    h.bind (composed_find h _) fun _ => h.pure _) fun updated => ?_
  cases updated with
  | none => exact h.throw _
  | some updated => exact h.bind (composed_audit h _) fun _ => h.pure _

theorem composed_deleteRun (runId : UUID) : P (RunService.delete runId) := by
  unfold RunService.delete
  refine h.bind (composed_get h runId) fun run => ?_
  cases run with
  | none => exact h.throw _
  | some run =>
    refine h.bind (h.check _) fun _ => h.bind (h.setStore _) fun _ => ?_
    refine h.bind (h.bind h.store fun _ => h.pure _) fun count => ?_
    dsimp only
    split_ifs
    · exact h.bind (h.enqueue _) fun _ => composed_audit h _
    · exact composed_audit h _

theorem composed_restore (now : Datetime) (missionId : UUID) :
    P (MissionManagement.restore now missionId) := by
  unfold MissionManagement.restore Missions.restore Missions.setArchived
  refine h.bind (composed_getMission h missionId) fun mission => ?_
  cases mission with
  | none => exact h.throw _
  | some mission =>
    refine h.bind (h.check _) fun _ => h.bind (h.bind h.store fun store => ?_) fun restored => ?_
    · cases store.missions.find? missionId with
      | none => exact h.pure _
      | some mission => exact h.bind (h.setStore _) fun _ => h.pure _
    · cases restored with
      | none => exact h.throw _
      | some restored => exact h.bind (composed_audit h _) fun _ => h.pure _

theorem composed_settleRejected (now : Datetime) (command : SettleRunCommand) (run : MissionRun) :
    P (settleRejected now command run) := by
  unfold settleRejected
  extract_lets description error target finish
  have hfinish : ∀ updated, P (finish updated) := by
    intro updated
    cases updated with
    | none => exact h.bind (composed_get h _) fun _ => h.pure _
    | some updated =>
      refine h.bind (composed_finalize h now updated _) fun _ => h.bind (h.enqueue _) fun _ => ?_
      exact h.bind (composed_audit h _) fun _ => h.pure _
  split_ifs
  · exact h.bind (composed_updateStatus h now _ _) hfinish
  · exact h.bind (h.pure _) hfinish

theorem composed_settle_rejected (now : Datetime) {command : SettleRunCommand}
    (ho : command.outcome = .rejected) : P (settle now command) := by
  unfold settle
  refine h.bind (composed_get h _) fun run => ?_
  cases run with
  | none => exact h.throw _
  | some run =>
    dsimp only
    rw [ho]
    exact composed_settleRejected h now command run

end Composed

/-- The actions that may tell a robot to cancel a run. -/
def Action.maySendCancel : Action → Bool
  | .settle _ | .cancel _ _ | .judgeRun _ | .endReconciliation _ => true
  | _ => false

namespace System
variable {s s' : System} {a : Action} {β : Type}

/-- The step sends no command to cancel a run. -/
def SendsNoCancel (s s' : System) : Prop :=
  ∃ commands, s'.world.sent = s.world.sent ++ commands ∧ ∀ c ∈ commands, ¬ c.IsCancel

theorem SendsNoCancel.of_same (h : s'.world.sent = s.world.sent) : SendsNoCancel s s' :=
  ⟨[], h.trans (List.append_nil _).symm, by simp⟩

theorem SendsNoCancel.of_perform {m : ServiceM β} (hm : Sends (¬ Command.IsCancel ·) m) :
    SendsNoCancel s (s.perform m) := by
  obtain ⟨commands, hsent, hkind⟩ := hm { store := s.store }
  refine ⟨commands, ?_, hkind⟩
  rcases hx : m.exec { store := s.store } with ⟨e | b, tx⟩ <;> rw [hx] at hsent
  · rw [perform_error hx]
    exact congrArg (s.world.sent ++ ·) hsent
  · rw [perform_ok hx]
    exact congrArg (s.world.sent ++ ·) hsent

theorem recordFrame_sendsNoCancel (robotId : RobotId) (state : MissionStateMessage) :
    SendsNoCancel s (s.recordFrame robotId state) := by
  have hsilent : ∀ tx : Tx Store Event Command,
      ((MissionStateService.record s.clock robotId state).exec tx).2.sent = tx.sent := by
    intro tx
    by_cases hown : ∃ r, tx.store.runs.find? state.runId = some r ∧ r.robotId = robotId
    · obtain ⟨r, hr, hb⟩ := hown
      rw [record_eq hr hb]
      split_ifs <;> exact List.append_nil _
    · rw [record_dropped fun r hr hb => hown ⟨r, hr, hb⟩]
  unfold recordFrame
  split
  · exact .of_same rfl
  · exact .of_perform (.of_same hsilent)

/-- Only a dispatch's reply, a cancel and a reconciliation have a run cancelled. -/
theorem step_sendsNoCancel (ha : a.maySendCancel = false) (h : s.step a = some s') :
    SendsNoCancel s s' := by
  have hP := Sends.composes (ε := Event) (σ := Store) (χ := ServiceError) (¬ Command.IsCancel ·)
  cases a with
  | settle command => cases ha
  | cancel command reply => cases ha
  | judgeRun i => cases ha
  | endReconciliation i => cases ha
  | close command =>
    obtain ⟨-, rfl⟩ := command_some h
    exact .of_perform (composed_close hP s.clock command)
  | pause command reply | resume command reply =>
    obtain ⟨-, rfl⟩ := command_some h
    exact .of_perform (composed_steer hP (fun _ _ => .send id) s.clock command _ _ _ reply)
  | annotate runId notes =>
    cases h
    exact .of_perform (composed_annotate hP s.clock runId notes)
  | deleteRun runId =>
    cases h
    exact .of_perform (composed_deleteRun hP runId)
  | record robotId state =>
    cases h
    exact recordFrame_sendsNoCancel robotId state
  | restoreMission missionId =>
    obtain ⟨-, rfl⟩ := command_some h
    exact .of_perform (composed_restore hP s.clock missionId)
  | livelinessDelete robotId =>
    cases h
    refine .of_perform (.of_same fun tx => ?_)
    rw [recordOffline_eq]
    cases tx.store.robots.find? robotId <;> rfl
  | insert i runId =>
    obtain ⟨p, -, -, rfl⟩ := insertRun_eq_some.mp h
    exact .of_perform (composed_prepareInsert hP s.digests runId p)
  | closeJudged i =>
    obtain ⟨c, run, judged, -, -, rfl⟩ := closeJudged_eq_some.mp h
    exact .of_perform (composed_closeUnclaimed hP s.clock run)
  | finishDeletion i =>
    obtain ⟨missionId, hasRuns, -, rfl⟩ := finishDeletion_eq_some.mp h
    exact .of_perform (composed_deleteFinish hP s.clock missionId hasRuns)
  | metadataArrives i =>
    dsimp only [step, metadataArrives] at h
    split at h
    · split at h
      · cases h
        exact .of_same rfl
      · obtain rfl := Option.some.inj h
        refine .of_perform (.of_same fun tx => ?_)
        rw [recordOnline_eq]
    · cases h
  | dispatch command => exact .of_same (congrArg World.sent (startDispatch_world h))
  | deleteMission missionId => exact .of_same (congrArg World.sent (startDeletion_world h))
  | countRuns i => exact .of_same (congrArg World.sent (countRuns_world h))
  | startReconciliation i => exact .of_same (congrArg World.sent (startReconciliation_world h))
  | dropJudged i => exact .of_same (congrArg World.sent (dropJudged_world h))
  | livelinessPut robotId =>
    cases h
    unfold livelinessPut
    split_ifs <;> exact .of_same rfl
  | answerMetadata i replies =>
    dsimp only [step, answerMetadata] at h
    split at h <;> cases h
    exact .of_same rfl
  | tick duration | abandonDispatch i | abandonDeletion i | abandonReconciliation i =>
    cases h
    exact .of_same rfl

end System
end Leitstand
