import Leitstand.SystemSteps

namespace Leitstand
open TxM

namespace System
open RunReconciliation
variable {s s' : System} {a : Action}

/-- Every stored run and every recorded frame has a drawn id, and a run held by a reconciliation is
one that was stored. -/
structure Snapshots (s : System) : Prop where
  issued : ∀ r ∈ s.runs.rows, r.runId ∈ s.issued
  recorded : ∀ frame ∈ s.recorded, frame.2.runId ∈ s.issued
  judged : ∀ c ∈ s.reconciliations, ∀ run ∈ c.judged, run.runId ∈ s.issued ∧
    ∀ r, s.runs.find? run.runId = some r →
      r.run.stages = run.stages ∧ r.missionId = run.missionId ∧ r.robotId = run.robotId

theorem owns_iff {robotId : RobotId} {state : MissionStateMessage} :
    s.owns robotId state = true ↔ ∃ r, s.runs.find? state.runId = some r ∧ r.robotId = robotId := by
  simp [owns, Option.any_eq_true]

/-- A frame of a stored run of its robot is recorded as the run's machine says, or refused. -/
theorem recordFrame_eq {r : StoredRun} {robotId : RobotId} {state : MissionStateMessage}
    (hr : s.runs.find? state.runId = some r) (hb : r.robotId = robotId) :
    s.recordFrame robotId state = if r.refusesReport s.clock state then s else
      { s with
        world :=
          { store := { s.store with runs := s.runs.replace (r.report s.clock state).row }
            bus := s.world.bus ++ (r.report s.clock state).events
            sent := s.world.sent }
        recorded := s.recorded ++ [(robotId, state)] } := by
  have heq := @record_eq { store := s.store } r s.clock state robotId hr hb
  unfold recordFrame
  rw [outcome_eq, heq]
  split_ifs with hrefuse ho ho
  · rfl
  · rfl
  · dsimp only
    rw [if_neg hrefuse] at heq
    rw [perform_ok heq]
    simp [saving, runs, store]
  · exact absurd (owns_iff.mpr ⟨r, hr, hb⟩) ho

theorem recordFrame_dropped {robotId : RobotId} {state : MissionStateMessage}
    (h : s.owns robotId state = false) : s.recordFrame robotId state = s := by
  have hd := @record_dropped { store := s.store } s.clock state robotId
    fun r hf hb => by simp [owns_iff.mpr ⟨r, hf, hb⟩] at h
  unfold recordFrame
  rw [outcome_eq, hd, perform_ok hd]
  simp [h, store]

theorem recordFrame_runsStep (robotId : RobotId) (state : MissionStateMessage) :
    RunsStep s (.record robotId state) (s.recordFrame robotId state) := by
  cases ho : s.owns robotId state with
  | false =>
    rw [recordFrame_dropped ho]
    exact .of_store rfl rfl rfl
  | true =>
    obtain ⟨r, hr, rfl⟩ := owns_iff.mp ho
    have hid := Table.key_of_find? hr
    rw [recordFrame_eq hr rfl]
    split_ifs
    · exact .of_store rfl rfl rfl
    · exact .responded r (.reported s.clock state) (hid ▸ hr) ⟨rfl, hid.symm⟩ rfl rfl rfl
        ⟨fun _ => rfl, fun _ => rfl, List.prefix_rfl⟩

theorem insertRun_runsStep {i : Nat} {runId : UUID} (h : s.insertRun i runId = some s') :
    RunsStep s (.insert i runId) s' := by
  obtain ⟨p, hp, hfresh, rfl⟩ := insertRun_eq_some.mp h
  rcases hx : (RunService.prepareInsert s.digests runId p).exec { store := s.store } with
    ⟨e | run, tx⟩
  · rw [perform_error hx]
    exact .of_store rfl rfl rfl
  · obtain ⟨habs, -, hidx, -, rfl⟩ := prepareInsert_ok hx
    rw [perform_ok hx]
    exact .created p runId (List.mem_of_getElem? hp) ⟨i, rfl⟩ hfresh habs hidx
      List.mem_cons_self rfl rfl rfl (.of_runs rfl)

theorem closeJudged_runsStep (hs : Snapshots s) {i : Nat} (h : s.closeJudged i = some s') :
    RunsStep s (.closeJudged i) s' := by
  obtain ⟨c, run, judged, hc, hj, rfl⟩ := closeJudged_eq_some.mp h
  have hmem : run ∈ c.judged := hj ▸ List.mem_cons_self
  suffices hw : RunsStep s (.closeJudged i) (s.perform (closeUnclaimed s.clock run)) from
    hw.congr rfl rfl rfl
  cases hf : s.runs.find? run.runId with
  | none =>
    rw [perform_ok (closeUnclaimed_absent hf)]
    exact .of_store rfl (by simp) rfl
  | some r =>
    obtain ⟨hst, hm, hb⟩ := (hs.judged c (List.mem_of_getElem? hc) run hmem).2 r hf
    apply perform_runsStep
    intro b tx hx
    exact ⟨r, .unclaimed s.clock run.status, Table.key_of_find? hf ▸ hf,
      closeUnclaimed_answers hf hst hm hb hx, ⟨i, rfl⟩, rfl⟩

theorem judge_eq {now : Datetime} {claim : Claim} {runId : UUID} {tx : Tx Store Event Command} :
    (judge now claim runId).exec tx = match tx.store.runs.find? runId with
      | none => (.ok none, tx)
      | some r =>
        if exempt now claim r.toRun then (.ok none, tx)
        else (.ok (some r.toRun),
          { tx with sent := tx.sent ++ [.cancel r.runId r.robotId .graceful] }) := by
  unfold judge
  simp only [exec_bind, exec_get]
  cases tx.store.runs.find? runId with
  | none => rfl
  | some r =>
    dsimp only [Option.map_some]
    split_ifs
    · rfl
    · simp [exec_send]

theorem judge_store (now : Datetime) (claim : Claim) (runId : UUID)
    (tx : Tx Store Event Command) : ((judge now claim runId).exec tx).2.store = tx.store ∧
      ((judge now claim runId).exec tx).2.queued = tx.queued := by
  rw [judge_eq]
  split
  · exact ⟨rfl, rfl⟩
  · split_ifs <;> exact ⟨rfl, rfl⟩

theorem stopClaim_store (robotId : RobotId) (claim : Claim) (tx : Tx Store Event Command) :
    ((stopClaim robotId claim).exec tx).2.store = tx.store ∧
      ((stopClaim robotId claim).exec tx).2.queued = tx.queued := by
  unfold stopClaim
  split
  · rename_i claimed _ _
    unfold stopAClosedClaim
    cases UUID.parse claimed with
    | none => exact ⟨rfl, rfl⟩
    | some runId =>
      simp only [exec_bind, exec_get]
      cases tx.store.runs.find? runId with
      | none => exact ⟨rfl, rfl⟩
      | some r =>
        dsimp only [Option.map_some]
        split_ifs <;> simp [exec_send]
  · exact ⟨rfl, rfl⟩

/-- A service that leaves the store and the events alone makes no step of the runs. -/
theorem perform_idle {β : Type} {m : ServiceM β}
    (hm : (m.exec { store := s.store }).2.store = s.store ∧
      (m.exec { store := s.store }).2.queued = []) :
    (s.perform m).world.store = s.store ∧ (s.perform m).world.bus = s.world.bus := by
  rcases hx : m.exec { store := s.store } with ⟨e | b, tx⟩
  · rw [perform_error hx]
    exact ⟨rfl, rfl⟩
  · rw [hx] at hm
    rw [perform_ok hx]
    have hq : tx.queued = [] := hm.2
    exact ⟨hm.1, by simp [hq]⟩

theorem command_some {β : Type} {missionId : UUID} {m : ServiceM β}
    (h : s.command missionId m = some s') : s.locked missionId = false ∧ s' = s.perform m := by
  unfold command at h
  split_ifs at h with hl
  exact ⟨by simpa using hl, (Option.some.inj h).symm⟩

theorem startDispatch_world {command : StartRunCommand} (h : s.startDispatch command = some s') :
    s'.world = s.world := by
  unfold startDispatch at h
  split_ifs at h
  split at h <;> cases h <;> rfl

theorem startDeletion_world {missionId : UUID} (h : s.startDeletion missionId = some s') :
    s'.world = s.world := by
  unfold startDeletion at h
  split_ifs at h
  split at h <;> cases h <;> rfl

theorem countRuns_world {i : Nat} (h : s.countRuns i = some s') : s'.world = s.world := by
  unfold countRuns at h
  split at h
  · split at h <;> cases h
    rfl
  · cases h

theorem finishDeletion_runsStep {i : Nat} (h : s.finishDeletion i = some s') :
    RunsStep s (.finishDeletion i) s' := by
  obtain ⟨missionId, hasRuns, -, rfl⟩ := finishDeletion_eq_some.mp h
  suffices hw : RunsStep s (.finishDeletion i) (s.perform
    (MissionManagement.deleteFinish s.clock missionId hasRuns)) from hw.congr rfl rfl rfl
  rcases hx : (MissionManagement.deleteFinish s.clock missionId hasRuns).exec
      { store := s.store } with ⟨e | u, tx⟩
  · rw [perform_error hx]
    exact .of_store rfl rfl rfl
  · obtain ⟨hq, -, entry, missions, hst, -⟩ := deleteFinish_ok hx
    rw [perform_ok hx]
    exact .of_missions rfl hst (by simp [hq]) rfl

theorem restore_runsStep (missionId : UUID) :
    RunsStep s (.restoreMission missionId)
      (s.perform (MissionManagement.restore s.clock missionId)) := by
  rcases hx : (MissionManagement.restore s.clock missionId).exec { store := s.store } with
    ⟨e | m, tx⟩
  · rw [perform_error hx]
    exact .of_store rfl rfl rfl
  · obtain ⟨m', -, hq, -, hst⟩ := restore_ok hx
    rw [perform_ok hx]
    exact .of_missions rfl hst (by simp [hq]) rfl

theorem deleteRun_runsStep (runId : UUID) :
    RunsStep s (.deleteRun runId) (s.perform (RunService.delete runId)) := by
  rcases hx : (RunService.delete runId).exec { store := s.store } with ⟨e | u, tx⟩
  · rw [perform_error hx]
    exact .of_store rfl rfl rfl
  · obtain ⟨r, hr, ht, hst, hq, -⟩ := deleteRun_ok hx
    rw [perform_ok hx]
    have hid := Table.key_of_find? hr
    have hruns : tx.store.runs = s.runs.erase r.runId := by rw [hst, hid]; rfl
    have hbus : tx.queued = deletionEvents s.runs r := hq
    exact .deleted r (hid ▸ hr) (hid ▸ rfl) ht hruns (by rw [hbus]) rfl (.of_runs hst)

theorem recordOffline_runsStep (robotId : RobotId) :
    RunsStep s (.livelinessDelete robotId)
      (s.perform (RobotConnectivity.recordOffline robotId)) := by
  have hx := @recordOffline_eq { store := s.store } robotId
  cases hr : s.store.robots.find? robotId with
  | none =>
    rw [hr] at hx
    rw [perform_ok hx]
    exact .of_store rfl (by simp) rfl
  | some row =>
    rw [hr] at hx
    rw [perform_ok hx]
    exact .idle _ rfl rfl (by simp [Event.AboutRobot]) rfl
      ⟨fun _ => rfl, by simp [Action.editsRobots], List.prefix_rfl⟩

theorem metadataArrives_runsStep {i : Nat} (h : s.metadataArrives i = some s') :
    RunsStep s (.metadataArrives i) s' := by
  unfold metadataArrives at h
  split at h
  · rename_i robotId answer _
    dsimp only at h
    split at h
    · cases h
      exact .of_store rfl rfl rfl
    · rename_i command _
      obtain rfl := Option.some.inj h
      have hx := @recordOnline_eq { store := s.store } s.clock command
      have hp := perform_ok (s := { s with handlers := s.handlers.eraseIdx i }) hx
      unfold recordOnline
      rw [hp]
      exact .idle _ rfl rfl (by simp [Event.AboutRobot]) rfl
        ⟨fun _ => rfl, by simp [Action.editsRobots], List.prefix_rfl⟩
  · cases h

theorem startReconciliation_world {i : Nat} (h : s.startReconciliation i = some s') :
    s'.world = s.world := by
  unfold startReconciliation at h
  split at h
  · cases h
  · split_ifs at h
    cases h
    rfl

theorem judgeRun_world {i : Nat} (h : s.judgeRun i = some s') :
    s'.world.store = s.store ∧ s'.world.bus = s.world.bus := by
  unfold judgeRun at h
  split at h
  · cases h
  · rename_i c _
    split at h
    · cases h
    · rename_i runId left _
      dsimp only at h
      have hp := perform_idle (s := s) (judge_store c.startedAt c.claim runId { store := s.store })
      split at h
      · cases h
      · cases h
        exact hp

theorem dropJudged_world {i : Nat} (h : s.dropJudged i = some s') : s'.world = s.world := by
  unfold dropJudged at h
  split at h <;> cases h
  rfl

theorem endReconciliation_world {i : Nat} (h : s.endReconciliation i = some s') :
    s'.world.store = s.store ∧ s'.world.bus = s.world.bus := by
  unfold endReconciliation at h
  split at h
  · cases h
  · rename_i c _
    split_ifs at h
    cases h
    exact perform_idle (stopClaim_store c.robotId c.claim { store := s.store })

/-- Every step creates, deletes or moves at most one run, or leaves the runs alone. -/
theorem step_runs (hs : Snapshots s) (h : s.step a = some s') : RunsStep s a s' := by
  cases a with
  | settle command =>
    cases h
    apply perform_runsStep
    intro run tx hx
    obtain ⟨r, hr, ha⟩ := settle_answers hx
    have hid := Table.key_of_find? hr
    exact ⟨r, .settled s.clock command, hid ▸ hr, ha, ⟨rfl, hid.symm⟩, rfl⟩
  | cancel command reply =>
    obtain ⟨-, rfl⟩ := command_some h
    apply perform_runsStep
    intro run tx hx
    obtain ⟨r, hr, -, ha⟩ := cancel_answers hx
    exact ⟨r, .cancelled s.clock command.mode (isOffline s.store r.robotId) reply, hr, ha,
      ⟨command, rfl, rfl⟩, rfl⟩
  | close command =>
    obtain ⟨-, rfl⟩ := command_some h
    apply perform_runsStep
    intro run tx hx
    obtain ⟨r, hr, -, -, ha⟩ := close_answers hx
    exact ⟨r, .closed s.clock, hr, ha, ⟨command, rfl⟩, rfl⟩
  | pause command reply =>
    obtain ⟨-, rfl⟩ := command_some h
    apply perform_runsStep
    intro run tx hx
    obtain ⟨r, hr, -, ha⟩ := steer_answers hx
    exact ⟨r, .paused s.clock, hr, ha, ⟨command, reply, rfl⟩, rfl⟩
  | resume command reply =>
    obtain ⟨-, rfl⟩ := command_some h
    apply perform_runsStep
    intro run tx hx
    obtain ⟨r, hr, -, ha⟩ := steer_answers hx
    exact ⟨r, .resumed s.clock, hr, ha, ⟨command, reply, rfl⟩, rfl⟩
  | annotate runId notes =>
    cases h
    apply perform_runsStep
    intro run tx hx
    obtain ⟨r, hr, ha⟩ := annotate_answers hx
    have hid := Table.key_of_find? hr
    exact ⟨r, .annotated s.clock notes, hid ▸ hr, ha, congrArg (Action.annotate · notes) hid.symm,
      rfl⟩
  | insert i runId => exact insertRun_runsStep h
  | deleteRun runId => cases h; exact deleteRun_runsStep runId
  | record robotId state => cases h; exact recordFrame_runsStep robotId state
  | closeJudged i => exact closeJudged_runsStep hs h
  | finishDeletion i => exact finishDeletion_runsStep h
  | restoreMission missionId =>
    obtain ⟨-, rfl⟩ := command_some h
    exact restore_runsStep missionId
  | livelinessDelete robotId => cases h; exact recordOffline_runsStep robotId
  | metadataArrives i => exact metadataArrives_runsStep h
  | judgeRun i =>
    obtain ⟨hst, hb⟩ := judgeRun_world h
    exact .of_store hst hb ((step_frame h).recorded (by simp))
  | endReconciliation i =>
    obtain ⟨hst, hb⟩ := endReconciliation_world h
    exact .of_store hst hb ((step_frame h).recorded (by simp))
  | dispatch command => exact .of_world_eq (startDispatch_world h) ((step_frame h).recorded (by simp))
  | deleteMission missionId =>
    exact .of_world_eq (startDeletion_world h) ((step_frame h).recorded (by simp))
  | countRuns i => exact .of_world_eq (countRuns_world h) ((step_frame h).recorded (by simp))
  | startReconciliation i =>
    exact .of_world_eq (startReconciliation_world h) ((step_frame h).recorded (by simp))
  | dropJudged i => exact .of_world_eq (dropJudged_world h) ((step_frame h).recorded (by simp))
  | livelinessPut robotId =>
    cases h
    unfold livelinessPut
    split_ifs <;> exact .of_store rfl rfl rfl
  | answerMetadata i replies =>
    dsimp only [step, answerMetadata] at h
    split at h <;> cases h
    exact .of_store rfl rfl rfl
  | tick duration => cases h; exact .of_store rfl rfl rfl
  | abandonDispatch i => cases h; exact .of_store rfl rfl rfl
  | abandonDeletion i => cases h; exact .of_store rfl rfl rfl
  | abandonReconciliation i => cases h; exact .of_store rfl rfl rfl

end System
end Leitstand
