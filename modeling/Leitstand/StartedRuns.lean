import Leitstand.RunStarts

namespace Leitstand
open TxM RunService

/-- A report leads to no status that a run has before its robot took it. -/
theorem reported_ne {s s' : RunStatus} {exec : MissionExecStatus}
    (h : allowedTransitions s (triggerForReport s exec) = some s') :
    s' ≠ .pending ∧ s' ≠ .rejected := by
  cases exec <;> cases s <;> cases h <;> simp

namespace StoredRun
variable {r : StoredRun}

theorem status_steer (now : Datetime) {trigger : RunTrigger} {command : Command}
    (ht : trigger = .pauseRequest ∨ trigger = .resumeRequest) :
    (r.steer now trigger command).row.status = r.status ∨ isTerminal r.status = false ∧
      (r.steer now trigger command).row.status ≠ .pending ∧
      (r.steer now trigger command).row.status ≠ .rejected := by
  unfold steer
  split
  · exact .inl rfl
  · rename_i status h
    have hmoved : status ≠ .pending ∧ status ≠ .rejected := by
      obtain rfl | rfl := ht <;> cases hs : r.status <;> rw [hs] at h <;> cases h <;> simp
    exact .inr ⟨not_isTerminal_of_allowed h, hmoved⟩

/-- Only the answer to its dispatch leaves a run pending or rejected that was not. -/
theorem status_respond (input : RunInput) (h : ∀ now command, input ≠ .settled now command) :
    (r.respond input).row.status = r.status ∨ isTerminal r.status = false ∧
      (r.respond input).row.status ≠ .pending ∧ (r.respond input).row.status ≠ .rejected := by
  cases input with
  | settled now command => exact absurd rfl (h now command)
  | cancelled now mode offline reply =>
    dsimp only [respond]
    rw [cancel_row]
    split_ifs with ht hr
    · exact .inl rfl
    · exact .inr ⟨by simpa using ht, by simp [ending, closed, refusedUpdate],
        by simp [ending, closed, refusedUpdate]⟩
    · exact .inr ⟨by simpa using ht, by simp [cancelRequested, cancelUpdate],
        by simp [cancelRequested, cancelUpdate]⟩
  | closed now =>
    dsimp only [respond]
    unfold close
    split_ifs with ht
    · exact .inl rfl
    · exact .inr ⟨by simpa using ht, by simp [ending, closed, closeUpdate],
        by simp [ending, closed, closeUpdate]⟩
  | paused now => exact status_steer now (.inl rfl)
  | resumed now => exact status_steer now (.inr rfl)
  | reported now state =>
    dsimp only [respond]
    rw [status_report]
    cases hu : MissionStateService.reportUpdate r.toRun state with
    | none => exact .inl rfl
    | some u =>
      obtain ⟨-, status, hstatus, rfl⟩ := MissionStateService.reportUpdate_eq_some.mp hu
      exact .inr ⟨not_isTerminal_of_allowed hstatus, reported_ne hstatus⟩
  | unclaimed now judged =>
    dsimp only [respond]
    unfold unclaimed
    split_ifs with hs
    · refine .inr ⟨hs.2, ?_, ?_⟩ <;>
        simp [ending, closed, unclaimedUpdate] <;> split_ifs <;> simp
    · exact .inl rfl
  | annotated now notes => exact .inl rfl

end StoredRun

namespace RunService
variable {tx : Tx Store Event Command} {r : StoredRun} {now : Datetime} {command : SettleRunCommand}

theorem settle_absent (h : tx.store.runs.find? command.runId = none) :
    (settle now command).exec tx = (.error (.runNotFound command.runId false), tx) := by
  simp [settle, Runs.getForUpdate, exec_get, h]

/-- The transaction goes through and returns the run with this status. -/
def Returns (m : ServiceM MissionRun) (tx : Tx Store Event Command) (status : RunStatus) : Prop :=
  ∃ run tx', m.exec tx = (.ok run, tx') ∧ run.status = status

theorem settleAccepted_returns (h : Holds tx r.runId) (hc : command.outcome = .accepted) :
    Returns (settleAccepted now command r.toRun) (saving tx r [] [] [])
      (r.settle now command).row.status := by
  unfold Returns StoredRun.settle settleAccepted
  simp only [hc]
  by_cases hp : r.status = .pending
  · simp [h, hp, Option.filter, StoredRun.acceptUpdate]
  · by_cases hcancel : r.status = .cancelling
    · simp [h, hcancel, StoredRun.lateReply]
    · simp [h, hp, hcancel, StoredRun.lateReply]

theorem settleUnconfirmed_returns (h : Holds tx r.runId)
    (hc : command.outcome = .timeout ∨ command.outcome = .error) :
    Returns (settleUnconfirmed now command r.toRun) (saving tx r [] [] [])
      (r.settle now command).row.status := by
  have hs : r.settle now command =
      if r.status = .pending then
        { row := r.withStatus now (StoredRun.unconfirmedUpdate command) }
      else r.lateReply command := by
    unfold StoredRun.settle
    obtain hc | hc := hc <;> rw [hc]
  unfold Returns settleUnconfirmed
  rw [hs]
  by_cases hp : r.status = .pending
  · simp [h, hp, StoredRun.unconfirmedUpdate]
  · by_cases hcancel : r.status = .cancelling
    · simp [h, hcancel, StoredRun.lateReply]
    · simp [h, hp, hcancel, StoredRun.lateReply]

theorem settleRejected_returns (h : Holds tx r.runId) (hc : command.outcome = .rejected)
    (hclean : ∀ status, rewritesRow false r.stageRuns [] (r.finalRows now status []) = false) :
    Returns (settleRejected now command r.toRun) (saving tx r [] [] [])
      (r.settle now command).row.status := by
  unfold Returns StoredRun.settle settleRejected
  simp only [hc]
  by_cases hp : r.status = .pending ∨ r.status = .cancelling
  · have ht : isTerminal r.status = false := by obtain hp | hp := hp <;> rw [hp] <;> rfl
    have hd := hclean (r.rejectUpdate command).newStatus
    simp [StoredRun.rejectUpdate] at hd
    simp [h, hp, ht, finalize, hd, StoredRun.ending, StoredRun.closed, StoredRun.rejectUpdate]
  · simp [h, hp]

/-- The second transaction goes through where its run is stored, and returns the status it
leaves. -/
theorem settle_returns (hr : tx.store.runs.find? command.runId = some r)
    (hclean : ∀ status, rewritesRow false r.stageRuns [] (r.finalRows now status []) = false) :
    Returns (settle now command) tx (r.settle now command).row.status := by
  have hid : r.runId = command.runId := Table.key_of_find? hr
  have hstored : tx.store.runs.find? r.runId = some r := hid ▸ hr
  have h : Holds tx r.runId := Option.isSome_iff_exists.mpr ⟨r, hstored⟩
  unfold Returns settle
  simp only [Runs.getForUpdate, exec_bind, exec_get, hr, Option.map_some]
  rw [← saving_self hstored]
  cases hc : command.outcome with
  | accepted => exact settleAccepted_returns h hc
  | rejected => exact settleRejected_returns h hc hclean
  | timeout => exact settleUnconfirmed_returns h (.inl hc)
  | error => exact settleUnconfirmed_returns h (.inr hc)

end RunService

namespace CallPhase

/-- What a start's caller has been told, or is still to be told, beside the status of its run. -/
def Agrees (status : RunStatus) : CallPhase → Prop
  | .asking | .heard _ | .lost => status ≠ .rejected
  | .answered _ (.ok _) => status ≠ .pending ∧ status ≠ .rejected
  | .answered _ (.error (.missionRejectedByRobot _ _ _)) => status = .rejected ∨ status = .failed
  | .answered _ (.error (.missionDispatchTimeout _ _))
  | .answered _ (.error (.missionDispatchFailed _ _ _)) => status ≠ .rejected
  | .answered _ (.error (.service _)) => False

/-- An error tells what the robot answered, or that the run is gone; a run is returned only where
the robot took it or where it has moved on, by the robot's frames or by an operator's cancel. -/
def Told (run : MissionRun) : CallPhase → Prop
  | .answered _ (.error (.service e)) => e = .runNotFound run.runId false
  | .answered answer (.error e) => answer.error? run = some e
  | .answered answer (.ok status) => answer = .accepted ∨ StartCall.unconfirmed status = false
  | _ => True

/-- What the run does without its dispatch's answer agrees with what was told. -/
theorem Agrees.unsettled {phase : CallPhase} {status status' : RunStatus} (h : phase.Agrees status)
    (hs : status' = status ∨ isTerminal status = false ∧ status' ≠ .pending ∧ status' ≠ .rejected) :
    phase.Agrees status' := by
  obtain rfl | ⟨hlive, hpending, hrejected⟩ := hs
  · exact h
  · match phase with
    | .asking | .heard _ | .lost => exact hrejected
    | .answered _ (.ok _) => exact ⟨hpending, hrejected⟩
    | .answered _ (.error (.missionRejectedByRobot _ _ _)) =>
      obtain rfl | rfl := h <;> cases hlive
    | .answered _ (.error (.missionDispatchTimeout _ _))
    | .answered _ (.error (.missionDispatchFailed _ _ _)) => exact hrejected
    | .answered _ (.error (.service _)) => exact h.elim

end CallPhase

namespace StartCall

/-- The status a run has once its dispatch's answer is settled. -/
def afterAnswer (status : RunStatus) : DispatchEnd → RunStatus
  | .accepted => if status = .pending then .dispatched else status
  | .rejected _ =>
    if status = .pending then .rejected else if status = .cancelling then .cancelled else status
  | .timeout | .failed _ => status

theorem status_settle (r : StoredRun) (now repliedAt : Datetime) (runId : UUID)
    (answer : DispatchEnd) :
    (r.settle now (answer.settleCommand runId repliedAt)).row.status =
      afterAnswer r.status answer := by
  cases answer with
  | accepted =>
    unfold StoredRun.settle afterAnswer
    simp only [DispatchEnd.settleCommand, DispatchEnd.outcome]
    split_ifs <;> rfl
  | rejected reason =>
    unfold StoredRun.settle afterAnswer
    simp only [DispatchEnd.settleCommand, DispatchEnd.outcome]
    by_cases hp : r.status = .pending
    · rw [if_pos (.inl hp), if_pos hp]
      simp [StoredRun.ending, StoredRun.closed, StoredRun.rejectUpdate, hp]
    · by_cases hc : r.status = .cancelling
      · rw [if_pos (.inr hc), if_neg hp, if_pos hc]
        simp [StoredRun.ending, StoredRun.closed, StoredRun.rejectUpdate, hc]
      · rw [if_neg (by simp [hp, hc]), if_neg hp, if_neg hc]
  | timeout | failed reason =>
    unfold StoredRun.settle afterAnswer
    simp only [DispatchEnd.settleCommand, DispatchEnd.outcome]
    split_ifs with hp
    · exact hp.symm
    · rfl

variable (call : StartCall) (answer : DispatchEnd)

theorem agrees_result {run : MissionRun} {status : RunStatus} (hs : status ≠ .rejected)
    (hrun : run.status = afterAnswer status answer) :
    (CallPhase.answered answer (call.result answer (.ok run))).Agrees
      (afterAnswer status answer) := by
  unfold result
  cases answer <;> cases status <;>
    simp_all [DispatchEnd.error?, afterAnswer, unconfirmed, CallPhase.Agrees]

theorem told_result (settled : Except ServiceError MissionRun)
    (h : ∀ e, settled = .error e → e = .runNotFound call.run.runId false) :
    (CallPhase.answered answer (call.result answer settled)).Told call.run := by
  unfold result
  cases settled with
  | error e => exact h e rfl
  | ok run =>
    dsimp only
    cases he : answer.error? call.run with
    | none =>
      refine .inl ?_
      cases answer <;> first | rfl | cases he
    | some e =>
      dsimp only
      split_ifs with hu
      · cases answer <;> cases he <;> rfl
      · exact .inr (by simpa using hu)

end StartCall

namespace Starts
variable {parse : Bytes → ParsedDispatch} {s s' : Starts} {a : StartAction} {k : Nat}
  {call : StartCall} {phase : CallPhase}

/-- Every stored run has its call, and what its caller was told agrees with it. -/
structure Sound (s : Starts) : Prop where
  reachable : s.system.Reachable
  issued : ∀ call ∈ s.calls, call.run.runId ∈ s.system.issued
  nodup : (s.calls.map fun call => call.run.runId).Nodup
  covered : ∀ r ∈ s.system.runs.rows, ∃ call ∈ s.calls, call.run.runId = r.runId ∧
    call.run.robotId = r.robotId ∧ call.phase.Agrees r.status
  told : ∀ call ∈ s.calls, call.phase.Told call.run

theorem Sound.unique (h : s.Sound) {other : StartCall} (hc : call ∈ s.calls) (ho : other ∈ s.calls)
    (hid : other.run.runId = call.run.runId) : other = call :=
  List.inj_on_of_nodup_map h.nodup ho hc hid

theorem runIds_setPhase (hk : s.calls[k]? = some call) :
    (s.setPhase k call phase).calls.map (fun call => call.run.runId) =
      s.calls.map fun call => call.run.runId := by
  obtain ⟨hlt, rfl⟩ := List.getElem?_eq_some_iff.mp hk
  unfold setPhase
  rw [List.map_set]
  apply List.ext_getElem
  · simp
  · intro i _ hi
    rw [List.getElem_set]
    split_ifs with he
    · subst he
      simp
    · rfl

theorem mem_setPhase_ne (hk : s.calls[k]? = some call) {other : StartCall} (ho : other ∈ s.calls)
    (hne : other ≠ call) : other ∈ (s.setPhase k call phase).calls := by
  obtain ⟨i, hi⟩ := List.mem_iff_getElem?.mp ho
  refine List.mem_of_getElem? (i := i) ?_
  unfold setPhase
  rw [List.getElem?_set_ne, hi]
  rintro rfl
  exact hne (Option.some.inj (hi.symm.trans hk))

theorem mem_setPhase_self (hk : s.calls[k]? = some call) :
    { call with phase } ∈ (s.setPhase k call phase).calls :=
  List.mem_set (List.getElem?_eq_some_iff.mp hk).1 _

namespace Sound

/-- A call moves on, and the rows with it. -/
theorem move (h : s.Sound) (hk : s.calls[k]? = some call) {system : System}
    (hreach : system.Reachable) (hissued : s.system.issued ⊆ system.issued)
    (hself : ∀ r ∈ system.runs.rows, r.runId = call.run.runId →
      call.run.robotId = r.robotId ∧ phase.Agrees r.status)
    (hothers : ∀ r ∈ system.runs.rows, r.runId ≠ call.run.runId → r ∈ s.system.runs.rows)
    (htold : phase.Told call.run) : ({ s with system }.setPhase k call phase).Sound where
  reachable := hreach
  issued other ho := by
    obtain ho | rfl := List.mem_or_eq_of_mem_set ho
    · exact hissued (h.issued other ho)
    · exact hissued (h.issued call (List.mem_of_getElem? hk))
  nodup := by
    rw [runIds_setPhase (s := { s with system }) hk]
    exact h.nodup
  covered r hr := by
    by_cases hid : r.runId = call.run.runId
    · obtain ⟨hrobot, hagrees⟩ := hself r hr hid
      exact ⟨_, mem_setPhase_self (s := { s with system }) hk, hid.symm, hrobot, hagrees⟩
    · obtain ⟨other, ho, hrun, hrobot, hagrees⟩ := h.covered r (hothers r hr hid)
      refine ⟨other, mem_setPhase_ne (s := { s with system }) hk ho ?_, hrun, hrobot, hagrees⟩
      rintro rfl
      exact hid hrun.symm
  told other ho := by
    obtain ho | rfl := List.mem_or_eq_of_mem_set ho
    · exact h.told other ho
    · exact htold

/-- The phase of a call that is still under way says only that its run is not rejected. -/
theorem waiting (h : s.Sound) (hk : s.calls[k]? = some call) (hphase : ∀ status,
    call.phase.Agrees status → status ≠ .rejected) {r : StoredRun} (hr : r ∈ s.system.runs.rows)
    (hid : r.runId = call.run.runId) : call.run.robotId = r.robotId ∧ r.status ≠ .rejected := by
  obtain ⟨other, ho, hrun, hrobot, hagrees⟩ := h.covered r hr
  obtain rfl := h.unique (List.mem_of_getElem? hk) ho (hrun.trans hid)
  exact ⟨hrobot, hphase r.status hagrees⟩

theorem hear {asked : Except String (List Reply)} (h : s.Sound)
    (hs : s.hear parse k asked = some s') :
    s'.Sound := by
  obtain ⟨call, hk, hs⟩ := Option.bind_eq_some_iff.mp hs
  split at hs
  · rename_i hphase
    cases hs
    refine h.move hk h.reachable (List.Subset.refl _) ?_ (fun r hr _ => hr) trivial
    intro r hr hid
    exact h.waiting hk (by rw [hphase]; exact fun _ hs => hs) hr hid
  · cases hs

theorem lose (h : s.Sound) (hs : s.lose k = some s') : s'.Sound := by
  obtain ⟨call, hk, hs⟩ := Option.bind_eq_some_iff.mp hs
  split at hs
  · rename_i hphase
    cases hs
    refine h.move hk h.reachable (List.Subset.refl _) ?_ (fun r hr _ => hr) trivial
    intro r hr hid
    exact h.waiting hk (by rw [hphase]; exact fun _ hs => hs) hr hid
  · rename_i answer hphase
    cases hs
    refine h.move hk h.reachable (List.Subset.refl _) ?_ (fun r hr _ => hr) trivial
    intro r hr hid
    exact h.waiting hk (by rw [hphase]; exact fun _ hs => hs) hr hid
  · cases hs

theorem settle (h : s.Sound) (hs : s.settle k = some s') : s'.Sound := by
  obtain ⟨call, hk, hs⟩ := Option.bind_eq_some_iff.mp hs
  split at hs
  swap
  · cases hs
  rename_i answer hphase
  obtain ⟨system, hsystem, hs⟩ := Option.bind_eq_some_iff.mp hs
  cases hs
  have hreach := h.reachable.step hsystem
  have hissued := System.issued_mono hsystem
  have hwaiting := fun r hr hid =>
    h.waiting (r := r) hk (by rw [hphase]; exact fun _ hs => hs) hr hid
  cases hsystem
  rw [System.outcome_eq]
  cases hf : s.system.runs.find? call.run.runId with
  | none =>
    have hx : (RunService.settle s.system.clock (answer.settleCommand call.run.runId
        s.system.clock)).exec { store := s.system.store } = _ := settle_absent hf
    rw [hx, System.perform_error hx]
    rw [System.perform_error hx] at hreach hissued
    refine h.move hk hreach hissued ?_ (fun r hr _ => hr) rfl
    intro r hr hid
    have hstored : s.system.runs.find? r.runId = some r := Table.find?_of_mem hr
    rw [hid, hf] at hstored
    cases hstored
  | some r =>
    have hid : r.runId = call.run.runId := Table.key_of_find? hf
    have hmem : r ∈ s.system.runs.rows := Table.mem_of_find? hf
    have hreturns : Returns (RunService.settle s.system.clock (answer.settleCommand call.run.runId
        s.system.clock)) { store := s.system.store } _ :=
      settle_returns hf (h.reachable.ends_cleanly hmem _)
    obtain ⟨run, tx', hx, hstatus⟩ := hreturns
    obtain ⟨q, hq, entries, rfl⟩ := settle_answers hx
    obtain rfl := Option.some.inj (hf.symm.trans hq)
    rw [hx, System.perform_ok hx]
    rw [System.perform_ok hx] at hreach hissued
    obtain ⟨hrobot, hnot⟩ := hwaiting r hmem hid
    rw [StartCall.status_settle] at hstatus
    have hfrozen := r.frozen_respond (.settled s.system.clock
      (answer.settleCommand call.run.runId s.system.clock))
    have hkey : (r.settle s.system.clock (answer.settleCommand call.run.runId
      s.system.clock)).row.runId = r.runId := congrArg FrozenRun.runId hfrozen
    refine h.move hk hreach hissued ?_ ?_ ?_
    · intro r' hr' hid'
      obtain rfl | ⟨-, hne⟩ := Table.mem_replace hr'
      · refine ⟨hrobot.trans (congrArg FrozenRun.robotId hfrozen).symm, ?_⟩
        rw [StartCall.status_settle]
        exact call.agrees_result answer hnot hstatus
      · exact absurd (hid'.trans (hkey.trans hid).symm) hne
    · intro r' hr' hne
      obtain rfl | ⟨hold, -⟩ := Table.mem_replace hr'
      · exact absurd (hkey.trans hid) hne
      · exact hold
    · exact call.told_result answer (.ok run) (fun e he => nomatch he)

theorem insert {i : Nat} {runId : UUID} (h : s.Sound) (hs : s.insert i runId = some s') :
    s'.Sound := by
  obtain ⟨system, hsystem, hs⟩ := Option.bind_eq_some_iff.mp hs
  obtain ⟨p, hp, hs⟩ := Option.bind_eq_some_iff.mp hs
  have hreach := h.reachable.step hsystem
  have hissued := System.issued_mono hsystem
  obtain ⟨p', hp', hfresh, rfl⟩ := System.insertRun_eq_some.mp hsystem
  obtain rfl := Option.some.inj (hp.symm.trans hp')
  rw [System.outcome_eq] at hs
  cases hx : (prepareInsert s.system.digests runId p).exec { store := s.system.store } with
  | mk outcome tx =>
  rw [hx] at hs
  cases outcome with
  | error e =>
    cases hs
    rw [System.perform_error hx] at hreach hissued ⊢
    exact ⟨hreach, fun call hc => hissued (h.issued call hc), h.nodup, h.covered, h.told⟩
  | ok run =>
    cases hs
    obtain ⟨habsent, rfl, -, -, rfl⟩ := prepareInsert_ok hx
    rw [System.perform_ok hx] at hreach hissued ⊢
    refine ⟨hreach, ?_, ?_, ?_, ?_⟩
    · intro call hc
      obtain hc | hc := List.mem_append.mp hc
      · exact hissued (h.issued call hc)
      · obtain rfl := List.mem_singleton.mp hc
        exact List.mem_cons_self
    · rw [List.map_append, List.nodup_append]
      refine ⟨h.nodup, List.nodup_singleton _, ?_⟩
      rintro id hid id' hid' rfl
      obtain ⟨call, hc, rfl⟩ := List.mem_map.mp hid
      have heq : call.run.runId = runId := List.mem_singleton.mp hid'
      exact hfresh (heq ▸ h.issued call hc)
    · intro r hr
      have hr' : r ∈ (s.system.runs.insert (freshRun s.system.digests runId p) habsent).rows := hr
      obtain hr | rfl := Table.mem_insert.mp hr'
      · obtain ⟨call, hc, hrun⟩ := h.covered r hr
        exact ⟨call, List.mem_append_left _ hc, hrun⟩
      · refine ⟨_, List.mem_append_right _ (List.mem_singleton_self _), rfl, rfl, ?_⟩
        intro hrejected
        cases hrejected
    · intro call hc
      obtain hc | hc := List.mem_append.mp hc
      · exact h.told call hc
      · obtain rfl := List.mem_singleton.mp hc
        trivial

theorem other {a : Action} {system : System} (h : s.Sound) (hstart : a.ofStart = false)
    (hs : s.system.step a = some system) : Sound { s with system } where
  reachable := h.reachable.step hs
  issued call hc := System.issued_mono hs (h.issued call hc)
  nodup := h.nodup
  told := h.told
  covered r hr := by
    cases h.reachable.runsStep hs with
    | idle events runs => exact h.covered r (runs ▸ hr)
    | responded q input found cause runs =>
      have hr' : r ∈ (s.system.runs.replace (q.respond input).row).rows := runs ▸ hr
      obtain rfl | ⟨hold, -⟩ := Table.mem_replace hr'
      · obtain ⟨call, hc, hrun, hrobot, hagrees⟩ := h.covered q (Table.mem_of_find? found)
        have hfrozen := q.frozen_respond input
        refine ⟨call, hc, hrun.trans (congrArg FrozenRun.runId hfrozen).symm,
          hrobot.trans (congrArg FrozenRun.robotId hfrozen).symm, ?_⟩
        refine hagrees.unsettled (q.status_respond input fun now command he => ?_)
        subst he
        rw [cause.1] at hstart
        cases hstart
      · exact h.covered r hold
    | created p runId dispatch cause =>
      obtain ⟨i, rfl⟩ := cause
      cases hstart
    | deleted q found cause ended runs =>
      have hr' : r ∈ (s.system.runs.erase q.runId).rows := runs ▸ hr
      exact h.covered r (Table.mem_erase.mp hr').1

theorem step (h : s.Sound) (hs : s.step parse a = some s') : s'.Sound := by
  cases a with
  | insert i runId => exact h.insert hs
  | hear k asked => exact h.hear hs
  | settle k => exact h.settle hs
  | lose k => exact h.lose hs
  | other a =>
    unfold Starts.step at hs
    dsimp only at hs
    split_ifs at hs with hstart
    obtain ⟨system, hsystem, rfl⟩ := Option.map_eq_some_iff.mp hs
    exact h.other (by simpa using hstart) hsystem

end Sound

open StepSystem in
/-- In every run of the backend with its starts, whatever frames and commands come in between, a
stored run has the one start call that committed it, and what its caller was told agrees with the run
from then on: a start that returned a run leaves none that is pending or rejected, a rejected run's
caller was told the robot's refusal, and a run that is still pending once its call has ended has a
caller who was told that nothing confirms it. -/
theorem starts_are_answered {s₀ : Starts} {acts : List StartAction} (h₀ : s₀.system.Initial)
    (hcalls : s₀.calls = []) (h : exec (step parse) s₀ acts = some s) :
    (∀ r ∈ s.system.runs.rows, ∃ call ∈ s.calls, call.run.runId = r.runId ∧
      call.run.robotId = r.robotId ∧ call.phase.Agrees r.status ∧
      ∀ other ∈ s.calls, other.run.runId = r.runId → other = call) ∧
    ∀ call ∈ s.calls, call.phase.Told call.run := by
  have hstart : s₀.Sound := by
    refine ⟨⟨s₀.system, [], h₀, rfl⟩, ?_, ?_, ?_, ?_⟩
    · simp [hcalls]
    · simp [hcalls]
    · simp [h₀.runs, Table.empty]
    · simp [hcalls]
  have hs : s.Sound := exec_invariant (fun _ _ _ hs hstep => hs.step hstep) hstart h
  refine ⟨fun r hr => ?_, hs.told⟩
  obtain ⟨call, hc, hrun, hrobot, hagrees⟩ := hs.covered r hr
  exact ⟨call, hc, hrun, hrobot, hagrees, fun other ho hid => hs.unique hc ho (hid.trans hrun.symm)⟩

def demoCommand : StartRunCommand :=
  { missionId := 1, origin := { kind := .manual, actor := "operator" } }

/-- The robot does not answer, and its first frame comes after the caller was told so. -/
def demoStart : List StartAction :=
  demoOnline.map .other ++ [.other (.dispatch demoCommand), .insert 0 7, .hear 0 (.ok []),
    .settle 0, .other (demoFrame 1 .running)]

theorem starts_are_answered_timeout : ∃ s call r,
    StepSystem.exec (step fun _ => .parseError) { system := demo } demoStart = some s ∧
    r ∈ s.system.runs.rows ∧ r.status = .running ∧ call ∈ s.calls ∧ call.run.runId = r.runId ∧
    call.phase.Agrees r.status := by
  have hrun : ((StepSystem.exec (step fun _ => .parseError) { system := demo }
      demoStart).map fun s =>
      (s.system.runs.find? 7).map (·.status)) = some (some .running) := by decide +kernel
  obtain ⟨s, hs, hstatus⟩ := Option.map_eq_some_iff.mp hrun
  obtain ⟨r, hr, hrunning⟩ := Option.map_eq_some_iff.mp hstatus
  obtain ⟨call, hc, hid, -, hagrees, -⟩ :=
    (starts_are_answered (System.boot_initial _ _ _) rfl hs).1 r (Table.mem_of_find? hr)
  exact ⟨s, call, r, hs, Table.mem_of_find? hr, hrunning, hc, hid, hagrees⟩

end Starts
end Leitstand
