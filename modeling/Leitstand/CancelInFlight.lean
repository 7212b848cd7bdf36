import Leitstand.ClosedRuns
import Leitstand.FinalRows
import Leitstand.TransitionLog

namespace Leitstand
open TxM RunService

section Services
variable {tx : Tx Store Event Command} {r : StoredRun} {now : Datetime}

/-- A cancel that has its run is recorded, whatever the robot answers. -/
theorem cancel_succeeds {command : CancelRunCommand} {reply : ControlReply}
    (hr : tx.store.runs.find? r.runId = some r)
    (ht : (target command.missionId command.runId).exec tx = (.ok r.toRun, tx))
    (hd : rewritesRow false r.stageRuns [] (r.finalRows now .cancelled []) = false) :
    ∃ run tx', (cancel now command reply).exec tx = (.ok run, tx') := by
  have h : Holds tx r.runId := Option.isSome_iff_exists.mpr ⟨r, hr⟩
  obtain ⟨-, q, hq, he, ha, -⟩ := target_ok ht
  have hid : r.runId = q.runId := congrArg (·.runId) he
  obtain rfl : q = r := Option.some.inj (hq.symm.trans (hid ▸ hr))
  have hnt : isTerminal q.status = false := by simpa [isActive_eq_not_isTerminal] using ha
  have hnext : (nextState q.status .cancelRequest).exec tx = (.ok .cancelling, tx) :=
    nextState_ok.mpr ⟨allowedTransitions_cancelRequest hnt, rfl⟩
  unfold cancel
  simp only [exec_bind, ht, StoredRun.toRun_status, hnext]
  rw [← saving_self hr]
  simp only [StoredRun.toRun_runId, StoredRun.toRun_robotId]
  rw [exec_updateStatus_saving h rfl rfl hnt]
  dsimp only
  rw [exec_bind, announceCancel_saving]
  simp only [exec_bind, exec_audit_saving, exec_offline, isOffline_saving]
  by_cases hoff : isOffline tx.store q.robotId = true
  · simp [hoff, h]
  · rw [if_neg hoff]
    unfold forwardCancel
    simp only [exec_bind, exec_send_saving, StoredRun.toRun_runId, StoredRun.toRun_robotId]
    rcases happ : reply.applied with _ | _ | _
    · simp [h]
    · by_cases hrefused : reply.refusal = some .notExecutingRun ∧ q.status ≠ .pending
      · simp [h, hrefused, closeRefused, finalize, hd]
      · have hr' : ¬ (reply.refusal = some .notExecutingRun ∧ q.toRun.status ≠ .pending) := hrefused
        simp only [if_neg hr']
        simp [h]
    · simp [h]

/-- The reply to a dispatch is recorded of any run there is, unless it is a rejection. -/
theorem settle_succeeds {command : SettleRunCommand}
    (hr : tx.store.runs.find? command.runId = some r) (ho : command.outcome ≠ .rejected) :
    ∃ run tx', (settle now command).exec tx = (.ok run, tx') := by
  have hid := Table.key_of_find? hr
  have hr' : tx.store.runs.find? r.runId = some r := hid ▸ hr
  have h : Holds tx r.runId := Option.isSome_iff_exists.mpr ⟨r, hr'⟩
  unfold settle
  simp only [Runs.getForUpdate, exec_bind, exec_get, hr, Option.map_some]
  rw [← saving_self hr']
  cases hc : command.outcome with
  | rejected => exact absurd hc ho
  | accepted =>
    unfold settleAccepted
    by_cases hp : r.status = .pending
    · simp [h, hp, Option.filter]
    · by_cases hs : r.status = .cancelling <;> simp [h, hp, hs]
  | timeout | error =>
    unfold settleUnconfirmed
    by_cases hp : r.status = .pending
    · simp [h, hp]
    · by_cases hs : r.status = .cancelling <;> simp [h, hp, hs]

/-- An accepted dispatch is always recorded, and its late cancel sent. -/
theorem settle_accepted {command : SettleRunCommand}
    (hr : tx.store.runs.find? command.runId = some r) (ho : command.outcome = .accepted) :
    ∃ run tx', (settle now command).exec tx = (.ok run, tx') ∧ tx'.sent = tx.sent ++
      if r.status = .cancelling then [.cancel r.runId r.robotId .graceful] else [] := by
  obtain ⟨run, tx', hx⟩ := @settle_succeeds tx r now command hr (by simp [ho])
  obtain ⟨q, hq, entries, rfl⟩ := settle_answers hx
  obtain rfl := Option.some.inj (hr.symm.trans hq)
  refine ⟨run, _, hx, ?_⟩
  change tx.sent ++ (r.settle now command).commands = _
  congr 1
  unfold StoredRun.settle
  rw [ho]
  dsimp only
  by_cases hp : r.status = .pending
  · rw [if_pos hp, if_neg (by simp [hp])]
  · rw [if_neg hp]
    rfl

end Services

/-- Once a cancel has been requested a live run is cancelling. -/
theorem LegalLog.cancelling {r : StoredRun} (h : LegalLog r) (ht : isTerminal r.status = false)
    (hc : ∃ e ∈ r.transitions, e.trigger = .cancelRequest) : r.status = .cancelling := by
  obtain ⟨e, he, htrigger⟩ := hc
  have hend : r.status = .cancelling ∨ isTerminal r.status = true := by
    refine h.walk.end_of_absorbing (fun s => s = .cancelling ∨ isTerminal s = true) ?_ he (.inl ?_)
    · rintro f hf (hsrc | hsrc)
      · obtain hl | ⟨hp, -, -⟩ := h.legal f hf
        · rw [hsrc] at hl
          exact allowedTransitions_cancelling hl
        · rw [hsrc] at hp
          cases hp
      · rw [(h.legal f hf).not_terminal] at hsrc
        cases hsrc
    · obtain hl | ⟨-, hu, -⟩ := h.legal e he
      · have hlive := not_isTerminal_of_allowed hl
        rw [htrigger, allowedTransitions_cancelRequest hlive] at hl
        exact (Option.some.inj hl).symm
      · rw [htrigger] at hu
        cases hu
  simpa [ht] using hend

/-- What may happen before the reply to a run's dispatch: cancels, pauses and resumes, and frames,
none of which reports an outcome of the run. -/
def Action.BeforeReply (robotId : RobotId) (runId : UUID) : Action → Prop
  | .tick _ | .cancel _ _ | .pause _ _ | .resume _ _ => True
  | .record sender state =>
    sender = robotId → state.runId = runId → isOutcome state.execStatus = false
  | _ => False

theorem Action.BeforeReply.keepsRobots {a : Action} {robotId : RobotId} {runId : UUID}
    (ha : a.BeforeReply robotId runId) : a.editsRobots = false := by
  cases a <;> first | rfl | cases ha

namespace System
variable {s s' : System} {a : Action} {r : StoredRun}

/-- A cancel that finds the run past `PENDING`, and that the robot refuses as not executing it. -/
def RefusedPastPending (s : System) (runId : UUID) : Action → Prop
  | .cancel command reply => reply.applied = some false ∧ reply.refusal = some .notExecutingRun ∧
    ∃ run, s.outcome (target command.missionId command.runId) = .ok run ∧ run.runId = runId ∧
      run.status ≠ .pending
  | _ => False

theorem outcome_target {missionId : UUID} {runId : Option UUID} {run : MissionRun}
    (h : s.outcome (target missionId runId) = .ok run) :
    ∃ r, s.runs.find? r.runId = some r ∧ run = r.toRun ∧ isActive r.status = true ∧
      (target missionId runId).exec { store := s.store } = (.ok r.toRun, { store := s.store }) := by
  rw [outcome_eq] at h
  rcases hx : (target missionId runId).exec { store := s.store } with ⟨x, tx⟩
  rw [hx] at h
  obtain rfl : x = .ok run := h
  obtain ⟨rfl, r, hr, rfl, ha, -⟩ := target_ok hx
  exact ⟨r, hr, rfl, ha, rfl⟩

theorem outcome_target_unique {missionId : UUID} {runId : Option UUID} {run : MissionRun}
    (h : s.outcome (target missionId runId) = .ok run) (hr : s.runs.find? r.runId = some r)
    (hid : run.runId = r.runId) : s.outcome (target missionId runId) = .ok r.toRun := by
  obtain ⟨q, hq, rfl, -, -⟩ := outcome_target h
  obtain rfl : q = r := by
    have hsame : q.runId = r.runId := hid
    exact Option.some.inj (hq.symm.trans (hsame ▸ hr))
  exact h

/-- The run that a reply is for takes it, where it is recorded. -/
theorem settle_taken {command : SettleRunCommand} (hr : s.runs.find? command.runId = some r)
    (hok : ∃ run tx, (settle s.clock command).exec { store := s.store } = (.ok run, tx)) :
    (s.perform (settle s.clock command)).runs.find? r.runId =
        some (r.settle s.clock command).row ∧
      (s.perform (settle s.clock command)).world.sent =
        s.world.sent ++ (r.settle s.clock command).commands := by
  obtain ⟨run, tx, hx⟩ := hok
  obtain ⟨q, hq, ha⟩ := settle_answers hx
  obtain rfl : r = q := Option.some.inj (hr.symm.trans hq)
  have hid : r.runId = command.runId := Table.key_of_find? hr
  exact perform_answers (.settled s.clock command) (hid ▸ hr) hx ha

section Cancel
variable {command : CancelRunCommand} {reply : ControlReply}

/-- The run a cancel means takes it. -/
theorem cancel_taken (h : s.Reachable) (hr : s.runs.find? r.runId = some r)
    (hm : s.outcome (target command.missionId command.runId) = .ok r.toRun) :
    (s.perform (cancel s.clock command reply)).runs.find? r.runId =
        some (r.cancel s.clock command.mode (isOffline s.store r.robotId) reply).row ∧
      (s.perform (cancel s.clock command reply)).world.sent = s.world.sent ++
        (r.cancel s.clock command.mode (isOffline s.store r.robotId) reply).commands := by
  obtain ⟨q, hq, he, ha, ht⟩ := outcome_target hm
  have hid : r.runId = q.runId := congrArg (·.runId) he
  obtain rfl : q = r := Option.some.inj (hq.symm.trans (hid ▸ hr))
  have hclean := h.ends_cleanly (Table.mem_of_find? hr) s.clock .cancelled
  obtain ⟨run, tx, hx⟩ :=
    @cancel_succeeds { store := s.store } q s.clock command reply hr ht hclean
  obtain ⟨q', hq', ht', ha'⟩ := cancel_answers hx
  have he' : q.toRun = q'.toRun := Except.ok.inj (Prod.ext_iff.mp (ht.symm.trans ht')).1
  have hid' : q.runId = q'.runId := congrArg (·.runId) he'
  obtain rfl : q' = q := Option.some.inj (hq'.symm.trans (hid' ▸ hr))
  exact perform_answers (.cancelled s.clock command.mode _ reply) hr hx ha'

/-- A run the cancel does not mean is left alone. -/
theorem cancel_unmeant (hr : s.runs.find? r.runId = some r)
    (hm : s.outcome (target command.missionId command.runId) ≠ .ok r.toRun) :
    (s.perform (cancel s.clock command reply)).runs.find? r.runId = some r := by
  rcases hx : (cancel s.clock command reply).exec { store := s.store } with ⟨e | run, tx⟩
  · rw [perform_error hx]
    exact hr
  · obtain ⟨q, hq, ht, entries, rfl⟩ := cancel_answers hx
    have hmq : s.outcome (target command.missionId command.runId) = .ok q.toRun := by
      rw [outcome_eq, ht]
    have hne : r.runId ≠ q.runId := fun he => hm (outcome_target_unique hmq hr he.symm)
    rw [perform_ok hx]
    have hkey :=
      q.runId_respond (.cancelled s.clock command.mode (isOffline s.store q.robotId) reply)
    exact (Table.find?_replace_ne _ (fun he => hne (he.trans hkey))).trans hr

/-- A cancel ends the run it means if it is refused past `PENDING`, else makes it cancelling; other
runs it leaves alone. -/
theorem cancel_step (h : s.Reachable) (hs : s.step (.cancel command reply) = some s')
    (hr : s.runs.find? r.runId = some r) (hon : isOffline s.store r.robotId = false) :
    ∃ r', s'.runs.find? r.runId = some r' ∧
      (s.RefusedPastPending r.runId (.cancel command reply) ∧ r'.status = .cancelled ∨
        ¬ s.RefusedPastPending r.runId (.cancel command reply) ∧
          (r' = r ∨ r'.status = .cancelling)) := by
  obtain ⟨-, rfl⟩ := command_some hs
  by_cases hm : s.outcome (target command.missionId command.runId) = .ok r.toRun
  · refine ⟨_, (cancel_taken h hr hm).1, ?_⟩
    obtain ⟨q, hq, he, ha, -⟩ := outcome_target hm
    have hst : r.status = q.status := congrArg (·.status) he
    have hnt : ¬ isTerminal r.status = true := by simpa [isActive_eq_not_isTerminal, hst] using ha
    rw [hon, StoredRun.cancel_row, if_neg hnt]
    by_cases hc : r.cancelRefused false reply = true
    · rw [if_pos hc]
      simp only [StoredRun.cancelRefused, Bool.not_false, Bool.true_and, Bool.and_eq_true,
        decide_eq_true_eq] at hc
      exact .inl ⟨⟨hc.1.1, hc.1.2, r.toRun, hm, rfl, hc.2⟩, rfl⟩
    · rw [if_neg hc]
      refine .inr ⟨?_, .inr rfl⟩
      rintro ⟨happ, href, run, hrun, hid, hp⟩
      rw [hm] at hrun
      obtain rfl := Except.ok.inj hrun
      have hp' : r.status ≠ .pending := hp
      simp [StoredRun.cancelRefused, happ, href, hp'] at hc
  · refine ⟨r, cancel_unmeant hr hm, .inr ⟨?_, .inl rfl⟩⟩
    rintro ⟨-, -, run, hrun, hid, -⟩
    exact hm (outcome_target_unique hrun hr hid)

end Cancel

theorem live_step (h : s.Reachable) (hs : s.step a = some s')
    (ha : a.BeforeReply r.robotId r.runId) (hc : ∀ command reply, a ≠ .cancel command reply)
    (hr : s.runs.find? r.runId = some r) (ht : isTerminal r.status = false) :
    ∃ r', s'.runs.find? r.runId = some r' ∧ isTerminal r'.status = false := by
  cases h.runStep hs hr with
  | same found => exact ⟨r, found, ht⟩
  | gone cause =>
    rw [cause] at ha
    cases ha
  | took input cause found =>
    refine ⟨_, found, ?_⟩
    cases a with
    | tick duration => exact cause.input.elim
    | record robotId state =>
      obtain ⟨hb, hid, now, rfl⟩ := cause.input
      change isTerminal (r.report now state).row.status = false
      rw [StoredRun.status_report]
      cases hu : MissionStateService.reportUpdate r.toRun state with
      | none => exact ht
      | some u => exact reportUpdate_live (ha hb hid) hu
    | pause command reply | resume command reply =>
      obtain ⟨now, rfl⟩ := cause.input
      dsimp only [StoredRun.respond, StoredRun.steer]
      split
      · exact ht
      · rename_i target htarget
        exact not_isTerminal_of_request (by simp) htarget
    | cancel command reply => exact absurd rfl (hc command reply)
    | _ => cases ha

/-- Until the reply the run is live, unless a cancel was refused past `PENDING`, which ended it. -/
theorem before_reply {runId : UUID} {acts : List Action} (h : s.Reachable)
    (hr : s.runs.find? runId = some r) (ht : isTerminal r.status = false)
    (hon : isOffline s.store r.robotId = false) (hacts : ∀ a ∈ acts, a.BeforeReply r.robotId runId)
    (hx : StepSystem.exec step s acts = some s') : ∃ q, s'.runs.find? runId = some q ∧
      q.robotId = r.robotId ∧ isOffline s'.store r.robotId = false ∧
      (StepSystem.Throughout step (fun _ m a => ¬ m.RefusedPastPending runId a) [] s acts ∧
          isTerminal q.status = false ∨
        ¬ StepSystem.Throughout step (fun _ m a => ¬ m.RefusedPastPending runId a) [] s acts ∧
          q.status = .cancelled) := by
  induction acts using List.reverseRecOn generalizing s' with
  | nil =>
    cases hx
    exact ⟨r, hr, rfl, hon, .inl ⟨trivial, ht⟩⟩
  | append_singleton acts a ih =>
    obtain ⟨m, hm, ha⟩ := StepSystem.exec_snoc_iff.mp hx
    obtain ⟨q, hq, hb, hmon, hcase⟩ := ih (fun b hb => hacts b (List.mem_append_left _ hb)) hm
    have hmr : m.Reachable := StepSystem.exec_invariant (fun _ _ _ => Reachable.step) h hm
    have hact : a.BeforeReply r.robotId runId := hacts a (by simp)
    obtain rfl : q.runId = runId := Table.key_of_find? hq
    have hon' : isOffline s'.store r.robotId = false := by
      have hrobots := (hmr.runsStep ha).frame.robots hact.keepsRobots
      unfold isOffline at hmon ⊢
      rw [hrobots, hmon]
    have hrobot : ∀ q', s'.runs.find? q.runId = some q' → q'.robotId = r.robotId := by
      intro q' hq'
      have hk := hmr.snapshots.issued q (Table.mem_of_find? hq)
      obtain ⟨q₀, hq₀, hf⟩ := (hmr.runsStep ha).find?_old hk hq'
      obtain rfl := Option.some.inj (hq.symm.trans hq₀)
      exact (congrArg FrozenRun.robotId hf).trans hb
    rw [StepSystem.throughout_snoc hm]
    obtain ⟨hgood, hlive⟩ | ⟨hbad, hend⟩ := hcase
    · by_cases hc : ∃ command reply, a = .cancel command reply
      · obtain ⟨command, reply, rfl⟩ := hc
        obtain ⟨q', hq', ⟨href, hs'⟩ | ⟨hnot, hs'⟩⟩ := cancel_step hmr ha hq (hb ▸ hmon)
        · exact ⟨q', hq', hrobot q' hq', hon', .inr ⟨fun hall => hall.2 href, hs'⟩⟩
        · refine ⟨q', hq', hrobot q' hq', hon', .inl ⟨⟨hgood, hnot⟩, ?_⟩⟩
          obtain rfl | hs' := hs'
          · exact hlive
          · rw [hs']
            rfl
      · have hn : ∀ command reply, a ≠ .cancel command reply := fun command reply he =>
          hc ⟨command, reply, he⟩
        obtain ⟨q', hq', hl⟩ := live_step hmr ha (hb ▸ hact) hn hq hlive
        refine ⟨q', hq', hrobot q' hq', hon', .inl ⟨⟨hgood, ?_⟩, hl⟩⟩
        cases a with
        | cancel command reply => exact absurd rfl (hn command reply)
        | _ => exact id
    · have hkeep : a ≠ .deleteRun q.runId := by
        rintro rfl
        cases hact
      obtain ⟨q', hq', hs', -⟩ := (hmr.runsStep ha).ended_stays hq (by rw [hend]; rfl) hkeep
      exact ⟨q', hq', hrobot q' hq', hon', .inr ⟨fun hall => hbad hall.1, hs'.trans hend⟩⟩

end System

open StepSystem

/-- An accepted dispatch sends the cancel that came before the reply, as long as no cancel before it
found the run past `PENDING` and was refused as not executing it. -/
theorem cancel_in_flight_is_sent {s₀ s s' : System} {i : Nat} {runId : UUID} {r r' : StoredRun}
    {acts : List Action} {command : SettleRunCommand} (h₀ : s₀.Reachable)
    (hinsert : s₀.step (.insert i runId) = some s) (hr : s.runs.find? runId = some r)
    (honline : isOffline s.store r.robotId = false)
    (hacts : ∀ a ∈ acts, a.BeforeReply r.robotId runId) (hx : exec System.step s acts = some s')
    (hr' : s'.runs.find? runId = some r')
    (hcancel : ∃ e ∈ r'.transitions, e.trigger = .cancelRequest)
    (hrun : command.runId = runId) (haccepted : command.outcome = .accepted) :
    (s'.perform (settle s'.clock command)).world.sent =
        s'.world.sent ++ [.cancel runId r.robotId .graceful] ↔
      Throughout System.step (fun _ m a => ¬ m.RefusedPastPending runId a) [] s acts := by
  have h : s.Reachable := h₀.step hinsert
  have h' : s'.Reachable := exec_invariant (fun _ _ _ => System.Reachable.step) h hx
  have ht : isTerminal r.status = false := by
    obtain ⟨p, rfl⟩ := System.insert_fresh h₀ hinsert hr
    rfl
  obtain ⟨q, hq, hb, -, hcase⟩ := System.before_reply h hr ht honline hacts hx
  obtain rfl : q = r' := Option.some.inj (hq.symm.trans hr')
  have hid : q.runId = runId := Table.key_of_find? hq
  subst hrun
  have hq' : ({ store := s'.store } : Tx Store Event Command).store.runs.find? command.runId =
    some q := hq
  obtain ⟨run, tx, hsettle, hsent⟩ := @settle_accepted _ q s'.clock command hq' haccepted
  rw [System.perform_ok hsettle, hsent, hid, hb]
  obtain ⟨hgood, hlive⟩ | ⟨hbad, hend⟩ := hcase
  · have hc := (h'.legalLog (Table.mem_of_find? hq)).cancelling hlive hcancel
    simp [hc, hgood]
  · simp [hend, hbad]

section Demo

/-- The demo's run, started while its robot is online and cancelled before the reply. -/
theorem demo_cancels (acts : List Action) (P : System → Bool)
    (h : (exec System.step demo (demoOnline ++ demoDispatch.take 1)).any (fun s₀ =>
      (s₀.step (.insert 0 7)).any fun s => (s.runs.find? 7).any fun r => r.robotId = "r1" &&
        !isOffline s.store r.robotId && (exec System.step s acts).any fun s' => P s' &&
          (s'.runs.find? 7).any fun r' => r'.transitions.any (·.trigger = .cancelRequest)) = true) :
    ∃ (s₀ s s' : System) (r r' : StoredRun), s₀.Reachable ∧ s₀.step (.insert 0 7) = some s ∧
      s.runs.find? 7 = some r ∧ r.robotId = "r1" ∧ isOffline s.store r.robotId = false ∧
      exec System.step s acts = some s' ∧ s'.runs.find? 7 = some r' ∧
      (∃ e ∈ r'.transitions, e.trigger = .cancelRequest) ∧ P s' = true := by
  obtain ⟨s₀, h₀, hp⟩ := demo_reaches _ _ h
  obtain ⟨s, hs, hp⟩ := (Option.any_eq_true _ _).mp hp
  obtain ⟨r, hr, hp⟩ := (Option.any_eq_true _ _).mp hp
  simp only [Bool.and_eq_true, decide_eq_true_eq, Bool.not_eq_true'] at hp
  obtain ⟨⟨hb, hon⟩, hp⟩ := hp
  obtain ⟨s', hs', hp⟩ := (Option.any_eq_true _ _).mp hp
  obtain ⟨hP, hp⟩ := Bool.and_eq_true_iff.mp hp
  obtain ⟨r', hr', hp⟩ := (Option.any_eq_true _ _).mp hp
  obtain ⟨e, he, ht⟩ := List.any_eq_true.mp hp
  exact ⟨s₀, s, s', r, r', h₀, hs, hr, hb, hon, hs', hr', ⟨e, he, of_decide_eq_true ht⟩, hP⟩

def demoAccepted : SettleRunCommand := { runId := 7, outcome := .accepted, repliedAt := 0 }

def demoCancelRefused : Action :=
  .cancel { missionId := 1 } { applied := some false, refusal := some .notExecutingRun }

def demoBeforeReply : List Action :=
  [demoCancelRefused, demoFrame 1 .running, .pause { missionId := 1 } { applied := some true }]

theorem cancel_in_flight_is_sent_refused_once : ∃ s s' : System, s.Reachable ∧
    exec System.step s demoBeforeReply = some s' ∧
    ((s'.perform (settle s'.clock demoAccepted)).world.sent =
        s'.world.sent ++ [.cancel 7 "r1" .graceful] ↔
      Throughout System.step (fun _ m a => ¬ m.RefusedPastPending 7 a) [] s demoBeforeReply) := by
  obtain ⟨s₀, s, s', r, r', h₀, hs, hr, hb, hon, hx, hr', hc, -⟩ :=
    demo_cancels demoBeforeReply (fun _ => true) (by decide)
  refine ⟨s, s', h₀.step hs, hx, ?_⟩
  rw [← hb]
  refine cancel_in_flight_is_sent h₀ hs hr hon ?_ hx hr' hc rfl rfl
  simp [demoBeforeReply, demoCancelRefused, demoFrame, Action.BeforeReply, isOutcome]

/-- A second cancel finds the run cancelling; refused, it ends the run, and the robot that then
accepts the goal is sent nothing. -/
theorem cancel_in_flight_is_lost : ¬ ∀ (s₀ s s' : System) (i : Nat) (runId : UUID)
    (r r' : StoredRun) (acts : List Action) (command : SettleRunCommand), s₀.Reachable →
    s₀.step (.insert i runId) = some s → s.runs.find? runId = some r →
    isOffline s.store r.robotId = false → (∀ a ∈ acts, a.BeforeReply r.robotId runId) →
    exec System.step s acts = some s' → s'.runs.find? runId = some r' →
    (∃ e ∈ r'.transitions, e.trigger = .cancelRequest) → command.runId = runId →
    command.outcome = .accepted → (s'.perform (settle s'.clock command)).world.sent =
      s'.world.sent ++ [.cancel runId r.robotId .graceful] := by
  intro hall
  obtain ⟨s₀, s, s', r, r', h₀, hs, hr, -, hon, hx, hr', hc, hsent⟩ := demo_cancels
    [demoCancelRefused, demoCancelRefused]
    (fun s' => (s'.perform (settle s'.clock demoAccepted)).world.sent = s'.world.sent) (by decide)
  have hclaim := hall s₀ s s' 0 7 r r' _ demoAccepted h₀ hs hr hon
    (by simp [demoCancelRefused, Action.BeforeReply]) hx hr' hc rfl rfl
  rw [of_decide_eq_true hsent] at hclaim
  simp at hclaim

end Demo
end Leitstand
