import Leitstand.CancelInFlight
import Leitstand.ReconcileStore
import Leitstand.SentCommands

namespace Leitstand
open TxM RunService

/-- The cancel mode an entry of the log records. -/
def RunTransition.mode (e : RunTransition) : Option String :=
  ((e.detail.getD []).find? fun p => p.1 = "mode").bind (·.2)

/-- The mode of the latest cancel request in a log. -/
def latestMode (log : List RunTransition) : Option String :=
  (log.reverse.find? fun e => e.trigger = .cancelRequest).bind (·.mode)

/-- The mode the run was last asked to be cancelled with. -/
def StoredRun.requestedMode (r : StoredRun) : Option String := latestMode r.transitions

theorem latestMode_snoc (log : List RunTransition) (e : RunTransition) :
    latestMode (log ++ [e]) = if e.trigger = .cancelRequest then e.mode else latestMode log := by
  unfold latestMode
  rw [List.reverse_append, List.reverse_singleton, List.singleton_append, List.find?_cons]
  split_ifs with he
  · simp [he]
  · simp [he]

/-- What a detail is merged with beside the mode leaves the mode. -/
theorem Detail.find?_merge {key : String} {d : Detail} (h : key ∉ d.map (·.1)) (a : Detail) :
    (a.merge d).find? (fun p => p.1 = key) = a.find? fun p => p.1 = key := by
  have hnone : d.find? (fun p => p.1 = key) = none := by
    rw [List.find?_eq_none]
    intro p hp hkey
    exact h (List.mem_map.mpr ⟨p, hp, of_decide_eq_true hkey⟩)
  unfold Detail.merge
  rw [List.find?_append, hnone, Option.or_none, List.find?_filter]
  refine congrArg (List.find? · a) (funext fun p => ?_)
  by_cases hp : p.1 = key
  · simp [hp, h]
  · simp [hp]

namespace StoredRun
variable (r : StoredRun) (now : Datetime)

theorem requestedMode_withStatus (u : StatusUpdate) : (r.withStatus now u).requestedMode =
    if u.trigger = .cancelRequest then (u.transition now).mode else r.requestedMode :=
  latestMode_snoc r.transitions (u.transition now)

theorem mode_acknowledge (acknowledged : Bool) {detail : Option Detail}
    (h : ∀ d, detail = some d → "mode" ∉ d.map (·.1)) (e : RunTransition) :
    (acknowledge acknowledged detail e).mode = e.mode := by
  unfold acknowledge RunTransition.mode
  match detail with
  | none | some [] => rfl
  | some (p :: d) =>
    dsimp only
    rw [Option.getD_some, Detail.find?_merge (h _ rfl)]

/-- The robot's receipt is marked on the last entry and leaves its mode. -/
theorem requestedMode_withAcknowledged (acknowledged : Bool) {detail : Option Detail}
    (h : ∀ d, detail = some d → "mode" ∉ d.map (·.1)) :
    (r.withAcknowledged acknowledged detail).requestedMode = r.requestedMode := by
  change latestMode (r.transitions.modifyLast (acknowledge acknowledged detail)) =
    latestMode r.transitions
  obtain hnil | ⟨log, e, he⟩ := List.eq_nil_or_concat' r.transitions
  · rw [hnil]
    rfl
  · rw [he, List.modifyLast_concat, latestMode_snoc, latestMode_snoc, mode_acknowledge _ h]
    rfl

theorem cancelReceipt_without_mode (offline : Bool) (reply : ControlReply) (d : Detail)
    (hd : (cancelReceipt offline reply).2 = some d) : "mode" ∉ d.map (·.1) := by
  unfold cancelReceipt at hd
  split_ifs at hd
  · cases hd
    decide
  · split at hd <;> cases hd
    simp

/-- A cancel leaves its own mode as the one last asked for, whatever the robot answers. -/
theorem requestedMode_cancel (mode : CancelMode) (offline : Bool) (reply : ControlReply)
    (ht : isTerminal r.status = false) :
    (r.cancel now mode offline reply).row.requestedMode = some mode.value := by
  have hrequested : (r.cancelRequested now mode offline reply).requestedMode = some mode.value := by
    have htrigger : (r.cancelUpdate mode).trigger = .cancelRequest := rfl
    unfold cancelRequested
    rw [requestedMode_withAcknowledged _ _ (cancelReceipt_without_mode offline reply),
      requestedMode_withStatus, if_pos htrigger]
    rfl
  rw [cancel_row, if_neg (by simp [ht])]
  split_ifs
  · have hended := requestedMode_withStatus (r.cancelRequested now mode offline reply) now
      (refusedUpdate reply.reason)
    rw [if_neg (by simp [refusedUpdate])] at hended
    exact hended.trans hrequested
  · exact hrequested

/-- A cancel sends at most itself. -/
theorem mem_commands_cancel {mode : CancelMode} {offline : Bool} {reply : ControlReply}
    {command : Command} (h : command ∈ (r.cancel now mode offline reply).commands) :
    command = .cancel r.runId r.robotId mode := by
  unfold cancel at h
  dsimp only at h
  split_ifs at h <;> first | exact List.mem_singleton.mp h | cases h

end StoredRun

namespace System
variable {s s' : System} {a : Action} {r : StoredRun}

/-- When the step sends the run something, the run is cancelling: it was before the step, or the
step is the cancel itself, which is recorded before it is sent. -/
def CancellingAt (s : System) (a : Action) (runId : UUID) : Prop :=
  (∃ command reply, a = .cancel command reply) ∨
    ∃ r, s.runs.find? runId = some r ∧ r.status = .cancelling

/-- Every cancel the step sends of a cancelling run carries the mode last asked for. -/
def KeepsMode (s : System) (a : Action) : Prop :=
  ∀ s' commands, s.step a = some s' → s'.world.sent = s.world.sent ++ commands →
    ∀ runId robotId mode, .cancel runId robotId mode ∈ commands → s.CancellingAt a runId →
      ∃ r, s'.runs.find? runId = some r ∧ r.requestedMode = some mode.value

/-- A run that a late reply or a judgement finds cancelling was last asked for gracefully. -/
def AskedGracefully (s : System) : Action → Prop
  | .settle command => ∀ r, s.runs.find? command.runId = some r → r.status = .cancelling →
    command.outcome ≠ .rejected → r.requestedMode = some CancelMode.graceful.value
  | .judgeRun i => ∀ c runId left r, s.reconciliations[i]? = some c → c.left = runId :: left →
    s.unclaimedRun c runId = some r → r.status = .cancelling →
      r.requestedMode = some CancelMode.graceful.value
  | _ => True

theorem KeepsMode.of_sendsNoCancel (h : ∀ s', s.step a = some s' → SendsNoCancel s s') :
    s.KeepsMode a := by
  intro s' commands hs hsent runId robotId mode hmem
  obtain ⟨commands', hsent', hnone⟩ := h s' hs
  obtain rfl := List.append_cancel_left (hsent.symm.trans hsent')
  exact absurd trivial (hnone _ hmem)

section Settle
variable {command : SettleRunCommand}

/-- A late reply sends the cancel of a cancelling run, and notes when the dispatch went out. -/
theorem settle_late (hr : s.runs.find? command.runId = some r) (hc : r.status = .cancelling)
    (ho : command.outcome ≠ .rejected) :
    (s.perform (settle s.clock command)).world.sent =
        s.world.sent ++ [.cancel r.runId r.robotId .graceful] ∧
      (s.perform (settle s.clock command)).runs.find? r.runId =
        some (r.withDispatchedAt command.repliedAt) := by
  obtain ⟨hrow, hsent⟩ := settle_taken hr (settle_succeeds hr ho)
  have hlate : r.settle s.clock command = r.lateReply command := by
    unfold StoredRun.settle
    cases houtcome : command.outcome with
    | rejected => exact absurd houtcome ho
    | accepted | timeout | error =>
      dsimp only
      rw [if_neg (by simp [hc])]
  rw [hlate] at hrow hsent
  refine ⟨hsent.trans ?_, hrow⟩
  rw [StoredRun.lateReply, if_pos hc]

/-- Any other reply cancels nothing. -/
theorem settle_quiet (h : ∀ r, s.runs.find? command.runId = some r → r.status = .cancelling →
    command.outcome = .rejected) : SendsNoCancel s (s.perform (settle s.clock command)) := by
  by_cases ho : command.outcome = .rejected
  · exact .of_perform (composed_settle_rejected (Sends.composes _) s.clock ho)
  · cases hr : s.runs.find? command.runId with
    | none =>
      have hx : (settle s.clock command).exec { store := s.store } =
          (.error (.runNotFound command.runId false), { store := s.store }) := by
        have hnone : ({ store := s.store } : Tx Store Event Command).store.runs.find?
          command.runId = none := hr
        simp [settle, Runs.getForUpdate, exec_get, hnone]
      rw [perform_error hx]
      exact .of_same (List.append_nil _)
    | some r =>
      have hc : r.status ≠ .cancelling := fun hc => ho (h r hr hc)
      obtain ⟨-, hsent⟩ := settle_taken hr (settle_succeeds hr ho)
      have hnone : (r.settle s.clock command).commands = [] := by
        unfold StoredRun.settle StoredRun.lateReply
        split <;> split_ifs <;> rfl
      exact .of_same (by rw [hsent, hnone, List.append_nil])

theorem settle_keepsMode_iff : s.KeepsMode (.settle command) ↔ s.AskedGracefully (.settle command) := by
  constructor
  · intro h r hr hc ho
    obtain ⟨hsent, hrow⟩ := settle_late hr hc ho
    have hid : r.runId = command.runId := Table.key_of_find? hr
    obtain ⟨r', hr', hmode⟩ := h _ _ rfl hsent r.runId r.robotId .graceful (by simp)
      (.inr ⟨r, hid ▸ hr, hc⟩)
    rw [hrow] at hr'
    obtain rfl := Option.some.inj hr'
    exact hmode
  · intro h
    by_cases hlate : ∃ r, s.runs.find? command.runId = some r ∧ r.status = .cancelling ∧
        command.outcome ≠ .rejected
    · obtain ⟨r, hr, hc, ho⟩ := hlate
      intro s' commands hs hsent runId robotId mode hmem _
      obtain rfl := Option.some.inj hs
      obtain ⟨hsent', hrow⟩ := settle_late hr hc ho
      obtain rfl := List.append_cancel_left (hsent.symm.trans hsent')
      obtain ⟨rfl, rfl, rfl⟩ := Command.cancel.inj (List.mem_singleton.mp hmem)
      exact ⟨_, hrow, h r hr hc ho⟩
    · refine .of_sendsNoCancel fun s' hs => ?_
      obtain rfl := Option.some.inj hs
      refine settle_quiet fun r hr hc => ?_
      by_contra ho
      exact hlate ⟨r, hr, hc, ho⟩

end Settle

theorem judge_keepsMode_iff {i : Nat} :
    s.KeepsMode (.judgeRun i) ↔ s.AskedGracefully (.judgeRun i) := by
  constructor
  · intro h c runId left r hi hl hfound hc
    have hr := (mem_unclaimedRun.mp hfound).1
    have hid : r.runId = runId := Table.key_of_find? hr
    obtain ⟨r', hr', hmode⟩ := h _ _ (judgeRun_eq hi hl) rfl r.runId r.robotId .graceful
      (by simp [hfound]) (.inr ⟨r, hid ▸ hr, hc⟩)
    have hsame : s.runs.find? r.runId = some r' := hr'
    rw [hid, hr] at hsame
    obtain rfl := Option.some.inj hsame
    exact hmode
  · intro h s' commands hs hsent runId robotId mode hmem hat
    obtain ⟨c, k, left, -, -, hi, hl, -, -⟩ := judgeRun_some hs
    obtain rfl := Option.some.inj ((judgeRun_eq hi hl).symm.trans hs)
    obtain rfl := List.append_cancel_left hsent
    obtain ⟨r, hr, hcommand⟩ := List.mem_map.mp hmem
    have hfound := Option.mem_toList.mp hr
    have hstored := (mem_unclaimedRun.mp hfound).1
    have hid : r.runId = k := Table.key_of_find? hstored
    obtain ⟨hrun, -, rfl⟩ := Command.cancel.inj hcommand
    obtain ⟨_, _, hnot⟩ | ⟨q, hq, hc⟩ := hat
    · cases hnot
    · rw [← hrun, hid, hstored] at hq
      obtain rfl := Option.some.inj hq
      exact ⟨r, hrun ▸ hid.symm ▸ hstored, h c k left r hi hl hfound hc⟩

/-- The last cancel of a reconciliation is of a run that has ended. -/
theorem end_keepsMode {i : Nat} : s.KeepsMode (.endReconciliation i) := by
  intro s' commands hs hsent runId robotId mode hmem hat
  obtain ⟨c, -, -, -, rfl⟩ := endReconciliation_some hs
  rw [perform_stopClaim] at hsent
  obtain rfl := List.append_cancel_left hsent
  obtain ⟨r, hr, hcommand⟩ := List.mem_map.mp hmem
  have hclaims := endedClaim_eq_some.mp (Option.mem_toList.mp hr)
  obtain ⟨_, _, hnot⟩ | ⟨q, hq, hc⟩ := hat
  · cases hnot
  · have hstored : s.runs.find? r.runId = some r := hclaims.stored
    rw [← (Command.cancel.inj hcommand).1, hstored] at hq
    have hended := hclaims.ended
    rw [Option.some.inj hq, hc] at hended
    cases hended

/-- A cancel is sent in its own mode. -/
theorem cancel_keepsMode {command : CancelRunCommand} {reply : ControlReply} (h : s.Reachable) :
    s.KeepsMode (.cancel command reply) := by
  intro s' commands hs hsent runId robotId mode hmem _
  obtain ⟨-, rfl⟩ := command_some hs
  rcases hm : s.outcome (target command.missionId command.runId) with e | run
  · -- Without its run the cancel fails before it sends anything.
    have hsilent := composed_target Silent.composes command.missionId command.runId
      { store := s.store }
    rw [outcome_eq] at hm
    rcases hx : (target command.missionId command.runId).exec { store := s.store } with ⟨x, tx⟩
    rw [hx] at hm hsilent
    obtain rfl : x = .error e := hm
    have hcancel : (cancel s.clock command reply).exec { store := s.store } = (.error e, tx) := by
      unfold cancel
      rw [exec_bind, hx]
    rw [perform_error hcancel, show tx.sent = [] from hsilent] at hsent
    obtain rfl := List.append_cancel_left hsent
    cases hmem
  · obtain ⟨r, hr, rfl, ha, ht⟩ := outcome_target hm
    obtain ⟨hrow, hsent'⟩ := @cancel_taken s r command reply h hr hm
    have hlive : isTerminal r.status = false := by simpa [isActive_eq_not_isTerminal] using ha
    have hmode := r.requestedMode_cancel s.clock command.mode (isOffline s.store r.robotId) reply
      hlive
    obtain rfl := List.append_cancel_left (hsent.symm.trans hsent')
    have hown := StoredRun.mem_commands_cancel r s.clock hmem
    obtain ⟨rfl, -, rfl⟩ := Command.cancel.inj hown
    exact ⟨_, hrow, hmode⟩

end System

open StepSystem

/-- Cancels keep the mode last asked for in just the runs of the backend in which whatever a late
reply or a reconciliation cancels was asked for gracefully. -/
theorem cancels_keep_mode_iff {s₀ : System} {acts : List Action} (h₀ : s₀.Initial) :
    Throughout System.step (fun _ m a => m.KeepsMode a) [] s₀ acts ↔
      Throughout System.step (fun _ m a => m.AskedGracefully a) [] s₀ acts := by
  refine throughout_congr (I := fun _ s => s.Reachable) (fun _ _ _ _ => System.Reachable.step) ?_
    ⟨s₀, [], h₀, rfl⟩
  intro past s a h
  cases a with
  | settle command => exact System.settle_keepsMode_iff
  | judgeRun i => exact System.judge_keepsMode_iff
  | cancel command reply => exact iff_of_true (System.cancel_keepsMode h) trivial
  | endReconciliation i => exact iff_of_true System.end_keepsMode trivial
  | _ => exact iff_of_true (.of_sendsNoCancel fun s' => System.step_sendsNoCancel rfl) trivial

section Demo

/-- The operator stops the run at once before its dispatch is answered for. -/
def demoStopped : List Action :=
  demoOnline ++ demoDispatch ++
    [.cancel { missionId := 1, mode := .immediate } { applied := none }]

theorem cancels_keep_mode_iff_stopped :
    (exec System.step demo (demoStopped ++ [demoSettle .accepted])).isSome = true ∧
    (Throughout System.step (fun _ m a => m.KeepsMode a) [] demo
        (demoStopped ++ [demoSettle .accepted]) ↔
      Throughout System.step (fun _ m a => m.AskedGracefully a) [] demo
        (demoStopped ++ [demoSettle .accepted])) :=
  ⟨by decide, cancels_keep_mode_iff (System.boot_initial _ _ _)⟩

/-- The robot that then accepts the dispatch is told to stop gracefully. -/
theorem cancel_loses_mode : ¬ ∀ (s₀ : System) (acts : List Action), s₀.Initial →
    (exec System.step s₀ acts).isSome = true →
    Throughout System.step (fun _ m a => m.KeepsMode a) [] s₀ acts := by
  intro hall
  have hrun : (exec System.step demo (demoStopped ++ [demoSettle .accepted])).isSome = true := by
    decide
  have hkeeps := hall demo _ (System.boot_initial _ _ _) hrun
  have hdemo : (exec System.step demo demoStopped).any (fun m =>
      (m.runs.find? 7).any fun r : StoredRun => r.status = .cancelling ∧
        r.requestedMode = some CancelMode.immediate.value) = true := by decide
  obtain ⟨m, hm, hp⟩ := (Option.any_eq_true _ _).mp hdemo
  obtain ⟨r, hr, hp⟩ := (Option.any_eq_true _ _).mp hp
  obtain ⟨hc, hmode⟩ := of_decide_eq_true hp
  have hasked := throughout_iff.mp ((cancels_keep_mode_iff (System.boot_initial _ _ _)).mp hkeeps)
    demoStopped (demoSettle .accepted) [] m rfl hm
  have hgraceful := hasked r hr hc (by decide)
  rw [hmode] at hgraceful
  exact absurd hgraceful (by decide)

end Demo
end Leitstand
