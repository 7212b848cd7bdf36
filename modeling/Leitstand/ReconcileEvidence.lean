import Leitstand.WholeOperations

namespace Leitstand
open TxM RunReconciliation

/-- The ended run that a robot says it still executes. -/
def endedClaim (store : Store) (robotId : RobotId) (claim : Claim) : Option StoredRun :=
  match claim.claimReported, claim.claimedRunId with
  | true, some claimed => ((UUID.parse claimed).bind store.runs.find?).filter fun r =>
    isTerminal r.status && r.robotId = robotId
  | _, _ => none

theorem stopClaim_eq (robotId : RobotId) (claim : Claim) (tx : Tx Store Event Command) :
    (stopClaim robotId claim).exec tx = (.ok (), { tx with
      sent := tx.sent ++ (endedClaim tx.store robotId claim).toList.map fun r =>
        .cancel r.runId robotId .immediate }) := by
  obtain ⟨since, claimed, reported⟩ := claim
  cases reported with
  | false => simp [stopClaim, endedClaim]
  | true =>
    cases claimed with
    | none => simp [stopClaim, endedClaim]
    | some claimed =>
      unfold stopClaim stopAClosedClaim endedClaim
      dsimp only
      cases UUID.parse claimed with
      | none => simp
      | some runId =>
        simp only [exec_bind, exec_get, Option.bind_some]
        cases hr : tx.store.runs.find? runId with
        | none => simp
        | some r =>
          have hid := Table.key_of_find? hr
          by_cases he : isTerminal r.status = true ∧ r.robotId = robotId
          · simp [he, exec_send, Option.filter, hid]
          · simp [he, Option.filter]

namespace System
variable {s s' : System} {a : Action}

/-- The step left this run alone: it neither changed its row nor sent a cancel of it. -/
structure Spares (s s' : System) (runId : UUID) : Prop where
  run : s'.runs.find? runId = s.runs.find? runId
  uncancelled : ∃ commands, s'.world.sent = s.world.sent ++ commands ∧
    ∀ robotId mode, Command.cancel runId robotId mode ∉ commands

/-- The reconciliation the step is part of. -/
def reconciles (s : System) : Action → Option Reconciliation
  | .judgeRun i | .closeJudged i | .endReconciliation i => s.reconciliations[i]?
  | _ => none

/-- A reconciliation by a claim spares every run created after the robot made the claim. -/
def SparesUnknown (s : System) (a : Action) : Prop :=
  ∀ c s', s.reconciles a = some c → c.claim.claimReported = true → s.step a = some s' →
    ∀ runId, runId ∉ c.known → s.Spares s' runId

/-- The claim cannot speak of the run, as far as the reconciliation can tell. -/
def BeyondClaim (c : Reconciliation) (r : StoredRun) : Prop :=
  isTerminal r.status = true ∨ c.claim.since ≤ r.run.createdAt ∨
    some r.runId.str = c.claim.claimedRunId ∨
    r.status = .pending ∧ c.startedAt - r.run.createdAt < dispatchWindow

/-- Of the runs created after the claim was made, those to be judged by it are told by their age, id
or status, and none that has ended is named by it. -/
def EvidenceSpeaks (s : System) : Action → Prop
  | .judgeRun i => ∀ c runId left r, s.reconciliations[i]? = some c →
    c.claim.claimReported = true → c.left = runId :: left → runId ∉ c.known →
    s.runs.find? runId = some r → BeyondClaim c r
  | .endReconciliation i => ∀ c r, s.reconciliations[i]? = some c → c.left = [] → c.judged = [] →
    endedClaim s.store c.robotId c.claim = some r → r.runId ∈ c.known
  | _ => True

theorem exempt_iff {c : Reconciliation} {r : StoredRun} (h : c.claim.claimReported = true) :
    exempt c.startedAt c.claim r.toRun = true ↔ BeyondClaim c r := by
  have hcreated : r.toRun.createdAt = r.run.createdAt := rfl
  simp only [exempt, BeyondClaim, h, hcreated, Bool.or_eq_true, Bool.and_eq_true,
    decide_eq_true_eq, StoredRun.toRun_status, StoredRun.toRun_runId, Bool.not_true,
    Bool.false_and, Bool.false_eq_true, or_false, true_and, or_assoc]

/-- The run a judgement finds unclaimed. -/
def unclaimedRun (s : System) (c : Reconciliation) (runId : UUID) : Option StoredRun :=
  (s.runs.find? runId).filter fun r => !exempt c.startedAt c.claim r.toRun

theorem judgeRun_eq {i : Nat} {c : Reconciliation} {runId : UUID} {left : List UUID}
    (hi : s.reconciliations[i]? = some c) (hl : c.left = runId :: left) :
    s.judgeRun i = some { s with
      world := { s.world with
        sent := s.world.sent ++ (s.unclaimedRun c runId).toList.map fun r =>
          .cancel r.runId r.robotId .graceful }
      reconciliations := s.reconciliations.set i { c with
        left := left
        judged := c.judged ++ ((s.unclaimedRun c runId).map StoredRun.toRun).toList } } := by
  have hx := @judge_eq c.startedAt c.claim runId { store := s.world.store }
  unfold judgeRun unclaimedRun runs
  rw [hi]
  dsimp only
  rw [hl]
  dsimp only
  unfold atomically
  rw [hx]
  dsimp only
  cases s.world.store.runs.find? runId with
  | none => simp
  | some r =>
    by_cases he : exempt c.startedAt c.claim r.toRun = true <;> simp [he, Option.filter]

theorem mem_unclaimedRun {c : Reconciliation} {runId : UUID} {r : StoredRun} :
    s.unclaimedRun c runId = some r ↔
      s.runs.find? runId = some r ∧ exempt c.startedAt c.claim r.toRun = false := by
  simp [unclaimedRun, Option.filter_eq_some_iff]

/-- A judgement spares the unknown runs exactly if the one it is about, if unknown, is beyond its
claim. -/
theorem judge_spares_iff {i : Nat} :
    s.SparesUnknown (.judgeRun i) ↔ s.EvidenceSpeaks (.judgeRun i) := by
  constructor
  · intro h c runId left r hi hreported hl hunknown hr
    by_contra hn
    have hexempt : exempt c.startedAt c.claim r.toRun = false := by
      rw [← exempt_iff hreported] at hn
      simpa using hn
    have hfound := mem_unclaimedRun.mpr ⟨hr, hexempt⟩
    have hid := Table.key_of_find? hr
    obtain ⟨-, commands, hsent, hnone⟩ := h c _ hi hreported (judgeRun_eq hi hl) runId hunknown
    rw [hfound] at hsent
    obtain rfl := List.append_cancel_left hsent
    exact hnone r.robotId .graceful (by simp [hid])
  · intro h c s' hi hreported hs runId hunknown
    obtain ⟨c', k, left, -, -, hi', hl, -, -⟩ := judgeRun_some hs
    obtain rfl := Option.some.inj (hi.symm.trans hi')
    obtain rfl := Option.some.inj ((judgeRun_eq hi hl).symm.trans hs)
    refine ⟨rfl, _, rfl, ?_⟩
    intro robotId mode hmem
    obtain ⟨r, hr, hcommand⟩ := List.mem_map.mp hmem
    obtain ⟨hfound, hexempt⟩ := mem_unclaimedRun.mp (Option.mem_toList.mp hr)
    have hid : r.runId = k := Table.key_of_find? hfound
    have hk : runId = k := by
      rw [← hid]
      exact (Command.cancel.inj hcommand).1.symm
    have hbeyond := h c k left r hi hreported hl (hk ▸ hunknown) hfound
    rw [(exempt_iff hreported).mpr hbeyond] at hexempt
    cases hexempt

theorem endReconciliation_eq {i : Nat} {c : Reconciliation} (hi : s.reconciliations[i]? = some c)
    (hl : c.left = []) (hj : c.judged = []) : s.endReconciliation i = some
      { s.perform (stopClaim c.robotId c.claim) with
        reconciliations := s.reconciliations.eraseIdx i } := by
  unfold endReconciliation
  rw [hi]
  simp [hl, hj]

theorem endReconciliation_some {i : Nat} (hs : s.endReconciliation i = some s') :
    ∃ c, s.reconciliations[i]? = some c ∧ c.left = [] ∧ c.judged = [] ∧
      s' = { s.perform (stopClaim c.robotId c.claim) with
        reconciliations := s.reconciliations.eraseIdx i } := by
  cases hi : s.reconciliations[i]? with
  | none => simp [endReconciliation, hi] at hs
  | some c =>
    have hlj : c.left = [] ∧ c.judged = [] := by
      unfold endReconciliation at hs
      rw [hi] at hs
      dsimp only at hs
      split_ifs at hs with hlj
      exact ⟨hlj.1, List.isEmpty_iff.mp hlj.2⟩
    rw [endReconciliation_eq hi hlj.1 hlj.2] at hs
    exact ⟨c, rfl, hlj.1, hlj.2, (Option.some.inj hs).symm⟩

theorem perform_stopClaim (robotId : RobotId) (claim : Claim) :
    s.perform (stopClaim robotId claim) = { s with world := { s.world with
      sent := s.world.sent ++ (endedClaim s.store robotId claim).toList.map fun r =>
        .cancel r.runId robotId .immediate } } := by
  rw [perform_ok (stopClaim_eq robotId claim { store := s.store })]
  simp [store]

/-- The end of a reconciliation spares the unknown runs exactly if its claim names no ended one. -/
theorem end_spares_iff {i : Nat} :
    s.SparesUnknown (.endReconciliation i) ↔ s.EvidenceSpeaks (.endReconciliation i) := by
  constructor
  · intro h c r hi hl hj hended
    by_contra hunknown
    have hreported : c.claim.claimReported = true := by
      unfold endedClaim at hended
      split at hended
      · assumption
      · cases hended
    obtain ⟨-, commands, hsent, hnone⟩ :=
      h c _ hi hreported (endReconciliation_eq hi hl hj) r.runId hunknown
    rw [perform_stopClaim, hended] at hsent
    obtain rfl := List.append_cancel_left hsent
    exact hnone c.robotId .immediate (by simp)
  · intro h c s' hi hreported hs runId hunknown
    obtain ⟨c', hi', hl, hj, rfl⟩ := endReconciliation_some hs
    obtain rfl : c = c' := Option.some.inj (hi.symm.trans hi')
    rw [perform_stopClaim]
    refine ⟨rfl, _, rfl, ?_⟩
    intro robotId mode hmem
    obtain ⟨r, hr, hcommand⟩ := List.mem_map.mp hmem
    have hknown := h c r hi' hl hj (Option.mem_toList.mp hr)
    exact hunknown ((Command.cancel.inj hcommand).1 ▸ hknown)

/-- Whatever a claim has judged so far was known when it was made. -/
def KnownJudged (s : System) : Prop :=
  ∀ c ∈ s.reconciliations, c.claim.claimReported = true → ∀ run ∈ c.judged, run.runId ∈ c.known

theorem KnownJudged.step (hk : KnownJudged s) (he : s.EvidenceSpeaks a) (h : s.step a = some s') :
    KnownJudged s' := by
  intro c' hc' hreported run hrun
  obtain ⟨c, hc, hsame, hmem⟩ | ⟨i, c, rfl, hi, hsame, runId, left, r, hl, hr, rfl, hexempt⟩ :=
    judged_step h hc' hrun
  · rw [← hsame] at hreported ⊢
    exact hk c hc hreported run hmem
  · rw [← hsame] at hreported ⊢
    have hid : r.runId = runId := Table.key_of_find? hr
    by_contra hunknown
    have hbeyond := he c runId left r hi hreported hl (hid ▸ hunknown) hr
    rw [(exempt_iff hreported).mpr hbeyond] at hexempt
    cases hexempt

/-- Closing an unclaimed run leaves every other run alone. -/
theorem closeUnclaimed_spares (hs : Snapshots s) {c : Reconciliation} (hc : c ∈ s.reconciliations)
    {run : MissionRun} (hrun : run ∈ c.judged) {runId : UUID} (hne : runId ≠ run.runId) :
    s.Spares (s.perform (closeUnclaimed s.clock run)) runId := by
  have hsilent := composed_closeUnclaimed Silent.composes s.clock run { store := s.store }
  rcases hx : (closeUnclaimed s.clock run).exec { store := s.store } with ⟨e | ended, tx⟩
  · rw [hx] at hsilent
    rw [perform_error hx]
    exact ⟨rfl, tx.sent, rfl, by simp [show tx.sent = [] from hsilent]⟩
  · rw [hx] at hsilent
    rw [perform_ok hx]
    refine ⟨?_, tx.sent, rfl, by simp [show tx.sent = [] from hsilent]⟩
    cases hf : s.runs.find? run.runId with
    | none =>
      have habsent := @closeUnclaimed_absent { store := s.store } s.clock run hf
      obtain rfl := (Prod.ext_iff.mp (hx.symm.trans habsent)).2
      rfl
    | some r =>
      obtain ⟨hst, hm, hb⟩ := (hs.judged c hc run hrun).2 r hf
      obtain ⟨entries, rfl⟩ := closeUnclaimed_answers hf hst hm hb hx
      have hkey := r.runId_respond (.unclaimed s.clock run.status)
      have hid : r.runId = run.runId := Table.key_of_find? hf
      exact Table.find?_replace_ne _ fun he => hne (he.trans (hkey.trans hid))

theorem close_spares {i : Nat} (hs : Snapshots s) (hk : KnownJudged s) :
    s.SparesUnknown (.closeJudged i) := by
  intro c s' hi hreported hstep runId hunknown
  obtain ⟨c', run, judged, hi', hj, rfl⟩ := closeJudged_eq_some.mp hstep
  obtain rfl : c = c' := Option.some.inj (hi.symm.trans hi')
  have hc : c ∈ s.reconciliations := List.mem_of_getElem? hi'
  have hrun : run ∈ c.judged := hj ▸ List.mem_cons_self
  have hne : runId ≠ run.runId := fun he => hunknown (he ▸ hk c hc hreported run hrun)
  obtain ⟨hrow, hsent⟩ := closeUnclaimed_spares hs hc hrun hne
  exact ⟨hrow, hsent⟩

end System

open StepSystem

/-- Reconciliation by a claim spares the runs created after the claim was made in just the runs of
the backend in which the evidence can tell each of them. -/
theorem reconciliation_spares_unknown_iff {s₀ : System} {acts : List Action} (h₀ : s₀.Initial) :
    Throughout System.step (fun _ m a => m.SparesUnknown a) [] s₀ acts ↔
      Throughout System.step (fun _ m a => m.EvidenceSpeaks a) [] s₀ acts := by
  constructor
  · intro h
    rw [throughout_iff] at h ⊢
    intro pre a post m he hm
    have hspares := h pre a post m he hm
    cases a with
    | judgeRun i => exact System.judge_spares_iff.mp hspares
    | endReconciliation i => exact System.end_spares_iff.mp hspares
    | _ => trivial
  · intro h
    rw [throughout_iff]
    intro pre a post m he hm
    have hspeaks := throughout_iff.mp h pre a post m he hm
    have hknown : m.KnownJudged := by
      refine exec_history (I := fun past s =>
        Throughout System.step (fun _ m a => m.EvidenceSpeaks a) [] s₀ past → s.KnownJudged)
        ?_ ?_ hm (Throughout.of_append (he ▸ h))
      · intro _ c hc
        rw [h₀.reconciliations] at hc
        cases hc
      · intro past s a s' hpast hI hs hthrough
        obtain ⟨hpre, hlast⟩ := (throughout_snoc hpast).mp hthrough
        exact (hI hpre).step hlast hs
    have hs : m.Snapshots := System.Reachable.snapshots ⟨s₀, pre, h₀, hm⟩
    cases a with
    | judgeRun i => exact System.judge_spares_iff.mpr hspeaks
    | endReconciliation i => exact System.end_spares_iff.mpr hspeaks
    | closeJudged i => exact System.close_spares hs hknown
    | _ => exact fun c s' hc => absurd hc (by simp [System.reconciles])

section Demo

/-- The robot answers that it holds no run, and then takes one, before its answer arrives. -/
def demoLateAnswer : List Action :=
  [.livelinessPut "r1", .answerMetadata 0 [.object (some "r1") .null]] ++ demoDispatch ++
    [demoSettle .accepted, .tick 1, .metadataArrives 0, .startReconciliation 0]

theorem reconciliation_spares_unknown_iff_late :
    (exec System.step demo (demoLateAnswer ++ [.judgeRun 0, .closeJudged 0])).isSome = true ∧
    (Throughout System.step (fun _ m a => m.SparesUnknown a) [] demo
        (demoLateAnswer ++ [.judgeRun 0, .closeJudged 0]) ↔
      Throughout System.step (fun _ m a => m.EvidenceSpeaks a) [] demo
        (demoLateAnswer ++ [.judgeRun 0, .closeJudged 0])) :=
  ⟨by decide, reconciliation_spares_unknown_iff (System.boot_initial _ _ _)⟩

/-- The late answer says nothing of the run the robot took after it, and has it cancelled. -/
theorem reconciliation_cancels_unknown : ¬ ∀ (s₀ : System) (acts : List Action), s₀.Initial →
    (exec System.step s₀ acts).isSome = true →
    Throughout System.step (fun _ m a => m.SparesUnknown a) [] s₀ acts := by
  intro hall
  have hdemo : (exec System.step demo demoLateAnswer).any (fun m =>
      (m.reconciliations[0]?).any fun c => c.claim.claimReported && decide (7 ∉ c.known) &&
        (m.step (.judgeRun 0)).any fun s' =>
          s'.world.sent = m.world.sent ++ [.cancel 7 "r1" .graceful]) = true := by decide
  obtain ⟨m, hm, hp⟩ := (Option.any_eq_true _ _).mp hdemo
  obtain ⟨c, hc, hp⟩ := (Option.any_eq_true _ _).mp hp
  simp only [Bool.and_eq_true, decide_eq_true_eq] at hp
  obtain ⟨⟨hreported, hunknown⟩, hp⟩ := hp
  obtain ⟨s', hs, hsent⟩ := (Option.any_eq_true _ _).mp hp
  have hthrough := hall demo (demoLateAnswer ++ [.judgeRun 0]) (System.boot_initial _ _ _)
    (by rw [exec_snoc, hm]; exact Option.isSome_of_eq_some hs)
  have hspares := throughout_iff.mp hthrough demoLateAnswer (.judgeRun 0) [] m rfl hm
  obtain ⟨-, commands, hsent', hnone⟩ := hspares c s' hc hreported hs 7 hunknown
  rw [of_decide_eq_true hsent] at hsent'
  obtain rfl := List.append_cancel_left hsent'
  exact hnone "r1" .graceful (by simp)

end Demo
end Leitstand
