import Leitstand.ReconcileStore

namespace Leitstand
open TxM RunReconciliation

/-- The call left the run as it was, sent it no cancel and did not count it among the closed. -/
structure KeptOpen (tx tx' : Tx Store Event Command) (ended : List UUID) (r : StoredRun) :
    Prop where
  stored : tx'.store.runs.find? r.runId = some r
  uncancelled : ∃ commands, tx'.sent = tx.sent ++ commands ∧
    ∀ robotId mode, Command.cancel r.runId robotId mode ∉ commands
  unended : r.runId ∉ ended

/-- The robot says that it executes this run, which it names in some form that reads as its id. -/
structure Claim.Denotes (claim : Claim) (claimed : String) (runId : UUID) : Prop where
  reported : claim.claimReported = true
  named : claim.claimedRunId = some claimed
  parsed : UUID.parse claimed = some runId

section Claimed
variable {now : Datetime} {robotId : RobotId} {claim : Claim} {tx tx' : Tx Store Event Command}
  {r : StoredRun} {ended : List UUID}

/-- An active run of the robot is kept open exactly if something exempts it. -/
theorem Reconciled.keptOpen_iff (h : Reconciled now robotId claim tx tx' ended)
    (hr : tx.store.runs.find? r.runId = some r) (hrobot : r.robotId = robotId)
    (hactive : isActive r.status = true) :
    KeptOpen tx tx' ended r ↔ Exempted now claim r := by
  constructor
  · intro hkept
    by_contra hn
    exact hkept.unended ((h.answered r.runId).mpr ⟨r, hr, hrobot, hactive, hn⟩)
  · intro he
    have hn : ¬ Unclaimed now robotId claim r := fun hu => hu.unexempted he
    have hsame := h.spared r hr hn
    have hunended : r.runId ∉ ended := by
      intro hmem
      obtain ⟨r', hr', hu⟩ := (h.answered r.runId).mp hmem
      rw [hr] at hr'
      exact hn (Option.some.inj hr' ▸ hu)
    obtain ⟨stops, hsent, hsome, hnone⟩ := h.sent
    refine ⟨hsame, ⟨_, hsent.trans (List.append_assoc _ _ _), ?_⟩, hunended⟩
    intro robot mode hmem
    obtain hmem | hmem := List.mem_append.mp hmem
    · obtain ⟨runId, hid, hcommand⟩ := List.mem_map.mp hmem
      exact hunended ((Command.cancel.inj hcommand).1 ▸ hid)
    · -- The last cancel is for a run that has ended, and this one has not.
      by_cases hex : ∃ r', ClaimsEnded tx'.store robotId claim r'
      · obtain ⟨r', hclaims⟩ := hex
        rw [hsome r' hclaims, List.mem_singleton] at hmem
        have hstored := hclaims.stored
        rw [← (Command.cancel.inj hmem).1, hsame] at hstored
        have hended := hclaims.ended
        rw [← Option.some.inj hstored] at hended
        rw [isActive_eq_not_isTerminal, hended] at hactive
        cases hactive
      · rw [hnone hex] at hmem
        cases hmem

theorem exempted_iff_of_denotes {claimed : String} (hd : claim.Denotes claimed r.runId) :
    Exempted now claim r ↔
      claimed = r.runId.str ∨ claim.since ≤ r.run.createdAt ∨
        r.status = .pending ∧ now - r.run.createdAt < dispatchWindow := by
  constructor
  · rintro (hlater | ⟨-, hnamed⟩ | ⟨hs, hyoung⟩ | ⟨hnot, -⟩)
    · exact .inr (.inl hlater)
    · exact .inl (Option.some.inj (hd.named.symm.trans hnamed))
    · exact .inr (.inr ⟨hs, hyoung⟩)
    · rw [hd.reported] at hnot
      cases hnot
  · rintro (hnamed | hlater | ⟨hs, hyoung⟩)
    · exact .claimed hd.reported (hd.named.trans (congrArg some hnamed))
    · exact .later hlater
    · exact .dispatching hs hyoung

/-- The active run that a robot's claim denotes is kept open exactly if the claim spells its id the
way the backend does, or the run is too young to be judged. -/
theorem claimed_kept_iff {claimed : String} (hplaced : tx.store.StagesPlaced)
    (hd : claim.Denotes claimed r.runId) (hr : tx.store.runs.find? r.runId = some r)
    (hrobot : r.robotId = robotId) (hactive : isActive r.status = true) :
    (∃ ended tx', (reconcileRobotRuns now robotId claim).exec tx = (.ok ended, tx') ∧
      KeptOpen tx tx' ended r) ↔
    claimed = r.runId.str ∨ claim.since ≤ r.run.createdAt ∨
      r.status = .pending ∧ now - r.run.createdAt < dispatchWindow := by
  obtain ⟨ended, tx', hx, h⟩ := @reconcileRobotRuns_reconciled now robotId claim tx hplaced
  rw [← exempted_iff_of_denotes hd, ← h.keptOpen_iff hr hrobot hactive]
  constructor
  · rintro ⟨ended', tx'', hx', hkept⟩
    rw [hx] at hx'
    obtain ⟨hended, rfl⟩ := Prod.mk.inj hx'
    exact Except.ok.inj hended ▸ hkept
  · exact fun hkept => ⟨ended, tx', hx, hkept⟩

end Claimed

section Demo

/-- The demo's run, in the form of a URN. -/
def demoClaim : Claim :=
  { since := 1, claimReported := true
    claimedRunId := some "urn:uuid:00000000-0000-0000-0000-000000000007" }

theorem demoClaim_denotes : demoClaim.Denotes "urn:uuid:00000000-0000-0000-0000-000000000007" 7 where
  reported := rfl
  named := rfl
  parsed := by decide

theorem claimed_kept_iff_demo : ∃ (tx : Tx Store Event Command) (r : StoredRun), r.runId = 7 ∧
    ((∃ ended tx', (reconcileRobotRuns (seconds 20) "r1" demoClaim).exec tx = (.ok ended, tx') ∧
      KeptOpen tx tx' ended r) ↔
    "urn:uuid:00000000-0000-0000-0000-000000000007" = r.runId.str ∨
      demoClaim.since ≤ r.run.createdAt ∨
      r.status = .pending ∧ seconds 20 - r.run.createdAt < dispatchWindow) := by
  obtain ⟨tx, hplaced, r, hr, hid, hrobot, hstatus, -⟩ := demo_dispatched
  refine ⟨tx, r, hid, claimed_kept_iff hplaced (hid ▸ demoClaim_denotes) hr hrobot ?_⟩
  rw [hstatus]
  rfl

/-- A run that its robot claims by a URN is closed under it. -/
theorem claimed_closed : ¬ ∀ (now : Datetime) (robotId : RobotId) (claim : Claim)
    (tx : Tx Store Event Command) (claimed : String) (r : StoredRun), tx.store.StagesPlaced →
    claim.Denotes claimed r.runId → tx.store.runs.find? r.runId = some r → r.robotId = robotId →
    isActive r.status = true → ∃ ended tx',
      (reconcileRobotRuns now robotId claim).exec tx = (.ok ended, tx') ∧ KeptOpen tx tx' ended r := by
  intro hall
  obtain ⟨tx, hplaced, r, hr, hid, hrobot, hstatus, hcreated⟩ := demo_dispatched
  have hd : demoClaim.Denotes "urn:uuid:00000000-0000-0000-0000-000000000007" r.runId :=
    hid ▸ demoClaim_denotes
  have hactive : isActive r.status = true := by rw [hstatus]; rfl
  obtain ⟨ended, tx', hx, hkept⟩ := hall (seconds 20) "r1" demoClaim tx _ r hplaced hd hr hrobot hactive
  obtain ⟨ended', tx'', hx', h⟩ := @reconcileRobotRuns_reconciled (seconds 20) "r1" demoClaim tx
    hplaced
  rw [hx] at hx'
  obtain ⟨hended, rfl⟩ := Prod.mk.inj hx'
  obtain rfl := Except.ok.inj hended
  have hexempted := (exempted_iff_of_denotes hd).mp ((h.keptOpen_iff hr hrobot hactive).mp hkept)
  rw [hid, hcreated] at hexempted
  obtain hcanonical | hlater | ⟨-, hyoung⟩ := hexempted
  · exact absurd hcanonical (by decide)
  · exact absurd hlater (by decide)
  · exact absurd hyoung (by decide)

end Demo
end Leitstand
