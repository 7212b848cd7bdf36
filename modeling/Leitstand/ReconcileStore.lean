import Leitstand.FinalRows
import Leitstand.ReconcileEvidence

namespace Leitstand
open TxM RunReconciliation

/-- What keeps an active run of the robot open: it was started after the robot answered, the robot
claims it, its dispatch may be in flight, or, where no claim was made, it was reported since. -/
inductive Exempted (now : Datetime) (claim : Claim) (r : StoredRun) : Prop where
  | later (h : claim.since ≤ r.run.createdAt)
  | claimed (hc : claim.claimReported = true) (h : claim.claimedRunId = some r.runId.str)
  | dispatching (hs : r.status = .pending) (h : now - r.run.createdAt < dispatchWindow)
  | reported (hc : claim.claimReported = false) (report : LastReport)
      (hr : r.run.lastReport = some report) (h : claim.since ≤ report.receivedAt)

/-- The run is one that a reconciliation of the robot has to close. -/
structure Unclaimed (now : Datetime) (robotId : RobotId) (claim : Claim) (r : StoredRun) : Prop where
  robot : r.robotId = robotId
  active : isActive r.status = true
  unexempted : ¬ Exempted now claim r

section Judge
variable {now : Datetime} {claim : Claim} {r : StoredRun}

theorem exempt_eq_true : exempt now claim r.toRun = true ↔
    isTerminal r.status = true ∨ Exempted now claim r := by
  have hcreated : r.toRun.createdAt = r.run.createdAt := rfl
  have hreport : r.toRun.lastReport = r.run.lastReport := rfl
  simp only [exempt, hcreated, hreport, Bool.or_eq_true, Bool.and_eq_true, decide_eq_true_eq,
    StoredRun.toRun_status, StoredRun.toRun_runId, Bool.not_eq_true', Option.any_eq_true]
  constructor
  · rintro ((((ht | hlater) | ⟨hc, hid⟩) | ⟨hs, hyoung⟩) | ⟨hc, report, hr, hsince⟩)
    · exact .inl ht
    · exact .inr (.later hlater)
    · exact .inr (.claimed hc hid.symm)
    · exact .inr (.dispatching hs hyoung)
    · exact .inr (.reported hc report hr hsince)
  · rintro (ht | hlater | ⟨hc, hid⟩ | ⟨hs, hyoung⟩ | ⟨hc, report, hr, hsince⟩)
    · exact .inl (.inl (.inl (.inl ht)))
    · exact .inl (.inl (.inl (.inr hlater)))
    · exact .inl (.inl (.inr ⟨hc, hid.symm⟩))
    · exact .inl (.inr ⟨hs, hyoung⟩)
    · exact .inr ⟨hc, report, hr, hsince⟩

theorem unclaimed_iff {robotId : RobotId} (hb : r.robotId = robotId)
    (ha : isActive r.status = true) :
    Unclaimed now robotId claim r ↔ exempt now claim r.toRun = false := by
  have hnt : isTerminal r.status = false := by simpa [isActive_eq_not_isTerminal] using ha
  rw [← Bool.not_eq_true, exempt_eq_true, hnt]
  constructor
  · rintro h (ht | he)
    · cases ht
    · exact h.unexempted he
  · exact fun h => ⟨hb, ha, fun he => h (.inr he)⟩

/-- What the end of a reconciliation leaves of a run. -/
def judgedRow (now : Datetime) (claim : Claim) (r : StoredRun) : StoredRun :=
  if exempt now claim r.toRun then r else (r.unclaimed now r.status).row

end Judge

/-- The runs among these that are found unclaimed. -/
def unclaimedOf (now : Datetime) (claim : Claim) (store : Store) (ids : List UUID) :
    List StoredRun :=
  (ids.filterMap store.runs.find?).filter fun r => !exempt now claim r.toRun

/-- What a reconciliation has done when it is through with these runs. -/
structure ReconciledEach (now : Datetime) (claim : Claim) (ids : List UUID)
    (tx tx' : Tx Store Event Command) : Prop where
  run : ∀ runId, tx'.store.runs.find? runId = if runId ∈ ids then
    (tx.store.runs.find? runId).map (judgedRow now claim) else tx.store.runs.find? runId
  rest : tx'.store = { tx.store with runs := tx'.store.runs }
  sent : tx'.sent = tx.sent ++ (unclaimedOf now claim tx.store ids).map fun r =>
    .cancel r.runId r.robotId .graceful

section Each
variable {now : Datetime} {claim : Claim} {tx : Tx Store Event Command} {runId : UUID}

/-- One run: judged, and closed if it is unclaimed. -/
theorem reconcileOne (hclean : ∀ r, tx.store.runs.find? runId = some r → r.Placed) :
    ∃ tx', (do match ← judge now claim runId with
        | none => pure none
        | some run => closeUnclaimed now run : ServiceM (Option UUID)).exec tx =
      (.ok ((unclaimedOf now claim tx.store [runId]).map (·.runId)).head?, tx') ∧
      ReconciledEach now claim [runId] tx tx' := by
  rw [exec_bind, System.judge_eq]
  cases hr : tx.store.runs.find? runId with
  | none =>
    have hnone : unclaimedOf now claim tx.store [runId] = [] := by simp [unclaimedOf, hr]
    rw [hnone]
    refine ⟨tx, rfl, ?_, rfl, by simp [hnone]⟩
    intro id
    split_ifs with hid
    · rw [List.mem_singleton.mp hid, hr]
      rfl
    · rfl
  | some r =>
    have hid : r.runId = runId := Table.key_of_find? hr
    by_cases he : exempt now claim r.toRun = true
    · have hnone : unclaimedOf now claim tx.store [runId] = [] := by simp [unclaimedOf, hr, he]
      simp only [he, ↓reduceIte, exec_pure, hnone]
      refine ⟨tx, rfl, ?_, rfl, by simp [hnone]⟩
      intro id
      split_ifs with hmem
      · rw [List.mem_singleton.mp hmem, hr, Option.map_some, judgedRow, if_pos he]
      · rfl
    · have hone : unclaimedOf now claim tx.store [runId] = [r] := by
        simp [unclaimedOf, hr, he]
      have hlive : isTerminal r.status = false := by
        by_contra ht
        exact he (exempt_eq_true.mpr (.inl (by simpa using ht)))
      have hr' : tx.store.runs.find? r.toRun.runId = some r := by
        rw [StoredRun.toRun_runId, hid, hr]
      have hclose := @closeUnclaimed_eq { tx with sent := tx.sent ++
        [.cancel r.runId r.robotId .graceful] } now r.toRun r hr' rfl rfl rfl
      have hover : ∀ row ∈ ([] : List StageStateRecord), PlacedAt r.plan row := by simp
      rw [if_pos ⟨rfl, hlive⟩, if_neg (by
        simp [StoredRun.ends_cleanly (hclean r hr) hover])] at hclose
      simp only [he, Bool.false_eq_true, ↓reduceIte]
      refine ⟨saving { tx with sent := tx.sent ++ [.cancel r.runId r.robotId .graceful] }
        (r.unclaimed now r.status).row (r.unclaimed now r.status).events [] [], ?_, ?_,
        by simp [saving], ?_⟩
      · rw [hclose, hone]
        rfl
      · intro id
        have hkey := r.runId_respond (.unclaimed now r.status)
        have hrow : judgedRow now claim r = (r.unclaimed now r.status).row := if_neg he
        have hrkey : tx.store.runs.find? (r.unclaimed now r.status).row.runId = some r :=
          hkey.symm ▸ hid.symm ▸ hr
        split_ifs with hmem
        · rw [List.mem_singleton.mp hmem, hr, Option.map_some, hrow, ← hid, ← hkey]
          exact Table.find?_replace_self hrkey
        · refine Table.find?_replace_ne tx.store.runs fun heq => hmem ?_
          exact List.mem_singleton.mpr (heq.trans (hkey.trans hid))
      · rw [hone]
        simp [saving]

theorem unclaimedOf_singleton (store : Store) (id : UUID) : unclaimedOf now claim store [id] =
    ((store.runs.find? id).filter fun r => !exempt now claim r.toRun).toList := by
  unfold unclaimedOf
  cases hr : store.runs.find? id with
  | none => simp [hr]
  | some r => by_cases he : exempt now claim r.toRun = true <;> simp [hr, he, Option.filter]

theorem unclaimedOf_append (store : Store) (ids more : List UUID) :
    unclaimedOf now claim store (ids ++ more) =
      unclaimedOf now claim store ids ++ unclaimedOf now claim store more := by
  simp [unclaimedOf]

theorem unclaimedOf_congr {store store' : Store} {ids : List UUID}
    (h : ∀ id ∈ ids, store'.runs.find? id = store.runs.find? id) :
    unclaimedOf now claim store' ids = unclaimedOf now claim store ids := by
  unfold unclaimedOf
  rw [List.filterMap_congr h]

theorem ReconciledEach.nil (tx : Tx Store Event Command) : ReconciledEach now claim [] tx tx where
  run := fun _ => by simp
  rest := rfl
  sent := by simp [unclaimedOf]

/-- What is done to some runs and then to others is done to all of them. -/
theorem ReconciledEach.append {ids more : List UUID} {tx₁ tx₂ : Tx Store Event Command}
    (hdis : ∀ id ∈ more, id ∉ ids) (h₁ : ReconciledEach now claim ids tx tx₁)
    (h₂ : ReconciledEach now claim more tx₁ tx₂) : ReconciledEach now claim (ids ++ more) tx tx₂ where
  run := by
    intro id
    rw [h₂.run, h₁.run]
    by_cases hm : id ∈ more
    · have hn := hdis id hm
      simp [hm, hn]
    · by_cases hi : id ∈ ids <;> simp [hm, hi]
  rest := by rw [h₂.rest, h₁.rest]
  sent := by
    have hsame : ∀ id ∈ more, tx₁.store.runs.find? id = tx.store.runs.find? id := by
      intro id hid
      rw [h₁.run, if_neg (hdis id hid)]
    rw [h₂.sent, h₁.sent, unclaimedOf_append, unclaimedOf_congr hsame, List.map_append,
      List.append_assoc]

/-- The first of the runs, and then the others. -/
theorem reconcileEach_cons {id : UUID} {rest : List UUID} {ended : Option UUID}
    {tx₁ : Tx Store Event Command}
    (h : (do match ← judge now claim id with
        | none => pure none
        | some run => closeUnclaimed now run : ServiceM (Option UUID)).exec tx = (.ok ended, tx₁)) :
    (reconcileEach now claim (id :: rest)).exec tx =
      (do return ended.toList ++ (← reconcileEach now claim rest)).exec tx₁ := by
  rw [exec_bind] at h
  rw [reconcileEach, exec_bind]
  rcases hj : (judge now claim id).exec tx with ⟨e | judged, tx₀⟩
  · rw [hj] at h
    cases h
  · rw [hj] at h
    cases judged with
    | none =>
      obtain ⟨hended, rfl⟩ := Prod.mk.inj h
      obtain rfl := Except.ok.inj hended
      rfl
    | some run =>
      have hclose : (closeUnclaimed now run).exec tx₀ = (.ok ended, tx₁) := h
      change (closeUnclaimed now run >>= fun ended =>
        (do return ended.toList ++ (← reconcileEach now claim rest) : ServiceM _)).exec tx₀ = _
      rw [exec_bind, hclose]

/-- A reconciliation gets through any list of runs, each named once. -/
theorem reconcileEach_ok {ids : List UUID} (hnd : ids.Nodup)
    (hclean : ∀ id ∈ ids, ∀ r, tx.store.runs.find? id = some r → r.Placed) :
    ∃ tx', (reconcileEach now claim ids).exec tx =
      (.ok ((unclaimedOf now claim tx.store ids).map (·.runId)), tx') ∧
      ReconciledEach now claim ids tx tx' := by
  induction ids generalizing tx with
  | nil => exact ⟨tx, rfl, .nil tx⟩
  | cons id rest ih =>
    obtain ⟨hid, hnd⟩ := List.nodup_cons.mp hnd
    obtain ⟨tx₁, hx₁, h₁⟩ := @reconcileOne now claim tx id (hclean id List.mem_cons_self)
    have hdis : ∀ other ∈ rest, other ∉ [id] := by
      intro other ho he
      rw [List.mem_singleton] at he
      exact hid (he ▸ ho)
    have hsame : ∀ other ∈ rest, tx₁.store.runs.find? other = tx.store.runs.find? other := by
      intro other ho
      rw [h₁.run, if_neg (hdis other ho)]
    obtain ⟨tx₂, hx₂, h₂⟩ := ih hnd fun other ho r hr =>
      hclean other (List.mem_cons_of_mem id ho) r ((hsame other ho).symm.trans hr)
    refine ⟨tx₂, ?_, h₁.append hdis h₂⟩
    rw [reconcileEach_cons hx₁, exec_bind, hx₂]
    have hsplit : unclaimedOf now claim tx.store (id :: rest) =
        unclaimedOf now claim tx.store [id] ++ unclaimedOf now claim tx.store rest :=
      unclaimedOf_append tx.store [id] rest
    rw [hsplit, unclaimedOf_congr hsame, List.map_append]
    rw [unclaimedOf_singleton]
    cases (tx.store.runs.find? id).filter fun r => !exempt now claim r.toRun <;> rfl

theorem reconcileEach_append (ids more : List UUID) :
    reconcileEach now claim (ids ++ more) = (do
      let ended ← reconcileEach now claim ids
      return ended ++ (← reconcileEach now claim more)) := by
  induction ids with
  | nil => simp [reconcileEach]
  | cons id rest ih =>
    rw [List.cons_append, reconcileEach, reconcileEach, ih, bind_assoc]
    refine congrArg _ (funext fun judged => ?_)
    cases judged <;> simp only [bind_assoc, pure_bind, List.append_assoc]

theorem unclaimedOf_sublist (store : Store) (ids : List UUID) :
    ((unclaimedOf now claim store ids).map (·.runId)).Sublist ids := by
  induction ids with
  | nil => exact .slnil
  | cons id rest ih =>
    have hsplit := @unclaimedOf_append now claim store [id] rest
    rw [List.singleton_append, unclaimedOf_singleton] at hsplit
    rw [hsplit, List.map_append]
    cases hr : (store.runs.find? id).filter fun r => !exempt now claim r.toRun with
    | none => exact ih.cons id
    | some r =>
      have hid : r.runId = id := Table.key_of_find? (Option.filter_eq_some_iff.mp hr).1
      simpa [hid] using ih

end Each

/-- The robot's active runs, as the call lists them. -/
def activeIds (store : Store) (robotId : RobotId) : List UUID :=
  (Runs.listActive (fun r => r.robotId = robotId) store).map (·.runId)

theorem mem_activeIds {store : Store} {robotId : RobotId} {r : StoredRun}
    (hr : store.runs.find? r.runId = some r) :
    r.runId ∈ activeIds store robotId ↔ r.robotId = robotId ∧ isActive r.status = true := by
  constructor
  · intro h
    obtain ⟨summary, hs, hid⟩ := List.mem_map.mp h
    obtain ⟨r', hr', hrobot, hactive, rfl⟩ := mem_listActive hs
    have hsame : r'.runId = r.runId := hid
    rw [hsame, hr] at hr'
    obtain rfl := Option.some.inj hr'
    exact ⟨of_decide_eq_true hrobot, hactive⟩
  · rintro ⟨hrobot, hactive⟩
    refine List.mem_map.mpr ⟨r.run.toMissionRunSummary, ?_, rfl⟩
    rw [Runs.listActive, List.mem_insertionSort]
    refine List.mem_map.mpr ⟨r, List.mem_filter.mpr ⟨Table.mem_of_find? hr, ?_⟩, rfl⟩
    simp [hrobot, hactive]

theorem nodup_activeIds (store : Store) (robotId : RobotId) : (activeIds store robotId).Nodup := by
  unfold activeIds Runs.listActive
  rw [((List.perm_insertionSort _ _).map _).nodup_iff, List.map_map]
  exact store.runs.nodup.sublist (List.filter_sublist.map _)

theorem mem_unclaimedOf {now : Datetime} {claim : Claim} {store : Store} {robotId : RobotId}
    {r : StoredRun} : r ∈ unclaimedOf now claim store (activeIds store robotId) ↔
      store.runs.find? r.runId = some r ∧ Unclaimed now robotId claim r := by
  unfold unclaimedOf
  rw [List.mem_filter, List.mem_filterMap, Bool.not_eq_true']
  constructor
  · rintro ⟨⟨id, hid, hr⟩, he⟩
    obtain rfl : r.runId = id := Table.key_of_find? hr
    obtain ⟨hrobot, hactive⟩ := (mem_activeIds hr).mp hid
    exact ⟨hr, (unclaimed_iff hrobot hactive).mpr he⟩
  · rintro ⟨hr, hu⟩
    exact ⟨⟨r.runId, (mem_activeIds hr).mpr ⟨hu.robot, hu.active⟩, hr⟩,
      (unclaimed_iff hu.robot hu.active).mp hu⟩

/-- The stage rows of every run stand where its plan puts their stages. -/
def Store.StagesPlaced (store : Store) : Prop := ∀ r ∈ store.runs.rows, r.Placed

theorem System.Reachable.stagesPlaced {s : System} (h : s.Reachable) : s.store.StagesPlaced :=
  fun _ hr => (h.stageRows hr).placed

/-- The row a run is left with when its reconciliation closes it. -/
structure ClosedBy (now : Datetime) (r r' : StoredRun) : Prop where
  frozen : r'.frozen = r.frozen
  status : r'.status = if r.status = .cancelling then .cancelled else .failed
  rows : r'.stageRuns.rows.Perm (r.finalRows now r'.status [])
  final : ∀ stage ∈ r.plan, ∃ row ∈ r'.stageRuns.rows,
    row.stageId = stage.stageId ∧ isFinal row.status

/-- The call comes to a point at which the run has been sent a cancel and is stored as it was. -/
def CancelledFirst (now : Datetime) (robotId : RobotId) (claim : Claim)
    (tx : Tx Store Event Command) (r : StoredRun) : Prop :=
  ∃ ended after commands tx₁,
    (reconcileRobotRuns now robotId claim).exec tx = (do
      let closed ← closeUnclaimed now r.toRun
      let more ← reconcileEach now claim after
      stopClaim robotId claim
      return ended ++ (closed.toList ++ more) : ServiceM (List UUID)).exec tx₁ ∧
    tx₁.sent = tx.sent ++ commands ∧ .cancel r.runId r.robotId .graceful ∈ commands ∧
    tx₁.store.runs.find? r.runId = some r

/-- The robot claims a run of its own that has ended. -/
structure ClaimsEnded (store : Store) (robotId : RobotId) (claim : Claim) (r : StoredRun) :
    Prop where
  reported : claim.claimReported = true
  named : ∃ claimed, claim.claimedRunId = some claimed ∧ UUID.parse claimed = some r.runId
  stored : store.runs.find? r.runId = some r
  ended : isTerminal r.status = true
  robot : r.robotId = robotId

/-- What a reconciliation does to the store, what it sends and what it answers. -/
structure Reconciled (now : Datetime) (robotId : RobotId) (claim : Claim)
    (tx tx' : Tx Store Event Command) (ended : List UUID) : Prop where
  closed : ∀ r, tx.store.runs.find? r.runId = some r → Unclaimed now robotId claim r →
    (∃ r', tx'.store.runs.find? r.runId = some r' ∧ ClosedBy now r r') ∧
      CancelledFirst now robotId claim tx r
  spared : ∀ r, tx.store.runs.find? r.runId = some r → ¬ Unclaimed now robotId claim r →
    tx'.store.runs.find? r.runId = some r
  unknown : ∀ runId, tx.store.runs.find? runId = none → tx'.store.runs.find? runId = none
  rest : tx'.store = { tx.store with runs := tx'.store.runs }
  left : ∀ r, tx'.store.runs.find? r.runId = some r → r.robotId = robotId →
    isActive r.status = true → Exempted now claim r
  distinct : ended.Nodup
  answered : ∀ runId, runId ∈ ended ↔
    ∃ r, tx.store.runs.find? runId = some r ∧ Unclaimed now robotId claim r
  sent : ∃ stops, tx'.sent =
      tx.sent ++ ended.map (fun runId => .cancel runId robotId .graceful) ++ stops ∧
    (∀ r, ClaimsEnded tx'.store robotId claim r → stops = [.cancel r.runId robotId .immediate]) ∧
    ((¬ ∃ r, ClaimsEnded tx'.store robotId claim r) → stops = [])

theorem endedClaim_eq_some {store : Store} {robotId : RobotId} {claim : Claim} {r : StoredRun} :
    endedClaim store robotId claim = some r ↔ ClaimsEnded store robotId claim r := by
  obtain ⟨since, claimed, reported⟩ := claim
  constructor
  · intro h
    unfold endedClaim at h
    split at h
    · rename_i text hreported hclaimed
      rw [Option.filter_eq_some_iff, Option.bind_eq_some_iff, Bool.and_eq_true,
        decide_eq_true_eq] at h
      obtain ⟨⟨runId, hparse, hr⟩, hended, hrobot⟩ := h
      obtain rfl : r.runId = runId := Table.key_of_find? hr
      exact ⟨hreported, ⟨text, hclaimed, hparse⟩, hr, hended, hrobot⟩
    · cases h
  · rintro ⟨hreported, ⟨text, hclaimed, hparse⟩, hr, hended, hrobot⟩
    obtain rfl : reported = true := hreported
    obtain rfl : claimed = some text := hclaimed
    simp [endedClaim, hparse, hr, Option.filter, hended, hrobot]

theorem closedBy_judged {now : Datetime} {claim : Claim} {robotId : RobotId} {r : StoredRun}
    (hp : r.Placed) (hu : Unclaimed now robotId claim r) :
    ClosedBy now r (judgedRow now claim r) := by
  have he := (unclaimed_iff hu.robot hu.active).mp hu
  have hlive : isTerminal r.status = false := by
    simpa [isActive_eq_not_isTerminal] using hu.active
  have hrow : judgedRow now claim r =
      (r.ending now r.unclaimedUpdate [] (some unclaimedReason)).row := by
    rw [judgedRow, if_neg (by simp [he]), StoredRun.unclaimed, if_pos ⟨rfl, hlive⟩]
  have hover : ∀ row ∈ ([] : List StageStateRecord), PlacedAt r.plan row := by simp
  have hperm := StoredRun.stageRuns_ending hp hover now r.unclaimedUpdate (some unclaimedReason)
  rw [hrow]
  refine ⟨rfl, rfl, hperm, ?_⟩
  intro stage hstage
  obtain ⟨index, hi⟩ := List.mem_iff_getElem?.mp hstage
  refine ⟨_, hperm.mem_iff.mpr (finalStageStatus_mem hi), rfl, projectStatus_isFinal _ _⟩

section Robot
variable {now : Datetime} {robotId : RobotId} {claim : Claim} {tx : Tx Store Event Command}

theorem reconcileRobotRuns_exec : (reconcileRobotRuns now robotId claim).exec tx = (do
    let ended ← reconcileEach now claim (activeIds tx.store robotId)
    stopClaim robotId claim
    return ended : ServiceM (List UUID)).exec tx := rfl

theorem cancelledFirst_of_unclaimed (hplaced : tx.store.StagesPlaced) {r : StoredRun}
    (hr : tx.store.runs.find? r.runId = some r) (hu : Unclaimed now robotId claim r) :
    CancelledFirst now robotId claim tx r := by
  have hmem := (mem_activeIds hr).mpr ⟨hu.robot, hu.active⟩
  have hnd := nodup_activeIds tx.store robotId
  obtain ⟨before, after, hids⟩ := List.append_of_mem hmem
  rw [hids] at hnd
  have hbefore : r.runId ∉ before := fun hb =>
    (List.nodup_append.mp hnd).2.2 _ hb _ List.mem_cons_self rfl
  obtain ⟨tx₀, hx₀, h₀⟩ := @reconcileEach_ok now claim tx before (List.nodup_append.mp hnd).1
    fun id _ other ho => hplaced other (Table.mem_of_find? ho)
  have hsame : tx₀.store.runs.find? r.runId = some r := by rw [h₀.run, if_neg hbefore, hr]
  have he := (unclaimed_iff hu.robot hu.active).mp hu
  have hjudge : (judge now claim r.runId).exec tx₀ = (.ok (some r.toRun), { tx₀ with
      sent := tx₀.sent ++ [.cancel r.runId r.robotId .graceful] }) := by
    rw [System.judge_eq, hsame]
    simp [he]
  have hsent : tx₀.sent ++ [.cancel r.runId r.robotId .graceful] = tx.sent ++
      ((unclaimedOf now claim tx.store before).map (fun r => .cancel r.runId r.robotId .graceful) ++
        [.cancel r.runId r.robotId .graceful]) := by
    rw [h₀.sent, List.append_assoc]
  refine ⟨(unclaimedOf now claim tx.store before).map (·.runId), after, _,
    { tx₀ with sent := tx₀.sent ++ [.cancel r.runId r.robotId .graceful] }, ?_, hsent,
    List.mem_append_right _ List.mem_cons_self, hsame⟩
  rw [reconcileRobotRuns_exec, hids, reconcileEach_append, bind_assoc, exec_bind, hx₀]
  dsimp only
  rw [reconcileEach, bind_assoc, bind_assoc, exec_bind, hjudge]
  simp only [bind_assoc, pure_bind]

theorem mem_endedIds {runId : UUID} :
    runId ∈ (unclaimedOf now claim tx.store (activeIds tx.store robotId)).map (·.runId) ↔
      ∃ r, tx.store.runs.find? runId = some r ∧ Unclaimed now robotId claim r := by
  constructor
  · intro hmem
    obtain ⟨r, hr, rfl⟩ := List.mem_map.mp hmem
    exact ⟨r, mem_unclaimedOf.mp hr⟩
  · rintro ⟨r, hr, hu⟩
    obtain rfl : r.runId = runId := Table.key_of_find? hr
    exact List.mem_map.mpr ⟨r, mem_unclaimedOf.mpr ⟨hr, hu⟩, rfl⟩

namespace ReconciledEach
variable {tx₁ : Tx Store Event Command} {r : StoredRun}

theorem row (h : ReconciledEach now claim (activeIds tx.store robotId) tx tx₁)
    (hr : tx.store.runs.find? r.runId = some r) (hu : Unclaimed now robotId claim r) :
    tx₁.store.runs.find? r.runId = some (judgedRow now claim r) := by
  rw [h.run, if_pos ((mem_activeIds hr).mpr ⟨hu.robot, hu.active⟩), hr, Option.map_some]

theorem spared (h : ReconciledEach now claim (activeIds tx.store robotId) tx tx₁)
    (hr : tx.store.runs.find? r.runId = some r) (hn : ¬ Unclaimed now robotId claim r) :
    tx₁.store.runs.find? r.runId = some r := by
  rw [h.run]
  split_ifs with hmem
  · obtain ⟨hrobot, hactive⟩ := (mem_activeIds hr).mp hmem
    have he : exempt now claim r.toRun = true := by
      simpa using fun he => hn ((unclaimed_iff hrobot hactive).mpr he)
    rw [hr, Option.map_some, judgedRow, if_pos he]
  · exact hr

theorem unknown (h : ReconciledEach now claim (activeIds tx.store robotId) tx tx₁) {runId : UUID}
    (hnone : tx.store.runs.find? runId = none) : tx₁.store.runs.find? runId = none := by
  rw [h.run, hnone, Option.map_none, ite_self]

/-- A run of the robot that is still active is one that keeps. -/
theorem left (h : ReconciledEach now claim (activeIds tx.store robotId) tx tx₁)
    (hplaced : tx.store.StagesPlaced) (hr : tx₁.store.runs.find? r.runId = some r)
    (hrobot : r.robotId = robotId) (hactive : isActive r.status = true) :
    Exempted now claim r := by
  cases hold : tx.store.runs.find? r.runId with
  | none =>
    rw [h.unknown hold] at hr
    cases hr
  | some old =>
    have hid : old.runId = r.runId := Table.key_of_find? hold
    have hold' : tx.store.runs.find? old.runId = some old := hid ▸ hold
    by_cases hu : Unclaimed now robotId claim old
    · have hrow := h.row hold' hu
      rw [hid, hr] at hrow
      have hclosed := closedBy_judged (hplaced old (Table.mem_of_find? hold)) hu
      rw [← Option.some.inj hrow] at hclosed
      have hstatus := hclosed.status
      rw [isActive_eq_not_isTerminal, hstatus] at hactive
      split_ifs at hactive <;> cases hactive
    · have hsame := h.spared hold' hu
      rw [hid, hr] at hsame
      obtain rfl := Option.some.inj hsame
      by_contra hn
      exact hu ⟨hrobot, hactive, hn⟩

theorem sent_ended (h : ReconciledEach now claim (activeIds tx.store robotId) tx tx₁) :
    tx₁.sent = tx.sent ++ ((unclaimedOf now claim tx.store (activeIds tx.store robotId)).map
      (·.runId)).map fun runId => .cancel runId robotId .graceful := by
  rw [h.sent, List.map_map]
  refine congrArg _ (List.map_congr_left fun r hr => ?_)
  have hrobot := (mem_unclaimedOf.mp hr).2.robot
  exact congrArg (Command.cancel r.runId · .graceful) hrobot

end ReconciledEach

/-- A reconciliation closes just the runs it should, each after its cancel has gone out. -/
theorem reconcileRobotRuns_reconciled (hplaced : tx.store.StagesPlaced) :
    ∃ ended tx', (reconcileRobotRuns now robotId claim).exec tx = (.ok ended, tx') ∧
      Reconciled now robotId claim tx tx' ended := by
  obtain ⟨tx₁, hx, h⟩ := @reconcileEach_ok now claim tx (activeIds tx.store robotId)
    (nodup_activeIds _ _) fun id _ r hr => hplaced r (Table.mem_of_find? hr)
  let stops : List Command := (endedClaim tx₁.store robotId claim).toList.map fun r =>
    .cancel r.runId robotId .immediate
  refine ⟨(unclaimedOf now claim tx.store (activeIds tx.store robotId)).map (·.runId),
    { tx₁ with sent := tx₁.sent ++ stops }, ?run, ?done⟩
  case run =>
    rw [reconcileRobotRuns_exec, exec_bind, hx]
    dsimp only
    rw [exec_bind, stopClaim_eq]
    rfl
  case done =>
    refine ⟨?closed, fun r => h.spared, fun runId => h.unknown, h.rest, fun r => h.left hplaced,
      (nodup_activeIds tx.store robotId).sublist (unclaimedOf_sublist _ _),
      fun runId => mem_endedIds, ⟨stops, congrArg (· ++ stops) h.sent_ended, ?_, ?_⟩⟩
    case closed =>
      intro r hr hu
      have hclosed := closedBy_judged (hplaced r (Table.mem_of_find? hr)) hu
      exact ⟨⟨_, h.row hr hu, hclosed⟩, cancelledFirst_of_unclaimed hplaced hr hu⟩
    · intro r hr
      have hended := endedClaim_eq_some.mpr hr
      change ((endedClaim tx₁.store robotId claim).toList.map _) = _
      rw [show endedClaim tx₁.store robotId claim = some r from hended]
      rfl
    · intro hnone
      have hended : endedClaim tx₁.store robotId claim = none := by
        by_contra hne
        obtain ⟨r, hr⟩ := Option.ne_none_iff_exists'.mp hne
        exact hnone ⟨r, endedClaim_eq_some.mp hr⟩
      change ((endedClaim tx₁.store robotId claim).toList.map _) = _
      rw [hended]
      rfl

end Robot
section Demo

/-- The demo's robot with its run dispatched and not yet answered for. -/
theorem demo_dispatched : ∃ tx : Tx Store Event Command, tx.store.StagesPlaced ∧
    ∃ r, tx.store.runs.find? r.runId = some r ∧ r.runId = 7 ∧ r.robotId = "r1" ∧
      r.status = .pending ∧ r.run.createdAt = 0 := by
  obtain ⟨s, hs, hp⟩ := demo_reaches (fun s => (s.runs.find? 7).any fun r : StoredRun =>
    r.runId = 7 ∧ r.robotId = "r1" ∧ r.status = .pending ∧ r.run.createdAt = 0)
    (demoOnline ++ demoDispatch) (by decide)
  obtain ⟨r, hr, hp⟩ := (Option.any_eq_true _ _).mp hp
  obtain ⟨hid, hfacts⟩ := of_decide_eq_true hp
  exact ⟨{ store := s.store }, hs.stagesPlaced, r, hid ▸ hr, hid, hfacts⟩

/-- The robot comes back holding no run, and the one it was sent is closed. -/
theorem reconcileRobotRuns_reconciled_demo : ∃ tx ended tx',
    (reconcileRobotRuns (seconds 20) "r1" { since := 1, claimReported := true }).exec tx =
      (.ok ended, tx') ∧ 7 ∈ ended ∧
    Reconciled (seconds 20) "r1" { since := 1, claimReported := true } tx tx' ended := by
  obtain ⟨tx, hplaced, r, hr, hid, hrobot, hstatus, hcreated⟩ := demo_dispatched
  obtain ⟨ended, tx', hx, h⟩ := @reconcileRobotRuns_reconciled (seconds 20) "r1"
    { since := 1, claimReported := true } tx hplaced
  refine ⟨tx, ended, tx', hx, (h.answered 7).mpr ⟨r, hid ▸ hr, hrobot, ?_, ?_⟩, h⟩
  · rw [hstatus]
    rfl
  · rintro (hlater | ⟨-, hnamed⟩ | ⟨-, hyoung⟩ | ⟨hnot, -⟩)
    · rw [hcreated] at hlater
      exact absurd hlater (by decide)
    · cases hnamed
    · rw [hcreated] at hyoung
      exact absurd hyoung (by decide)
    · cases hnot

end Demo
end Leitstand
