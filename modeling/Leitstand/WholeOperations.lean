import Leitstand.ActiveRuns

namespace Leitstand
open TxM RunReconciliation

section Composed
variable {P : ∀ {β : Type}, ServiceM β → Prop} (h : Composes P)
include h

theorem composed_audit (entry : AuditEntry) : P (audit entry) := h.setStore _

theorem composed_find (runId : UUID) : P (Runs.find runId) := h.bind h.store fun _ => h.pure _

theorem composed_updateStatus (now : Datetime) (runId : UUID) (u : StatusUpdate) :
    P (Runs.updateStatus now runId u) := by
  unfold Runs.updateStatus
  refine h.bind (composed_find h runId) fun r => ?_
  cases r with
  | none => exact h.pure _
  | some r =>
    dsimp only
    split_ifs
    · exact h.bind (h.setStore _) fun _ => h.pure _
    · exact h.pure _

theorem composed_overwriteStageRuns (runId : UUID) (records : List StageStateRecord) :
    P (Runs.overwriteStageRuns runId records) := by
  unfold Runs.overwriteStageRuns Runs.writeStageRows
  split_ifs
  · exact h.pure _
  · refine h.bind (composed_find h runId) fun r => ?_
    cases r with
    | none => exact h.throw _
    | some r =>
      dsimp only
      split_ifs
      · exact h.throw _
      · exact h.setStore _

theorem composed_settleStageState (now : Datetime) (run : MissionRun) (status : RunStatus)
    (errors : Option (List MissionError)) (overlay : List StageStateRecord) :
    P (settleStageState now run status errors overlay) := by
  unfold settleStageState
  refine h.bind (h.bind (composed_find h _) fun _ => h.pure _) fun rows => ?_
  exact h.bind (composed_overwriteStageRuns h _ _) fun _ => h.bind (h.enqueue _) fun _ => h.pure _

theorem composed_closeUnclaimed (now : Datetime) (run : MissionRun) :
    P (closeUnclaimed now run) := by
  unfold closeUnclaimed
  refine h.bind (composed_updateStatus h _ _ _) fun updated => ?_
  cases updated with
  | none => exact h.pure _
  | some updated =>
    refine h.bind (composed_settleStageState h _ _ _ _ _) fun _ => ?_
    exact h.bind (h.enqueue _) fun _ => h.pure _

theorem composed_create (run : MissionRun) : P (Runs.create run) := by
  unfold Runs.create
  refine h.bind h.store fun tables => ?_
  split
  · exact h.throw _
  · split_ifs
    · exact h.bind (h.bind h.store fun _ => h.pure _) fun _ => h.throw _
    · exact h.throw _
    · exact h.bind (h.setStore _) fun _ => h.pure _

theorem composed_prepareInsert (digests : Digests) (runId : UUID) (p : Prepared) :
    P (RunService.prepareInsert digests runId p) := by
  unfold RunService.prepareInsert
  refine h.bind (composed_create h _) fun run => ?_
  exact h.bind (h.enqueue _) fun _ => h.bind (composed_audit h _) fun _ => h.pure _

theorem composed_deleteCount (missionId : UUID) : P (MissionManagement.deleteCount missionId) :=
  h.bind (h.bind h.store fun _ => h.pure _) fun _ => h.pure _

theorem composed_deleteFinish (now : Datetime) (missionId : UUID) (hasRuns : Bool) :
    P (MissionManagement.deleteFinish now missionId hasRuns) := by
  unfold MissionManagement.deleteFinish Missions.archive Missions.setArchived Missions.delete
  split_ifs
  · refine h.bind (h.bind h.store fun store => ?_) fun _ => composed_audit h _
    cases store.missions.find? missionId with
    | none => exact h.pure _
    | some mission => exact h.bind (h.setStore _) fun _ => h.pure _
  · refine h.bind (h.bind h.store fun store => ?_) fun _ => composed_audit h _
    split_ifs
    · exact h.throw _
    · exact h.setStore _

end Composed

section Framed
variable (now : Datetime) (claim : Claim)

theorem judge_framed (runId : UUID) : Framed (judge now claim runId) := by
  have h := @Framed.composes Store Event Command ServiceError
  unfold judge
  refine h.bind (h.bind (composed_find h runId) fun _ => h.pure _) fun run => ?_
  cases run with
  | none => exact h.pure _
  | some run =>
    dsimp only
    split_ifs
    · exact h.pure _
    · exact h.bind (Framed.send _) fun _ => h.pure _

theorem reconcileEach_framed (ids : List UUID) : Framed (reconcileEach now claim ids) := by
  have h := @Framed.composes Store Event Command ServiceError
  induction ids with
  | nil => exact h.pure _
  | cons runId ids ih =>
    unfold reconcileEach
    refine h.bind (judge_framed now claim runId) fun run => ?_
    cases run with
    | none => exact h.bind (h.pure _) fun _ => h.bind ih fun _ => h.pure _
    | some run =>
      exact h.bind (composed_closeUnclaimed h now run) fun _ => h.bind ih fun _ => h.pure _

theorem stopClaim_framed (robotId : RobotId) : Framed (stopClaim robotId claim) := by
  have h := @Framed.composes Store Event Command ServiceError
  unfold stopClaim
  split
  · unfold stopAClosedClaim
    split
    · exact h.pure _
    · refine h.bind (h.bind (composed_find h _) fun _ => h.pure _) fun run => ?_
      cases run with
      | none => exact h.pure _
      | some run =>
        dsimp only
        split_ifs
        · exact Framed.send _
        · exact h.pure _
  · exact h.pure _

end Framed

theorem deleteRead_readOnly (missionId : UUID) :
    ReadOnly (MissionManagement.deleteRead missionId) := by
  unfold MissionManagement.deleteRead
  refine .bind (.bind .store fun _ => .pure _) fun mission => ?_
  cases mission with
  | none => exact .throw _
  | some mission => exact .bind (.bind .store fun _ => .pure _) fun _ => .check _

theorem deleteCount_readOnly (missionId : UUID) :
    ReadOnly (MissionManagement.deleteCount missionId) :=
  .bind (.bind .store fun _ => .pure _) fun _ => .pure _

namespace System
variable {s : System}

/-- A dispatch at one go is the dispatch with its insert right after it. -/
theorem prepare_whole {command : StartRunCommand} {runId : UUID} {run : MissionRun} {w : Backend}
    (hl : s.locked command.missionId = false) (hid : runId ∉ s.issued)
    (h : (RunService.prepare s.digests s.factsheets s.clock runId command).atomically s.world =
      (.ok run, w)) :
    StepSystem.exec step s [.dispatch command, .insert s.dispatches.length runId] =
      some { s with world := w, issued := runId :: s.issued } := by
  obtain ⟨p, w', hread, hinsert⟩ := atomically_bind_ok
    (fun p => composed_prepareInsert Framed.composes s.digests runId p) h
  obtain rfl : w' = s.world := by
    have hw := (@prepareRead_readOnly s.digests s.factsheets s.clock command).atomically s.world
    exact (congrArg Prod.snd hread).symm.trans hw
  have hdispatch : s.step (.dispatch command) =
      some { s with dispatches := s.dispatches ++ [p] } := by
    dsimp only [step, startDispatch, outcome]
    rw [hl, hread]
    rfl
  rw [StepSystem.exec_cons, hdispatch, Option.bind_some, StepSystem.exec_cons]
  dsimp only [step, insertRun]
  rw [List.getElem?_concat_length]
  dsimp only
  rw [if_neg hid]
  dsimp only [perform]
  rw [hinsert]
  simp [StepSystem.exec, List.eraseIdx_append_of_length_le]

/-- A deletion at one go is its three parts, one right after the other. -/
theorem delete_whole {missionId : UUID} {u : Unit} {w : Backend} (hl : s.locked missionId = false)
    (h : (MissionManagement.delete s.clock missionId).atomically s.world = (.ok u, w)) :
    StepSystem.exec step s [.deleteMission missionId, .countRuns s.deletions.length,
      .finishDeletion s.deletions.length] = some { s with world := w } := by
  have hP := @Framed.composes Store Event Command ServiceError
  obtain ⟨_, w₁, hread, h⟩ := atomically_bind_ok (fun _ =>
    hP.bind (composed_deleteCount hP missionId) fun _ =>
      composed_deleteFinish hP s.clock missionId _) h
  obtain ⟨hasRuns, w₂, hcount, hfinish⟩ := atomically_bind_ok
    (fun hasRuns => composed_deleteFinish hP s.clock missionId hasRuns) h
  obtain rfl : w₁ = s.world := by
    have hw := (deleteRead_readOnly missionId).atomically s.world
    exact (congrArg Prod.snd hread).symm.trans hw
  obtain rfl : w₂ = s.world := by
    have hw := (deleteCount_readOnly missionId).atomically s.world
    exact (congrArg Prod.snd hcount).symm.trans hw
  have hstart : s.step (.deleteMission missionId) =
      some { s with deletions := s.deletions ++ [(missionId, none)] } := by
    dsimp only [step, startDeletion, outcome]
    rw [hl, hread]
    rfl
  have hcounted : ({ s with deletions := s.deletions ++ [(missionId, none)] } : System).step
      (.countRuns s.deletions.length) =
        some { s with deletions := s.deletions ++ [(missionId, some hasRuns)] } := by
    dsimp only [step, countRuns, outcome]
    rw [List.getElem?_concat_length]
    dsimp only
    rw [hcount]
    simp
  rw [StepSystem.exec_cons, hstart, Option.bind_some, StepSystem.exec_cons, hcounted,
    Option.bind_some, StepSystem.exec_cons]
  dsimp only [step, finishDeletion]
  rw [List.getElem?_concat_length]
  dsimp only [perform]
  rw [hfinish]
  simp [StepSystem.exec, List.eraseIdx_append_of_length_le]

section Reconcile
variable {i : Nat} {c : Reconciliation}

/-- The state once the `i`-th reconciliation, still `c`, has only these runs to judge. -/
def judging (s : System) (i : Nat) (c : Reconciliation) (w : Backend) (left : List UUID) : System :=
  { s with world := w, reconciliations := s.reconciliations.set i { c with left := left } }

theorem judging_judging (w w' : Backend) (left left' : List UUID) :
    (s.judging i c w left).judging i { c with left := left } w' left' = s.judging i c w' left' := by
  simp only [judging, List.set_set]

theorem judging_self (hi : s.reconciliations[i]? = some c) : s.judging i c s.world c.left = s := by
  obtain ⟨hlt, rfl⟩ := List.getElem?_eq_some_iff.mp hi
  change { s with reconciliations := s.reconciliations.set i s.reconciliations[i] } = s
  rw [List.set_getElem_self]

theorem getElem?_judging (hi : s.reconciliations[i]? = some c) (w : Backend) (left : List UUID) :
    (s.judging i c w left).reconciliations[i]? = some { c with left := left } := by
  obtain ⟨hlt, -⟩ := List.getElem?_eq_some_iff.mp hi
  exact List.getElem?_set_self hlt

/-- The part of a reconciliation about one run is its judgement, and its closing if it is
unclaimed. -/
theorem judge_whole {runId : UUID} {left : List UUID} {run : Option MissionRun}
    {ended : Option UUID} {w w' : Backend} (hi : s.reconciliations[i]? = some c)
    (hl : c.left = runId :: left) (hj : c.judged = []) (hn : c.startedAt = s.clock)
    (hjudge : (judge s.clock c.claim runId).atomically s.world = (.ok run, w))
    (hclose : (run.elim (pure none) (closeUnclaimed s.clock)).atomically w = (.ok ended, w')) :
    ∃ acts, StepSystem.exec step s acts = some (s.judging i c w' left) := by
  obtain ⟨hlt, -⟩ := List.getElem?_eq_some_iff.mp hi
  have hjudged : s.step (.judgeRun i) = some { s with
      world := w
      reconciliations :=
        s.reconciliations.set i { c with left := left, judged := run.toList } } := by
    dsimp only [step, judgeRun]
    rw [hi]
    dsimp only
    rw [hl]
    dsimp only
    rw [hn, hjudge, hj]
    rfl
  cases run with
  | none =>
    obtain rfl : w = w' := by
      have hpure : ReadOnly (pure none : ServiceM (Option UUID)) := .pure none
      exact (hpure.atomically w).symm.trans (congrArg Prod.snd hclose)
    refine ⟨[.judgeRun i], ?_⟩
    rw [StepSystem.exec_cons, hjudged, judging, hj]
    rfl
  | some run =>
    refine ⟨[.judgeRun i, .closeJudged i], ?_⟩
    rw [StepSystem.exec_cons, hjudged, Option.bind_some, StepSystem.exec_cons]
    dsimp only [step, closeJudged]
    rw [List.getElem?_set_self hlt]
    dsimp only [Option.toList_some, perform]
    have hclose' : (closeUnclaimed s.clock run).atomically w = (.ok ended, w') := hclose
    rw [hclose', List.set_set, judging, hj]
    rfl

theorem reconcileEach_whole {left ended : List UUID} {w : Backend}
    (hi : s.reconciliations[i]? = some c) (hl : c.left = left) (hj : c.judged = [])
    (hn : c.startedAt = s.clock)
    (h : (reconcileEach s.clock c.claim left).atomically s.world = (.ok ended, w)) :
    ∃ acts, StepSystem.exec step s acts = some (s.judging i c w []) := by
  induction left generalizing s c ended with
  | nil =>
    obtain rfl : s.world = w := by
      have hpure : ReadOnly (pure [] : ServiceM (List UUID)) := .pure []
      exact (hpure.atomically s.world).symm.trans (congrArg Prod.snd h)
    refine ⟨[], ?_⟩
    rw [← hl, judging_self hi]
    rfl
  | cons runId left ih =>
    have hP := @Framed.composes Store Event Command ServiceError
    have hsplit : reconcileEach s.clock c.claim (runId :: left) = do
        let run ← judge s.clock c.claim runId
        let ended ← run.elim (pure none) (closeUnclaimed s.clock)
        let rest ← reconcileEach s.clock c.claim left
        return ended.toList ++ rest := by
      rw [reconcileEach]
      congr 1
      funext run
      cases run <;> rfl
    have hrest : ∀ ended : Option UUID, Framed (do
        let rest ← reconcileEach s.clock c.claim left
        return ended.toList ++ rest : ServiceM (List UUID)) :=
      fun _ => hP.bind (reconcileEach_framed s.clock c.claim left) fun _ => hP.pure _
    rw [hsplit] at h
    obtain ⟨run, w₁, hjudge, h⟩ := atomically_bind_ok (fun run => hP.bind (by
      cases run with
      | none => exact hP.pure _
      | some run => exact composed_closeUnclaimed hP _ run) hrest) h
    obtain ⟨ended, w₂, hclose, h⟩ := atomically_bind_ok hrest h
    obtain ⟨rest, w₃, hrec, h⟩ := atomically_bind_ok (fun _ => hP.pure _) h
    obtain rfl : w₃ = w := by
      have hpure : ReadOnly (pure (ended.toList ++ rest) : ServiceM (List UUID)) := .pure _
      exact (hpure.atomically w₃).symm.trans (congrArg Prod.snd h)
    obtain ⟨acts, hacts⟩ := judge_whole hi hl hj hn hjudge hclose
    obtain ⟨acts', hacts'⟩ := ih (getElem?_judging hi w₂ left) rfl hj hn hrec
    rw [judging_judging] at hacts'
    exact ⟨acts ++ acts', StepSystem.exec_append_iff.mpr ⟨_, hacts, hacts'⟩⟩

/-- A reconciliation at one go is its judgements and closings, one right after the other. -/
theorem reconcile_whole {waiting : Reconnection} {ended : List UUID} {w : Backend}
    (hi : s.reconnections[i]? = some waiting)
    (hdue : waiting.claim.claimReported = true ∨ waiting.claim.since + reconcileGrace ≤ s.clock)
    (h : (reconcileRobotRuns s.clock waiting.robotId waiting.claim).atomically s.world =
      (.ok ended, w)) :
    ∃ acts, StepSystem.exec step s acts =
      some { s with world := w, reconnections := s.reconnections.eraseIdx i } := by
  have hP := @Framed.composes Store Event Command ServiceError
  let c : Reconciliation :=
    { waiting with startedAt := s.clock, left := s.activeRuns waiting.robotId }
  let s₁ : System := { s with
    reconnections := s.reconnections.eraseIdx i, reconciliations := s.reconciliations ++ [c] }
  have hstart : s.step (.startReconciliation i) = some s₁ := by
    dsimp only [step, startReconciliation]
    rw [hi]
    dsimp only
    rw [if_neg]
    rintro ⟨hn, hlt⟩
    obtain hr | hge := hdue
    · rw [hn] at hr
      cases hr
    · exact absurd hlt (not_lt.mpr hge)
  have hc : s₁.reconciliations[s.reconciliations.length]? = some c := List.getElem?_concat_length ..
  obtain ⟨live, w₁, hlive, h⟩ := atomically_bind_ok (fun live =>
    hP.bind (reconcileEach_framed s.clock waiting.claim _) fun _ =>
      hP.bind (stopClaim_framed waiting.claim waiting.robotId) fun _ => hP.pure _) h
  obtain ⟨hread, rfl⟩ : Runs.listActive (fun r => r.robotId = waiting.robotId) s.store = live ∧
      s.world = w₁ := by
    have hreads : ReadOnly (Runs.listActiveByRobot waiting.robotId) :=
      .bind .store fun _ => .pure _
    exact ⟨Except.ok.inj (congrArg Prod.fst hlive),
      (hreads.atomically s.world).symm.trans (congrArg Prod.snd hlive)⟩
  obtain ⟨ended, w₂, hrec, h⟩ := atomically_bind_ok (fun _ =>
    hP.bind (stopClaim_framed waiting.claim waiting.robotId) fun _ => hP.pure _) h
  obtain ⟨_, w₃, hstop, h⟩ := atomically_bind_ok (fun _ => hP.pure _) h
  obtain rfl : w₃ = w := by
    have hpure : ReadOnly (pure ended : ServiceM (List UUID)) := .pure _
    exact (hpure.atomically w₃).symm.trans (congrArg Prod.snd h)
  rw [← hread] at hrec
  obtain ⟨acts, hacts⟩ := @reconcileEach_whole s₁ _ c _ _ _ hc rfl rfl rfl hrec
  refine ⟨.startReconciliation i :: acts ++ [.endReconciliation s.reconciliations.length], ?_⟩
  rw [StepSystem.exec_snoc, StepSystem.exec_cons, hstart, Option.bind_some, hacts, Option.bind_some]
  dsimp only [step, endReconciliation]
  rw [getElem?_judging hc]
  dsimp only [judging, perform]
  rw [if_pos ⟨rfl, rfl⟩]
  have hstop' : (stopClaim waiting.robotId waiting.claim).atomically w₂ = (.ok (), w₃) := hstop
  rw [hstop']
  simp [s₁, List.eraseIdx_append_of_length_le]

end Reconcile

end System

end Leitstand
