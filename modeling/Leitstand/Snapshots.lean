import Leitstand.SystemRuns

namespace Leitstand
open TxM

namespace System
open RunReconciliation
variable {s s' : System} {a : Action}

theorem issued_step (h : s.step a = some s') :
    s'.issued = s.issued ∨ ∃ i runId, a = .insert i runId ∧ s'.issued = runId :: s.issued := by
  cases a with
  | insert i runId =>
    obtain ⟨p, -, -, rfl⟩ := insertRun_eq_some.mp h
    exact .inr ⟨i, runId, rfl, rfl⟩
  | _ => exact .inl ((step_frame h).issued (by simp))

theorem issued_mono (h : s.step a = some s') : s.issued ⊆ s'.issued := by
  obtain he | ⟨i, runId, -, he⟩ := issued_step h
  · exact he ▸ List.Subset.refl _
  · exact he ▸ List.subset_cons_self _ _

/-- A run judged unclaimed is stored and not exempt, and a cancel of it has been sent. -/
theorem judge_some {now : Datetime} {claim : Claim} {runId : UUID} {tx tx' : Tx Store Event Command}
    {run : MissionRun} (hx : (judge now claim runId).exec tx = (.ok (some run), tx')) :
    ∃ r, tx.store.runs.find? runId = some r ∧ run = r.toRun ∧ exempt now claim r.toRun = false ∧
      tx'.sent = tx.sent ++ [.cancel r.runId r.robotId .graceful] := by
  rw [judge_eq] at hx
  split at hx
  · cases hx
  · rename_i r hr
    by_cases he : exempt now claim r.toRun = true
    · rw [if_pos he] at hx
      cases hx
    · rw [if_neg he] at hx
      cases hx
      exact ⟨r, hr, rfl, by simpa using he, rfl⟩

/-- The judgement of the next run of a reconciliation. -/
theorem judgeRun_some {i : Nat} (h : s.judgeRun i = some s') :
    ∃ c runId left run tx, s.reconciliations[i]? = some c ∧ c.left = runId :: left ∧
      (judge c.startedAt c.claim runId).exec { store := s.store } = (.ok run, tx) ∧
      s' = { s with
        world := { s.world with sent := s.world.sent ++ tx.sent }
        reconciliations := s.reconciliations.set i
          { c with left, judged := c.judged ++ run.toList } } := by
  unfold judgeRun at h
  cases hi : s.reconciliations[i]? with
  | none => simp [hi] at h
  | some c =>
    simp only [hi] at h
    cases hl : c.left with
    | nil => simp [hl] at h
    | cons runId left =>
      simp only [hl] at h
      have hst := judge_store c.startedAt c.claim runId { store := s.store }
      rcases hx : (judge c.startedAt c.claim runId).exec { store := s.store } with ⟨e | run, tx⟩
      · have hx' : (judge c.startedAt c.claim runId).exec { store := s.world.store } =
          (.error e, tx) := hx
        simp [atomically, hx'] at h
      · have hx' : (judge c.startedAt c.claim runId).exec { store := s.world.store } =
          (.ok run, tx) := hx
        rw [hx] at hst
        have hq : tx.queued = [] := hst.2
        have hw : tx.store = s.world.store := hst.1
        simp only [atomically, hx', hq, hw, List.append_nil, Option.some.injEq] at h
        exact ⟨c, runId, left, run, tx, rfl, hl, hx, h.symm⟩

/-- The run a reconciliation is to judge next, if it is stored and not exempt. -/
def NextJudged (s : System) (c : Reconciliation) (run : MissionRun) : Prop :=
  ∃ runId left r, c.left = runId :: left ∧ s.runs.find? runId = some r ∧ run = r.toRun ∧
    exempt c.startedAt c.claim r.toRun = false

theorem mem_judged_set {i : Nat} {c d c' : Reconciliation} (hi : s.reconciliations[i]? = some c)
    (hc : c' ∈ s.reconciliations.set i d) (hd : d.toReconnection = c.toReconnection)
    {run : MissionRun} (hrun : run ∈ c'.judged) (hkeep : run ∈ d.judged → run ∈ c.judged) :
    ∃ c ∈ s.reconciliations, c.toReconnection = c'.toReconnection ∧ run ∈ c.judged := by
  obtain hc | rfl := List.mem_or_eq_of_mem_set hc
  · exact ⟨c', hc, rfl, hrun⟩
  · exact ⟨c, List.mem_of_getElem? hi, hd.symm, hkeep hrun⟩

/-- A run held judged was held before the step, or the step judged it. -/
theorem judged_step (h : s.step a = some s') {c' : Reconciliation} (hc : c' ∈ s'.reconciliations)
    {run : MissionRun} (hrun : run ∈ c'.judged) :
    (∃ c ∈ s.reconciliations, c.toReconnection = c'.toReconnection ∧ run ∈ c.judged) ∨
      ∃ i c, a = .judgeRun i ∧ s.reconciliations[i]? = some c ∧
        c.toReconnection = c'.toReconnection ∧ s.NextJudged c run := by
  cases a with
  | startReconciliation i =>
    dsimp only [step, startReconciliation] at h
    split at h
    · cases h
    · split_ifs at h
      cases h
      obtain hc | hc := List.mem_append.mp hc
      · exact .inl ⟨c', hc, rfl, hrun⟩
      · obtain rfl := List.mem_singleton.mp hc
        cases hrun
  | judgeRun i =>
    obtain ⟨c, runId, left, judged, tx, hi, hleft, hx, rfl⟩ := judgeRun_some h
    obtain hc | rfl := List.mem_or_eq_of_mem_set hc
    · exact .inl ⟨c', hc, rfl, hrun⟩
    · obtain hrun | hrun := List.mem_append.mp hrun
      · exact .inl ⟨c, List.mem_of_getElem? hi, rfl, hrun⟩
      · obtain rfl := Option.mem_toList.mp hrun
        obtain ⟨r, hr, he, hexempt, -⟩ := judge_some hx
        exact .inr ⟨i, c, rfl, hi, rfl, runId, left, r, hleft, hr, he, hexempt⟩
  | closeJudged i =>
    obtain ⟨c, first, rest, hi, hj, rfl⟩ := closeJudged_eq_some.mp h
    refine .inl (mem_judged_set hi hc rfl hrun fun hm => ?_)
    exact hj ▸ List.mem_cons_of_mem first hm
  | dropJudged i =>
    dsimp only [step, dropJudged] at h
    cases hi : s.reconciliations[i]? with
    | none => simp [hi] at h
    | some c =>
      simp only [hi] at h
      cases h
      exact .inl (mem_judged_set hi hc rfl hrun List.mem_of_mem_tail)
  | endReconciliation i =>
    dsimp only [step, endReconciliation] at h
    split at h
    · cases h
    · split_ifs at h
      cases h
      exact .inl ⟨c', List.mem_of_mem_eraseIdx hc, rfl, hrun⟩
  | abandonReconciliation i =>
    cases h
    exact .inl ⟨c', List.mem_of_mem_eraseIdx hc, rfl, hrun⟩
  | _ => exact .inl ⟨c', (step_frame h).reconciliations rfl ▸ hc, rfl, hrun⟩

/-- A run with a drawn id is in the store after a step only where it was before, with what it was
started with. -/
theorem RunsStep.find?_old (h : RunsStep s a s') {k : UUID} (hk : k ∈ s.issued) {r' : StoredRun}
    (hr' : s'.runs.find? k = some r') : ∃ r, s.runs.find? k = some r ∧ r'.frozen = r.frozen := by
  cases h with
  | idle events runs bus quiet => exact ⟨r', runs ▸ hr', rfl⟩
  | responded r input found cause runs =>
    rw [runs, Table.find?_replace] at hr'
    split_ifs at hr' with he
    · have hid : k = r.runId := he.trans (r.runId_respond input)
      rw [hid, found] at hr'
      obtain rfl := Option.some.inj hr'
      exact ⟨r, hid ▸ found, r.frozen_respond input⟩
    · exact ⟨r', hr', rfl⟩
  | created p runId dispatch cause fresh absent free drawn runs =>
    rw [runs, Table.find?_insert] at hr'
    split_ifs at hr' with he
    · subst he
      exact absurd hk fresh
    · exact ⟨r', hr', rfl⟩
  | deleted r found cause ended runs =>
    rw [runs, Table.find?_erase] at hr'
    split_ifs at hr' with he
    exact ⟨r', hr', rfl⟩

theorem Snapshots.step (hs : Snapshots s) (h : s.step a = some s') : Snapshots s' where
  issued := by
    intro r' hr'
    have hf := Table.find?_of_mem hr'
    by_contra hn
    have hold : r'.runId ∉ s.issued := fun hk => hn (issued_mono h hk)
    cases step_runs hs h with
    | idle events runs bus quiet => exact hold (hs.issued r' (runs ▸ hr'))
    | responded r input found cause runs =>
      rw [runs, Table.find?_replace] at hf
      split_ifs at hf with he
      · have hid := he.trans (r.runId_respond input)
        exact hold (hid ▸ hs.issued r (Table.mem_of_find? found))
      · exact hold (hs.issued r' (Table.mem_of_find? hf))
    | created p runId dispatch cause fresh absent free drawn runs =>
      rw [runs, Table.find?_insert] at hf
      split_ifs at hf with he
      · rw [he] at hn
        exact hn drawn
      · exact hold (hs.issued r' (Table.mem_of_find? hf))
    | deleted r found cause ended runs =>
      rw [runs, Table.find?_erase] at hf
      split_ifs at hf with he
      exact hold (hs.issued r' (Table.mem_of_find? hf))
  recorded := by
    intro frame hframe
    cases step_runs hs h with
    | responded r input found cause runs bus recorded =>
      rw [recorded] at hframe
      obtain hframe | hframe := List.mem_append.mp hframe
      · exact issued_mono h (hs.recorded frame hframe)
      · cases input with
        | reported now state =>
          obtain rfl := List.mem_singleton.mp hframe
          have hid : state.runId = r.runId := cause.2
          exact issued_mono h (hid ▸ hs.issued r (Table.mem_of_find? found))
        | _ => cases hframe
    | idle events runs bus quiet recorded =>
      exact issued_mono h (hs.recorded frame (recorded ▸ hframe))
    | created p runId dispatch cause fresh absent free drawn runs bus recorded =>
      exact issued_mono h (hs.recorded frame (recorded ▸ hframe))
    | deleted r found cause ended runs bus recorded =>
      exact issued_mono h (hs.recorded frame (recorded ▸ hframe))
  judged := by
    intro c' hc' run hrun
    have hpre : run.runId ∈ s.issued ∧ ∀ r, s.runs.find? run.runId = some r →
        r.run.stages = run.stages ∧ r.missionId = run.missionId ∧ r.robotId = run.robotId := by
      obtain ⟨c, hc, -, hrun⟩ | ⟨i, c, -, -, -, runId, left, r, -, hr, rfl, -⟩ :=
        judged_step h hc' hrun
      · exact hs.judged c hc run hrun
      · obtain rfl : r.runId = runId := Table.key_of_find? hr
        refine ⟨hs.issued r (Table.mem_of_find? hr), fun r' hr' => ?_⟩
        obtain rfl := Option.some.inj (hr.symm.trans hr')
        exact ⟨rfl, rfl, rfl⟩
    refine ⟨issued_mono h hpre.1, fun r' hr' => ?_⟩
    obtain ⟨r, hr, hf⟩ := (step_runs hs h).find?_old hpre.1 hr'
    obtain ⟨hst, hm, hb⟩ := hpre.2 r hr
    exact ⟨(congrArg FrozenRun.stages hf).trans hst, (congrArg FrozenRun.missionId hf).trans hm,
      (congrArg FrozenRun.robotId hf).trans hb⟩

theorem Reachable.snapshots (h : Reachable s) : Snapshots s := by
  refine h.invariant ?_ fun s a s' hs hstep => hs.step hstep
  intro s hi
  constructor
  · simp [hi.runs, Table.empty]
  · simp [hi.recorded]
  · simp [hi.reconciliations]

theorem Reachable.runsStep (h : Reachable s) (hs : s.step a = some s') : RunsStep s a s' :=
  step_runs h.snapshots hs

/-- The run the insert of a dispatch starts. -/
theorem insert_fresh {i : Nat} {runId : UUID} {r : StoredRun} (h : s.Reachable)
    (hs : s.step (.insert i runId) = some s') (hr : s'.runs.find? runId = some r) :
    ∃ p, r = freshRun s.digests runId p := by
  obtain ⟨p, -, hfresh, -⟩ := insertRun_eq_some.mp hs
  have habsent : s.runs.find? runId = none := by
    rw [Option.eq_none_iff_forall_ne_some]
    intro q hq
    have hmem := h.snapshots.issued q (Table.mem_of_find? hq)
    exact hfresh (Table.key_of_find? hq ▸ hmem)
  cases h.runsStep hs with
  | idle events runs =>
    rw [runs, habsent] at hr
    cases hr
  | created p k dispatch cause fresh absent free drawn runs =>
    obtain ⟨_, he⟩ := cause
    cases he
    have hkey : runId = (freshRun s.digests runId p).runId := rfl
    rw [runs, Table.find?_insert, if_pos hkey] at hr
    exact ⟨p, (Option.some.inj hr).symm⟩
  | deleted q found cause => cases cause
  | responded q input found cause => exact cause.input.elim

end System
end Leitstand
