import Leitstand.ActiveRuns

namespace Leitstand
open TxM RunService

/-- The mission is there and has not been archived. -/
def Open (store : Store) (missionId : UUID) : Prop :=
  ∃ mission, store.missions.find? missionId = some mission ∧ mission.archivedAt = none

/-- The run's dispatch was allowed beside the mission's other runs. -/
def Concurrent (store : Store) (r : StoredRun) : Prop :=
  .dispatch r.missionId r.runId r.robotId true ∈ store.audit

/-- What a dispatch has found by the time it comes to its insert. -/
structure FoundBy (digests : Digests) (factsheets : Factsheets) (now : Datetime)
    (command : StartRunCommand) (store : Store) (p : Prepared) : Prop where
  asked : p.command = command
  instant : p.now = now
  mission : store.missions.find? command.missionId = some p.mission
  unarchived : p.mission.archivedAt = none
  serial : command.allowConcurrent = false → ∀ r ∈ store.runs.rows,
    r.missionId = command.missionId → isActive r.status = false
  fits : ∃ factsheet, factsheets.find? p.robotId = some factsheet ∧
    validateAgainstFactsheet p.mission.stages.stages p.robotId factsheet = .ok () ∧
    validatePlanFitsRobot p.robotId p.mission.stages.stages factsheet = .ok ()
  anchors : freezeSiteAnchors store.sites p.mission.stages.stages = .ok p.siteAnchors

theorem prepareRead_ok {digests : Digests} {factsheets : Factsheets} {now : Datetime}
    {command : StartRunCommand} {p : Prepared} {tx tx' : Tx Store Event Command}
    (hx : (prepareRead digests factsheets now command).exec tx = (.ok p, tx')) :
    FoundBy digests factsheets now command tx.store p := by
  unfold prepareRead at hx
  simp only [Missions.getForUpdate, exec_bind, exec_store, exec_pure] at hx
  cases hm : tx.store.missions.find? command.missionId with
  | none => simp [hm] at hx
  | some mission =>
    simp only [hm, exec_bind_ok, exec_check, Prod.mk.injEq, raiseIf_eq_ok] at hx
    obtain ⟨_, _, ⟨harch, rfl⟩, hx⟩ := hx
    cases hb : (command.robotId.filter (· ≠ "")).or mission.assignedRobotId with
    | none =>
      simp only [hb, exec_throw, Prod.mk.injEq] at hx
      cases hx.1
    | some robotId =>
      simp only [hb, Runs.listActiveByRobot, Runs.listActiveByMission, exec_bind_ok, exec_store,
        exec_pure, exec_check, exec_offline, Prod.mk.injEq, Except.ok.injEq, raiseIf_eq_ok] at hx
      obtain ⟨_, _, ⟨_, _, ⟨rfl, rfl⟩, rfl, rfl⟩, _, _, ⟨-, rfl⟩, _, _, ⟨_, _, ⟨rfl, rfl⟩, rfl, rfl⟩,
        _, _, ⟨hactive, rfl⟩, _, _, ⟨rfl, rfl⟩, _, _, ⟨-, rfl⟩, hx⟩ := hx
      cases hf : factsheets.find? robotId with
      | none =>
        simp only [hf, exec_throw, Prod.mk.injEq] at hx
        cases hx.1
      | some factsheet =>
        simp only [hf, exec_bind_ok, exec_store, exec_pure, exec_check, Prod.mk.injEq,
          Except.ok.injEq] at hx
        obtain ⟨_, _, ⟨hkinds, rfl⟩, _, _, ⟨hmachine, rfl⟩, _, _, ⟨rfl, rfl⟩, _, _, ⟨-, rfl⟩, _, _,
          ⟨hanchors, rfl⟩, rfl, rfl⟩ := hx
        refine ⟨rfl, rfl, hm, by simpa using harch, fun hc r hr hmi => ?_,
          ⟨factsheet, hf, hkinds, hmachine⟩, hanchors⟩
        by_contra ha
        have hmem : r.run.toMissionRunSummary ∈
            Runs.listActive (fun r => r.missionId = command.missionId) tx.store := by
          rw [Runs.listActive, List.mem_insertionSort]
          exact List.mem_map.mpr ⟨r, List.mem_filter.mpr ⟨hr, by simp [hmi, ha]⟩, rfl⟩
        exact hactive ⟨List.ne_nil_of_mem hmem, hc⟩

theorem Concurrent.congr {r r' : StoredRun} {store store' : Store} (h : Concurrent store r)
    (hf : r'.frozen = r.frozen) (ha : store.audit <+: store'.audit) : Concurrent store' r' := by
  have hm : r'.missionId = r.missionId := congrArg FrozenRun.missionId hf
  have hid : r'.runId = r.runId := congrArg FrozenRun.runId hf
  have hb : r'.robotId = r.robotId := congrArg FrozenRun.robotId hf
  unfold Concurrent at h ⊢
  rw [hm, hid, hb]
  exact ha.subset h

/-- The rows left of a table whose rows kept what they were started with and became active nowhere. -/
def Shrinks (rows rows' : List StoredRun) : Prop :=
  ∃ f : StoredRun → StoredRun, rows'.Sublist (rows.map f) ∧ ∀ r ∈ rows,
    (f r).frozen = r.frozen ∧ (isActive (f r).status = true → isActive r.status = true)

theorem Shrinks.refl (rows : List StoredRun) : Shrinks rows rows :=
  ⟨id, by simp, fun _ _ => ⟨rfl, id⟩⟩

theorem Shrinks.mem {rows rows' : List StoredRun} (h : Shrinks rows rows') {r' : StoredRun}
    (hr : r' ∈ rows') : ∃ r ∈ rows, r'.frozen = r.frozen ∧
      (isActive r'.status = true → isActive r.status = true) := by
  obtain ⟨f, hsub, hf⟩ := h
  obtain ⟨r, hmem, rfl⟩ := List.mem_map.mp (hsub.subset hr)
  exact ⟨r, hmem, hf r hmem⟩

namespace System
variable {s s' : System} {a : Action}

/-- Only the insert of a dispatch adds a run. -/
theorem RunsStep.shrinks (h : RunsStep s a s') (ha : ∀ i runId, a ≠ .insert i runId) :
    Shrinks s.runs.rows s'.runs.rows := by
  cases h with
  | idle events runs => exact runs ▸ .refl _
  | responded r input found cause runs =>
    rw [runs]
    refine ⟨_, List.Sublist.refl _, fun q hq => ?_⟩
    split_ifs with hk
    · have hq := Table.find?_of_mem hq
      rw [hk, r.runId_respond input, found] at hq
      obtain rfl := Option.some.inj hq
      exact ⟨r.frozen_respond input, StoredRun.isActive_respond⟩
    · exact ⟨rfl, id⟩
  | created p runId dispatch cause =>
    obtain ⟨i, rfl⟩ := cause
    exact absurd rfl (ha i runId)
  | deleted r found cause ended runs =>
    rw [runs]
    exact ⟨id, by simp [Table.erase], fun _ _ => ⟨rfl, id⟩⟩

/-- What the missions' locks keep: who holds them, and what a holder has read stays so. -/
structure Serialised (s : System) : Prop where
  locks : (s.dispatches.map (·.command.missionId) ++ s.deletions.map (·.1)).Nodup
  dispatching : ∀ p ∈ s.dispatches, p.mission.missionId = p.command.missionId ∧
    Open s.store p.command.missionId ∧ p.now ≤ s.clock
  latest : ∀ p ∈ s.dispatches, ∀ r ∈ s.runs.rows, r.missionId = p.command.missionId →
    r.run.createdAt ≤ p.now ∧ (p.command.allowConcurrent = false → isActive r.status = false)
  deleting : ∀ d ∈ s.deletions, (s.store.missions.find? d.1).isSome ∧
    ∀ r ∈ s.runs.rows, r.missionId = d.1 → isActive r.status = false ∧ d.2 ≠ some false
  stored : ∀ r ∈ s.runs.rows, (s.store.missions.find? r.missionId).isSome ∧
    r.run.createdAt ≤ s.clock ∧ (isActive r.status = true → Open s.store r.missionId)
  ordered : s.runs.rows.Pairwise fun r q => r.missionId = q.missionId →
    r.run.createdAt ≤ q.run.createdAt ∧
      (isActive r.status = true → isActive q.status = true → Concurrent s.store q)

/-- A step that takes no lock anew, starts no run and closes no mission still needed. -/
theorem Serialised.shrink (h : Serialised s) (hclock : s.clock ≤ s'.clock)
    (haudit : s.store.audit <+: s'.store.audit) (hruns : Shrinks s.runs.rows s'.runs.rows)
    (hp : s'.dispatches.Sublist s.dispatches) (hd : s'.deletions.Sublist s.deletions)
    (hopen : ∀ missionId, Open s.store missionId →
      (∃ p ∈ s'.dispatches, p.command.missionId = missionId) ∨
        (∃ r ∈ s'.runs.rows, r.missionId = missionId ∧ isActive r.status = true) →
      Open s'.store missionId)
    (hsome : ∀ missionId, (s.store.missions.find? missionId).isSome →
      (∃ d ∈ s'.deletions, d.1 = missionId) ∨ (∃ r ∈ s'.runs.rows, r.missionId = missionId) →
      (s'.store.missions.find? missionId).isSome) : Serialised s' where
  locks := h.locks.sublist ((hp.map _).append (hd.map _))
  dispatching := by
    intro p hpm
    obtain ⟨hm, ho, hnow⟩ := h.dispatching p (hp.subset hpm)
    exact ⟨hm, hopen _ ho (.inl ⟨p, hpm, rfl⟩), hnow.trans hclock⟩
  latest := by
    intro p hpm r' hr' hmi
    obtain ⟨r, hr, hf, ha⟩ := hruns.mem hr'
    have hmf : r'.missionId = r.missionId := congrArg FrozenRun.missionId hf
    have hcf : r'.run.createdAt = r.run.createdAt := congrArg FrozenRun.createdAt hf
    obtain ⟨hc, hone⟩ := h.latest p (hp.subset hpm) r hr (hmf ▸ hmi)
    exact ⟨hcf ▸ hc, fun hno => Bool.eq_false_iff.mpr (mt ha (Bool.eq_false_iff.mp (hone hno)))⟩
  deleting := by
    intro d hdm
    obtain ⟨hs, hall⟩ := h.deleting d (hd.subset hdm)
    refine ⟨hsome _ hs (.inl ⟨d, hdm, rfl⟩), fun r' hr' hmi => ?_⟩
    obtain ⟨r, hr, hf, ha⟩ := hruns.mem hr'
    have hmf : r'.missionId = r.missionId := congrArg FrozenRun.missionId hf
    obtain ⟨hina, hnf⟩ := hall r hr (hmf ▸ hmi)
    exact ⟨Bool.eq_false_iff.mpr (mt ha (Bool.eq_false_iff.mp hina)), hnf⟩
  stored := by
    intro r' hr'
    obtain ⟨r, hr, hf, ha⟩ := hruns.mem hr'
    have hmf : r'.missionId = r.missionId := congrArg FrozenRun.missionId hf
    have hcf : r'.run.createdAt = r.run.createdAt := congrArg FrozenRun.createdAt hf
    obtain ⟨hs, hc, ho⟩ := h.stored r hr
    rw [← hmf] at hs ho
    exact ⟨hsome _ hs (.inr ⟨r', hr', rfl⟩), hcf ▸ hc.trans hclock,
      fun hact => hopen _ (ho (ha hact)) (.inr ⟨r', hr', rfl, hact⟩)⟩
  ordered := by
    obtain ⟨f, hsub, hf⟩ := hruns
    refine List.Pairwise.sublist hsub (List.pairwise_map.mpr ?_)
    refine h.ordered.imp_of_mem fun {r q} hr hq hrq hmi => ?_
    obtain ⟨hfr, har⟩ := hf r hr
    obtain ⟨hfq, haq⟩ := hf q hq
    have hmr : (f r).missionId = r.missionId := congrArg FrozenRun.missionId hfr
    have hmq : (f q).missionId = q.missionId := congrArg FrozenRun.missionId hfq
    have hcr : (f r).run.createdAt = r.run.createdAt := congrArg FrozenRun.createdAt hfr
    have hcq : (f q).run.createdAt = q.run.createdAt := congrArg FrozenRun.createdAt hfq
    rw [hmr, hmq] at hmi
    obtain ⟨hc, hcon⟩ := hrq hmi
    rw [hcr, hcq]
    exact ⟨hc, fun hr hq => (hcon (har hr) (haq hq)).congr hfq haudit⟩

end System
end Leitstand
