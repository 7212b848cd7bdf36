import Leitstand.ClosedRuns

namespace Leitstand
open TxM RunService

/-- What the partial unique index `uq_run_robot_active` promises. -/
def OneActive (store : Store) : Prop :=
  ∀ r ∈ store.runs.rows, ∀ r' ∈ store.runs.rows, r.robotId = r'.robotId →
    isActive r.status = true → isActive r'.status = true → r = r'

/-- Every active run was active before, under the same id and on the same robot. -/
def KeepsActive (store store' : Store) : Prop :=
  ∀ r' ∈ store'.runs.rows, isActive r'.status = true →
    ∃ r ∈ store.runs.rows, r.frozen = r'.frozen ∧ isActive r.status = true

theorem OneActive.of_keeps {store store' : Store} (h : OneActive store)
    (hk : KeepsActive store store') : OneActive store' := by
  intro r' hr' q' hq' hb har haq
  obtain ⟨r, hr, hfr, har⟩ := hk r' hr' har
  obtain ⟨q, hq, hfq, haq⟩ := hk q' hq' haq
  have hbot : r.robotId = q.robotId := by
    have hbr : r.robotId = r'.robotId := congrArg FrozenRun.robotId hfr
    have hbq : q.robotId = q'.robotId := congrArg FrozenRun.robotId hfq
    rw [hbr, hbq, hb]
  obtain rfl := h r hr q hq hbot har haq
  have hid : r'.runId = q'.runId := congrArg FrozenRun.runId (hfr.symm.trans hfq)
  exact List.inj_on_of_nodup_map store'.runs.nodup hr' hq' hid

theorem StoredRun.isActive_respond {r : StoredRun} {input : RunInput}
    (h : isActive (r.respond input).row.status = true) : isActive r.status = true := by
  rw [isActive_eq_not_isTerminal, Bool.not_eq_true']
  by_contra ht
  rw [Bool.not_eq_false] at ht
  rw [(respond_terminal ht input).status, isActive_eq_not_isTerminal, ht] at h
  cases h

theorem keepsActive_replace {store : Store} {r q : StoredRun}
    (hr : store.runs.find? r.runId = some r) (hf : r.frozen = q.frozen)
    (ha : isActive q.status = true → isActive r.status = true) :
    KeepsActive store { store with runs := store.runs.replace q } := by
  intro r' hr' ha'
  obtain rfl | ⟨hr', -⟩ := Table.mem_replace hr'
  · exact ⟨r, Table.mem_of_find? hr, hf, ha ha'⟩
  · exact ⟨r', hr', rfl, ha'⟩

/-- Whatever its arguments, the compare-and-set makes no run active. -/
theorem updateStatus_keepsActive (tx : Tx Store Event Command) (now : Datetime) (runId : UUID)
    (u : StatusUpdate) :
    KeepsActive tx.store ((Runs.updateStatus now runId u).exec tx).2.store := by
  simp only [Runs.updateStatus, exec_bind, exec_find]
  cases hf : tx.store.runs.find? runId with
  | none => exact fun r hr ha => ⟨r, hr, rfl, ha⟩
  | some r =>
    dsimp only
    split_ifs with hs
    · have hr := Table.key_of_find? hf ▸ hf
      refine keepsActive_replace (q := r.withStatus now u) hr rfl fun _ => ?_
      simp [isActive_eq_not_isTerminal, hs.2]
    · exact fun r hr ha => ⟨r, hr, rfl, ha⟩

theorem robotIndex_none {store : Store} {robotId : RobotId}
    (h : Runs.robotIndex store robotId = none) {r : StoredRun} (hr : r ∈ store.runs.rows)
    (hb : r.robotId = robotId) : isActive r.status = false := by
  have hn := List.find?_eq_none.mp h r hr
  simpa [hb] using hn

theorem System.RunsStep.oneActive {s s' : System} {a : Action} (h : RunsStep s a s')
    (hs : OneActive s.store) : OneActive s'.store := by
  unfold OneActive
  change ∀ r ∈ s'.runs.rows, ∀ r' ∈ s'.runs.rows, _
  cases h with
  | idle events runs =>
    rw [runs]
    exact hs
  | responded r input found cause runs =>
    rw [runs]
    exact hs.of_keeps (keepsActive_replace found (r.frozen_respond input).symm
      StoredRun.isActive_respond)
  | created p runId dispatch cause fresh absent free drawn runs =>
    rw [runs]
    have hnew : ∀ r ∈ s.runs.rows, r.robotId = p.robotId → isActive r.status = true → False := by
      intro r hr hb ha
      rw [robotIndex_none free hr hb] at ha
      cases ha
    intro r hr q hq hb har haq
    obtain hr | rfl := Table.mem_insert.mp hr <;> obtain hq | rfl := Table.mem_insert.mp hq
    · exact hs r hr q hq hb har haq
    · exact (hnew r hr hb har).elim
    · exact (hnew q hq hb.symm haq).elim
    · rfl
  | deleted r found cause ended runs =>
    rw [runs]
    exact fun q hq q' hq' => hs q (Table.mem_erase.mp hq).1 q' (Table.mem_erase.mp hq').1

theorem System.Reachable.oneActive {s : System} (h : s.Reachable) : OneActive s.store := by
  refine (h.invariant (I := fun s => Snapshots s ∧ OneActive s.store) ?_ ?_).2
  · intro s hi
    refine ⟨Reachable.snapshots ⟨s, [], hi, rfl⟩, ?_⟩
    have hr : s.store.runs = .empty := hi.runs
    simp [OneActive, hr, Table.empty]
  · rintro s a s' ⟨hsnap, hone⟩ hstep
    exact ⟨hsnap.step hstep, (step_runs hsnap hstep).oneActive hone⟩

section Prepare
variable {digests : Digests} {factsheets : Factsheets} {now : Datetime} {runId : UUID}
  {command : StartRunCommand}

theorem offline_readOnly (robotId : RobotId) : ReadOnly (offline robotId) := by
  refine .bind (.bind .store fun _ => .pure _) fun robot => ?_
  cases robot <;> exact .pure _

theorem prepareRead_readOnly : ReadOnly (prepareRead digests factsheets now command) := by
  refine .bind (.bind .store fun _ => .pure _) fun mission => ?_
  cases mission with
  | none => exact .throw _
  | some mission =>
    refine .bind (.check _) fun _ => ?_
    cases (command.robotId.filter (· ≠ "")).or mission.assignedRobotId with
    | none => exact .throw _
    | some robotId =>
      refine .bind (.bind .store fun _ => .pure _) fun holders => .bind (.check _) fun _ => ?_
      refine .bind (.bind .store fun _ => .pure _) fun active => .bind (.check _) fun _ => ?_
      refine .bind (offline_readOnly robotId) fun _ => .bind (.check _) fun _ => ?_
      cases factsheets.find? robotId with
      | none => exact .throw _
      | some factsheet =>
        refine .bind (.check _) fun _ => .bind (.check _) fun _ => .bind .store fun tables => ?_
        exact .bind (.check _) fun _ => .bind (.check _) fun _ => .pure _

/-- The insert fails before it has written, published or sent anything. -/
theorem prepareInsert_error {p : Prepared} {e : ServiceError} {tx tx' : Tx Store Event Command}
    (hx : (prepareInsert digests runId p).exec tx = (.error e, tx')) : tx' = tx := by
  unfold prepareInsert at hx
  rw [exec_bind] at hx
  split at hx
  · simp [publishRunState, publish, audit, exec_setStore, exec_enqueue] at hx
  · rename_i e' tx₁ hc
    obtain ⟨-, rfl⟩ := Prod.mk.inj hx
    unfold Runs.create at hc
    simp only [exec_bind, exec_store] at hc
    split at hc
    · simp at hc
      exact hc.2.symm
    · split_ifs at hc
      · simp [Runs.listActiveByRobot] at hc
        exact hc.2.symm
      · simp at hc
        exact hc.2.symm
      · simp [exec_setStore] at hc

theorem prepare_error {e : ServiceError} {w w' : Backend}
    (h : (prepare digests factsheets now runId command).atomically w = (.error e, w')) :
    w' = w := by
  refine atomically_error (fun tx' hx => ?_) h
  unfold prepare at hx
  rw [exec_bind] at hx
  have hread := @prepareRead_readOnly digests factsheets now command { store := w.store }
  split at hx
  · rename_i p tx₁ hp
    have htx : tx₁ = { store := w.store } := by rwa [hp] at hread
    rw [prepareInsert_error hx, htx]
  · rename_i e' tx₁ hp
    have htx : tx₁ = { store := w.store } := by rwa [hp] at hread
    rw [← (Prod.mk.inj hx).2, htx]

end Prepare

namespace System
variable {s s' : System}

/-- A dispatch writes nothing before its insert, and nothing where the insert fails. -/
theorem insertRun_world {i : Nat} {runId : UUID} (h : s.insertRun i runId = some s') :
    s'.world = s.world ∨ ∃ p run, s.dispatches[i]? = some p ∧
      s.outcome (prepareInsert s.digests runId p) = .ok run := by
  obtain ⟨p, hp, -, rfl⟩ := insertRun_eq_some.mp h
  rcases hx : (prepareInsert s.digests runId p).exec { store := s.store } with ⟨e | run, tx⟩
  · left
    rw [perform_error hx, prepareInsert_error hx]
    simp
  · exact .inr ⟨p, run, hp, by rw [outcome_eq, hx]⟩

end System

/-- Each robot has at most one active run, no status change makes one, and a dispatch that is
refused leaves no trace. -/
structure RobotsExclusive (s : System) : Prop where
  one : ∀ r ∈ s.runs.rows, ∀ r' ∈ s.runs.rows, r.robotId = r'.robotId →
    isActive r.status = true → isActive r'.status = true → r = r'
  update : ∀ (tx : Tx Store Event Command) now runId u,
    let after := ((Runs.updateStatus now runId u).exec tx).2.store
    KeepsActive tx.store after ∧ (OneActive tx.store → OneActive after)
  refused : ∀ now runId command e w', (prepare s.digests s.factsheets now runId command).atomically
    s.world = (.error e, w') → w' = s.world
  read : ∀ command s', s.step (.dispatch command) = some s' → s'.world = s.world
  insert : ∀ i runId s', s.step (.insert i runId) = some s' → s'.world = s.world ∨
    ∃ p run, s.dispatches[i]? = some p ∧ s.outcome (prepareInsert s.digests runId p) = .ok run

theorem one_active_run_per_robot {s : System} (h : s.Reachable) : RobotsExclusive s where
  one := h.oneActive
  update := by
    intro tx now runId u
    have hk := updateStatus_keepsActive tx now runId u
    exact ⟨hk, fun hone => hone.of_keeps hk⟩
  refused := fun _ _ _ _ _ => prepare_error
  read := fun _ _ => System.startDispatch_world
  insert := fun _ _ _ => System.insertRun_world

theorem one_active_run_per_robot_dispatched : ∃ s : System, s.Reachable ∧
    (∃ r ∈ s.runs.rows, isActive r.status = true) ∧ RobotsExclusive s := by
  obtain ⟨s, hs, hp⟩ := demo_reaches (fun s => s.runs.rows.any fun r => isActive r.status)
    demoDispatch (by decide)
  obtain ⟨r, hr, ha⟩ := List.any_eq_true.mp hp
  exact ⟨s, hs, ⟨r, hr, ha⟩, one_active_run_per_robot hs⟩

end Leitstand
