import Leitstand.QueueBacklog
import Leitstand.StatusProjector

namespace Leitstand

open StepSystem

namespace StatusProjector
variable {s s' : StatusProjector} {a : ProjectorAction} {robotId : RobotId} {i j q : Nat}
  {p : String}

theorem isOwn_iff : s.isOwn q = true ↔ ∃ i p, s.workers.task i = some (.drain p q) := by
  unfold isOwn Workers.task
  rw [List.any_eq_true]
  constructor
  · rintro ⟨w, hw, hqueue⟩
    obtain ⟨i, hi⟩ := List.mem_iff_getElem?.mp hw
    have hqueue := of_decide_eq_true hqueue
    cases htask : w.task with
    | sweep left failed =>
      rw [htask] at hqueue
      cases hqueue
    | drain p queue =>
      rw [htask] at hqueue
      obtain rfl : queue = q := Option.some.inj hqueue
      exact ⟨i, p, by rw [hi, Option.map_some, htask]⟩
  · rintro ⟨i, p, hi⟩
    obtain ⟨w, hw, htask⟩ := Option.map_eq_some_iff.mp hi
    refine ⟨w, List.mem_of_getElem? hw, decide_eq_true ?_⟩
    rw [htask]
    rfl

section Inversion

theorem take_eq_some (h : s.take i = some s') : ∃ p q inbox event bus,
    s.workers.task i = some (.drain p q) ∧ s.workers.call i = none ∧
    s.bus.queues[q]? = some inbox ∧ inbox.items.head? = some event ∧ s.bus.read q = some bus ∧
    s' = { s with
      bus
      workers := s.workers.setCall i
        ((affectedRobot event.topic event.payload).map fun key => { key }) } := by
  unfold take at h
  split at h
  · rename_i p q htask hcall
    obtain ⟨inbox, hinbox, h⟩ := Option.bind_eq_some_iff.mp h
    obtain ⟨event, hevent, h⟩ := Option.bind_eq_some_iff.mp h
    obtain ⟨bus, hbus, h⟩ := Option.bind_eq_some_iff.mp h
    exact ⟨p, q, inbox, event, bus, htask, hcall, hinbox, hevent, hbus, (Option.some.inj h).symm⟩
  · cases h

theorem next_eq_some (h : s.next i = some s') : ∃ key left,
    s.workers.task i = some (.sweep (key :: left) false) ∧ s.workers.call i = none ∧
    s' = { s with
      workers := (s.workers.setTask i (.sweep left false)).setCall i (some { key }) } := by
  unfold next at h
  split at h
  · rename_i key left htask hcall
    exact ⟨key, left, htask, hcall, (Option.some.inj h).symm⟩
  · cases h

theorem acquire_eq_some (h : s.acquire i = some s') : ∃ key,
    s.workers.call i = some { key } ∧ s.workers.free = true ∧
    s' = { s with workers := s.workers.setCall i (some { key, held := some .nothing }) } := by
  unfold acquire at h
  split at h
  · rename_i key hcall
    split_ifs at h with hfree
    exact ⟨key, hcall, hfree, (Option.some.inj h).symm⟩
  · cases h

theorem read_eq_some (h : s.read i = some s') : ∃ key reading reading',
    s.workers.Holds i key reading ∧ s.readNext key reading = some reading' ∧
    s' = { s with workers := s.workers.setCall i (some { key, held := some reading' }) } := by
  unfold read at h
  split at h
  · rename_i key reading hcall
    obtain ⟨reading', hnext, h⟩ := Option.map_eq_some_iff.mp h
    exact ⟨key, reading, reading', hcall, hnext, h.symm⟩
  · cases h

theorem finish_eq_some (h : s.finish i = some s') : ∃ key status,
    s.workers.Holds i key (.status status) ∧
    s' = { s.conclude key status with workers := s.workers.setCall i none } := by
  unfold finish at h
  split at h
  · rename_i key status hcall
    exact ⟨key, status, hcall, (Option.some.inj h).symm⟩
  · cases h

theorem fail_eq_some (h : s.fail i = some s') : ∃ task key reading,
    s.workers.task i = some task ∧ s.workers.Holds i key reading ∧
    s' = { s with workers := (s.workers.setTask i task.abort).setCall i none } := by
  unfold fail at h
  split at h
  · rename_i task key reading htask hcall
    exact ⟨task, key, reading, htask, hcall, (Option.some.inj h).symm⟩
  · cases h

theorem list_eq_some {robotIds : List RobotId} (h : s.step (.list robotIds) = some s') :
    robotIds.Perm (s.sys.store.robots.rows.map RobotRow.id) ∧
      s' = { s with workers := s.workers ++ [{ task := .sweep robotIds false }] } := by
  dsimp only [step] at h
  split_ifs at h with hperm
  exact ⟨hperm, (Option.some.inj h).symm⟩

end Inversion

/-- A drain stays what it is, and nothing else becomes one. -/
theorem drain_setTask {task : ProjectorTask} (h : s.workers.task i = some task)
    (hnone : task.queue? = none) {task' : ProjectorTask} (hnone' : task'.queue? = none) :
    (s.workers.setTask i task').task j = some (.drain p q) ↔
      s.workers.task j = some (.drain p q) := by
  rw [Workers.task_setTask]
  split_ifs with hij
  · obtain ⟨rfl, -⟩ := hij
    rw [h, Option.some.injEq, Option.some.injEq]
    constructor
    · rintro rfl
      cases hnone'
    · rintro rfl
      cases hnone
  · exact Iff.rfl

theorem drain_step (h : s.step a = some s') :
    s'.workers.task j = some (.drain p q) ↔ s.workers.task j = some (.drain p q) := by
  cases a with
  | backend b =>
    obtain ⟨sys, -, rfl⟩ := Option.map_eq_some_iff.mp h
    exact Iff.rfl
  | publish i =>
    obtain ⟨e, -, rfl⟩ := Option.map_eq_some_iff.mp h
    exact Iff.rfl
  | telemetry | factsheet | created =>
    obtain rfl := Option.some.inj h
    exact Iff.rfl
  | bus b =>
    dsimp only [step] at h
    split_ifs at h
    obtain ⟨bus, -, rfl⟩ := Option.map_eq_some_iff.mp h
    exact Iff.rfl
  | take i =>
    obtain ⟨-, -, -, -, -, -, -, -, -, -, rfl⟩ := take_eq_some h
    rw [Workers.task_setCall]
  | list robotIds =>
    obtain ⟨-, rfl⟩ := list_eq_some h
    unfold Workers.task
    rw [List.getElem?_append]
    split_ifs with hlt
    · exact Iff.rfl
    · rw [List.getElem?_eq_none (Nat.le_of_not_lt hlt)]
      cases hk : ([{ task := .sweep robotIds false }] : Workers ProjectorTask RobotId Reading)[j -
        s.workers.length]? with
      | none => exact Iff.rfl
      | some w =>
        obtain rfl := List.mem_singleton.mp (List.mem_of_getElem? hk)
        constructor <;> intro h <;> cases h
  | next i =>
    obtain ⟨key, left, htask, -, rfl⟩ := next_eq_some h
    rw [Workers.task_setCall]
    exact drain_setTask htask rfl rfl
  | acquire i =>
    obtain ⟨_, -, -, rfl⟩ := acquire_eq_some h
    rw [Workers.task_setCall]
  | read i =>
    obtain ⟨_, _, _, -, -, rfl⟩ := read_eq_some h
    rw [Workers.task_setCall]
  | finish i =>
    obtain ⟨_, _, -, rfl⟩ := finish_eq_some h
    rw [Workers.task_setCall]
  | fail i =>
    obtain ⟨task, -, -, htask, -, rfl⟩ := fail_eq_some h
    rw [Workers.task_setCall]
    cases task with
    | drain p' q' =>
      rw [Workers.task_setTask]
      split_ifs with hij
      · rw [← hij.1, htask]
        rfl
      · exact Iff.rfl
    | sweep left failed => exact drain_setTask htask rfl rfl

/-- Each drain has a queue of its own, which is registered under its prefix and no other. -/
structure Wired (s : StatusProjector) : Prop where
  maxsize : 0 < s.bus.queueMaxsize
  registry : ∃ i q, s.workers.task i = some (.drain registryTopic q)
  missions : ∃ i q, s.workers.task i = some (.drain missionPrefix q)
  drains : ∀ i p q, s.workers.task i = some (.drain p q) →
    ∃ v, s.bus.subscription q = some v ∧ v.registered = [p]
  distinct : ∀ i j p p' q, s.workers.task i = some (.drain p q) →
    s.workers.task j = some (.drain p' q) → i = j

theorem retains_conclude (key : RobotId) (status : Option RobotStatus) :
    s.bus.Retains (s.conclude key status).bus q := by
  unfold conclude
  split
  · exact .refl _ _
  · split_ifs
    · exact .refl _ _
    · exact EventBus.retains_publish _ _ _

theorem queueMaxsize_conclude (key : RobotId) (status : Option RobotStatus) :
    (s.conclude key status).bus.queueMaxsize = s.bus.queueMaxsize := by
  unfold conclude
  split
  · rfl
  · split_ifs <;> rfl

/-- A drain's queue stays as it is registered, and loses nothing but what the drain takes and what
finds no room. -/
theorem bus_step (hw : s.Wired) (h : s.step a = some s') (hq : s.workers.task i = some (.drain p q)) :
    s.bus.KeepsRegistered s'.bus q ∧ ((∀ j, a = .take j → j ≠ i) →
      (a = .bus .run → s.bus.hasRoom q = true) → s.bus.Retains s'.bus q) := by
  have hretains : s.bus.Retains s'.bus q → s.bus.KeepsRegistered s'.bus q ∧
      ((∀ j, a = .take j → j ≠ i) → (a = .bus .run → s.bus.hasRoom q = true) →
        s.bus.Retains s'.bus q) := fun hr => ⟨hr.keepsRegistered, fun _ _ => hr⟩
  cases a with
  | backend b =>
    obtain ⟨sys, -, rfl⟩ := Option.map_eq_some_iff.mp h
    exact hretains (.refl _ _)
  | publish k =>
    obtain ⟨e, -, rfl⟩ := Option.map_eq_some_iff.mp h
    cases e with
    | publish topic payload latch => exact hretains (EventBus.retains_publish _ _ _)
    | unlatch topic => exact hretains (EventBus.retains_unlatch _)
  | telemetry robotId sample =>
    obtain rfl := Option.some.inj h
    exact hretains ((EventBus.retains_publish _ _ _).trans (EventBus.retains_publish _ _ _))
  | factsheet | created =>
    obtain rfl := Option.some.inj h
    exact hretains (EventBus.retains_publish _ _ _)
  | bus b =>
    dsimp only [step] at h
    split_ifs at h with hallows
    obtain ⟨bus, hbus, rfl⟩ := Option.map_eq_some_iff.mp h
    have hown : s.isOwn q = true := isOwn_iff.mpr ⟨i, p, hq⟩
    have hunsubscribe : ∀ r, b ≠ .unsubscribe r q := by
      rintro r rfl
      simp [allows, hown] at hallows
    have hread : b ≠ .read q := by
      rintro rfl
      simp [allows, hown] at hallows
    refine ⟨EventBus.keepsRegistered_step hbus hunsubscribe, fun _ hroom => ?_⟩
    exact EventBus.retains_step hbus hread hunsubscribe fun hrun => ⟨hw.maxsize, hroom (hrun ▸ rfl)⟩
  | take k =>
    obtain ⟨p', q', inbox, event, bus, htask, -, -, -, hbus, rfl⟩ := take_eq_some h
    refine ⟨EventBus.keepsRegistered_step (a := .read q') hbus fun _ h => (by cases h), fun htake _ => ?_⟩
    refine EventBus.retains_step (a := .read q') hbus ?_ (fun _ h => by cases h) fun h => by cases h
    intro he
    obtain rfl : q' = q := BusAction.read.inj he
    exact htake k rfl (hw.distinct k i p' p q' htask hq)
  | list robotIds =>
    obtain ⟨-, rfl⟩ := list_eq_some h
    exact hretains (.refl _ _)
  | next k =>
    obtain ⟨_, _, -, -, rfl⟩ := next_eq_some h
    exact hretains (.refl _ _)
  | acquire k =>
    obtain ⟨_, -, -, rfl⟩ := acquire_eq_some h
    exact hretains (.refl _ _)
  | read k =>
    obtain ⟨_, _, _, -, -, rfl⟩ := read_eq_some h
    exact hretains (.refl _ _)
  | finish k =>
    obtain ⟨key, status, -, rfl⟩ := finish_eq_some h
    exact hretains (retains_conclude key status)
  | fail k =>
    obtain ⟨_, _, _, -, -, rfl⟩ := fail_eq_some h
    exact hretains (.refl _ _)

theorem queueMaxsize_step (h : s.step a = some s') : s'.bus.queueMaxsize = s.bus.queueMaxsize := by
  cases a with
  | backend b =>
    obtain ⟨sys, -, rfl⟩ := Option.map_eq_some_iff.mp h
    rfl
  | publish k =>
    obtain ⟨e, -, rfl⟩ := Option.map_eq_some_iff.mp h
    cases e <;> rfl
  | telemetry | factsheet | created =>
    obtain rfl := Option.some.inj h
    rfl
  | bus b =>
    dsimp only [step] at h
    split_ifs at h
    obtain ⟨bus, hbus, rfl⟩ := Option.map_eq_some_iff.mp h
    exact EventBus.step_queueMaxsize hbus
  | take k =>
    obtain ⟨-, q', -, -, bus, -, -, -, -, hbus, rfl⟩ := take_eq_some h
    exact EventBus.step_queueMaxsize (a := .read q') hbus
  | list robotIds =>
    obtain ⟨-, rfl⟩ := list_eq_some h
    rfl
  | next k =>
    obtain ⟨_, _, -, -, rfl⟩ := next_eq_some h
    rfl
  | acquire k =>
    obtain ⟨_, -, -, rfl⟩ := acquire_eq_some h
    rfl
  | read k =>
    obtain ⟨_, _, _, -, -, rfl⟩ := read_eq_some h
    rfl
  | finish k =>
    obtain ⟨key, status, -, rfl⟩ := finish_eq_some h
    exact queueMaxsize_conclude key status
  | fail k =>
    obtain ⟨_, _, _, -, -, rfl⟩ := fail_eq_some h
    rfl

theorem Wired.step (hw : s.Wired) (h : s.step a = some s') : s'.Wired where
  maxsize := by rw [queueMaxsize_step h]; exact hw.maxsize
  registry := by
    obtain ⟨i, q, hq⟩ := hw.registry
    exact ⟨i, q, (drain_step h).mpr hq⟩
  missions := by
    obtain ⟨i, q, hq⟩ := hw.missions
    exact ⟨i, q, (drain_step h).mpr hq⟩
  drains := by
    intro i p q hq
    have hq := (drain_step h).mp hq
    obtain ⟨v, hv, hregistered⟩ := hw.drains i p q hq
    obtain ⟨v', hv', hsame⟩ := (bus_step hw h hq).1 v hv
    exact ⟨v', hv', hsame.trans hregistered⟩
  distinct := by
    intro i j p p' q hi hj
    exact hw.distinct i j p p' q ((drain_step h).mp hi) ((drain_step h).mp hj)

end StatusProjector
end Leitstand
