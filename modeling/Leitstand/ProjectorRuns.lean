import Leitstand.StatusRefresh

namespace Leitstand

open StepSystem

namespace StatusProjector
variable {s s' t : StatusProjector} {a : ProjectorAction} {acts : List ProjectorAction}
  {robotId : RobotId} {i j q : Nat} {C : Bool → Prop}

theorem exclusive_step (hx : s.workers.Exclusive) (h : s.step a = some s') :
    s'.workers.Exclusive := by
  cases a with
  | backend b =>
    obtain ⟨sys, -, rfl⟩ := Option.map_eq_some_iff.mp h
    exact hx
  | publish k =>
    obtain ⟨e, -, rfl⟩ := Option.map_eq_some_iff.mp h
    exact hx
  | telemetry | factsheet | created =>
    obtain rfl := Option.some.inj h
    exact hx
  | bus b =>
    dsimp only [step] at h
    split_ifs at h
    obtain ⟨bus, -, rfl⟩ := Option.map_eq_some_iff.mp h
    exact hx
  | take k =>
    obtain ⟨_, _, _, event, _, -, -, -, -, -, rfl⟩ := take_eq_some h
    refine hx.setCall_waiting ?_
    cases affectedRobot event.topic event.payload <;> rfl
  | list robotIds =>
    obtain ⟨-, rfl⟩ := list_eq_some h
    exact hx.of_holds fun j key b hj => ⟨key, b, (Workers.call_append _).symm.trans hj⟩
  | next k =>
    obtain ⟨_, _, -, -, rfl⟩ := next_eq_some h
    refine Workers.Exclusive.setCall_waiting ?_ rfl
    exact hx.of_holds fun j key b hj => ⟨key, b, Workers.holds_setTask.mp hj⟩
  | acquire k =>
    obtain ⟨key, hcall, hfree, rfl⟩ := acquire_eq_some h
    exact Workers.Exclusive.acquire hfree hcall _
  | read k =>
    obtain ⟨key, reading, reading', hi, -, rfl⟩ := read_eq_some h
    exact hx.advance hi reading'
  | finish k =>
    obtain ⟨key, status, -, rfl⟩ := finish_eq_some h
    exact hx.setCall_waiting rfl
  | fail k =>
    obtain ⟨_, _, _, -, -, rfl⟩ := fail_eq_some h
    refine Workers.Exclusive.setCall_waiting ?_ rfl
    exact hx.of_holds fun j key b hj => ⟨key, b, Workers.holds_setTask.mp hj⟩

/-- What is so in every state that the projector comes to beside the backend. -/
structure Sound (s : StatusProjector) : Prop where
  sys : s.sys.Reachable
  wired : s.Wired
  exclusive : s.workers.Exclusive
  output : s.Output

theorem shown_of_unlatched (h : s.bus.latched.find? (robotTopic robotId "status") = none) :
    s.shown robotId = none := by
  unfold StatusProjector.shown
  rw [h]

theorem Initial.sound (h : Initial s) : s.Sound := by
  have hwired := h.wired
  obtain ⟨n, past, bus, -, -, hlatched, hs⟩ := h.started
  refine ⟨h.sys, hwired, ?_, ?_⟩
  · rw [hs]
    intro i j k k' a b hi hj
    refine absurd hi (Workers.not_holds_of_free rfl)
  · have hshown : ∀ robotId, s.shown robotId = none := by
      intro robotId
      apply shown_of_unlatched
      rw [hs]
      exact hlatched _
    refine ⟨fun robotId => ?_, fun robotId => ?_, fun robotId => ?_⟩
    · rw [hshown, hs]
      rfl
    · rw [hshown, hs]
      rfl
    · rw [hs]
      exact List.isChain_nil

theorem Sound.step (hs : s.Sound) (h : s.step a = some s') : s'.Sound where
  sys := by
    obtain ⟨b, -, hb, -⟩ | ⟨hsame, -⟩ := sys_step h
    · exact hs.sys.step hb
    · exact hsame ▸ hs.sys
  wired := hs.wired.step h
  exclusive := exclusive_step hs.exclusive h
  output := hs.output.step h

theorem Reachable.sound (h : s.Reachable) : s.Sound := by
  obtain ⟨s₀, acts, h₀, hx⟩ := h
  exact exec_invariant (fun _ _ _ hs ha => hs.step ha) h₀.sound hx

section Demo

/-- The projector beside a backend that knows of no robot yet. -/
def demoProjector : StatusProjector := start demo [] (EventBus.start 4)

theorem demoProjector_initial : Initial demoProjector where
  sys := ⟨demo, [], System.boot_initial _ _ _, rfl⟩
  started := ⟨4, [], EventBus.start 4, by decide, rfl, fun _ => rfl, rfl⟩

/-- The robot comes online, and the registry's event is published and delivered. -/
def demoArrival : List ProjectorAction := demoOnline.map .backend ++ [.publish 0, .bus .run]

/-- Task `i` makes a recompute. -/
def demoRecompute (i : Nat) : List ProjectorAction :=
  [.acquire i, .read i, .read i, .read i, .finish i]

theorem demoProjector_runs (P : StatusProjector → Bool) (acts : List ProjectorAction)
    (h : (exec step demoProjector acts).any P = true) : ∃ s, s.Reachable ∧ P s = true := by
  obtain ⟨s, hs, hp⟩ := (Option.any_eq_true _ _).mp h
  exact ⟨s, ⟨demoProjector, acts, demoProjector_initial, hs⟩, hp⟩

end Demo

/-- In every run each status published differs from the one before it, and the one latched is the
one published last. -/
theorem statuses_change (h : s.Reachable) (robotId : RobotId) :
    (s.statuses robotId).IsChain (· ≠ ·) ∧ s.shown robotId = (s.statuses robotId).getLast? :=
  ⟨h.sound.output.changes robotId, h.sound.output.newest robotId⟩

theorem statuses_change_arrival : ∃ s : StatusProjector, s.Reachable ∧
    s.statuses "r1" = [.idle] ∧ (s.statuses "r1").IsChain (· ≠ ·) ∧
      s.shown "r1" = (s.statuses "r1").getLast? := by
  obtain ⟨s, hs, hp⟩ := demoProjector_runs (fun s => s.statuses "r1" = [.idle])
    (demoArrival ++ .take 0 :: demoRecompute 0) (by decide +kernel)
  exact ⟨s, hs, of_decide_eq_true hp, statuses_change hs "r1"⟩

section Pending

/-- A queue of a drain still has an event to come that concerns the robot. -/
def Queued (s : StatusProjector) (robotId : RobotId) : Prop :=
  ∃ i p q v, s.workers.task i = some (.drain p q) ∧ s.bus.subscription q = some v ∧
    ∃ e ∈ v.backlog, affectedRobot e.topic e.payload = some robotId

/-- An event that concerns the robot is still on its way to the projector. -/
def Pending (s : StatusProjector) (robotId : RobotId) : Prop :=
  (∃ e ∈ s.outbox, e.concerns = some robotId) ∨ s.Queued robotId

/-- An event that concerns a robot reaches the drain that it is for. -/
theorem queued_publish (hw : s.Wired) {e : Event} (he : e.concerns = some robotId)
    (hworkers : s'.workers = s.workers) (hbus : s'.bus = e.onBus s.bus) : s'.Queued robotId := by
  cases e with
  | unlatch topic => cases he
  | publish topic payload latch =>
    have hdrain : ∃ i p q, s.workers.task i = some (.drain p q) ∧ topicMatches topic.text p = true := by
      cases topic with
      | registry =>
        obtain ⟨i, q, hi⟩ := hw.registry
        exact ⟨i, _, q, hi, by decide⟩
      | missionState missionId | missionLifecycle missionId =>
        obtain ⟨i, q, hi⟩ := hw.missions
        refine ⟨i, _, q, hi, ?_⟩
        simp [topicMatches, Topic.text, missionTopic, missionPrefix, String.toList_append]
    obtain ⟨i, p, q, hi, hmatch⟩ := hdrain
    obtain ⟨v, hv, hregistered⟩ := hw.drains i p q hi
    obtain ⟨v', hv', hmem⟩ :=
      EventBus.mem_backlog_publish hv (hregistered ▸ List.mem_singleton_self p) hmatch
    exact ⟨i, p, q, v', hworkers ▸ hi, hbus ▸ hv', _, hmem, he⟩

/-- With room in the projector's queues an event that is on its way stays so until it is taken. -/
theorem Pending.step (hw : s.Wired) (h : s.Pending robotId) (hs : s.step a = some s')
    (hroom : a = .bus .run → ∀ q, s.isOwn q = true → s.bus.hasRoom q = true) :
    s'.Pending robotId ∨ s'.Due (fun _ => True) robotId := by
  obtain ⟨e, he, hconcerns⟩ | ⟨i, p, q, v, hi, hv, e, he, hconcerns⟩ := h
  · by_cases hpublish : ∃ k, a = .publish k
    · obtain ⟨k, rfl⟩ := hpublish
      obtain ⟨e', hk, rfl⟩ := Option.map_eq_some_iff.mp hs
      obtain ⟨m, hm⟩ := List.mem_iff_getElem?.mp he
      by_cases hmk : m = k
      · subst hmk
        obtain rfl := Option.some.inj (hk.symm.trans hm)
        exact .inl (.inr (queued_publish hw hconcerns rfl rfl))
      · exact .inl (.inl ⟨e, List.mem_eraseIdx_iff_getElem?.mpr ⟨m, hmk, hm⟩, hconcerns⟩)
    · refine .inl (.inl ⟨e, ?_, hconcerns⟩)
      obtain ⟨b, -, -, hout⟩ | ⟨-, hout | hk⟩ := sys_step hs
      · exact hout ▸ List.mem_append_left _ he
      · exact hout ▸ he
      · exact absurd hk hpublish
  · by_cases htake : a = .take i
    · subst htake
      obtain ⟨p', q', inbox, event, bus, hi', -, hinbox, hevent, hbus, rfl⟩ := take_eq_some hs
      obtain rfl := (ProjectorTask.drain.inj (Option.some.inj (hi.symm.trans hi'))).2
      obtain ⟨v', hv', -, oldest, holdest, hbacklog⟩ := EventBus.backlog_read hv hbus
      have hsame : v.inbox = inbox :=
        Option.some.inj ((EventBus.subscription_eq_some.mp hv).1.symm.trans hinbox)
      rw [hsame, hevent] at holdest
      obtain rfl := Option.some.inj holdest
      rw [hbacklog] at he
      obtain rfl | he := List.mem_cons.mp he
      · refine .inr ⟨i, trivial, .inl ?_⟩
        refine (Workers.call_setCall _).trans ?_
        rw [if_pos ⟨rfl, Workers.lt_of_task hi⟩, hconcerns]
        rfl
      · exact .inl (.inr ⟨i, p, q, v', (Workers.task_setCall _).trans hi, hv', e, he, hconcerns⟩)
    · obtain ⟨v', hv', -, hbacklog⟩ := (bus_step hw hs hi).2 (fun j hj hij => htake (hij ▸ hj))
        (fun hrun => hroom hrun q (isOwn_iff.mpr ⟨i, p, hi⟩)) v hv
      exact .inl (.inr ⟨i, p, q, v', (drain_step hs).mpr hi, hv', e, hbacklog e he, hconcerns⟩)

end Pending

section Quiet

/-- A failure of task `i` costs the robot no recompute: the one that fails is of another robot, and no
sweep breaks off with it that has this robot ahead of it. -/
def spares (s : StatusProjector) (i : Nat) (robotId : RobotId) : Bool :=
  (s.workers.call i).all (fun c => c.key ≠ robotId) && match s.workers.task i with
    | some (.sweep left _) => robotId ∉ left
    | _ => true

theorem spares_iff (h : s.spares i robotId = true) : s.Spares i robotId := by
  obtain ⟨hcall, htask⟩ := Bool.and_eq_true_iff.mp h
  constructor
  · intro key reading hi
    unfold Workers.Holds at hi
    rw [hi] at hcall
    exact of_decide_eq_true hcall
  · intro left hleft
    rw [hleft] at htask
    exact of_decide_eq_true htask

/-- The step loses no event for want of room, and costs the robot no recompute by a failure, be it of
its own or of another robot's in a sweep that has yet to reach it; and where it reads the robot's
battery `C` holds of it. -/
def undisturbed (robotId : RobotId) (C : Bool → Bool) (s : StatusProjector) :
    ProjectorAction → Bool
  | .bus .run => s.workers.all fun w => w.task.queue?.all s.bus.hasRoom
  | .fail i => s.spares i robotId
  | .read i => match s.workers.call i with
    | some { key, held := some (.runs _ _) } => key ≠ robotId || C (s.charging robotId)
    | _ => true
  | _ => true

/-- Nothing that concerns the robot is left to do. -/
def quiet (s : StatusProjector) (robotId : RobotId) : Bool :=
  (s.outbox.all fun e => e.concerns ≠ some robotId) && s.workers.all fun w =>
    (w.call.all fun c => c.key ≠ robotId) && match w.task with
      | .drain _ queue => ((s.bus.subscription queue).elim [] (·.backlog)).all fun e =>
        affectedRobot e.topic e.payload ≠ some robotId
      | .sweep left failed => failed || robotId ∉ left

variable {D : Bool → Bool}

theorem hasRoom_of_undisturbed (h : s.undisturbed robotId D (.bus .run) = true)
    (hq : s.isOwn q = true) : s.bus.hasRoom q = true := by
  obtain ⟨w, hw, hqueue⟩ := List.any_eq_true.mp hq
  have hall := List.all_eq_true.mp h w hw
  rw [of_decide_eq_true hqueue] at hall
  exact hall

theorem reads_of_undisturbed {online hasActive : Bool}
    (h : s.undisturbed robotId D (.read i) = true)
    (hi : s.workers.Holds i robotId (.runs online hasActive)) : D (s.charging robotId) = true := by
  unfold undisturbed at h
  unfold Workers.Holds at hi
  dsimp only at h
  rw [hi] at h
  obtain hne | hD := Bool.or_eq_true_iff.mp h
  · exact absurd rfl (of_decide_eq_true hne)
  · exact hD

theorem not_pending_of_quiet (h : s.quiet robotId = true) : ¬ s.Pending robotId := by
  obtain ⟨hout, hall⟩ := Bool.and_eq_true_iff.mp h
  rintro (⟨e, he, hconcerns⟩ | ⟨i, p, q, v, hi, hv, e, he, hconcerns⟩)
  · exact of_decide_eq_true (List.all_eq_true.mp hout e he) hconcerns
  · obtain ⟨w, hw, htask⟩ := Option.map_eq_some_iff.mp hi
    have hdrain := (Bool.and_eq_true_iff.mp
      (List.all_eq_true.mp hall w (List.mem_of_getElem? hw))).2
    rw [htask] at hdrain
    dsimp only at hdrain
    rw [hv] at hdrain
    exact of_decide_eq_true (List.all_eq_true.mp hdrain e he) hconcerns

theorem call_key_of_quiet {c : LockedCall RobotId Reading} (h : s.quiet robotId = true)
    (hi : s.workers.call i = some c) : c.key ≠ robotId := by
  obtain ⟨w, hw, hcall⟩ := Option.bind_eq_some_iff.mp hi
  have hall := (Bool.and_eq_true_iff.mp (List.all_eq_true.mp (Bool.and_eq_true_iff.mp h).2 w
    (List.mem_of_getElem? hw))).1
  rw [hcall] at hall
  exact of_decide_eq_true hall

theorem right_of_quiet {J : Nat → Prop} (h : s.quiet robotId = true) (ht : s.Tended J robotId C) :
    s.Right robotId C := by
  obtain ⟨i, -, hcall | ⟨left, hleft, hmem⟩⟩ | ⟨-, ⟨i, -, reading, hi⟩ | hright⟩ := ht
  · exact absurd rfl (call_key_of_quiet h hcall)
  · obtain ⟨w, hw, htask⟩ := Option.map_eq_some_iff.mp hleft
    have hsweep := (Bool.and_eq_true_iff.mp (List.all_eq_true.mp (Bool.and_eq_true_iff.mp h).2 w
      (List.mem_of_getElem? hw))).2
    rw [htask] at hsweep
    exact absurd hmem (of_decide_eq_true hsweep)
  · exact absurd rfl (call_key_of_quiet h hi)
  · exact hright

end Quiet

section Follows
variable {D : Bool → Bool}

/-- A robot that is known has an event on its way, is still to be recomputed or is shown as it is. -/
def Covered (s : StatusProjector) (robotId : RobotId) (C : Bool → Prop) : Prop :=
  (s.sys.facts robotId).isSome = true →
    s.Pending robotId ∨ s.Tended (fun _ => True) robotId C

theorem Covered.step (hs : s.Sound) (h : s.Covered robotId fun b => D b = true)
    (ha : s.step a = some s') (hu : s.undisturbed robotId D a = true) :
    s'.Covered robotId fun b => D b = true := by
  intro hknown
  have hsame : s'.sys.facts robotId = s.sys.facts robotId →
      s'.Pending robotId ∨ s'.Tended (fun _ => True) robotId fun b => D b = true := by
    intro hfacts
    rw [hfacts] at hknown
    obtain hpending | htended := h hknown
    · refine (hpending.step hs.wired ha ?_).imp_right .inl
      rintro rfl q hq
      exact hasRoom_of_undisturbed hu hq
    · refine .inr (htended.step hs.output ha hknown hfacts ?_ ?_)
      · rintro i rfl -
        exact spares_iff hu
      · rintro i online hasActive rfl hi
        exact reads_of_undisturbed hu hi
  obtain ⟨b, rfl, hb, hout⟩ | ⟨hsys, -⟩ := sys_step ha
  · obtain ⟨events, hbus, hfacts | ⟨e, he, hconcerns⟩⟩ :=
      (System.tells_step hs.sys hb : System.Tells _ _ robotId)
    · exact hsame hfacts
    · refine .inl (.inl ⟨e, ?_, hconcerns⟩)
      rw [hout, hbus, List.drop_left]
      exact List.mem_append_right _ he
  · exact hsame (by rw [hsys])

/-- A sweep that lists a robot is due to recompute it. -/
theorem due_list {robotIds : List RobotId} (h : s.step (.list robotIds) = some s')
    (hknown : (s'.sys.facts robotId).isSome = true) : s'.Due (· = s.workers.length) robotId := by
  obtain ⟨hperm, rfl⟩ := list_eq_some h
  refine ⟨s.workers.length, rfl, .inr ⟨robotIds, ?_, ?_⟩⟩
  · unfold Workers.task
    dsimp only
    rw [List.getElem?_concat_length]
    rfl
  · rw [System.facts, Option.isSome_map] at hknown
    obtain ⟨row, hrow⟩ := Option.isSome_iff_exists.mp hknown
    exact hperm.mem_iff.mpr (List.mem_map.mpr ⟨row, Table.mem_of_find? hrow, Table.key_of_find? hrow⟩)

/-- Once a sweep has listed the robots, and as long as the projector's queues have room and no failure
costs the robot a recompute, be it of its own or of another robot's that breaks a sweep off ahead of
it: whenever nothing that concerns the robot is left to do, the status shown is the one that its row
and its runs make, with the battery as it was read. -/
theorem status_follows_facts {robotIds : List RobotId} (h : s.Reachable)
    (hlist : s.step (.list robotIds) = some s') (hrun : exec step s' acts = some t)
    (hu : Throughout step (fun _ u a => u.undisturbed robotId D a = true) [] s' acts)
    (hquiet : t.quiet robotId = true) {row : RobotRow}
    (hrow : t.sys.store.robots.find? robotId = some row) :
    ∃ charging, D charging = true ∧ t.shown robotId =
      some (deriveRobotStatus row.online (hasExecutingRun t.sys.store robotId) charging) := by
  have hcovered : t.Sound ∧ t.Covered robotId fun b => D b = true := by
    refine hu.exec_invariant (I := fun u => u.Sound ∧ u.Covered robotId fun b => D b = true) ?_
      ⟨h.sound.step hlist, fun hknown => ?_⟩ hrun
    · intro past u a u' hi hundisturbed ha
      exact ⟨hi.1.step ha, hi.2.step hi.1 ha hundisturbed⟩
    · obtain ⟨i, -, hdue⟩ := due_list hlist hknown
      exact .inr (.inl ⟨i, trivial, hdue⟩)
  have hfacts : t.sys.facts robotId = some (row.online, hasExecutingRun t.sys.store robotId) := by
    unfold System.facts
    rw [hrow, Option.map_some]
  obtain hpending | htended := hcovered.2 (by rw [hfacts]; rfl)
  · exact absurd hpending (not_pending_of_quiet hquiet)
  · obtain ⟨online, hasActive, charging, hf, hD, hshown⟩ := right_of_quiet hquiet htended
    obtain ⟨rfl, rfl⟩ := Prod.mk.inj (Option.some.inj (hfacts.symm.trans hf))
    exact ⟨charging, hD, hshown⟩

/-- A robot that comes online after the sweep is shown as soon as its event was dealt with. -/
theorem status_follows_facts_arrival : ∃ (t : StatusProjector) (row : RobotRow) (charging : Bool),
    t.sys.store.robots.find? "r1" = some row ∧ t.shown "r1" =
      some (deriveRobotStatus row.online (hasExecutingRun t.sys.store "r1") charging) := by
  have hall : (demoProjector.step (.list [])).any (fun s' =>
      (exec step s' (demoArrival ++ .take 0 :: demoRecompute 0)).any fun t =>
        t.quiet "r1" && (t.sys.store.robots.find? "r1").isSome &&
          decide (Throughout step (fun _ u a => u.undisturbed "r1" (fun _ => true) a = true) [] s'
            (demoArrival ++ .take 0 :: demoRecompute 0))) = true := by decide +kernel
  obtain ⟨s', hlist, h⟩ := (Option.any_eq_true _ _).mp hall
  obtain ⟨t, hrun, h⟩ := (Option.any_eq_true _ _).mp h
  obtain ⟨h, hu⟩ := Bool.and_eq_true_iff.mp h
  obtain ⟨hquiet, hrow⟩ := Bool.and_eq_true_iff.mp h
  obtain ⟨row, hrow⟩ := Option.isSome_iff_exists.mp hrow
  have hreach : demoProjector.Reachable := ⟨demoProjector, [], demoProjector_initial, rfl⟩
  obtain ⟨charging, -, hshown⟩ :=
    status_follows_facts hreach hlist hrun (of_decide_eq_true hu) hquiet hrow
  exact ⟨t, row, charging, hrow, hshown⟩

/-- A sweep goes on as it is until it fails. -/
theorem sweep_step {n : Nat} {left : List RobotId} {failed : Bool}
    (h : s.workers.task n = some (.sweep left failed)) (hs : s.step a = some s') :
    (∃ left', s'.workers.task n = some (.sweep left' failed)) ∨
      a = .fail n ∧ s'.workers.task n = some (.sweep left true) := by
  cases a with
  | backend b =>
    obtain ⟨sys, -, rfl⟩ := Option.map_eq_some_iff.mp hs
    exact .inl ⟨left, h⟩
  | publish k =>
    obtain ⟨e, -, rfl⟩ := Option.map_eq_some_iff.mp hs
    exact .inl ⟨left, h⟩
  | telemetry | factsheet | created =>
    obtain rfl := Option.some.inj hs
    exact .inl ⟨left, h⟩
  | bus b =>
    dsimp only [StatusProjector.step] at hs
    split_ifs at hs
    obtain ⟨bus, -, rfl⟩ := Option.map_eq_some_iff.mp hs
    exact .inl ⟨left, h⟩
  | take k =>
    obtain ⟨_, _, _, _, _, -, -, -, -, -, rfl⟩ := take_eq_some hs
    exact .inl ⟨left, (Workers.task_setCall _).trans h⟩
  | list robotIds =>
    obtain ⟨-, rfl⟩ := list_eq_some hs
    exact .inl ⟨left, Workers.task_append h _⟩
  | next k =>
    obtain ⟨key, rest, htask, -, rfl⟩ := next_eq_some hs
    dsimp only
    rw [Workers.task_setCall, Workers.task_setTask]
    split_ifs with hk
    · rw [hk.1, h] at htask
      obtain rfl := (ProjectorTask.sweep.inj (Option.some.inj htask)).2
      exact .inl ⟨rest, rfl⟩
    · exact .inl ⟨left, h⟩
  | acquire k =>
    obtain ⟨_, -, -, rfl⟩ := acquire_eq_some hs
    exact .inl ⟨left, (Workers.task_setCall _).trans h⟩
  | read k =>
    obtain ⟨_, _, _, -, -, rfl⟩ := read_eq_some hs
    exact .inl ⟨left, (Workers.task_setCall _).trans h⟩
  | finish k =>
    obtain ⟨_, _, -, rfl⟩ := finish_eq_some hs
    exact .inl ⟨left, (Workers.task_setCall _).trans h⟩
  | fail k =>
    obtain ⟨task, _, _, htask, -, rfl⟩ := fail_eq_some hs
    dsimp only
    rw [Workers.task_setCall, Workers.task_setTask]
    split_ifs with hk
    · obtain ⟨rfl, -⟩ := hk
      obtain rfl := Option.some.inj (h.symm.trans htask)
      exact .inr ⟨rfl, rfl⟩
    · exact .inl ⟨left, h⟩

/-- The sweep of task `n` failed, or it sees to the robot. -/
def Swept (s : StatusProjector) (n : Nat) (robotId : RobotId) (C : Bool → Prop) : Prop :=
  (∃ left, s.workers.task n = some (.sweep left true)) ∨
    (∃ left, s.workers.task n = some (.sweep left false)) ∧ s.Tended (· = n) robotId C

theorem Swept.step {n : Nat} (ho : s.Output) (h : s.Swept n robotId C) (hs : s.step a = some s')
    (hknown : (s.sys.facts robotId).isSome = true)
    (hfacts : s'.sys.facts robotId = s.sys.facts robotId)
    (hC : ∀ i online hasActive, a = .read i → s.workers.Holds i robotId (.runs online hasActive) →
      C (s.charging robotId)) : s'.Swept n robotId C := by
  obtain ⟨left, hleft⟩ | ⟨⟨left, hleft⟩, htended⟩ := h
  · obtain ⟨left', hleft'⟩ | ⟨-, hleft'⟩ := sweep_step hleft hs
    · exact .inl ⟨left', hleft'⟩
    · exact .inl ⟨left, hleft'⟩
  · by_cases hfail : a = .fail n
    · obtain ⟨left', hleft'⟩ | ⟨-, hleft'⟩ := sweep_step hleft hs
      · subst hfail
        obtain ⟨task, _, _, htask, -, rfl⟩ := fail_eq_some hs
        obtain rfl := Option.some.inj (hleft.symm.trans htask)
        rw [Workers.task_setCall, Workers.task_setTask,
          if_pos ⟨rfl, Workers.lt_of_task hleft⟩] at hleft'
        cases hleft'
      · exact .inl ⟨left, hleft'⟩
    · obtain ⟨left', hleft'⟩ | ⟨he, -⟩ := sweep_step hleft hs
      · refine .inr ⟨⟨left', hleft'⟩, htended.step ho hs hknown hfacts ?_ hC⟩
        rintro i rfl rfl
        exact absurd rfl hfail
      · exact absurd he hfail

/-- The sweep of task `i` has gone through all the robots that it listed. -/
def finished (s : StatusProjector) (i : Nat) : Bool :=
  match s.workers.task i, s.workers.call i with
  | some (.sweep [] false), none => true
  | _, _ => false

/-- The step leaves the robot's row and runs as they were, and where it reads the robot's battery `C`
holds of it. -/
def steady (robotId : RobotId) (C : Bool → Bool) (s : StatusProjector) (a : ProjectorAction) : Bool :=
  ((s.step a).all fun s' => s'.sys.facts robotId = s.sys.facts robotId) && match a with
    | .read _ => s.undisturbed robotId C a
    | _ => true

theorem right_of_finished {n : Nat} (h : s.finished n = true) (hs : s.Swept n robotId C) :
    s.Right robotId C := by
  unfold finished at h
  split at h
  · rename_i htask hcall
    obtain ⟨left, hleft⟩ | ⟨-, ⟨i, rfl, hdue | ⟨left, hleft, hmem⟩⟩ | ⟨-, ⟨i, rfl, b, hi⟩ | hright⟩⟩ := hs
    · cases htask.symm.trans hleft
    · cases hcall.symm.trans hdue
    · cases htask.symm.trans hleft
      exact absurd hmem List.not_mem_nil
    · cases hcall.symm.trans hi
    · exact hright
  · cases h

/-- Whatever events were lost before or get lost meanwhile, whatever recomputes fail and whatever a
recompute under way has read: where nothing about a robot changes from when a sweep lists it, the
status shown is right once the sweep has gone through. -/
theorem sweep_heals {robotIds : List RobotId} (h : s.Reachable)
    (hlist : s.step (.list robotIds) = some s') (hrun : exec step s' acts = some t)
    (hsteady : Throughout step (fun _ u a => u.steady robotId D a = true) [] s' acts)
    (hdone : t.finished s.workers.length = true) {row : RobotRow}
    (hrow : t.sys.store.robots.find? robotId = some row) :
    ∃ charging, D charging = true ∧ t.shown robotId =
      some (deriveRobotStatus row.online (hasExecutingRun t.sys.store robotId) charging) := by
  have hfacts : t.sys.facts robotId = some (row.online, hasExecutingRun t.sys.store robotId) := by
    unfold System.facts
    rw [hrow, Option.map_some]
  have hswept : t.Sound ∧ t.sys.facts robotId = s'.sys.facts robotId ∧
      ((s'.sys.facts robotId).isSome = true →
        t.Swept s.workers.length robotId fun b => D b = true) := by
    refine hsteady.exec_invariant (I := fun u => u.Sound ∧
      u.sys.facts robotId = s'.sys.facts robotId ∧ ((s'.sys.facts robotId).isSome = true →
        u.Swept s.workers.length robotId fun b => D b = true)) ?_
      ⟨h.sound.step hlist, rfl, fun hknown => ?_⟩ hrun
    · rintro past u a u' ⟨hsound, hsame, hswept⟩ hs ha
      obtain ⟨hstays, hreads⟩ := Bool.and_eq_true_iff.mp hs
      rw [ha] at hstays
      have hstays : u'.sys.facts robotId = u.sys.facts robotId := of_decide_eq_true hstays
      refine ⟨hsound.step ha, hstays.trans hsame, fun hknown => ?_⟩
      refine (hswept hknown).step hsound.output ha (hsame ▸ hknown) hstays ?_
      rintro i online hasActive rfl hi
      exact reads_of_undisturbed hreads hi
    · have hdue := due_list hlist hknown
      obtain ⟨-, rfl⟩ := list_eq_some hlist
      refine .inr ⟨⟨robotIds, ?_⟩, .inl hdue⟩
      unfold Workers.task
      dsimp only
      rw [List.getElem?_concat_length]
      rfl
  obtain ⟨-, hsame, hswept⟩ := hswept
  obtain ⟨online, hasActive, charging, hf, hD, hshown⟩ :=
    right_of_finished hdone (hswept (by rw [← hsame, hfacts]; rfl))
  obtain ⟨rfl, rfl⟩ := Prod.mk.inj (Option.some.inj (hfacts.symm.trans hf))
  exact ⟨charging, hD, hshown⟩

/-- The event of the robot's arrival is never taken, and a sweep shows the robot all the same. -/
theorem sweep_heals_arrival : ∃ (t : StatusProjector) (row : RobotRow) (charging : Bool),
    t.sys.store.robots.find? "r1" = some row ∧ t.shown "r1" =
      some (deriveRobotStatus row.online (hasExecutingRun t.sys.store "r1") charging) := by
  obtain ⟨s, hreach, h⟩ := demoProjector_runs (fun s => s.workers.length = 2 ∧
    (s.step (.list ["r1"])).any fun s' => (exec step s' (.next 2 :: demoRecompute 2)).any fun t =>
      t.finished 2 && (t.sys.store.robots.find? "r1").isSome &&
        decide (Throughout step (fun _ u a => u.steady "r1" (fun _ => true) a = true) [] s'
          (.next 2 :: demoRecompute 2))) demoArrival (by decide +kernel)
  obtain ⟨hlen, h⟩ := of_decide_eq_true h
  obtain ⟨s', hlist, h⟩ := (Option.any_eq_true _ _).mp h
  obtain ⟨t, hrun, h⟩ := (Option.any_eq_true _ _).mp h
  obtain ⟨h, hsteady⟩ := Bool.and_eq_true_iff.mp h
  obtain ⟨hdone, hrow⟩ := Bool.and_eq_true_iff.mp h
  obtain ⟨row, hrow⟩ := Option.isSome_iff_exists.mp hrow
  obtain ⟨charging, -, hshown⟩ :=
    sweep_heals hreach hlist hrun (of_decide_eq_true hsteady) (hlen.symm ▸ hdone) hrow
  exact ⟨t, row, charging, hrow, hshown⟩

end Follows

end StatusProjector
end Leitstand
