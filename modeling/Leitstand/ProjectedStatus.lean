import Mathlib.Data.List.Chain
import Leitstand.ProjectorQueues

namespace Leitstand

open StepSystem

namespace StatusProjector
variable {s s' : StatusProjector} {a : ProjectorAction} {robotId : RobotId} {i j q : Nat}
  {p : String}

theorem Initial.wired (h : Initial s) : s.Wired := by
  obtain ⟨n, past, bus, hn, hpast, -, hs⟩ := h.started
  have hfresh := EventBus.fresh_of_exec hpast
  have hmax := EventBus.queueMaxsize_of_exec hpast
  have hfresh' : (bus.subscribe registryTopic).Fresh :=
    EventBus.fresh_step (a := .subscribe registryTopic) rfl hfresh
  have hlen : (bus.subscribe registryTopic).queues.length = bus.queues.length + 1 :=
    List.length_append
  have hregistry : (bus.subscribe registryTopic).subscription bus.queues.length = some _ :=
    EventBus.subscription_subscribe hfresh (hmax ▸ hn)
  have hmissions : ((bus.subscribe registryTopic).subscribe missionPrefix).subscription
      (bus.subscribe registryTopic).queues.length = some _ :=
    EventBus.subscription_subscribe hfresh' (show 0 < bus.queueMaxsize from hmax ▸ hn)
  obtain ⟨v, hv, hsame⟩ := EventBus.step_effect (a := .subscribe missionPrefix) hregistry rfl
  obtain rfl : v = _ := hsame
  have htask : ∀ i p q, s.workers.task i = some (.drain p q) →
      (i = 0 ∧ p = registryTopic ∧ q = bus.queues.length) ∨
      (i = 1 ∧ p = missionPrefix ∧ q = (bus.subscribe registryTopic).queues.length) := by
    intro i p q hq
    rw [hs] at hq
    obtain _ | _ | i := i
    · cases hq
      exact .inl ⟨rfl, rfl, rfl⟩
    · cases hq
      exact .inr ⟨rfl, rfl, rfl⟩
    · cases hq
  refine ⟨?_, ⟨0, bus.queues.length, ?_⟩, ⟨1, (bus.subscribe registryTopic).queues.length, ?_⟩, ?_, ?_⟩
  · rw [hs]
    exact hmax ▸ hn
  · rw [hs]
    rfl
  · rw [hs]
    rfl
  · intro i p q hq
    obtain ⟨-, rfl, rfl⟩ | ⟨-, rfl, rfl⟩ := htask i p q hq
    · rw [hs]
      exact ⟨_, hv, rfl⟩
    · rw [hs]
      exact ⟨_, hmissions, rfl⟩
  · intro i j p p' q hi hj
    obtain ⟨rfl, -, rfl⟩ | ⟨rfl, -, rfl⟩ := htask i p q hi <;>
      obtain ⟨rfl, -, hq⟩ | ⟨rfl, -, hq⟩ := htask j p' _ hj <;> first | rfl | omega

section Frame

theorem sys_conclude (key : RobotId) (status : Option RobotStatus) :
    (s.conclude key status).sys = s.sys := by
  unfold conclude
  split
  · rfl
  · split_ifs <;> rfl

theorem outbox_conclude (key : RobotId) (status : Option RobotStatus) :
    (s.conclude key status).outbox = s.outbox := by
  unfold conclude
  split
  · rfl
  · split_ifs <;> rfl

/-- The store is the backend's own, and an event leaves the outbox only to be published. -/
theorem sys_step (h : s.step a = some s') : (∃ b, a = .backend b ∧ s.sys.step b = some s'.sys ∧
      s'.outbox = s.outbox ++ s'.sys.world.bus.drop s.sys.world.bus.length) ∨
    s'.sys = s.sys ∧ (s'.outbox = s.outbox ∨ ∃ k, a = .publish k) := by
  cases a with
  | backend b =>
    obtain ⟨sys, hsys, rfl⟩ := Option.map_eq_some_iff.mp h
    exact .inl ⟨b, rfl, hsys, rfl⟩
  | publish k =>
    obtain ⟨e, -, rfl⟩ := Option.map_eq_some_iff.mp h
    exact .inr ⟨rfl, .inr ⟨k, rfl⟩⟩
  | telemetry | factsheet | created =>
    obtain rfl := Option.some.inj h
    exact .inr ⟨rfl, .inl rfl⟩
  | bus b =>
    dsimp only [step] at h
    split_ifs at h
    obtain ⟨bus, -, rfl⟩ := Option.map_eq_some_iff.mp h
    exact .inr ⟨rfl, .inl rfl⟩
  | take k =>
    obtain ⟨_, _, _, _, _, -, -, -, -, -, rfl⟩ := take_eq_some h
    exact .inr ⟨rfl, .inl rfl⟩
  | list robotIds =>
    obtain ⟨-, rfl⟩ := list_eq_some h
    exact .inr ⟨rfl, .inl rfl⟩
  | next k =>
    obtain ⟨_, _, -, -, rfl⟩ := next_eq_some h
    exact .inr ⟨rfl, .inl rfl⟩
  | acquire k =>
    obtain ⟨_, -, -, rfl⟩ := acquire_eq_some h
    exact .inr ⟨rfl, .inl rfl⟩
  | read k =>
    obtain ⟨_, _, _, -, -, rfl⟩ := read_eq_some h
    exact .inr ⟨rfl, .inl rfl⟩
  | finish k =>
    obtain ⟨key, status, -, rfl⟩ := finish_eq_some h
    exact .inr ⟨sys_conclude key status, .inl (outbox_conclude key status)⟩
  | fail k =>
    obtain ⟨_, _, _, -, -, rfl⟩ := fail_eq_some h
    exact .inr ⟨rfl, .inl rfl⟩

/-- What the projector has published, and what a new subscriber finds of it. -/
structure SameOutput (s s' : StatusProjector) : Prop where
  last : s'.last = s.last
  published : s'.published = s.published
  shown : ∀ robotId, s'.shown robotId = s.shown robotId

theorem SameOutput.of_bus (hlast : s'.last = s.last) (hpublished : s'.published = s.published)
    (hbus : ∀ robotId, s'.bus.latched.find? (robotTopic robotId "status") =
      s.bus.latched.find? (robotTopic robotId "status")) : SameOutput s s' := by
  refine ⟨hlast, hpublished, fun robotId => ?_⟩
  unfold StatusProjector.shown
  rw [hbus]

theorem latched_publish {bus : EventBus Message} {topic k : String} {message : Message}
    {latch : Bool} (h : k ≠ topic) :
    (bus.publish topic message latch).latched.find? k = bus.latched.find? k := by
  unfold EventBus.publish
  cases latch with
  | false => rfl
  | true =>
    dsimp only
    rw [if_pos rfl, Table.find?_upsert, if_neg h]

theorem latched_unlatch {bus : EventBus Message} {topicPrefix k : String}
    (h : topicMatches k topicPrefix = false) :
    (bus.unlatch topicPrefix).latched.find? k = bus.latched.find? k := by
  cases hfind : bus.latched.find? k with
  | none =>
    rw [Table.find?_eq_none_iff] at hfind ⊢
    exact fun row hrow => hfind row (List.mem_filter.mp hrow).1
  | some row =>
    obtain ⟨hrow, rfl⟩ := Table.find?_eq_some_iff.mp hfind
    refine Table.find?_eq_some_iff.mpr ⟨List.mem_filter.mpr ⟨hrow, ?_⟩, rfl⟩
    rw [Bool.not_eq_true']
    exact h

/-- Other subscribers have nothing latched. -/
theorem latched_allowed {b : BusAction Message} {bus : EventBus Message} (h : s.allows b = true)
    (hb : s.bus.step b = some bus) : bus.latched = s.bus.latched := by
  cases b with
  | subscribe | unsubscribe =>
    obtain rfl := Option.some.inj hb
    rfl
  | publish | unlatch => cases h
  | run =>
    obtain ⟨next, rest, -, rfl⟩ := EventBus.run_eq_some.mp hb
    rfl
  | read =>
    obtain ⟨q, taken, -, -, rfl⟩ := EventBus.read_eq_some.mp hb
    rfl

/-- Only the end of a recompute publishes a status. -/
theorem sameOutput_step (h : s.step a = some s') (hfinish : ∀ i, a ≠ .finish i) :
    SameOutput s s' := by
  cases a with
  | backend b =>
    obtain ⟨sys, -, rfl⟩ := Option.map_eq_some_iff.mp h
    exact .of_bus rfl rfl fun _ => rfl
  | publish k =>
    obtain ⟨e, -, rfl⟩ := Option.map_eq_some_iff.mp h
    refine .of_bus rfl rfl fun _ => ?_
    cases e with
    | publish topic payload latch => exact latched_publish (robotTopic_ne_text topic)
    | unlatch topic => exact latched_unlatch (robotTopic_not_matches topic)
  | telemetry robotId sample =>
    obtain rfl := Option.some.inj h
    refine .of_bus rfl rfl fun _ => ?_
    have hkind : sample.kind.toList ≠ [] ∧ sample.kind.toList.getLast? ≠ some 's' := by
      cases sample <;> simp [Telemetry.kind]
    change (s.bus.publish _ (.telemetry sample) true).latched.find? _ = _
    exact latched_publish (robotTopic_ne_status hkind.1 hkind.2)
  | factsheet factsheet =>
    obtain rfl := Option.some.inj h
    exact .of_bus rfl rfl fun _ => latched_publish (robotTopic_ne_status (by decide) (by decide))
  | created missionId =>
    obtain rfl := Option.some.inj h
    exact .of_bus rfl rfl fun _ => rfl
  | bus b =>
    dsimp only [step] at h
    split_ifs at h with hallows
    obtain ⟨bus, hbus, rfl⟩ := Option.map_eq_some_iff.mp h
    refine .of_bus rfl rfl fun _ => ?_
    rw [latched_allowed hallows hbus]
  | take k =>
    obtain ⟨_, q, _, _, bus, -, -, -, -, hbus, rfl⟩ := take_eq_some h
    obtain ⟨q, taken, -, -, rfl⟩ := EventBus.read_eq_some.mp hbus
    exact .of_bus rfl rfl fun _ => rfl
  | list robotIds =>
    obtain ⟨-, rfl⟩ := list_eq_some h
    exact .of_bus rfl rfl fun _ => rfl
  | next k =>
    obtain ⟨_, _, -, -, rfl⟩ := next_eq_some h
    exact .of_bus rfl rfl fun _ => rfl
  | acquire k =>
    obtain ⟨_, -, -, rfl⟩ := acquire_eq_some h
    exact .of_bus rfl rfl fun _ => rfl
  | read k =>
    obtain ⟨_, _, _, -, -, rfl⟩ := read_eq_some h
    exact .of_bus rfl rfl fun _ => rfl
  | finish k => exact absurd rfl (hfinish k)
  | fail k =>
    obtain ⟨_, _, _, -, -, rfl⟩ := fail_eq_some h
    exact .of_bus rfl rfl fun _ => rfl

end Frame

section Output

/-- The statuses of the robot that were handed to the bus, the oldest first. -/
def statuses (s : StatusProjector) (robotId : RobotId) : List RobotStatus :=
  (s.published.filter fun e => e.1 = robotId).map (·.2)

/-- The latched status is the last one published, and no status is published twice in a row. -/
structure Output (s : StatusProjector) : Prop where
  shown : ∀ robotId, s.shown robotId = (s.last.find? robotId).map (·.2)
  newest : ∀ robotId, s.shown robotId = (s.statuses robotId).getLast?
  changes : ∀ robotId, (s.statuses robotId).IsChain (· ≠ ·)

theorem Output.congr (h : s.Output) (hsame : SameOutput s s') : s'.Output := by
  have hstatuses : ∀ robotId, s'.statuses robotId = s.statuses robotId := by
    intro robotId
    unfold statuses
    rw [hsame.published]
  refine ⟨fun robotId => ?_, fun robotId => ?_, fun robotId => ?_⟩
  · rw [hsame.shown, hsame.last]
    exact h.shown robotId
  · rw [hsame.shown, hstatuses]
    exact h.newest robotId
  · rw [hstatuses]
    exact h.changes robotId

variable {key : RobotId} {status : RobotStatus}

theorem conclude_of_same (h : (s.last.find? key).map (·.2) = some status) :
    s.conclude key (some status) = s := if_pos h

theorem conclude_of_new (h : (s.last.find? key).map (·.2) ≠ some status) :
    s.conclude key (some status) = { s with
      last := s.last.upsert (key, status) fun _ => true
      bus := s.bus.publish (robotTopic key "status") (.status status) true
      published := s.published ++ [(key, status)] } := if_neg h

theorem shown_publish_status : ({ s with
    last := s.last.upsert (key, status) fun _ => true
    bus := s.bus.publish (robotTopic key "status") (.status status) true
    published := s.published ++ [(key, status)] } : StatusProjector).shown robotId =
      if robotId = key then some status else s.shown robotId := by
  have hlatched : (s.bus.publish (robotTopic key "status") (.status status) true).latched.find?
      (robotTopic robotId "status") = if robotId = key then some (robotTopic key "status", .status status)
        else s.bus.latched.find? (robotTopic robotId "status") := by
    by_cases hk : robotId = key
    · rw [if_pos hk, hk]
      unfold EventBus.publish
      dsimp only
      rw [if_pos rfl, Table.find?_upsert, if_pos rfl]
      cases s.bus.latched.find? (robotTopic key "status") <;> rfl
    · rw [if_neg hk]
      exact latched_publish fun he => hk (robotTopic_inj he)
  unfold shown
  dsimp only
  rw [hlatched]
  by_cases hk : robotId = key
  · rw [if_pos hk, if_pos hk]
  · rw [if_neg hk, if_neg hk]

/-- Whatever was shown before, the status a recompute ends with is shown after it. -/
theorem shown_conclude (h : s.Output) : (s.conclude key (some status)).shown robotId =
    if robotId = key then some status else s.shown robotId := by
  by_cases hsame : (s.last.find? key).map (·.2) = some status
  · rw [conclude_of_same hsame]
    split_ifs with hk
    · rw [hk, h.shown, hsame]
    · rfl
  · rw [conclude_of_new hsame, shown_publish_status]

theorem Output.conclude (h : s.Output) (key : RobotId) (status : Option RobotStatus) :
    (s.conclude key status).Output := by
  cases status with
  | none => exact h
  | some status =>
    by_cases hsame : (s.last.find? key).map (·.2) = some status
    · rw [conclude_of_same hsame]
      exact h
    · rw [conclude_of_new hsame]
      have hstatuses : ∀ robotId, ({ s with
          last := s.last.upsert (key, status) fun _ => true
          bus := s.bus.publish (robotTopic key "status") (.status status) true
          published := s.published ++ [(key, status)] } : StatusProjector).statuses robotId =
            s.statuses robotId ++ if key = robotId then [status] else [] := by
        intro robotId
        unfold statuses
        dsimp only
        rw [List.filter_append, List.map_append, List.filter_singleton]
        split_ifs with hk
        · rw [decide_eq_true hk]
          rfl
        · rw [decide_eq_false hk]
          rfl
      refine ⟨fun robotId => ?_, fun robotId => ?_, fun robotId => ?_⟩
      · rw [shown_publish_status, h.shown]
        dsimp only
        rw [Table.find?_upsert]
        by_cases hk : robotId = key
        · rw [if_pos hk, if_pos hk]
          cases s.last.find? robotId <;> rfl
        · rw [if_neg hk, if_neg hk]
      · rw [shown_publish_status, hstatuses, h.newest]
        by_cases hk : robotId = key
        · rw [if_pos hk, if_pos hk.symm, List.getLast?_concat]
        · rw [if_neg hk, if_neg fun he => hk he.symm, List.append_nil]
      · rw [hstatuses]
        split_ifs with hk
        · refine List.isChain_append.mpr ⟨h.changes robotId, List.isChain_singleton _, ?_⟩
          intro x hx y hy
          obtain rfl : status = y := Option.some.inj hy
          rintro rfl
          rw [← h.newest, h.shown, ← hk] at hx
          exact hsame hx
        · rw [List.append_nil]
          exact h.changes robotId

theorem Output.step (ho : s.Output) (h : s.step a = some s') : s'.Output := by
  by_cases hfinish : ∃ i, a = .finish i
  · obtain ⟨i, rfl⟩ := hfinish
    obtain ⟨key, status, -, rfl⟩ := finish_eq_some h
    exact (ho.conclude key status).congr (.of_bus rfl rfl fun _ => rfl)
  · exact ho.congr (sameOutput_step h fun i hi => hfinish ⟨i, hi⟩)

end Output

end StatusProjector
end Leitstand
