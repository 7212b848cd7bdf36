import Leitstand.BusRuns

namespace Leitstand

open StepSystem LossyQueue

section Subscribing
variable {P : Type} {k n : Nat} {s s' : EventBus P} {a : BusAction P} {topicPrefix topic : String}
  {past after : List (BusAction P)}

namespace EventBus

/-- Nothing is registered or waits for a queue that was not handed out. -/
def Fresh (s : EventBus P) : Prop :=
  ∀ k, s.queues.length ≤ k → registrations k s.consumers.rows = [] ∧ s.pendingOf k = []

theorem fresh_step (h : s.step a = some s') (hs : s.Fresh) : s'.Fresh := by
  cases a with
  | subscribe topicPrefix =>
    obtain rfl := Option.some.inj h
    intro k hk
    have hlt : s.queues.length < k := by
      change (s.queues ++ [_]).length ≤ k at hk
      rwa [List.length_append] at hk
    obtain ⟨hregistered, hpending⟩ := hs k (Nat.le_of_lt hlt)
    refine ⟨?_, hpending⟩
    exact (registrations_upsert fun _ => hregistered).trans
      ((if_neg (Nat.ne_of_lt hlt)).trans hregistered)
  | unsubscribe topicPrefix queue =>
    obtain rfl := Option.some.inj h
    intro k hk
    obtain ⟨hregistered, hpending⟩ := hs k hk
    refine ⟨registrations_replace.trans ?_, hpending⟩
    rw [hregistered]
    exact ite_self []
  | publish topic payload latch =>
    obtain rfl := Option.some.inj h
    intro k hk
    obtain ⟨hregistered, hpending⟩ := hs k hk
    refine ⟨hregistered, (List.filter_append ..).trans ?_⟩
    rw [pending_publish, hregistered]
    exact (List.append_nil _).trans hpending
  | unlatch topicPrefix =>
    obtain rfl := Option.some.inj h
    exact hs
  | run =>
    obtain ⟨next, rest, hscheduled, rfl⟩ := run_eq_some.mp h
    intro k hk
    have hlen : s.queues.length ≤ k := by
      change (s.queues.modify _ _).length ≤ k at hk
      rwa [List.length_modify] at hk
    obtain ⟨hregistered, hpending⟩ := hs k hlen
    unfold pendingOf at hpending
    rw [hscheduled] at hpending
    refine ⟨hregistered, List.filter_eq_nil_iff.mpr fun e he => ?_⟩
    exact List.filter_eq_nil_iff.mp hpending e (List.mem_cons_of_mem _ he)
  | read queue =>
    obtain ⟨q, taken, -, -, rfl⟩ := read_eq_some.mp h
    intro k hk
    apply hs
    rwa [List.length_set] at hk

theorem fresh_of_exec (h : exec step (start n : EventBus P) past = some s) : s.Fresh :=
  exec_invariant (fun _ _ _ hs ha => fresh_step ha hs) (fun _ _ => ⟨rfl, rfl⟩) h

theorem queueMaxsize_of_exec (h : exec step (start n : EventBus P) past = some s) :
    s.queueMaxsize = n :=
  exec_invariant (I := fun s => s.queueMaxsize = n)
    (fun _ _ _ hs ha => (step_queueMaxsize ha).trans hs) rfl h

/-- A new subscriber finds the latched values in its queue, as many as fit. -/
theorem subscription_subscribe (hs : s.Fresh) (hn : 0 < s.queueMaxsize) :
    (s.subscribe topicPrefix).subscription s.queues.length = some
      { inbox := { items := (s.snapshot topicPrefix).take s.queueMaxsize }
        registered := [topicPrefix]
        pending := [] } := by
  obtain ⟨hregistered, hpending⟩ := hs _ (Nat.le_refl _)
  refine subscription_eq_some.mpr ⟨?_, ?_, hpending⟩
  · refine List.getElem?_concat_length.trans ?_
    rw [putSnapshot_eq hn _ (Nat.zero_le _)]
    rfl
  · exact (registrations_upsert fun _ => hregistered).trans (if_pos rfl)

end EventBus

/-- The publishes that match a subscriber's prefix, until it unsubscribes. -/
def publishedTo (topicPrefix : String) (k : Nat) : List (BusAction P) → List (Enqueue P)
  | [] => []
  | .publish topic payload latch :: after =>
    if topicMatches topic topicPrefix then
      { queue := k, event := { topic, payload }, latch } :: publishedTo topicPrefix k after
    else publishedTo topicPrefix k after
  | .unsubscribe r queue :: after =>
    if queue = k ∧ r = topicPrefix then [] else publishedTo topicPrefix k after
  | .subscribe _ :: after => publishedTo topicPrefix k after
  | .unlatch _ :: after => publishedTo topicPrefix k after
  | .run :: after => publishedTo topicPrefix k after
  | .read _ :: after => publishedTo topicPrefix k after

theorem arrivals_nil (after : List (BusAction P)) : arrivals k [] after = [] := by
  induction after with
  | nil => rfl
  | cons a after ih =>
    cases a with
    | unsubscribe r queue =>
      unfold arrivals
      rw [List.filter_nil, ite_self]
      exact ih
    | subscribe | publish | unlatch | run | read => exact ih

theorem arrivals_singleton (after : List (BusAction P)) :
    arrivals k [topicPrefix] after = publishedTo topicPrefix k after := by
  induction after with
  | nil => rfl
  | cons a after ih =>
    cases a with
    | publish topic payload latch =>
      unfold arrivals publishedTo
      rw [ih, List.filter_singleton]
      cases topicMatches topic topicPrefix <;> rfl
    | unsubscribe r queue =>
      unfold arrivals publishedTo
      by_cases hq : queue = k
      · by_cases hr : topicPrefix = r
        · rw [if_pos hq, if_pos ⟨hq, hr.symm⟩, List.filter_singleton, decide_eq_false (not_not.mpr hr)]
          exact arrivals_nil after
        · rw [if_pos hq, if_neg fun he => hr he.2.symm, List.filter_singleton, decide_eq_true hr]
          exact ih
      · rw [if_neg hq, if_neg fun he => hq he.1]
        exact ih
    | subscribe | unlatch | run | read => exact ih

theorem incoming_subscribed (inbox : LossyQueue (BusEvent P)) (after : List (BusAction P)) :
    Subscription.incoming { inbox, registered := [topicPrefix], pending := [] } k after =
      publishedTo topicPrefix k after := arrivals_singleton after

/-- The values published on a topic. -/
def payloads (topic : String) (acts : List (BusAction P)) : List P :=
  acts.filterMap fun
    | .publish t payload _ => if t = topic then some payload else none
    | _ => none

def lastPublished (topic : String) (acts : List (BusAction P)) : Option P :=
  (payloads topic acts).getLast?

theorem payloads_append (acts acts' : List (BusAction P)) :
    payloads topic (acts ++ acts') = payloads topic acts ++ payloads topic acts' :=
  List.filterMap_append

theorem payloads_cons (a : BusAction P) (acts : List (BusAction P)) :
    payloads topic (a :: acts) = payloads topic [a] ++ payloads topic acts := payloads_append [a] acts

theorem payloads_publish (t : String) (payload : P) (latch : Bool) :
    payloads topic [.publish t payload latch] = if t = topic then [payload] else [] := by
  by_cases ht : t = topic <;> simp [payloads, ht]

theorem mem_of_publishedTo {e : Enqueue P} (h : e ∈ publishedTo topicPrefix k after) :
    .publish e.event.topic e.event.payload e.latch ∈ after := by
  induction after with
  | nil => cases h
  | cons a after ih =>
    cases a with
    | publish t payload latch =>
      unfold publishedTo at h
      split_ifs at h with hm
      · rcases List.mem_cons.mp h with rfl | hrest
        · exact List.mem_cons_self
        · exact List.mem_cons_of_mem _ (ih hrest)
      · exact List.mem_cons_of_mem _ (ih h)
    | unsubscribe r queue =>
      unfold publishedTo at h
      split_ifs at h with hk
      · cases h
      · exact List.mem_cons_of_mem _ (ih h)
    | subscribe | unlatch | run | read => exact List.mem_cons_of_mem _ (ih h)

theorem latch_of_publishedTo {e : Enqueue P} (he : e ∈ publishedTo topicPrefix k after)
    (honly : ∀ payload, .publish topic payload false ∉ after) (ht : e.event.topic = topic) :
    e.latch = true := by
  subst ht
  have hmem := mem_of_publishedTo he
  cases hl : e.latch with
  | true => rfl
  | false => exact absurd (hl ▸ hmem) (honly _)

/-- To a subscriber that stays, every value of a topic it matches is published. -/
theorem filter_publishedTo (hmatch : topicMatches topic topicPrefix = true)
    (hstays : .unsubscribe topicPrefix k ∉ after) :
    ((publishedTo topicPrefix k after).map Enqueue.event).filter (ofTopic topic) =
      (payloads topic after).map fun payload => { topic, payload } := by
  induction after with
  | nil => rfl
  | cons a after ih =>
    rw [List.mem_cons, not_or] at hstays
    have hrest := ih hstays.2
    rw [payloads_cons, List.map_append]
    cases a with
    | publish t payload latch =>
      unfold publishedTo
      rw [payloads_publish]
      by_cases ht : t = topic
      · subst ht
        rw [if_pos hmatch, if_pos rfl, List.map_cons,
          List.filter_cons_of_pos (p := ofTopic t) (decide_eq_true rfl), hrest]
        rfl
      · rw [if_neg ht, ← hrest]
        split_ifs with hm
        · rw [List.map_cons, List.filter_cons_of_neg (by simpa [ofTopic] using ht)]
          rfl
        · rfl
    | unsubscribe r queue =>
      unfold publishedTo
      rw [if_neg, hrest]
      · rfl
      · rintro ⟨rfl, rfl⟩
        exact hstays.1 rfl
    | subscribe | unlatch | run | read => exact hrest

/-- A latched value is the last published on its topic. -/
def Remembers (past : List (BusAction P)) (s : EventBus P) : Prop :=
  ∀ topic row, s.latched.find? topic = some row →
    (∀ payload, .publish topic payload false ∉ past) → lastPublished topic past = some row.2

theorem lastPublished_concat (h : payloads topic [a] = []) :
    lastPublished topic (past ++ [a]) = lastPublished topic past := by
  unfold lastPublished
  rw [payloads_append, h, List.append_nil]

theorem Remembers.of_find? (hs : Remembers past s)
    (hkept : ∀ topic row, s'.latched.find? topic = some row →
      (∀ payload, .publish topic payload false ∉ past ++ [a]) →
      payloads topic [a] = [] ∧ s.latched.find? topic = some row) : Remembers (past ++ [a]) s' := by
  intro topic row hrow honly
  obtain ⟨hnone, hbefore⟩ := hkept topic row hrow honly
  rw [lastPublished_concat hnone]
  exact hs topic row hbefore fun payload hmem => honly payload (List.mem_append_left _ hmem)

theorem remembers_step (h : s.step a = some s') (hs : Remembers past s) :
    Remembers (past ++ [a]) s' := by
  cases a with
  | publish t payload latch =>
    obtain rfl := Option.some.inj h
    intro topic row hrow honly
    have hbefore : ∀ payload, .publish topic payload false ∉ past :=
      fun payload hmem => honly payload (List.mem_append_left _ hmem)
    by_cases ht : t = topic
    · subst ht
      cases latch with
      | false => exact absurd (List.mem_append_right _ List.mem_cons_self) (honly payload)
      | true =>
        have hfind := (Table.find?_upsert s.latched (t, payload) (fun _ => true) t).symm.trans hrow
        rw [if_pos rfl] at hfind
        unfold lastPublished
        rw [payloads_append, payloads_publish, if_pos rfl, List.getLast?_concat]
        cases hold : s.latched.find? t <;> rw [hold] at hfind <;> cases hfind <;> rfl
    · have hfind : s.latched.find? topic = some row := by
        cases latch with
        | false => exact hrow
        | true =>
          have hother := Table.find?_upsert s.latched (t, payload) (fun _ => true) topic
          rw [if_neg (Ne.symm ht)] at hother
          exact hother.symm.trans hrow
      rw [lastPublished_concat (by rw [payloads_publish, if_neg ht])]
      exact hs topic row hfind hbefore
  | unlatch r =>
    obtain rfl := Option.some.inj h
    refine hs.of_find? fun topic row hrow _ => ⟨rfl, ?_⟩
    obtain ⟨hmem, hkey⟩ := Table.find?_eq_some_iff.mp hrow
    exact Table.find?_eq_some_iff.mpr ⟨List.mem_of_mem_filter hmem, hkey⟩
  | subscribe | unsubscribe =>
    obtain rfl := Option.some.inj h
    exact hs.of_find? fun _ _ hrow _ => ⟨rfl, hrow⟩
  | run =>
    obtain ⟨next, rest, -, rfl⟩ := EventBus.run_eq_some.mp h
    exact hs.of_find? fun _ _ hrow _ => ⟨rfl, hrow⟩
  | read queue =>
    obtain ⟨q, taken, -, -, rfl⟩ := EventBus.read_eq_some.mp h
    exact hs.of_find? fun _ _ hrow _ => ⟨rfl, hrow⟩

theorem remembers_of_exec (h : exec EventBus.step (EventBus.start n : EventBus P) past = some s) :
    Remembers past s :=
  exec_history (fun _ _ hrow _ => by cases hrow) (fun _ _ _ _ _ hs ha => remembers_step ha hs) h

/-- Every entry of a topic that a new subscriber finds holds the value last published on it. -/
theorem Remembers.of_snapshot {event : BusEvent P} (hs : Remembers past s)
    (hevent : event ∈ s.snapshot topicPrefix)
    (honly : ∀ payload, .publish event.topic payload false ∉ past) :
    lastPublished event.topic past = some event.payload := by
  obtain ⟨row, hrow, rfl⟩ := List.mem_map.mp hevent
  exact hs row.1 row (Table.find?_of_mem (List.mem_of_mem_filter hrow)) honly

/-- The last value published on a topic is offered to a subscriber, as a publish after it subscribed
or among the latched values that it found. -/
theorem lastOf_offered {payload : P} (hpast : exec EventBus.step (.start n) past = some s)
    (hmatch : topicMatches topic topicPrefix = true) (hstays : .unsubscribe topicPrefix k ∉ after)
    (honly : ∀ payload, .publish topic payload false ∉ past ++ after)
    (hlast : lastPublished topic (past ++ after) = some payload)
    (hoffered : payloads topic after ≠ [] ∨
      ∃ event ∈ (s.snapshot topicPrefix).take n, event.topic = topic) :
    lastOf (ofTopic topic) ((s.snapshot topicPrefix).take n ++
      (publishedTo topicPrefix k after).map Enqueue.event) = some { topic, payload } := by
  have hlater := filter_publishedTo hmatch hstays
  unfold lastPublished at hlast
  rw [payloads_append] at hlast
  unfold lastOf
  rw [List.filter_append, hlater]
  by_cases hnone : payloads topic after = []
  · obtain ⟨event, hevent, htopic⟩ := hoffered.resolve_left (not_not.mpr hnone)
    rw [hnone, List.append_nil] at hlast
    rw [hnone, List.map_nil, List.append_nil]
    have hall : ∀ e ∈ ((s.snapshot topicPrefix).take n).filter (ofTopic topic),
        e = { topic, payload } := by
      rintro ⟨t, value⟩ he
      obtain ⟨htake, hof⟩ := List.mem_filter.mp he
      obtain rfl : t = topic := of_decide_eq_true hof
      have hvalue := (remembers_of_exec hpast).of_snapshot (List.mem_of_mem_take htake)
        fun payload hmem => honly payload (List.mem_append_left _ hmem)
      obtain rfl : value = payload := Option.some.inj (hvalue.symm.trans hlast)
      rfl
    have hmem : event ∈ ((s.snapshot topicPrefix).take n).filter (ofTopic topic) :=
      List.mem_filter.mpr ⟨hevent, decide_eq_true htopic⟩
    rw [List.getLast?_eq_some_getLast (List.ne_nil_of_mem hmem)]
    exact congrArg some (hall _ (List.getLast_mem _))
  · rw [List.getLast?_append_of_ne_nil _ hnone] at hlast
    rw [List.getLast?_append_of_ne_nil _ (by simpa using hnone), List.getLast?_map, hlast]
    rfl

/-- What a subscriber gets: a subsequence of the latched values at its subscription and of the
publishes that match after it, from a queue that stays within its bound. The last value of a topic
that is only latched, if it was offered at all, is the last one read or was evicted. -/
theorem subscriber_reads (hn : 0 < n) (hpast : exec EventBus.step (.start n) past = some s)
    (hafter : exec EventBus.step (s.subscribe topicPrefix) after = some s') :
    (∀ (event : BusEvent P) (latch : Bool) (q : LossyQueue (BusEvent P)),
      (q.items.length < n → enqueue n event latch q = { q with items := q.items ++ [event] }) ∧
      (q.items.length = n →
        enqueue n event true q = { q with items := q.items.tail ++ [event] } ∧
        enqueue n event false q = q)) ∧
    let k := s.queues.length
    ∃ v, s'.subscription k = some v ∧ v.inbox.items.length ≤ n ∧
      v.inbox.contents.Sublist
        (s.snapshot topicPrefix ++ (publishedTo topicPrefix k after).map Enqueue.event) ∧
      ∀ topic payload, topicMatches topic topicPrefix = true →
        .unsubscribe topicPrefix k ∉ after →
        (∀ payload, .publish topic payload false ∉ past ++ after) →
        lastPublished topic (past ++ after) = some payload →
        (payloads topic after ≠ [] ∨
          ∃ event ∈ (s.snapshot topicPrefix).take n, event.topic = topic) →
        v.pending = [] → v.inbox.items = [] →
        lastOf (ofTopic topic) v.inbox.taken = some { topic, payload } ∨
          Evicted (s.subscribe topicPrefix) k topic after { topic, payload } := by
  refine ⟨enqueue_effect hn, ?_⟩
  have hmax := EventBus.queueMaxsize_of_exec hpast
  have hv : (s.subscribe topicPrefix).subscription s.queues.length = some _ :=
    EventBus.subscription_subscribe (EventBus.fresh_of_exec hpast) (hmax ▸ hn)
  have hmax' : (s.subscribe topicPrefix).queueMaxsize = n := hmax
  rw [hmax] at hv
  have hlen : ((s.snapshot topicPrefix).take n).length ≤ n := List.length_take_le _ _
  obtain ⟨v, done, hv', hdone⟩ := exec_delivered hn hmax' hv hlen hafter
  have hdelivered : done.Sublist (publishedTo topicPrefix s.queues.length after) := by
    rw [← incoming_subscribed, hdone.order]
    exact List.sublist_append_left _ _
  refine ⟨v, hv', hdone.bounded, ?_, ?_⟩
  · exact hdone.contents.trans
      ((List.take_sublist _ _).append (hdelivered.map Enqueue.event))
  · intro topic payload hmatch hstays honly hlast hoffered hpending hitems
    have hlatch : ∀ e ∈ publishedTo topicPrefix s.queues.length after,
        e.event.topic = topic → e.latch = true := fun e he =>
      latch_of_publishedTo he fun payload hmem => honly payload (List.mem_append_right _ hmem)
    have hoffers := lastOf_offered hpast hmatch hstays honly hlast hoffered
    rw [← incoming_subscribed { items := (s.snapshot topicPrefix).take n }] at hlatch hoffers
    have hread : v.inbox.contents = v.inbox.taken := by
      unfold contents
      rw [hitems, List.append_nil]
    rw [← hread]
    rcases exec_newest hn hmax' hv hlen hafter hv' hpending hlatch with hsame | ⟨x, hx, hevicted⟩
    · exact .inl (hsame.trans hoffers)
    · obtain rfl := Option.some.inj (hx.symm.trans hoffers)
      exact .inr hevicted

theorem Evicted.run_mem {x : BusEvent P} (h : Evicted s k topic after x) : .run ∈ after := by
  obtain ⟨before, rest, -, -, -, rfl, -⟩ := h
  exact List.mem_append_right _ List.mem_cons_self

/-- A subscriber that has drained its queue did not read the last value of a topic that is only
latched, and no later publish evicted it. -/
def Missed (n : Nat) (past after : List (BusAction P)) (topicPrefix topic : String)
    (payload : P) : Prop :=
  ∃ s s' v, exec EventBus.step (.start n) past = some s ∧
    exec EventBus.step (s.subscribe topicPrefix) after = some s' ∧
    s'.subscription s.queues.length = some v ∧ v.pending = [] ∧ v.inbox.items = [] ∧
    topicMatches topic topicPrefix = true ∧
    .unsubscribe topicPrefix s.queues.length ∉ after ∧
    (∀ payload, .publish topic payload false ∉ past ++ after) ∧
    lastPublished topic (past ++ after) = some payload ∧
    lastOf (ofTopic topic) v.inbox.taken ≠ some { topic, payload } ∧
    ¬ Evicted (s.subscribe topicPrefix) s.queues.length topic after { topic, payload }

end Subscribing

section Demo

def demoBus : EventBus Nat := (EventBus.start 1).publish "p/a" 1 true

def demoAfter : List (BusAction Nat) :=
  [.publish "p/a" 2 true, .run, .read 0, .publish "p/b" 3 true, .run, .read 0]

/-- A queue of one, drained in between: the value read last on `p/b` is the last published. -/
theorem subscriber_reads_one : ∃ s' v,
    exec EventBus.step (demoBus.subscribe "p") demoAfter = some s' ∧
    s'.subscription 0 = some v ∧ v.inbox.items.length ≤ 1 ∧
    v.inbox.contents.Sublist
      (demoBus.snapshot "p" ++ (publishedTo "p" 0 demoAfter).map Enqueue.event) ∧
    (lastOf (ofTopic "p/b") v.inbox.taken = some { topic := "p/b", payload := 3 } ∨
      Evicted (demoBus.subscribe "p") 0 "p/b" demoAfter { topic := "p/b", payload := 3 }) := by
  have hsome : (exec EventBus.step (demoBus.subscribe "p") demoAfter).isSome = true := by decide
  have hafter := (Option.some_get hsome).symm
  have hpast : exec EventBus.step (.start 1) [.publish "p/a" 1 true] = some demoBus := rfl
  obtain ⟨-, v, hv, hlen, hcontents, hlast⟩ := subscriber_reads (by decide) hpast hafter
  have hdrained : ((exec EventBus.step (demoBus.subscribe "p") demoAfter).bind fun s =>
      (s.subscription 0).map fun v => (v.pending.length, v.inbox.items.length)) = some (0, 0) := by
    decide
  change _ = some v at hv
  rw [hafter, Option.bind_some, show EventBus.subscription _ 0 = some v from hv] at hdrained
  obtain ⟨hpending, hitems⟩ := Prod.mk.inj (Option.some.inj hdrained)
  refine ⟨_, v, hafter, hv, hlen, hcontents, hlast "p/b" 3 (by decide) ?_ ?_ rfl ?_ ?_ ?_⟩
  · simp [demoAfter]
  · simp [demoAfter]
  · exact .inl (by decide)
  · exact List.eq_nil_of_length_eq_zero hpending
  · exact List.eq_nil_of_length_eq_zero hitems

/-- A latched value beyond the bound is left out of a new queue, and one that is no longer latched
is not offered. -/
theorem latched_value_missed :
    Missed 1 [.publish "p/a" 1 true, .publish "p/b" 2 true] [.read 0] "p" "p/b" 2 ∧
    Missed 1 [.publish "p/a" 1 true, .unlatch "p"] [] "p" "p/a" 1 := by
  constructor
  · refine ⟨_, _, _, rfl, rfl, rfl, rfl, rfl, by decide, by simp, by simp, rfl, ?_, ?_⟩
    · intro h
      cases h
    · exact fun h => by simpa using h.run_mem
  · refine ⟨_, _, _, rfl, rfl, rfl, rfl, rfl, by decide, by simp, by simp, rfl, ?_, ?_⟩
    · intro h
      cases h
    · exact fun h => by simpa using h.run_mem

end Demo

end Leitstand
