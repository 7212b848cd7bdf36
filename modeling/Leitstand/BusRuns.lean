import Leitstand.BusDelivery

namespace Leitstand

open StepSystem LossyQueue

section Runs
variable {P : Type} {k n : Nat} {s s' : EventBus P} {v v' : Subscription P} {a : BusAction P}
  {after : List (BusAction P)}

/-- The enqueues that calls bring to the queue `k` while it is registered as given at first. -/
def arrivals (k : Nat) : List String → List (BusAction P) → List (Enqueue P)
  | _, [] => []
  | registered, .unsubscribe topicPrefix queue :: after =>
    arrivals k (if queue = k then registered.filter fun r => r ≠ topicPrefix else registered) after
  | registered, .publish topic payload latch :: after =>
    ((registered.filter fun r => topicMatches topic r).map fun _ =>
      { queue := k, event := { topic, payload }, latch }) ++ arrivals k registered after
  | registered, .subscribe _ :: after => arrivals k registered after
  | registered, .unlatch _ :: after => arrivals k registered after
  | registered, .run :: after => arrivals k registered after
  | registered, .read _ :: after => arrivals k registered after

/-- The enqueues that are on their way to a queue or will be. -/
def Subscription.incoming (v : Subscription P) (k : Nat) (after : List (BusAction P)) :
    List (Enqueue P) := v.pending ++ arrivals k v.registered after

/-- A turn of the loop makes one enqueue to the queue, the next of those on their way. -/
structure Subscription.Served (s : EventBus P) (k : Nat) (v v' : Subscription P)
    (next : Enqueue P) : Prop where
  scheduled : s.scheduled.head? = some next
  queue : next.queue = k
  pending : v.pending = next :: v'.pending
  registered : v'.registered = v.registered
  inbox : v'.inbox = .offer s.queueMaxsize next.latch next.event v.inbox

/-- Any other step leaves the queue as it is or takes its oldest entry out to the subscriber. -/
structure Subscription.Passed (k : Nat) (v v' : Subscription P) (a : BusAction P)
    (after : List (BusAction P)) : Prop where
  inbox : v'.inbox = v.inbox ∨ v.inbox.take = some v'.inbox
  incoming : v.incoming k (a :: after) = v'.incoming k after

theorem served_or_passed (hn : 0 < s.queueMaxsize)
    (hlen : v.inbox.items.length ≤ s.queueMaxsize) (h : Subscription.Effect s k v v' a) :
    (a = .run ∧ ∃ next, Subscription.Served s k v v' next) ∨
      Subscription.Passed k v v' a after := by
  cases a with
  | subscribe topicPrefix =>
    obtain rfl : v' = v := h
    exact .inr ⟨.inl rfl, rfl⟩
  | unsubscribe topicPrefix queue =>
    cases (show v' = _ from h)
    exact .inr ⟨.inl rfl, rfl⟩
  | publish topic payload latch =>
    cases (show v' = _ from h)
    exact .inr ⟨.inl rfl, (List.append_assoc ..).symm⟩
  | unlatch topicPrefix =>
    obtain rfl : v' = v := h
    exact .inr ⟨.inl rfl, rfl⟩
  | run =>
    obtain ⟨next, hhead, ⟨hk, rest, hpending, rfl⟩ | ⟨-, rfl⟩⟩ := h
    · exact .inl ⟨rfl, next, hhead, hk, hpending, rfl, enqueue_eq_offer hn hlen⟩
    · exact .inr ⟨.inl rfl, rfl⟩
  | read queue =>
    by_cases hk : queue = k
    · obtain ⟨inbox, htake, rfl⟩ := (if_pos hk).mp h
      exact .inr ⟨.inr htake, rfl⟩
    · obtain rfl : v' = v := (if_neg hk).mp h
      exact .inr ⟨.inl rfl, rfl⟩

theorem Subscription.Served.length_le {next : Enqueue P} (h : Subscription.Served s k v v' next)
    (hn : 0 < s.queueMaxsize) (hlen : v.inbox.items.length ≤ s.queueMaxsize) :
    v'.inbox.items.length ≤ s.queueMaxsize := by
  rw [h.inbox]
  exact length_offer hn hlen

theorem Subscription.Served.incoming {next : Enqueue P} (h : Subscription.Served s k v v' next)
    (after : List (BusAction P)) : v.incoming k (.run :: after) = next :: v'.incoming k after := by
  unfold Subscription.incoming
  rw [h.pending, h.registered]
  rfl

theorem Subscription.Passed.contents (h : Subscription.Passed k v v' a after) :
    v'.inbox.contents = v.inbox.contents := by
  rcases h.inbox with hsame | htake
  · rw [hsame]
  · exact contents_of_take htake

theorem Subscription.Passed.length_le (h : Subscription.Passed k v v' a after) :
    v'.inbox.items.length ≤ v.inbox.items.length := by
  rcases h.inbox with hsame | htake
  · exact Nat.le_of_eq (by rw [hsame])
  · exact length_take htake

/-- What a run makes of a queue: the enqueues `done` were made to it, in the order of the calls. -/
structure Delivered (n k : Nat) (v : Subscription P) (after : List (BusAction P))
    (v' : Subscription P) (done : List (Enqueue P)) : Prop where
  order : v.incoming k after = done ++ v'.pending
  contents : v'.inbox.contents.Sublist (v.inbox.contents ++ done.map Enqueue.event)
  bounded : v'.inbox.items.length ≤ n

theorem exec_delivered (hn : 0 < n) (hs : s.queueMaxsize = n) (hv : s.subscription k = some v)
    (hlen : v.inbox.items.length ≤ n) (h : exec EventBus.step s after = some s') :
    ∃ v' done, s'.subscription k = some v' ∧ Delivered n k v after v' done := by
  induction after generalizing s v with
  | nil =>
    obtain rfl := Option.some.inj h
    refine ⟨v, [], hv, ?_, ?_, hlen⟩
    · exact List.append_nil _
    · exact List.sublist_append_left _ _
  | cons a after ih =>
    obtain ⟨u, hu, hafter⟩ := exec_cons_iff.mp h
    obtain ⟨w, hw, heffect⟩ := EventBus.step_effect hv hu
    have hmax := (EventBus.step_queueMaxsize hu).trans hs
    subst hs
    rcases served_or_passed hn hlen heffect with ⟨rfl, next, hserved⟩ | hpassed
    · obtain ⟨v', done, hv', hdone⟩ := ih hmax hw (hserved.length_le hn hlen) hafter
      refine ⟨v', next :: done, hv', ?_, ?_, hdone.bounded⟩
      · rw [hserved.incoming, hdone.order, List.cons_append]
      · refine hdone.contents.trans ?_
        rw [hserved.inbox, List.map_cons, List.append_cons]
        exact (contents_offer ..).append (List.Sublist.refl _)
    · obtain ⟨v', done, hv', hdone⟩ := ih hmax hw (Nat.le_trans hpassed.length_le hlen) hafter
      refine ⟨v', done, hv', ?_, ?_, hdone.bounded⟩
      · rw [hpassed.incoming, hdone.order]
      · rw [← hpassed.contents]
        exact hdone.contents

def ofTopic (topic : String) (event : BusEvent P) : Bool := event.topic = topic

/-- A latched publish of another topic took the room of `x`, the last of the topic to reach the
queue, and none of the topic came after it. -/
def Evicted (s : EventBus P) (k : Nat) (topic : String) (after : List (BusAction P))
    (x : BusEvent P) : Prop :=
  ∃ before rest u v next, after = before ++ .run :: rest ∧ exec EventBus.step s before = some u ∧
    u.subscription k = some v ∧ u.scheduled.head? = some next ∧ next.queue = k ∧
    next.latch = true ∧ next.event.topic ≠ topic ∧
    v.inbox.Displaces (ofTopic topic) u.queueMaxsize ∧ v.inbox.newest (ofTopic topic) = some x ∧
    ∀ e ∈ v.incoming k (.run :: rest), e.event.topic ≠ topic

theorem Evicted.cons {topic : String} {x : BusEvent P} (ha : s.step a = some s')
    (h : Evicted s' k topic after x) : Evicted s k topic (a :: after) x := by
  obtain ⟨before, rest, u, v, next, rfl, hu, hrest⟩ := h
  exact ⟨a :: before, rest, u, v, next, rfl, exec_cons_iff.mpr ⟨s', ha, hu⟩, hrest⟩

/-- Once all that was on its way has reached the queue, the newest entry of a topic that is only
latched is the last that was offered, or was evicted. -/
theorem exec_newest {topic : String} (hn : 0 < n) (hs : s.queueMaxsize = n)
    (hv : s.subscription k = some v) (hlen : v.inbox.items.length ≤ n)
    (h : exec EventBus.step s after = some s') (hv' : s'.subscription k = some v')
    (hdone : v'.pending = [])
    (hlatch : ∀ e ∈ v.incoming k after, e.event.topic = topic → e.latch = true) :
    let last := lastOf (ofTopic topic)
      (v.inbox.contents ++ (v.incoming k after).map Enqueue.event)
    v'.inbox.newest (ofTopic topic) = last ∨ ∃ x, last = some x ∧ Evicted s k topic after x := by
  induction after generalizing s v with
  | nil =>
    obtain rfl := Option.some.inj h
    obtain rfl := Option.some.inj (hv.symm.trans hv')
    have hincoming : v.incoming k [] = [] := (List.append_nil _).trans hdone
    rw [hincoming, List.map_nil, List.append_nil]
    exact .inl rfl
  | cons a after ih =>
    obtain ⟨u, hu, hafter⟩ := exec_cons_iff.mp h
    obtain ⟨w, hw, heffect⟩ := EventBus.step_effect hv hu
    have hmax := (EventBus.step_queueMaxsize hu).trans hs
    subst hs
    have hlater : w.inbox.items.length ≤ s.queueMaxsize →
        (∀ e ∈ w.incoming k after, e.event.topic = topic → e.latch = true) →
        let last := lastOf (ofTopic topic)
          (w.inbox.contents ++ (w.incoming k after).map Enqueue.event)
        v'.inbox.newest (ofTopic topic) = last ∨
          ∃ x, last = some x ∧ Evicted s k topic (a :: after) x := fun hwlen hwlatch =>
      (ih hmax hw hwlen hafter hwlatch).imp_right fun ⟨x, hx, hevicted⟩ => ⟨x, hx, hevicted.cons hu⟩
    rcases (@served_or_passed _ _ _ _ _ _ after hn hlen heffect) with ⟨rfl, next, hserved⟩ | hpassed
    · rw [hserved.incoming] at hlatch ⊢
      rw [List.forall_mem_cons] at hlatch
      have hoffer := lastOf_offer (p := ofTopic topic) hn hlen
        (fun hof => hlatch.1 (of_decide_eq_true hof)) ((w.incoming k after).map Enqueue.event)
      rw [← hserved.inbox] at hoffer
      rw [List.map_cons]
      rcases hoffer with hsame | ⟨hurgent, hother, hdisplaces, hnone⟩
      · rw [← hsame]
        exact hlater (hserved.length_le hn hlen) hlatch.2
      · obtain ⟨x, hx⟩ := hdisplaces.newest_isSome
        have hlast : lastOf (ofTopic topic) (v.inbox.contents ++
            next.event :: (w.incoming k after).map Enqueue.event) = some x :=
          (lastOf_append_of_none (List.forall_mem_cons.mpr ⟨hother, hnone⟩)).trans hx
        refine .inr ⟨x, hlast, [], after, s, v, next, rfl, rfl, hv, hserved.scheduled,
          hserved.queue, hurgent, of_decide_eq_false hother, hdisplaces, hx, ?_⟩
        rw [hserved.incoming, List.forall_mem_cons]
        exact ⟨of_decide_eq_false hother, fun e he =>
          of_decide_eq_false (hnone e.event (List.mem_map_of_mem he))⟩
    · rw [← hpassed.incoming, hpassed.contents] at hlater
      exact hlater (Nat.le_trans hpassed.length_le hlen) hlatch

end Runs

end Leitstand
