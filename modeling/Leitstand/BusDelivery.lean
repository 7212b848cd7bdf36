import Leitstand.EventBus

namespace Leitstand

section Registrations
variable {consumers : Table (Prod.fst : String × List Nat → String)} {k q : Nat}
  {topicPrefix : String} {front back : List (String × List Nat)}

/-- The prefixes under which a queue is registered. -/
def registrations (k : Nat) (rows : List (String × List Nat)) : List String :=
  rows.flatMap fun (topicPrefix, queues) => (queues.filter (· = k)).map fun _ => topicPrefix

theorem registrations_append : registrations k (front ++ back) =
    registrations k front ++ registrations k back := List.flatMap_append

theorem registrations_cons {queues : List Nat} :
    registrations k ((topicPrefix, queues) :: back) =
      ((queues.filter (· = k)).map fun _ => topicPrefix) ++ registrations k back := List.flatMap_cons

theorem mem_of_registrations {rows : List (String × List Nat)} {r : String}
    (h : r ∈ registrations k rows) : ∃ row ∈ rows, row.1 = r := by
  obtain ⟨row, hrow, hr⟩ := List.mem_flatMap.mp h
  obtain ⟨-, -, rfl⟩ := List.mem_map.mp hr
  exact ⟨row, hrow, rfl⟩

/-- A queue put to a prefix is registered under it too, and no other queue is affected. -/
theorem registrations_upsert (hnew : q = k → registrations k consumers.rows = []) :
    registrations k (consumers.upsert
      (topicPrefix, (consumers.find? topicPrefix).elim [] (·.2) ++ [q]) fun _ => true).rows =
      if q = k then [topicPrefix] else registrations k consumers.rows := by
  unfold Table.upsert
  split
  · rename_i h
    change registrations k (consumers.rows ++ [_]) = _
    rw [registrations_append, registrations_cons]
    change consumers.find? topicPrefix = none at h
    rw [h]
    by_cases hq : q = k
    · rw [if_pos hq, hnew hq, hq]
      simp [registrations]
    · rw [if_neg hq]
      simp [registrations, hq]
  · rename_i row h
    obtain ⟨rowPrefix, queues⟩ := row
    obtain rfl : rowPrefix = topicPrefix := Table.key_of_find? h
    rw [if_pos rfl]
    obtain ⟨front, back, hrows, hreplaced, -⟩ := Table.rows_replace h
    change consumers.find? rowPrefix = _ at h
    rw [hreplaced, h, registrations_append, registrations_cons]
    rw [hrows, registrations_append, registrations_cons] at hnew ⊢
    simp only [Option.elim_some, List.filter_append, List.map_append]
    by_cases hq : q = k
    · have hnone := hnew hq
      simp only [List.append_eq_nil_iff, List.map_eq_nil_iff] at hnone
      rw [if_pos hq, hnone.1, hnone.2.1, hnone.2.2]
      simp [hq]
    · rw [if_neg hq]
      simp [hq]

/-- A queue taken from a prefix is no longer registered under it, and no other queue is affected. -/
theorem registrations_replace : registrations k (consumers.replace (topicPrefix,
    ((consumers.find? topicPrefix).elim [] (·.2)).filter fun r => r ≠ q)).rows =
      if q = k then (registrations k consumers.rows).filter fun r => r ≠ topicPrefix
      else registrations k consumers.rows := by
  have hkept : ∀ rows : List (String × List Nat), (∀ row ∈ rows, row.1 ≠ topicPrefix) →
      (registrations k rows).filter (fun r => r ≠ topicPrefix) = registrations k rows := by
    intro rows hrows
    rw [List.filter_eq_self]
    intro r hr
    obtain ⟨row, hrow, rfl⟩ := mem_of_registrations hr
    exact decide_eq_true (hrows row hrow)
  cases h : consumers.find? topicPrefix with
  | none =>
    have hrows := Table.find?_eq_none_iff.mp h
    have hsame : ∀ a, (consumers.replace (topicPrefix, a)).rows = consumers.rows := fun a =>
      (List.map_congr_left fun row hrow => if_neg (hrows row hrow)).trans (List.map_id' _)
    rw [hsame, hkept _ hrows, ite_self]
  | some row =>
    obtain ⟨rowPrefix, queues⟩ := row
    obtain rfl : rowPrefix = topicPrefix := Table.key_of_find? h
    obtain ⟨front, back, hrows, hreplaced, hother⟩ :=
      Table.rows_replace (a := (rowPrefix, queues.filter fun r => r ≠ q)) h
    rw [List.forall_mem_append] at hother
    change registrations k (consumers.replace (rowPrefix, queues.filter fun r => r ≠ q)).rows = _
    rw [hreplaced, hrows, registrations_append, registrations_cons, registrations_append,
      registrations_cons]
    simp only [List.filter_filter]
    by_cases hq : q = k
    · rw [if_pos hq, List.filter_append, List.filter_append, hkept _ hother.1, hkept _ hother.2]
      simp [hq]
    · rw [if_neg hq]
      have hk : ∀ r : Nat, (decide (r = k) && decide (r ≠ q)) = decide (r = k) := by
        intro r
        by_cases hr : r = k
        · have hne : k ≠ q := fun he => hq he.symm
          simp [hr, hne]
        · simp [hr]
      simp only [hk]

end Registrations

section Subscriptions
variable {P : Type}

/-- What the bus holds for one queue: what is in it, the prefixes it is registered under and the
enqueues that wait for it. -/
structure Subscription (P : Type) where
  inbox : LossyQueue (BusEvent P)
  registered : List String
  pending : List (Enqueue P)

namespace EventBus

def pendingOf (s : EventBus P) (k : Nat) : List (Enqueue P) :=
  s.scheduled.filter fun e => e.queue = k

def subscription (s : EventBus P) (k : Nat) : Option (Subscription P) :=
  s.queues[k]?.map fun inbox =>
    { inbox, registered := registrations k s.consumers.rows, pending := s.pendingOf k }

end EventBus

/-- What a call or a turn of the loop does for the queue `k`. -/
def Subscription.Effect (s : EventBus P) (k : Nat) (v v' : Subscription P) : BusAction P → Prop
  | .subscribe _ => v' = v
  | .unsubscribe topicPrefix queue => v' = { v with
      registered := if queue = k then v.registered.filter fun r => r ≠ topicPrefix else v.registered }
  | .publish topic payload latch => v' = { v with
      pending := v.pending ++ (v.registered.filter fun r => topicMatches topic r).map fun _ =>
        { queue := k, event := { topic, payload }, latch } }
  | .unlatch _ => v' = v
  | .run => ∃ next, s.scheduled.head? = some next ∧
      (next.queue = k ∧ (∃ rest, v.pending = next :: rest ∧ v' = { v with
        inbox := enqueue s.queueMaxsize next.event next.latch v.inbox, pending := rest }) ∨
      next.queue ≠ k ∧ v' = v)
  | .read queue =>
      if queue = k then ∃ inbox, v.inbox.take = some inbox ∧ v' = { v with inbox } else v' = v

/-- Each registration that matches gets an enqueue of its own. -/
theorem pending_publish {k : Nat} {topic : String} {payload : P} {latch : Bool}
    (rows : List (String × List Nat)) : (rows.flatMap fun (topicPrefix, queues) =>
      if topicMatches topic topicPrefix then
        queues.map fun queue => ({ queue, event := { topic, payload }, latch } : Enqueue P)
      else []).filter (fun e => e.queue = k) =
      ((registrations k rows).filter fun r => topicMatches topic r).map fun _ =>
        { queue := k, event := { topic, payload }, latch } := by
  induction rows with
  | nil => rfl
  | cons row rest ih =>
    obtain ⟨topicPrefix, queues⟩ := row
    rw [List.flatMap_cons, List.filter_append, ih, registrations_cons, List.filter_append,
      List.map_append]
    congr 1
    by_cases hm : topicMatches topic topicPrefix = true
    · have hk : (fun e : Enqueue P => decide (e.queue = k)) ∘ (fun queue =>
          { queue, event := { topic, payload }, latch }) = fun queue => decide (queue = k) := rfl
      dsimp only
      rw [if_pos hm, List.filter_map, hk, List.filter_map, List.map_map]
      have hall : (queues.filter fun r => r = k).filter
          ((fun r => topicMatches topic r) ∘ fun _ => topicPrefix) = queues.filter fun r => r = k :=
        List.filter_eq_self.mpr fun _ _ => hm
      rw [hall]
      apply List.map_congr_left
      intro r hr
      rw [← of_decide_eq_true (List.mem_filter.mp hr).2]
      rfl
    · simp [hm]

namespace EventBus
variable {s s' : EventBus P} {k : Nat} {v : Subscription P} {a : BusAction P}

theorem subscription_eq_some : s.subscription k = some v ↔ s.queues[k]? = some v.inbox ∧
    registrations k s.consumers.rows = v.registered ∧ s.pendingOf k = v.pending := by
  unfold subscription
  rw [Option.map_eq_some_iff]
  constructor
  · rintro ⟨inbox, hinbox, rfl⟩
    exact ⟨hinbox, rfl, rfl⟩
  · rintro ⟨hinbox, hregistered, hpending⟩
    exact ⟨v.inbox, hinbox, by rw [hregistered, hpending]⟩

/-- One call or one turn of the loop, seen from a queue that exists. -/
theorem step_effect (hv : s.subscription k = some v) (h : s.step a = some s') :
    ∃ v', s'.subscription k = some v' ∧ Subscription.Effect s k v v' a := by
  obtain ⟨hinbox, hregistered, hpending⟩ := subscription_eq_some.mp hv
  obtain ⟨hlt, -⟩ := List.getElem?_eq_some_iff.mp hinbox
  cases a with
  | subscribe topicPrefix =>
    obtain rfl := Option.some.inj h
    have hne : s.queues.length ≠ k := Nat.ne_of_gt hlt
    refine ⟨v, subscription_eq_some.mpr ⟨?_, ?_, hpending⟩, rfl⟩
    · exact (List.getElem?_append_left hlt).trans hinbox
    · exact (registrations_upsert fun he => absurd he hne).trans ((if_neg hne).trans hregistered)
  | unsubscribe topicPrefix queue =>
    obtain rfl := Option.some.inj h
    refine ⟨{ v with registered :=
        if queue = k then v.registered.filter fun r => r ≠ topicPrefix else v.registered },
      subscription_eq_some.mpr ⟨hinbox, ?_, hpending⟩, rfl⟩
    rw [← hregistered]
    exact registrations_replace
  | publish topic payload latch =>
    obtain rfl := Option.some.inj h
    refine ⟨{ v with pending :=
        v.pending ++ (v.registered.filter fun r => topicMatches topic r).map fun _ =>
          { queue := k, event := { topic, payload }, latch } },
      subscription_eq_some.mpr ⟨hinbox, hregistered, ?_⟩, rfl⟩
    refine (List.filter_append ..).trans ?_
    rw [pending_publish, hregistered]
    exact congrArg (· ++ _) hpending
  | unlatch topicPrefix =>
    obtain rfl := Option.some.inj h
    exact ⟨v, subscription_eq_some.mpr ⟨hinbox, hregistered, hpending⟩, rfl⟩
  | run =>
    obtain ⟨next, rest, hscheduled, rfl⟩ := run_eq_some.mp h
    have hinbox' : (s.queues.modify next.queue
        (enqueue s.queueMaxsize next.event next.latch))[k]? = some (if next.queue = k then
          enqueue s.queueMaxsize next.event next.latch v.inbox else v.inbox) := by
      rw [List.getElem?_modify, hinbox]
      split_ifs <;> rfl
    unfold pendingOf at hpending
    unfold Subscription.Effect
    rw [hscheduled, List.filter_cons] at hpending
    rw [hscheduled]
    by_cases hk : next.queue = k
    · rw [if_pos (decide_eq_true hk)] at hpending
      rw [if_pos hk] at hinbox'
      exact ⟨{ v with
        inbox := enqueue s.queueMaxsize next.event next.latch v.inbox
        pending := rest.filter fun e => e.queue = k },
        subscription_eq_some.mpr ⟨hinbox', hregistered, rfl⟩,
        next, rfl, .inl ⟨hk, _, hpending.symm, rfl⟩⟩
    · rw [if_neg (by simpa using hk)] at hpending
      rw [if_neg hk] at hinbox'
      exact ⟨v, subscription_eq_some.mpr ⟨hinbox', hregistered, hpending⟩,
        next, rfl, .inr ⟨hk, rfl⟩⟩
  | read queue =>
    obtain ⟨q, taken, hq, htaken, rfl⟩ := read_eq_some.mp h
    by_cases hk : queue = k
    · subst hk
      obtain rfl := Option.some.inj (hinbox.symm.trans hq)
      refine ⟨{ v with inbox := taken }, subscription_eq_some.mpr ⟨?_, hregistered, hpending⟩,
        (if_pos rfl).mpr ⟨taken, htaken, rfl⟩⟩
      exact List.getElem?_set_self hlt
    · refine ⟨v, subscription_eq_some.mpr ⟨?_, hregistered, hpending⟩, (if_neg hk).mpr rfl⟩
      exact (List.getElem?_set_ne hk).trans hinbox

theorem step_queueMaxsize (h : s.step a = some s') : s'.queueMaxsize = s.queueMaxsize := by
  cases a with
  | subscribe | unsubscribe | publish | unlatch =>
    obtain rfl := Option.some.inj h
    rfl
  | run =>
    obtain ⟨next, rest, -, rfl⟩ := run_eq_some.mp h
    rfl
  | read queue =>
    obtain ⟨q, taken, -, -, rfl⟩ := read_eq_some.mp h
    rfl

end EventBus

end Subscriptions

end Leitstand
