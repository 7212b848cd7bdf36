import Leitstand.LossyQueue
import Leitstand.StepSystem
import Leitstand.Table

namespace Leitstand

/-- Segment-aware prefix match: the prefix itself, or a path continuing after a slash. -/
def topicMatches (topic topicPrefix : String) : Bool :=
  topic = topicPrefix || (topicPrefix ++ "/").toList.isPrefixOf topic.toList

structure BusEvent (P : Type) where
  topic : String
  payload : P

/-- A call of `_enqueue` that waits on the event loop. -/
structure Enqueue (P : Type) where
  queue : Nat
  event : BusEvent P
  latch : Bool

section Queues
variable {P : Type}

def putNowait (maxsize : Nat) (event : BusEvent P) (q : LossyQueue (BusEvent P)) :
    Option (LossyQueue (BusEvent P)) :=
  if maxsize = 0 ∨ q.items.length < maxsize then some { q with items := q.items ++ [event] } else none

/-- The oldest entry is taken out by the bus, not by the consumer. -/
def getNowait (q : LossyQueue (BusEvent P)) : Option (LossyQueue (BusEvent P)) :=
  match q.items with
  | [] => none
  | _ :: rest => some { q with items := rest }

def enqueue (maxsize : Nat) (event : BusEvent P) (latch : Bool) (q : LossyQueue (BusEvent P)) :
    LossyQueue (BusEvent P) :=
  match putNowait maxsize event q with
  | some put => put
  | none =>
    if latch then
      match getNowait q with
      | none => q
      | some room => (putNowait maxsize event room).getD room
    else q

/-- The latched values go into a new queue as long as it has room. -/
def putSnapshot (maxsize : Nat) : List (BusEvent P) → LossyQueue (BusEvent P) →
    LossyQueue (BusEvent P)
  | [], q => q
  | event :: rest, q =>
    match putNowait maxsize event q with
    | some put => putSnapshot maxsize rest put
    | none => q

end Queues

/-- The bus. A queue is known by its place among those handed out so far. -/
structure EventBus (P : Type) where
  queueMaxsize : Nat
  consumers : Table (Prod.fst : String × List Nat → String) := .empty
  latched : Table (Prod.fst : String × P → String) := .empty
  queues : List (LossyQueue (BusEvent P)) := []
  scheduled : List (Enqueue P) := []

/-- What is called on the bus, a turn of the event loop, and a consumer's read from its queue. -/
inductive BusAction (P : Type) where
  | subscribe (topicPrefix : String)
  | unsubscribe (topicPrefix : String) (queue : Nat)
  | publish (topic : String) (payload : P) (latch : Bool)
  | unlatch (topicPrefix : String)
  | run
  | read (queue : Nat)

namespace EventBus
variable {P : Type}

def consumersOf (s : EventBus P) (topicPrefix : String) : List Nat :=
  (s.consumers.find? topicPrefix).elim [] (·.2)

/-- The latched values of the topics that match, in the order in which they were first latched. -/
def snapshot (s : EventBus P) (topicPrefix : String) : List (BusEvent P) :=
  (s.latched.rows.filter fun (topic, _) => topicMatches topic topicPrefix).map fun (topic, payload) =>
    { topic, payload }

def subscribe (s : EventBus P) (topicPrefix : String) : EventBus P :=
  { s with
    consumers := s.consumers.upsert (topicPrefix, s.consumersOf topicPrefix ++ [s.queues.length])
      fun _ => true
    queues := s.queues ++ [putSnapshot s.queueMaxsize (s.snapshot topicPrefix) {}] }

def unsubscribe (s : EventBus P) (topicPrefix : String) (queue : Nat) : EventBus P :=
  { s with
    consumers := s.consumers.replace
      (topicPrefix, (s.consumersOf topicPrefix).filter fun q => q ≠ queue) }

def publish (s : EventBus P) (topic : String) (payload : P) (latch : Bool) : EventBus P :=
  { s with
    latched := if latch then s.latched.upsert (topic, payload) fun _ => true else s.latched
    scheduled := s.scheduled ++ s.consumers.rows.flatMap fun (topicPrefix, queues) =>
      if topicMatches topic topicPrefix then
        queues.map fun queue => { queue, event := { topic, payload }, latch }
      else [] }

def unlatch (s : EventBus P) (topicPrefix : String) : EventBus P :=
  { s with latched := ⟨s.latched.rows.filter fun (topic, _) => !topicMatches topic topicPrefix,
      s.latched.nodup.sublist (List.filter_sublist.map Prod.fst)⟩ }

def run (s : EventBus P) : Option (EventBus P) :=
  match s.scheduled with
  | [] => none
  | next :: rest => some
      { s with
        queues := s.queues.modify next.queue (enqueue s.queueMaxsize next.event next.latch)
        scheduled := rest }

def read (s : EventBus P) (queue : Nat) : Option (EventBus P) := do
  let q ← s.queues[queue]?
  let taken ← q.take
  some { s with queues := s.queues.set queue taken }

def step (s : EventBus P) : BusAction P → Option (EventBus P)
  | .subscribe topicPrefix => some (s.subscribe topicPrefix)
  | .unsubscribe topicPrefix queue => some (s.unsubscribe topicPrefix queue)
  | .publish topic payload latch => some (s.publish topic payload latch)
  | .unlatch topicPrefix => some (s.unlatch topicPrefix)
  | .run => s.run
  | .read queue => s.read queue

def start (queueMaxsize : Nat) : EventBus P := { queueMaxsize }

variable {s s' : EventBus P} {queue : Nat}

/-- A turn of the loop makes the enqueue that waits longest. -/
theorem run_eq_some : s.run = some s' ↔ ∃ next rest, s.scheduled = next :: rest ∧ s' =
    { s with
      queues := s.queues.modify next.queue (enqueue s.queueMaxsize next.event next.latch)
      scheduled := rest } := by
  unfold run
  cases h : s.scheduled with
  | nil => simp
  | cons next rest =>
    constructor
    · intro hrun
      exact ⟨next, rest, rfl, (Option.some.inj hrun).symm⟩
    · rintro ⟨_, _, heq, rfl⟩
      cases heq
      rfl

theorem read_eq_some : s.read queue = some s' ↔ ∃ q taken, s.queues[queue]? = some q ∧
    q.take = some taken ∧ s' = { s with queues := s.queues.set queue taken } := by
  unfold read
  constructor
  · intro h
    obtain ⟨q, hq, htake⟩ := Option.bind_eq_some_iff.mp h
    obtain ⟨taken, htaken, hset⟩ := Option.bind_eq_some_iff.mp htake
    exact ⟨q, taken, hq, htaken, (Option.some.inj hset).symm⟩
  · rintro ⟨q, taken, hq, htaken, rfl⟩
    rw [hq, Option.bind_eq_bind, Option.bind_some, htaken]
    rfl

end EventBus

section Enqueue
variable {P : Type} {maxsize : Nat} {event : BusEvent P} {latch : Bool}
  {q : LossyQueue (BusEvent P)}

/-- On a queue within its bound an enqueue offers the event, a latched one as urgent. -/
theorem enqueue_eq_offer (h : 0 < maxsize) (hlen : q.items.length ≤ maxsize) :
    enqueue maxsize event latch q = LossyQueue.offer maxsize latch event q := by
  obtain ⟨items, taken⟩ := q
  unfold enqueue putNowait LossyQueue.offer
  dsimp only at hlen ⊢
  by_cases hroom : items.length < maxsize
  · rw [if_pos (.inr hroom), if_pos hroom]
  · have hfull : ¬ (maxsize = 0 ∨ items.length < maxsize) := by omega
    rw [if_neg hfull, if_neg hroom]
    cases latch with
    | false => rfl
    | true =>
      cases items with
      | nil => exact absurd h hroom
      | cons oldest rest =>
        have hone : maxsize = 0 ∨ rest.length < maxsize := .inr (by rwa [List.length_cons] at hlen)
        change (if maxsize = 0 ∨ rest.length < maxsize then _ else none).getD _ = _
        rw [if_pos hone]
        rfl

/-- With room nothing is dropped; on a full queue a latched event takes the place of the oldest entry
and any other leaves the queue as it is. -/
theorem enqueue_effect (h : 0 < maxsize) (event : BusEvent P) (latch : Bool)
    (q : LossyQueue (BusEvent P)) :
    (q.items.length < maxsize →
      enqueue maxsize event latch q = { q with items := q.items ++ [event] }) ∧
    (q.items.length = maxsize →
      enqueue maxsize event true q = { q with items := q.items.tail ++ [event] } ∧
      enqueue maxsize event false q = q) := by
  constructor
  · intro hroom
    rw [enqueue_eq_offer h (Nat.le_of_lt hroom), LossyQueue.offer_of_room hroom]
  · intro hfull
    have hlen : q.items.length ≤ maxsize := Nat.le_of_eq hfull
    have hnoroom : ¬ q.items.length < maxsize := Nat.not_lt.mpr (Nat.le_of_eq hfull.symm)
    rw [enqueue_eq_offer h hlen, enqueue_eq_offer h hlen, LossyQueue.offer_urgent hnoroom,
      LossyQueue.offer_dropped hnoroom]
    exact ⟨rfl, rfl⟩

/-- A new queue takes the first of the latched values, as many as it has room for. -/
theorem putSnapshot_eq (h : 0 < maxsize) (events : List (BusEvent P))
    (hlen : q.items.length ≤ maxsize) : putSnapshot maxsize events q =
      { q with items := q.items ++ events.take (maxsize - q.items.length) } := by
  induction events generalizing q with
  | nil => simp [putSnapshot]
  | cons event rest ih =>
    unfold putSnapshot putNowait
    by_cases hroom : q.items.length < maxsize
    · have hlen' : (q.items ++ [event]).length ≤ maxsize := by
        rw [List.length_append, List.length_singleton]
        omega
      rw [if_pos (.inr hroom)]
      dsimp only
      rw [ih hlen', List.length_append, List.length_singleton]
      have hleft : maxsize - q.items.length = (maxsize - (q.items.length + 1)) + 1 := by omega
      rw [hleft, List.take_succ_cons, List.append_assoc]
      rfl
    · have hfull : ¬ (maxsize = 0 ∨ q.items.length < maxsize) := by omega
      have hnone : maxsize - q.items.length = 0 := by omega
      rw [if_neg hfull, hnone]
      simp

end Enqueue

end Leitstand
