import Leitstand.BusRuns

namespace Leitstand

open StepSystem

section Backlog
variable {P : Type} {s s' : EventBus P} {k : Nat} {v : Subscription P} {a : BusAction P}
  {event : BusEvent P}

/-- What is in the queue and what is on its way there, the oldest first. -/
def Subscription.backlog (v : Subscription P) : List (BusEvent P) :=
  v.inbox.items ++ v.pending.map (·.event)

/-- If the loop's next turn enqueues to the queue, it finds room there. -/
def EventBus.hasRoom (s : EventBus P) (k : Nat) : Bool :=
  match s.scheduled.head? with
  | none => true
  | some next => next.queue ≠ k || (s.queues[k]?).all fun q => q.items.length < s.queueMaxsize

theorem EventBus.length_lt_of_hasRoom {next : Enqueue P} (h : s.hasRoom k = true)
    (hnext : s.scheduled.head? = some next) (hk : next.queue = k) (hv : s.subscription k = some v) :
    v.inbox.items.length < s.queueMaxsize := by
  unfold hasRoom at h
  rw [hnext] at h
  dsimp only at h
  rw [(EventBus.subscription_eq_some.mp hv).1, Option.all_some, Bool.or_eq_true,
    decide_eq_true_eq, decide_eq_true_eq] at h
  exact h.resolve_left fun hne => hne hk

/-- The queue stays registered as it was. -/
def EventBus.KeepsRegistered (s s' : EventBus P) (k : Nat) : Prop :=
  ∀ v, s.subscription k = some v → ∃ v', s'.subscription k = some v' ∧ v'.registered = v.registered

/-- The queue stays registered as it was, and its backlog loses nothing. -/
def EventBus.Retains (s s' : EventBus P) (k : Nat) : Prop :=
  ∀ v, s.subscription k = some v → ∃ v', s'.subscription k = some v' ∧
    v'.registered = v.registered ∧ ∀ e ∈ v.backlog, e ∈ v'.backlog

namespace EventBus

theorem Retains.keepsRegistered (h : s.Retains s' k) : s.KeepsRegistered s' k := by
  intro v hv
  obtain ⟨v', hv', hregistered, -⟩ := h v hv
  exact ⟨v', hv', hregistered⟩

theorem Retains.refl (s : EventBus P) (k : Nat) : s.Retains s k := fun v hv =>
  ⟨v, hv, rfl, fun _ he => he⟩

theorem Retains.trans {s'' : EventBus P} (h : s.Retains s' k) (h' : s'.Retains s'' k) :
    s.Retains s'' k := by
  intro v hv
  obtain ⟨v', hv', hregistered, hbacklog⟩ := h v hv
  obtain ⟨v'', hv'', hregistered', hbacklog'⟩ := h' v' hv'
  exact ⟨v'', hv'', hregistered'.trans hregistered, fun e he => hbacklog' e (hbacklog e he)⟩

/-- Only the queue's own subscriber takes it off its prefix. -/
theorem keepsRegistered_step (h : s.step a = some s') (hunsubscribe : ∀ r, a ≠ .unsubscribe r k) :
    s.KeepsRegistered s' k := by
  intro v hv
  obtain ⟨v', hv', heffect⟩ := EventBus.step_effect hv h
  refine ⟨v', hv', ?_⟩
  cases a with
  | subscribe topicPrefix | unlatch topicPrefix =>
    obtain rfl : v' = v := heffect
    rfl
  | unsubscribe topicPrefix queue =>
    have hne : queue ≠ k := fun he => hunsubscribe topicPrefix (he ▸ rfl)
    have hsame : v' = { v with registered :=
      if queue = k then v.registered.filter fun r => r ≠ topicPrefix else v.registered } := heffect
    rw [hsame, if_neg hne]
  | publish topic payload latch =>
    have hsame : v' = { v with pending := v.pending ++
      (v.registered.filter fun r => topicMatches topic r).map fun _ =>
        { queue := k, event := { topic, payload }, latch } } := heffect
    rw [hsame]
  | read queue =>
    by_cases hk : queue = k
    · obtain ⟨inbox, -, rfl⟩ := (if_pos hk).mp heffect
      rfl
    · rw [(if_neg hk).mp heffect]
  | run =>
    obtain ⟨next, -, ⟨-, rest, -, rfl⟩ | ⟨-, rfl⟩⟩ := heffect
    · rfl
    · rfl

/-- Nothing gets lost but what the subscriber reads and what a full queue has no room for. -/
theorem retains_step (h : s.step a = some s') (hread : a ≠ .read k)
    (hunsubscribe : ∀ r, a ≠ .unsubscribe r k)
    (hroom : a = .run → 0 < s.queueMaxsize ∧ s.hasRoom k = true) : s.Retains s' k := by
  intro v hv
  obtain ⟨w, hw, hregistered⟩ := keepsRegistered_step h hunsubscribe v hv
  obtain ⟨v', hv', heffect⟩ := EventBus.step_effect hv h
  obtain rfl := Option.some.inj (hw.symm.trans hv')
  refine ⟨w, hw, hregistered, fun e he => ?_⟩
  unfold Subscription.backlog at he ⊢
  cases a with
  | subscribe topicPrefix | unlatch topicPrefix =>
    obtain rfl : w = v := heffect
    exact he
  | unsubscribe topicPrefix queue =>
    obtain rfl : w = _ := heffect
    exact he
  | publish topic payload latch =>
    obtain rfl : w = _ := heffect
    rw [List.map_append, ← List.append_assoc]
    exact List.mem_append_left _ he
  | read queue =>
    have hne : queue ≠ k := fun heq => hread (heq ▸ rfl)
    obtain rfl : w = v := (if_neg hne).mp heffect
    exact he
  | run =>
    obtain ⟨next, hnext, ⟨hk, rest, hpending, rfl⟩ | ⟨-, rfl⟩⟩ := heffect
    · obtain ⟨hmax, hroom⟩ := hroom rfl
      have hlt := length_lt_of_hasRoom hroom hnext hk hv
      rw [hpending, List.map_cons] at he
      dsimp only
      rw [(enqueue_effect hmax next.event next.latch v.inbox).1 hlt]
      rwa [List.append_assoc, List.singleton_append]
    · exact he

theorem retains_publish (topic : String) (payload : P) (latch : Bool) :
    s.Retains (s.publish topic payload latch) k :=
  retains_step (a := .publish topic payload latch) rfl (fun h => by cases h) (fun _ h => by cases h)
    fun h => by cases h

theorem retains_unlatch (topicPrefix : String) : s.Retains (s.unlatch topicPrefix) k :=
  retains_step (a := .unlatch topicPrefix) rfl (fun h => by cases h) (fun _ h => by cases h)
    fun h => by cases h

end EventBus

/-- A publish reaches the backlog of each queue that it matches. -/
theorem EventBus.mem_backlog_publish {topic r : String} {payload : P} {latch : Bool}
    (hv : s.subscription k = some v) (hr : r ∈ v.registered)
    (hmatch : topicMatches topic r = true) :
    ∃ v', (s.publish topic payload latch).subscription k = some v' ∧
      { topic, payload } ∈ v'.backlog := by
  have hstep : s.step (.publish topic payload latch) = some (s.publish topic payload latch) := rfl
  obtain ⟨v', hv', heffect⟩ := EventBus.step_effect hv hstep
  refine ⟨v', hv', ?_⟩
  obtain rfl : v' = { v with pending := v.pending ++
    (v.registered.filter fun r => topicMatches topic r).map fun _ =>
      { queue := k, event := { topic, payload }, latch } } := heffect
  unfold Subscription.backlog
  rw [List.map_append, ← List.append_assoc, List.map_map]
  refine List.mem_append_right _ (List.mem_map.mpr ⟨r, List.mem_filter.mpr ⟨hr, hmatch⟩, rfl⟩)

/-- A read takes out the oldest entry only. -/
theorem EventBus.backlog_read (hv : s.subscription k = some v) (h : s.read k = some s') :
    ∃ v', s'.subscription k = some v' ∧ v'.registered = v.registered ∧
      ∃ oldest, v.inbox.items.head? = some oldest ∧ v.backlog = oldest :: v'.backlog := by
  have hstep : s.step (.read k) = some s' := h
  obtain ⟨v', hv', heffect⟩ := EventBus.step_effect hv hstep
  refine ⟨v', hv', ?_⟩
  obtain ⟨inbox, htake, rfl⟩ := (if_pos rfl).mp heffect
  refine ⟨rfl, ?_⟩
  unfold LossyQueue.take at htake
  unfold Subscription.backlog
  cases hitems : v.inbox.items with
  | nil =>
    rw [hitems] at htake
    cases htake
  | cons oldest rest =>
    rw [hitems] at htake
    obtain rfl := Option.some.inj htake
    exact ⟨oldest, rfl, rfl⟩

end Backlog

section Taken
variable {P : Type} {s s' : EventBus P} {k n : Nat} {v v' : Subscription P} {a : BusAction P}
  {past after : List (BusAction P)}

theorem taken_putNowait {maxsize : Nat} {event : BusEvent P} {q q' : LossyQueue (BusEvent P)}
    (h : putNowait maxsize event q = some q') : q'.taken = q.taken := by
  unfold putNowait at h
  split_ifs at h
  obtain rfl := Option.some.inj h
  rfl

theorem taken_getNowait {q q' : LossyQueue (BusEvent P)} (h : getNowait q = some q') :
    q'.taken = q.taken := by
  unfold getNowait at h
  split at h
  · cases h
  · obtain rfl := Option.some.inj h
    rfl

/-- An enqueue takes nothing out to the consumer. -/
theorem taken_enqueue (maxsize : Nat) (event : BusEvent P) (latch : Bool)
    (q : LossyQueue (BusEvent P)) : (enqueue maxsize event latch q).taken = q.taken := by
  unfold enqueue
  split
  · rename_i put hput
    exact taken_putNowait hput
  · split_ifs
    · split
      · rfl
      · rename_i room hroom
        cases hput : putNowait maxsize event room with
        | none => exact taken_getNowait hroom
        | some put => exact (taken_putNowait hput).trans (taken_getNowait hroom)
    · rfl

namespace EventBus

theorem taken_step (hv : s.subscription k = some v) (h : s.step a = some s') (ha : a ≠ .read k) :
    ∃ v', s'.subscription k = some v' ∧ v'.inbox.taken = v.inbox.taken := by
  obtain ⟨v', hv', heffect⟩ := step_effect hv h
  refine ⟨v', hv', ?_⟩
  cases a with
  | subscribe | unlatch =>
    obtain rfl : v' = v := heffect
    rfl
  | unsubscribe | publish =>
    obtain rfl : v' = _ := heffect
    rfl
  | run =>
    obtain ⟨next, -, ⟨-, rest, -, rfl⟩ | ⟨-, rfl⟩⟩ := heffect
    · exact taken_enqueue _ _ _ _
    · rfl
  | read queue =>
    have hne : queue ≠ k := fun he => ha (he ▸ rfl)
    rw [(if_neg hne).mp heffect]

theorem taken_exec (hv : s.subscription k = some v) (h : exec EventBus.step s after = some s')
    (ha : ∀ a ∈ after, a ≠ .read k) :
    ∃ v', s'.subscription k = some v' ∧ v'.inbox.taken = v.inbox.taken := by
  induction after generalizing s v with
  | nil =>
    obtain rfl := Option.some.inj h
    exact ⟨v, hv, rfl⟩
  | cons a after ih =>
    obtain ⟨u, hu, hafter⟩ := exec_cons_iff.mp h
    rw [List.forall_mem_cons] at ha
    obtain ⟨w, hw, htaken⟩ := taken_step hv hu ha.1
    obtain ⟨v', hv', htaken'⟩ := ih hw hafter ha.2
    exact ⟨v', hv', htaken'.trans htaken⟩

theorem taken_read {inbox : LossyQueue (BusEvent P)} {event : BusEvent P}
    (hv : s.subscription k = some v) (hinbox : s.queues[k]? = some inbox)
    (hevent : inbox.items.head? = some event) (h : s.step (.read k) = some s') :
    ∃ v', s'.subscription k = some v' ∧ v'.inbox.taken = v.inbox.taken ++ [event] := by
  obtain ⟨v', hv', heffect⟩ := step_effect hv h
  refine ⟨v', hv', ?_⟩
  obtain ⟨taken, htake, rfl⟩ := (if_pos rfl).mp heffect
  obtain rfl := Option.some.inj ((subscription_eq_some.mp hv).1.symm.trans hinbox)
  unfold LossyQueue.take at htake
  cases hitems : v.inbox.items with
  | nil =>
    rw [hitems] at hevent
    cases hevent
  | cons oldest rest =>
    rw [hitems] at htake hevent
    obtain rfl := Option.some.inj htake
    obtain rfl := Option.some.inj hevent
    rfl

theorem taken_prefix (hv : s.subscription k = some v) (h : s.step (.read k) = some s') :
    ∃ v', s'.subscription k = some v' ∧ v.inbox.taken <+: v'.inbox.taken := by
  obtain ⟨v', hv', heffect⟩ := step_effect hv h
  refine ⟨v', hv', ?_⟩
  obtain ⟨taken, htake, rfl⟩ := (if_pos rfl).mp heffect
  unfold LossyQueue.take at htake
  split at htake
  · cases htake
  · obtain rfl := Option.some.inj htake
    exact List.prefix_append _ _

/-- While every enqueue to a queue finds room, nothing on its way there gets lost or out of order. -/
theorem exec_lossless (hn : 0 < n) (hs : s.queueMaxsize = n) (hv : s.subscription k = some v)
    (hlen : v.inbox.items.length ≤ n)
    (hroom : Throughout EventBus.step (fun _ s a => a = .run → s.hasRoom k = true) past s after)
    (h : exec EventBus.step s after = some s') : ∃ v', s'.subscription k = some v' ∧
      v'.inbox.taken ++ v'.backlog =
        v.inbox.contents ++ (v.incoming k after).map Enqueue.event := by
  induction after generalizing past s v with
  | nil =>
    obtain rfl := Option.some.inj h
    refine ⟨v, hv, ?_⟩
    unfold Subscription.backlog Subscription.incoming LossyQueue.contents
    rw [List.append_assoc]
    exact congrArg (fun l => _ ++ (_ ++ List.map _ l)) (List.append_nil _).symm
  | cons a after ih =>
    obtain ⟨u, hu, hafter⟩ := exec_cons_iff.mp h
    obtain ⟨w, hw, heffect⟩ := step_effect hv hu
    have hmax := (step_queueMaxsize hu).trans hs
    have hrest := hroom.2 u hu
    subst hs
    rcases (@served_or_passed _ _ _ _ _ _ after hn hlen heffect) with ⟨rfl, next, hserved⟩ | hpassed
    · obtain ⟨v', hv', hall⟩ := ih hmax hw (hserved.length_le hn hlen) hrest hafter
      refine ⟨v', hv', ?_⟩
      have hlt := length_lt_of_hasRoom (hroom.1 rfl) hserved.scheduled hserved.queue hv
      rw [hall, hserved.incoming, hserved.inbox, LossyQueue.offer_of_room hlt]
      simp [LossyQueue.contents]
    · obtain ⟨v', hv', hall⟩ := ih hmax hw (Nat.le_trans hpassed.length_le hlen) hrest hafter
      refine ⟨v', hv', ?_⟩
      rw [hall, hpassed.incoming, hpassed.contents]

end EventBus

end Taken

end Leitstand
