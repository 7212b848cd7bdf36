import Mathlib.Data.List.Basic

universe u
variable {α : Type u}

/-- A queue of limited length and what has been taken from it, both oldest first. -/
structure LossyQueue (α : Type u) where
  items : List α := []
  taken : List α := []

namespace LossyQueue

/-- On a full queue an item that is urgent takes the room of the oldest, and any other is dropped. -/
def offer (bound : Nat) (urgent : Bool) (a : α) (q : LossyQueue α) : LossyQueue α :=
  if q.items.length < bound then { q with items := q.items ++ [a] }
  else if urgent then { q with items := q.items.tail ++ [a] }
  else q

def take (q : LossyQueue α) : Option (LossyQueue α) :=
  match q.items with
  | [] => none
  | a :: rest => some { items := rest, taken := q.taken ++ [a] }

/-- All that was taken and all that may still be. -/
def contents (q : LossyQueue α) : List α := q.taken ++ q.items

/-- The last item of a kind. -/
def lastOf (p : α → Bool) (l : List α) : Option α := (l.filter p).getLast?

/-- The newest item of a kind among what was taken and what may still be. -/
def newest (p : α → Bool) (q : LossyQueue α) : Option α := lastOf p q.contents

/-- An urgent item would take the room of the newest item of the kind. -/
def Displaces (p : α → Bool) (bound : Nat) (q : LossyQueue α) : Prop :=
  q.items.length = bound ∧ ∃ x rest, q.items = x :: rest ∧ p x = true ∧ ∀ y ∈ rest, p y = false

variable {bound : Nat} {urgent : Bool} {a : α} {q q' : LossyQueue α} {p : α → Bool}

theorem lastOf_append_of_none {l l' : List α} (h : ∀ b ∈ l', p b = false) :
    lastOf p (l ++ l') = lastOf p l := by
  have hnil : l'.filter p = [] := List.filter_eq_nil_iff.mpr fun b hb => Bool.eq_false_iff.mp (h b hb)
  unfold lastOf
  rw [List.filter_append, hnil, List.append_nil]

theorem lastOf_append_of_mem {l l' : List α} {b : α} (hb : b ∈ l') (h : p b = true) :
    lastOf p (l ++ l') = lastOf p l' := by
  have hne : l'.filter p ≠ [] := List.ne_nil_of_mem (List.mem_filter.mpr ⟨hb, h⟩)
  unfold lastOf
  rw [List.filter_append, List.getLast?_append_of_ne_nil _ hne]

theorem lastOf_concat (l : List α) (h : p a = true) : lastOf p (l ++ [a]) = some a := by
  unfold lastOf
  rw [List.filter_append, List.filter_singleton, h]
  exact List.getLast?_concat

theorem offer_of_room (h : q.items.length < bound) :
    offer bound urgent a q = { q with items := q.items ++ [a] } := if_pos h

theorem offer_urgent (h : ¬ q.items.length < bound) :
    offer bound true a q = { q with items := q.items.tail ++ [a] } := if_neg h

theorem offer_dropped (h : ¬ q.items.length < bound) : offer bound false a q = q := if_neg h

theorem contents_of_take (h : q.take = some q') : q'.contents = q.contents := by
  obtain ⟨items, taken⟩ := q
  cases items with
  | nil => cases h
  | cons a rest =>
    obtain rfl := Option.some.inj h
    unfold contents
    simp

theorem length_take (h : q.take = some q') : q'.items.length ≤ q.items.length := by
  obtain ⟨items, taken⟩ := q
  cases items with
  | nil => cases h
  | cons a rest =>
    obtain rfl := Option.some.inj h
    exact Nat.le_succ _

/-- Nothing is put into another order, and nothing is there twice that was not offered twice. -/
theorem contents_offer (bound : Nat) (urgent : Bool) (a : α) (q : LossyQueue α) :
    (offer bound urgent a q).contents.Sublist (q.contents ++ [a]) := by
  unfold offer contents
  split_ifs with hroom hurgent
  · rw [List.append_assoc]
  · rw [List.append_assoc]
    exact (List.Sublist.refl _).append ((List.tail_sublist _).append (List.Sublist.refl _))
  · exact List.sublist_append_left _ _

theorem length_offer (hbound : 0 < bound) (h : q.items.length ≤ bound) :
    (offer bound urgent a q).items.length ≤ bound := by
  unfold offer
  split_ifs with hroom hurgent
  · rw [List.length_append, List.length_singleton]
    omega
  · rw [List.length_append, List.length_tail, List.length_singleton]
    omega
  · exact h

theorem newest_append_self (taken items : List α) (h : p a = true) :
    newest p ⟨items ++ [a], taken⟩ = some a := by
  unfold newest contents
  rw [← List.append_assoc]
  exact lastOf_concat _ h

theorem newest_append_other (taken items : List α) (h : p a = false) :
    newest p ⟨items ++ [a], taken⟩ = newest p ⟨items, taken⟩ := by
  unfold newest contents
  rw [← List.append_assoc]
  exact lastOf_append_of_none (List.forall_mem_singleton.mpr h)

/-- An urgent item is the newest of its kind. -/
theorem newest_offer_self (h : p a = true) : (offer bound true a q).newest p = some a := by
  by_cases hroom : q.items.length < bound
  · rw [offer_of_room hroom]
    exact newest_append_self _ _ h
  · rw [offer_urgent hroom]
    exact newest_append_self _ _ h

/-- An item of another kind leaves the newest one be, or displaces it. -/
theorem newest_offer_other (hbound : 0 < bound) (hlen : q.items.length ≤ bound) (h : p a = false) :
    (offer bound urgent a q).newest p = q.newest p ∨ urgent = true ∧ q.Displaces p bound := by
  obtain ⟨items, taken⟩ := q
  unfold offer
  dsimp only at hlen ⊢
  split_ifs with hroom hurgent
  · exact .inl (newest_append_other _ _ h)
  · rw [newest_append_other _ _ h]
    cases items with
    | nil => exact absurd hbound hroom
    | cons x rest =>
      by_cases hmore : ∃ y ∈ rest, p y = true
      · -- What follows decides, with the item that goes or without it.
        obtain ⟨y, hy, hpy⟩ := hmore
        refine .inl ?_
        unfold newest contents
        dsimp only
        rw [List.tail_cons, lastOf_append_of_mem hy hpy, List.append_cons,
          lastOf_append_of_mem hy hpy]
      · have hnone : ∀ y ∈ rest, p y = false := fun y hy =>
          Bool.eq_false_iff.mpr fun hpy => hmore ⟨y, hy, hpy⟩
        cases hx : p x with
        | true =>
          have hfull : (x :: rest).length = bound := Nat.le_antisymm hlen (Nat.le_of_not_lt hroom)
          exact .inr ⟨hurgent, hfull, x, rest, rfl, hx, hnone⟩
        | false =>
          refine .inl ?_
          unfold newest contents
          dsimp only
          rw [List.tail_cons, lastOf_append_of_none hnone,
            lastOf_append_of_none (List.forall_mem_cons.mpr ⟨hx, hnone⟩)]
  · exact .inl rfl

/-- An urgent item is in place of the one before it, and only an urgent item of another kind can
displace the newest. -/
theorem newest_offer (hbound : 0 < bound) (hlen : q.items.length ≤ bound)
    (hurgent : p a = true → urgent = true) :
    (offer bound urgent a q).newest p = lastOf p (q.contents ++ [a]) ∨
      urgent = true ∧ p a = false ∧ q.Displaces p bound := by
  cases ha : p a with
  | true =>
    obtain rfl := hurgent ha
    rw [newest_offer_self ha, lastOf_concat _ ha]
    exact .inl rfl
  | false =>
    rw [lastOf_append_of_none (List.forall_mem_singleton.mpr ha)]
    rcases newest_offer_other hbound hlen ha with hsame | ⟨hu, hdisplaces⟩
    · exact .inl hsame
    · exact .inr ⟨hu, rfl, hdisplaces⟩

/-- With what comes after it an offer makes no difference to the last item of a kind, unless it
displaces the newest and none of the kind comes after. -/
theorem lastOf_offer (hbound : 0 < bound) (hlen : q.items.length ≤ bound)
    (hurgent : p a = true → urgent = true) (later : List α) :
    lastOf p ((offer bound urgent a q).contents ++ later) = lastOf p (q.contents ++ a :: later) ∨
      urgent = true ∧ p a = false ∧ q.Displaces p bound ∧ ∀ b ∈ later, p b = false := by
  rw [List.append_cons]
  by_cases hmore : ∃ b ∈ later, p b = true
  · obtain ⟨b, hb, hpb⟩ := hmore
    rw [lastOf_append_of_mem hb hpb, lastOf_append_of_mem hb hpb]
    exact .inl rfl
  · have hnone : ∀ b ∈ later, p b = false := fun b hb =>
      Bool.eq_false_iff.mpr fun hpb => hmore ⟨b, hb, hpb⟩
    rw [lastOf_append_of_none hnone, lastOf_append_of_none hnone]
    rcases newest_offer hbound hlen hurgent with hsame | ⟨hu, ha, hdisplaces⟩
    · exact .inl hsame
    · exact .inr ⟨hu, ha, hdisplaces, hnone⟩

theorem Displaces.newest_isSome (h : q.Displaces p bound) : ∃ x, q.newest p = some x := by
  obtain ⟨-, x, rest, hitems, hx, -⟩ := h
  have hmem : x ∈ q.contents.filter p := by
    refine List.mem_filter.mpr ⟨List.mem_append_right _ ?_, hx⟩
    rw [hitems]
    exact List.mem_cons_self
  exact Option.ne_none_iff_exists'.mp fun hnone =>
    List.ne_nil_of_mem hmem (List.getLast?_eq_none_iff.mp hnone)

end LossyQueue
