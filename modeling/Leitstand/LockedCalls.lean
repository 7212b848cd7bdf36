import Mathlib.Data.List.Basic

/-- A call for one key. It waits for the lock, or holds it and has got as far as `held`. -/
structure LockedCall (κ ρ : Type) where
  key : κ
  held : Option ρ := none

/-- A task and the call it is in, if it is in one. -/
structure Worker (α κ ρ : Type) where
  task : α
  call : Option (LockedCall κ ρ) := none

/-- Tasks that make their calls one at a time and share one lock for all of them. -/
abbrev Workers (α κ ρ : Type) := List (Worker α κ ρ)

namespace Workers
variable {α κ ρ : Type} {ws : Workers α κ ρ} {i j : Nat} {key : κ} {a b : ρ}

def task (ws : Workers α κ ρ) (i : Nat) : Option α := ws[i]?.map (·.task)

def call (ws : Workers α κ ρ) (i : Nat) : Option (LockedCall κ ρ) := ws[i]?.bind (·.call)

def setCall (ws : Workers α κ ρ) (i : Nat) (c : Option (LockedCall κ ρ)) : Workers α κ ρ :=
  ws.modify i fun w => { w with call := c }

def setTask (ws : Workers α κ ρ) (i : Nat) (task : α) : Workers α κ ρ :=
  ws.modify i fun w => { w with task }

/-- Nobody holds the lock. -/
def free (ws : Workers α κ ρ) : Bool := ws.all fun w => w.call.all (·.held.isNone)

/-- The call of task `i` holds the lock. -/
def Holds (ws : Workers α κ ρ) (i : Nat) (key : κ) (a : ρ) : Prop :=
  ws.call i = some { key, held := some a }

/-- At most one call holds the lock. -/
def Exclusive (ws : Workers α κ ρ) : Prop :=
  ∀ i j k k' a b, ws.Holds i k a → ws.Holds j k' b → i = j

/-- What a call for the key holds is always as `P` says. -/
def HeldFor (ws : Workers α κ ρ) (key : κ) (P : ρ → Prop) : Prop := ∀ i a, ws.Holds i key a → P a

@[simp] theorem task_setCall (c : Option (LockedCall κ ρ)) : (ws.setCall i c).task j = ws.task j := by
  unfold task setCall
  rw [List.getElem?_modify]
  cases ws[j]? <;> simp
  split_ifs <;> rfl

theorem call_setCall (c : Option (LockedCall κ ρ)) :
    (ws.setCall i c).call j = if i = j ∧ i < ws.length then c else ws.call j := by
  unfold call setCall
  rw [List.getElem?_modify]
  by_cases hij : i = j
  · subst hij
    by_cases hlt : i < ws.length
    · simp [hlt]
    · simp [hlt]
  · simp [hij]

@[simp] theorem call_setTask (t : α) : (ws.setTask i t).call j = ws.call j := by
  unfold call setTask
  rw [List.getElem?_modify]
  cases ws[j]? <;> simp
  split_ifs <;> rfl

theorem task_setTask (t : α) :
    (ws.setTask i t).task j = if i = j ∧ i < ws.length then some t else ws.task j := by
  unfold task setTask
  rw [List.getElem?_modify]
  by_cases hij : i = j
  · subst hij
    by_cases hlt : i < ws.length
    · simp [hlt]
    · simp [hlt]
  · simp [hij]

theorem call_setCall_ne {c : Option (LockedCall κ ρ)} (h : i ≠ j) :
    (ws.setCall i c).call j = ws.call j := by
  rw [call_setCall, if_neg fun hij => h hij.1]

/-- A new task is in no call yet. -/
theorem call_append (t : α) : (ws ++ [{ task := t }] : Workers α κ ρ).call j = ws.call j := by
  unfold call
  rw [List.getElem?_append]
  split_ifs with hlt
  · rfl
  · rw [List.getElem?_eq_none (Nat.le_of_not_lt hlt), Option.bind_none, List.getElem?_singleton]
    split_ifs <;> rfl

theorem task_append {t : α} (h : ws.task j = some t) (t' : α) :
    (ws ++ [{ task := t' }] : Workers α κ ρ).task j = some t := by
  obtain ⟨w, hw, ht⟩ := Option.map_eq_some_iff.mp h
  unfold task
  rw [List.getElem?_append_left (List.getElem?_eq_some_iff.mp hw).1, hw, Option.map_some, ht]

theorem lt_of_call {c : LockedCall κ ρ} (h : ws.call i = some c) : i < ws.length := by
  obtain ⟨w, hw, -⟩ := Option.bind_eq_some_iff.mp h
  exact (List.getElem?_eq_some_iff.mp hw).1

theorem lt_of_task {t : α} (h : ws.task i = some t) : i < ws.length := by
  obtain ⟨w, hw, -⟩ := Option.map_eq_some_iff.mp h
  exact (List.getElem?_eq_some_iff.mp hw).1

/-- What holds the lock after a call was changed: that call, or one that held it before. -/
theorem holds_setCall {c : Option (LockedCall κ ρ)} (h : (ws.setCall i c).Holds j key a) :
    (i = j ∧ c = some { key, held := some a }) ∨ (i ≠ j ∧ ws.Holds j key a) ∨
      (¬ i < ws.length ∧ ws.Holds j key a) := by
  unfold Holds at h ⊢
  rw [call_setCall] at h
  split_ifs at h with hij
  · exact .inl ⟨hij.1, h⟩
  · by_cases hne : i = j
    · exact .inr (.inr ⟨fun hlt => hij ⟨hne, hlt⟩, h⟩)
    · exact .inr (.inl ⟨hne, h⟩)

theorem holds_setTask {t : α} : (ws.setTask i t).Holds j key a ↔ ws.Holds j key a := by
  unfold Holds
  rw [call_setTask]

theorem not_holds_of_free (h : ws.free = true) : ¬ ws.Holds i key a := by
  intro hheld
  obtain ⟨w, hw, hcall⟩ := Option.bind_eq_some_iff.mp hheld
  have hall := List.all_eq_true.mp h w (List.mem_of_getElem? hw)
  rw [hcall] at hall
  cases hall

section Exclusive

/-- Whoever holds the lock held it before. -/
theorem Exclusive.of_holds {ws' : Workers α κ ρ} (h : ws.Exclusive)
    (hold : ∀ j k a, ws'.Holds j k a → ∃ k' a', ws.Holds j k' a') : ws'.Exclusive := by
  intro i j k k' a b hi hj
  obtain ⟨_, _, hi⟩ := hold i k a hi
  obtain ⟨_, _, hj⟩ := hold j k' b hj
  exact h i j _ _ _ _ hi hj

/-- A call that does not hold the lock leaves it to whoever does. -/
theorem Exclusive.setCall_waiting (h : ws.Exclusive) {c : Option (LockedCall κ ρ)}
    (hc : c.all (·.held.isNone) = true) : (ws.setCall i c).Exclusive := by
  refine h.of_holds fun j k a hj => ?_
  obtain ⟨-, rfl⟩ | ⟨-, hj⟩ | ⟨-, hj⟩ := holds_setCall hj
  · cases hc
  · exact ⟨k, a, hj⟩
  · exact ⟨k, a, hj⟩

/-- The holder goes on. -/
theorem Exclusive.advance (h : ws.Exclusive) (hi : ws.Holds i key a) (b : ρ) :
    (ws.setCall i (some { key, held := some b })).Exclusive := by
  refine h.of_holds fun j k c hj => ?_
  obtain ⟨rfl, -⟩ | ⟨-, hj⟩ | ⟨-, hj⟩ := holds_setCall hj
  · exact ⟨key, a, hi⟩
  · exact ⟨k, c, hj⟩
  · exact ⟨k, c, hj⟩

theorem Exclusive.acquire (hfree : ws.free = true) (hw : ws.call i = some { key })
    (b : ρ) : (ws.setCall i (some { key, held := some b })).Exclusive := by
  have hlt := lt_of_call hw
  have honly : ∀ j k c, (ws.setCall i (some { key, held := some b })).Holds j k c → j = i := by
    intro j k c hj
    obtain ⟨rfl, -⟩ | ⟨-, hj⟩ | ⟨hn, -⟩ := holds_setCall hj
    · rfl
    · exact absurd hj (not_holds_of_free hfree)
    · exact absurd hlt hn
  intro i' j k k' c d hi' hj
  exact (honly i' k c hi').trans (honly j k' d hj).symm

end Exclusive

section HeldFor
variable {P : ρ → Prop}

theorem HeldFor.setCall_waiting (h : ws.HeldFor key P) {c : Option (LockedCall κ ρ)}
    (hc : c.all (·.held.isNone) = true) : (ws.setCall i c).HeldFor key P := by
  intro j a hj
  obtain ⟨-, rfl⟩ | ⟨-, hj⟩ | ⟨-, hj⟩ := holds_setCall hj
  · cases hc
  · exact h j a hj
  · exact h j a hj

theorem HeldFor.advance (h : ws.HeldFor key P) {k : κ} (hb : k = key → P b) :
    (ws.setCall i (some { key := k, held := some b })).HeldFor key P := by
  intro j a hj
  obtain ⟨-, hc⟩ | ⟨-, hj⟩ | ⟨-, hj⟩ := holds_setCall hj
  · cases hc
    exact hb rfl
  · exact h j a hj
  · exact h j a hj

end HeldFor

end Workers
