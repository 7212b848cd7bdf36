import Mathlib.Logic.Basic

universe u v
variable {ε : Type u} {α β : Type v} {P P' : α → Prop} {Q : β → Prop} {E E' : ε → Prop}

namespace Except

/-- What the computation returns meets `P`, and what it raises meets `E`. -/
structure Ensures (x : Except ε α) (P : α → Prop) (E : ε → Prop) : Prop where
  returns : ∀ a, x = .ok a → P a
  raises : ∀ e, x = .error e → E e

namespace Ensures
variable {x : Except ε α}

theorem ok {a : α} (h : P a) : (Except.ok a : Except ε α).Ensures P E where
  returns := fun _ he => Except.ok.inj he ▸ h
  raises := nofun

theorem error {e : ε} (h : E e) : (Except.error e : Except ε α).Ensures P E where
  returns := nofun
  raises := fun _ he => Except.error.inj he ▸ h

theorem any (x : Except ε α) : x.Ensures (fun _ => True) fun _ => True where
  returns := fun _ _ => trivial
  raises := fun _ _ => trivial

theorem mono (h : x.Ensures P E) (hP : ∀ a, P a → P' a) (hE : ∀ e, E e → E' e) : x.Ensures P' E' where
  returns := fun a he => hP a (h.returns a he)
  raises := fun e he => hE e (h.raises e he)

/-- A postcondition may speak of the computation that returned the value. -/
theorem returned (h : x.Ensures P E) : x.Ensures (fun a => x = .ok a ∧ P a) E where
  returns := fun a he => ⟨he, h.returns a he⟩
  raises := h.raises

theorem bind {f : α → Except ε β} (hx : x.Ensures P E) (hf : ∀ a, P a → (f a).Ensures Q E) :
    (x >>= f).Ensures Q E := by
  cases x with
  | error e => exact error (hx.raises e rfl)
  | ok a => exact hf a (hx.returns a rfl)

/-- What each step of a loop keeps holds at its end. -/
theorem foldlM {f : β → α → Except ε β} {xs : List α} {b : β} (h₀ : Q b)
    (hstep : ∀ b, ∀ a ∈ xs, Q b → (f b a).Ensures Q E) : (xs.foldlM f b).Ensures Q E := by
  induction xs generalizing b with
  | nil => exact ok h₀
  | cons a xs ih =>
    rw [List.foldlM_cons]
    refine (hstep b a List.mem_cons_self h₀).bind fun b' hb' => ih hb' ?_
    exact fun b a ha => hstep b a (List.mem_cons_of_mem _ ha)

theorem forM {f : α → Except ε PUnit} {xs : List α}
    (h : ∀ a ∈ xs, (f a).Ensures (fun _ => P a) E) :
    (xs.forM f).Ensures (fun _ => ∀ a ∈ xs, P a) E := by
  induction xs with
  | nil => exact ok fun _ ha => nomatch ha
  | cons a xs ih =>
    change (f a >>= fun _ => xs.forM f).Ensures _ E
    refine (h a List.mem_cons_self).bind fun _ ha => ?_
    refine (ih fun b hb => h b (List.mem_cons_of_mem _ hb)).mono (fun _ hxs => ?_) fun _ he => he
    exact List.forall_mem_cons.mpr ⟨ha, hxs⟩

end Ensures

/-- The computation raises an error that meets `E`. -/
def Raises (x : Except ε α) (E : ε → Prop) : Prop := ∃ e, x = .error e ∧ E e

namespace Raises
variable {x : Except ε α} {a : α} {e : ε}

@[simp] theorem ok_iff : (Except.ok a : Except ε α).Raises E ↔ False :=
  iff_of_false (fun ⟨_, he, _⟩ => nomatch he) id

@[simp] theorem error_iff : (Except.error e : Except ε α).Raises E ↔ E e := by
  constructor
  · rintro ⟨e', he, hE⟩
    exact Except.error.inj he ▸ hE
  · exact fun hE => ⟨e, rfl, hE⟩

/-- A computation that raises other errors only does not raise these. -/
theorem not_of_ensures (h : x.Ensures P E') (hE : ∀ e, E' e → ¬ E e) : ¬ x.Raises E := by
  rintro ⟨e, he, hraised⟩
  exact hE e (h.raises e he) hraised

theorem bind_iff {f : α → Except ε β} :
    (x >>= f).Raises E ↔ x.Raises E ∨ ∃ a, x = .ok a ∧ (f a).Raises E := by
  cases x with
  | error e =>
    change (Except.error e).Raises E ↔ _
    simp
  | ok a =>
    change (f a).Raises E ↔ _
    simp

theorem bind_iff_right {f : α → Except ε β} (h : ¬ x.Raises E) :
    (x >>= f).Raises E ↔ ∃ a, x = .ok a ∧ (f a).Raises E := by
  rw [bind_iff, or_iff_right h]

theorem bind_iff_left {f : α → Except ε β} (h : ∀ a, x = .ok a → ¬ (f a).Raises E) :
    (x >>= f).Raises E ↔ x.Raises E := by
  rw [bind_iff, or_iff_left]
  rintro ⟨a, ha, hraised⟩
  exact h a ha hraised

/-- A loop raises what one of its steps raises once those before it have come through. -/
theorem foldlM_iff {f : β → α → Except ε β} {xs : List α} {b : β} :
    (xs.foldlM f b).Raises E ↔ ∃ before a after b', xs = before ++ a :: after ∧
      before.foldlM f b = .ok b' ∧ (f b' a).Raises E := by
  induction xs generalizing b with
  | nil => exact iff_of_false ok_iff.mp (by simp)
  | cons a xs ih =>
    rw [List.foldlM_cons, bind_iff]
    constructor
    · rintro (hfirst | ⟨b₁, hb, hrest⟩)
      · exact ⟨[], a, xs, b, rfl, rfl, hfirst⟩
      · obtain ⟨before, a', after, b', rfl, hbefore, hlater⟩ := ih.mp hrest
        refine ⟨a :: before, a', after, b', rfl, ?_, hlater⟩
        rw [List.foldlM_cons, hb]
        exact hbefore
    · rintro ⟨before, a', after, b', hxs, hbefore, hlater⟩
      cases before with
      | nil =>
        obtain ⟨rfl, rfl⟩ := List.cons.inj hxs
        obtain rfl := Except.ok.inj hbefore
        exact .inl hlater
      | cons a₁ before =>
        obtain ⟨rfl, rfl⟩ := List.cons.inj hxs
        rw [List.foldlM_cons] at hbefore
        cases hb : f b a with
        | error e =>
          rw [hb] at hbefore
          cases hbefore
        | ok b₁ =>
          rw [hb] at hbefore
          exact .inr ⟨b₁, rfl, ih.mpr ⟨before, a', after, b', rfl, hbefore, hlater⟩⟩

end Raises

end Except
