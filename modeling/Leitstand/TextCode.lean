import Mathlib.Data.List.Basic

universe u v
variable {α : Type u} {β : Type v}

/-! Texts that can be told from what follows them. -/

namespace TextCode

/-- What follows does not go on with a symbol of the kind. -/
def Stops (p : α → Bool) (rest : List α) : Prop := ∀ c ∈ rest.head?, p c = false

variable {p : α → Bool} {a b rest rest' : List α}

theorem stops_nil : Stops p [] := nofun

theorem stops_cons {c : α} (h : p c = false) : Stops p (c :: rest) := by
  rintro d hd
  obtain rfl := Option.some.inj hd
  exact h

/-- Texts of one kind of symbol that are followed by another end at the same place. -/
theorem append_inj_of_stops (ha : ∀ c ∈ a, p c = true) (hb : ∀ c ∈ b, p c = true)
    (hrest : Stops p rest) (hrest' : Stops p rest') (h : a ++ rest = b ++ rest') :
    a = b ∧ rest = rest' := by
  induction a generalizing b with
  | nil =>
    cases b with
    | nil => exact ⟨rfl, h⟩
    | cons d b =>
      have hd := hrest d (by rw [show rest = d :: (b ++ rest') from h]; rfl)
      rw [hb d List.mem_cons_self] at hd
      cases hd
  | cons c a ih =>
    rw [List.forall_mem_cons] at ha
    cases b with
    | nil =>
      have hc := hrest' c (by rw [show rest' = c :: (a ++ rest) from h.symm]; rfl)
      rw [ha.1] at hc
      cases hc
    | cons d b =>
      obtain ⟨rfl, htail⟩ := List.cons.inj h
      obtain ⟨rfl, hsame⟩ := ih ha.2 (fun e he => hb e (List.mem_cons_of_mem _ he)) htail
      exact ⟨rfl, hsame⟩

/-- A text of one kind of symbol begins no later than where that kind stops. -/
theorem prefix_of_stops {w : List α} (hw : ∀ c ∈ w, p c = true) (hrest : Stops p rest)
    (h : w <+: a ++ rest) : w <+: a := by
  induction a generalizing w with
  | nil =>
    cases w with
    | nil => exact List.nil_prefix
    | cons c w =>
      obtain ⟨more, hmore⟩ := h
      have hc := hrest c (by rw [show rest = c :: (w ++ more) from hmore.symm]; rfl)
      rw [hw c List.mem_cons_self] at hc
      cases hc
  | cons d a ih =>
    cases w with
    | nil => exact List.nil_prefix
    | cons c w =>
      obtain ⟨rfl, htail⟩ := List.cons_prefix_cons.mp h
      exact List.cons_prefix_cons.mpr
        ⟨rfl, ih (fun e he => hw e (List.mem_cons_of_mem _ he)) htail⟩

/-- A value's text ends where it does whatever follows. -/
def PrefixFree (code : β → List α) : Prop :=
  ∀ x y rest rest', code x ++ rest = code y ++ rest' → x = y ∧ rest = rest'

/-- One value's text can be told from any other's where what follows stops a kind of symbol. -/
def ToldBefore (p : α → Bool) (code : β → List α) (x : β) : Prop :=
  ∀ y rest rest', Stops p rest → Stops p rest' → code x ++ rest = code y ++ rest' →
    x = y ∧ rest = rest'

section Codes
variable {code : β → List α} {stop sep : α}

theorem prefixFree_of_read {read : List α → Option (β × List α)}
    (h : ∀ x rest, read (code x ++ rest) = some (x, rest)) : PrefixFree code := by
  intro x y rest rest' hsame
  have hread := congrArg read hsame
  rw [h, h] at hread
  exact Prod.mk.inj (Option.some.inj hread)

/-- Values one after another, up to a symbol that none of them begins with. -/
theorem PrefixFree.flatMap (h : PrefixFree code)
    (hstart : ∀ x, ∃ c text, code x = c :: text ∧ c ≠ stop) {xs ys : List β}
    (hsame : xs.flatMap code ++ stop :: rest = ys.flatMap code ++ stop :: rest') :
    xs = ys ∧ rest = rest' := by
  induction xs generalizing ys with
  | nil =>
    cases ys with
    | nil => exact ⟨rfl, (List.cons.inj hsame).2⟩
    | cons y ys =>
      obtain ⟨c, text, hcode, hc⟩ := hstart y
      rw [List.flatMap_cons, hcode] at hsame
      exact absurd (List.cons.inj hsame).1.symm hc
  | cons x xs ih =>
    cases ys with
    | nil =>
      obtain ⟨c, text, hcode, hc⟩ := hstart x
      rw [List.flatMap_cons, hcode] at hsame
      exact absurd (List.cons.inj hsame).1 hc
    | cons y ys =>
      rw [List.flatMap_cons, List.flatMap_cons, List.append_assoc, List.append_assoc] at hsame
      obtain ⟨rfl, htail⟩ := h x y _ _ hsame
      obtain ⟨rfl, hrest⟩ := ih htail
      exact ⟨rfl, hrest⟩

theorem intercalate_cons (x : List α) (xs : List (List α)) : [sep].intercalate (x :: xs) =
    x ++ xs.flatMap (sep :: ·) := by
  induction xs generalizing x with
  | nil => simp
  | cons y ys ih => rw [List.intercalate_cons_cons, ih, List.flatMap_cons]; simp

theorem stops_separated (hsep : p sep = false) (hstop : p stop = false) (texts : List (List α)) :
    Stops p (texts.flatMap (sep :: ·) ++ stop :: rest) := by
  cases texts with
  | nil => exact stops_cons hstop
  | cons text texts => exact stops_cons hsep

theorem flatMap_separated_inj (hsep : p sep = false) (hstop : p stop = false) (hne : sep ≠ stop)
    {xs ys : List β} (htold : ∀ x ∈ xs, ToldBefore p code x)
    (hsame : (xs.map code).flatMap (sep :: ·) ++ stop :: rest =
      (ys.map code).flatMap (sep :: ·) ++ stop :: rest') : xs = ys ∧ rest = rest' := by
  induction xs generalizing ys with
  | nil =>
    cases ys with
    | nil => exact ⟨rfl, (List.cons.inj hsame).2⟩
    | cons y ys => exact absurd (List.cons.inj hsame).1.symm hne
  | cons x xs ih =>
    cases ys with
    | nil => exact absurd (List.cons.inj hsame).1 hne
    | cons y ys =>
      rw [List.forall_mem_cons] at htold
      rw [List.map_cons, List.map_cons, List.flatMap_cons, List.flatMap_cons, List.append_assoc,
        List.append_assoc] at hsame
      obtain ⟨rfl, htail⟩ := htold.1 y _ _ (stops_separated hsep hstop _)
        (stops_separated hsep hstop _) (List.cons.inj hsame).2
      obtain ⟨rfl, hrest⟩ := ih htold.2 htail
      exact ⟨rfl, hrest⟩

/-- Values between separators, up to a symbol that closes them. -/
theorem separated_inj (hsep : p sep = false) (hstop : p stop = false) (hne : sep ≠ stop)
    (hstart : ∀ x, ∃ c text, code x = c :: text ∧ c ≠ stop) {xs ys : List β}
    (htold : ∀ x ∈ xs, ToldBefore p code x)
    (hsame : [sep].intercalate (xs.map code) ++ stop :: rest =
      [sep].intercalate (ys.map code) ++ stop :: rest') : xs = ys ∧ rest = rest' := by
  cases xs with
  | nil =>
    cases ys with
    | nil => exact ⟨rfl, (List.cons.inj hsame).2⟩
    | cons y ys =>
      obtain ⟨c, text, hcode, hc⟩ := hstart y
      rw [List.map_cons, intercalate_cons, hcode] at hsame
      exact absurd (List.cons.inj hsame).1.symm hc
  | cons x xs =>
    cases ys with
    | nil =>
      obtain ⟨c, text, hcode, hc⟩ := hstart x
      rw [List.map_cons, intercalate_cons, hcode] at hsame
      exact absurd (List.cons.inj hsame).1 hc
    | cons y ys =>
      rw [List.forall_mem_cons] at htold
      rw [List.map_cons, List.map_cons, intercalate_cons, intercalate_cons, List.append_assoc,
        List.append_assoc] at hsame
      obtain ⟨rfl, htail⟩ := htold.1 y _ _ (stops_separated hsep hstop _)
        (stops_separated hsep hstop _) hsame
      obtain ⟨rfl, hrest⟩ := flatMap_separated_inj hsep hstop hne htold.2 htail
      exact ⟨rfl, hrest⟩

end Codes

end TextCode
