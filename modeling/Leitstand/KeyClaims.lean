import Mathlib.Data.List.Perm.Basic
import Mathlib.Data.List.Nodup

universe u v w
variable {κ : Type u} {ε : Type v} {α β : Type w} [DecidableEq κ]

/-- What a computation does that puts `keys` among the keys seen so far: it succeeds, with `out` the
keys then seen, where no key is met twice and none of the `other` reasons to fail is there, and it
fails with `clash` of a key met twice or for one of those reasons. -/
structure KeyClaims (clash : κ → ε) (other : ε → Prop) (seen keys : List κ) (out : α → List κ)
    (x : Except ε α) : Prop where
  ok : ∀ a, x = .ok a → (out a).Perm (keys ++ seen) ∧ (seen.Nodup → (out a).Nodup) ∧ ∀ e, ¬ other e
  error : ∀ e, x = .error e → (∃ k, e = clash k ∧ 2 ≤ (keys ++ seen).count k) ∨ other e

namespace KeyClaims
variable {clash : κ → ε} {other other' : ε → Prop} {seen keys keys' : List κ} {out : α → List κ}
  {out' : β → List κ} {x : Except ε α} {f : α → Except ε β}

theorem pure {a : α} (h : out a = seen) : KeyClaims clash (fun _ => False) seen [] out (.ok a) where
  ok := by
    intro b hb
    obtain rfl := Except.ok.inj hb
    rw [h]
    exact ⟨.refl _, id, fun _ => id⟩
  error := by rintro e ⟨⟩

/-- A failure for one of the other reasons. -/
theorem fail {e : ε} (h : other e) : KeyClaims clash other seen keys out (.error e) where
  ok := by rintro a ⟨⟩
  error := by
    intro e' he
    obtain rfl := Except.error.inj he
    exact .inr h

/-- The claim of one key, ahead of what follows it. -/
theorem claim {k : κ} (h : KeyClaims clash other (k :: seen) keys out x) :
    KeyClaims clash other seen (k :: keys) out (if k ∈ seen then .error (clash k) else x) where
  ok := by
    intro a ha
    split_ifs at ha with hk
    obtain ⟨hseen, hnodup, hnone⟩ := h.ok a ha
    refine ⟨hseen.trans List.perm_middle, fun hn => hnodup ?_, hnone⟩
    exact List.nodup_cons.mpr ⟨hk, hn⟩
  error := by
    intro e he
    split_ifs at he with hk
    · obtain rfl := Except.error.inj he
      have hone := List.count_pos_iff.mpr hk
      refine .inl ⟨k, rfl, ?_⟩
      rw [List.cons_append, List.count_cons_self, List.count_append]
      omega
    · obtain ⟨j, hj, hcount⟩ | ho := h.error e he
      · exact .inl ⟨j, hj, List.perm_middle.count_eq j ▸ hcount⟩
      · exact .inr ho

theorem bind (hx : KeyClaims clash other seen keys out x)
    (hf : ∀ a, x = .ok a → KeyClaims clash other' (out a) keys' out' (f a)) :
    KeyClaims clash (fun e => other e ∨ other' e) seen (keys ++ keys') out' (x >>= f) := by
  cases x with
  | error e =>
    refine ⟨by rintro b ⟨⟩, fun e' he => ?_⟩
    obtain rfl := Except.error.inj he
    obtain ⟨k, hk, hcount⟩ | ho := hx.error e rfl
    · simp only [List.count_append] at hcount
      refine .inl ⟨k, hk, ?_⟩
      simp only [List.count_append]
      omega
    · exact .inr (.inl ho)
  | ok a =>
    obtain ⟨hseen, hnodup, hnone⟩ := hx.ok a rfl
    obtain ⟨hok, herror⟩ := hf a rfl
    constructor
    · intro b hb
      obtain ⟨hseen', hnodup', hnone'⟩ := hok b hb
      refine ⟨?_, hnodup' ∘ hnodup, fun e he => he.elim (hnone e) (hnone' e)⟩
      refine hseen'.trans ((hseen.append_left keys').trans ?_)
      rw [← List.append_assoc]
      exact List.perm_append_comm.append_right seen
    · intro e he
      obtain ⟨k, hk, hcount⟩ | ho := herror e he
      · rw [List.count_append, hseen.count_eq, List.count_append] at hcount
        refine .inl ⟨k, hk, ?_⟩
        rw [List.count_append, List.count_append]
        omega
      · exact .inr (.inr ho)

/-- The same claims, told otherwise. -/
theorem congr (h : KeyClaims clash other seen keys out x) (hkeys : keys.Perm keys')
    (hother : ∀ e, other e ↔ other' e) : KeyClaims clash other' seen keys' out x where
  ok := by
    intro a ha
    obtain ⟨hseen, hnodup, hnone⟩ := h.ok a ha
    exact ⟨hseen.trans (hkeys.append_right seen), hnodup, fun e he => hnone e ((hother e).mpr he)⟩
  error := by
    intro e he
    obtain ⟨k, hk, hcount⟩ | ho := h.error e he
    · exact .inl ⟨k, hk, (hkeys.append_right seen).count_eq k ▸ hcount⟩
    · exact .inr ((hother e).mp ho)

/-- From nothing seen a computation fails exactly if it meets a key twice or has another reason. -/
theorem fails_iff (h : KeyClaims clash other [] keys out x) :
    (∃ e, x = .error e) ↔ (∃ k, 2 ≤ keys.count k) ∨ ∃ e, other e := by
  constructor
  · rintro ⟨e, he⟩
    obtain ⟨k, -, hcount⟩ | ho := h.error e he
    · exact .inl ⟨k, by simpa using hcount⟩
    · exact .inr ⟨e, ho⟩
  · intro hreason
    cases x with
    | error e => exact ⟨e, rfl⟩
    | ok a =>
      obtain ⟨hseen, hnodup, hnone⟩ := h.ok a rfl
      rw [List.append_nil] at hseen
      obtain ⟨k, hcount⟩ | ⟨e, ho⟩ := hreason
      · have hle := List.nodup_iff_count_le_one.mp (hseen.nodup_iff.mp (hnodup List.nodup_nil)) k
        omega
      · exact absurd ho (hnone e)

end KeyClaims
