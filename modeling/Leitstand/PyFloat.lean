import Mathlib.Algebra.Order.Ring.Rat
import Mathlib.Algebra.Order.Group.Unbundled.Abs

/-- A float as Python has it, rounding apart: zero has a sign, and beside the finite values there are
two infinities and a value that is no number. -/
inductive PyFloat where
  | finite (value : Rat)
  | negZero
  | inf (negative : Bool)
  | nan
  deriving DecidableEq

namespace PyFloat

instance : Coe Rat PyFloat := ⟨finite⟩

instance (n : Nat) : OfNat PyFloat n := ⟨finite n⟩

/-- The value, where it is finite. -/
def toRat? : PyFloat → Option Rat
  | finite r => some r
  | negZero => some 0
  | _ => none

/-- What a number stands for in a plan; what is not finite stands for nothing there. -/
def value (x : PyFloat) : Rat := x.toRat?.getD 0

def neg : PyFloat → PyFloat
  | finite r => if r = 0 then negZero else finite (-r)
  | negZero => finite 0
  | inf negative => inf !negative
  | nan => nan

instance : Neg PyFloat := ⟨neg⟩

/-- Python's `<`, which nothing that is no number meets. -/
def lt : PyFloat → PyFloat → Bool
  | nan, _ | _, nan => false
  | inf negative, inf negative' => negative && !negative'
  | inf negative, _ => negative
  | _, inf negative => !negative
  | x, y => x.toRat?.getD 0 < y.toRat?.getD 0

instance : LT PyFloat := ⟨fun x y => lt x y = true⟩

instance (x y : PyFloat) : Decidable (x < y) := inferInstanceAs (Decidable (lt x y = true))

/-- Python's `==`: the two zeros are equal, and what is no number is not even equal to itself. -/
def pyEq : PyFloat → PyFloat → Bool
  | nan, _ | _, nan => false
  | inf negative, inf negative' => negative = negative'
  | x, y => x.toRat?.isSome && x.toRat? = y.toRat?

/-- Python's `<=`. -/
instance : LE PyFloat := ⟨fun x y => x < y ∨ x.pyEq y = true⟩

instance (x y : PyFloat) : Decidable (x ≤ y) := inferInstanceAs (Decidable (x < y ∨ x.pyEq y = true))

/-- A difference, the sign of a zero apart; of two infinities of one sign there is none. -/
def sub : PyFloat → PyFloat → PyFloat
  | nan, _ | _, nan => nan
  | inf negative, inf negative' => if negative = negative' then nan else inf negative
  | inf negative, _ => inf negative
  | _, inf negative => inf !negative
  | x, y => finite (x.toRat?.getD 0 - y.toRat?.getD 0)

instance : Sub PyFloat := ⟨sub⟩

def abs : PyFloat → PyFloat
  | finite r => finite |r|
  | negZero => finite 0
  | inf _ => inf false
  | nan => nan

variable {x y : PyFloat} {r q : Rat}

@[simp] theorem toRat?_finite : (finite r).toRat? = some r := rfl

@[simp] theorem finite_lt_finite : finite r < finite q ↔ r < q := decide_eq_true_iff

@[simp] theorem finite_le_finite : finite r ≤ finite q ↔ r ≤ q := by
  change (finite r < finite q ∨ decide (some r = some q) = true) ↔ r ≤ q
  rw [finite_lt_finite, decide_eq_true_iff, Option.some.injEq, le_iff_lt_or_eq]

theorem lt_irrefl (x : PyFloat) : ¬ x < x := by
  cases x with
  | finite r => exact finite_lt_finite.not.mpr ((lt_self_iff_false r).mp)
  | negZero => decide
  | inf negative => cases negative <;> decide
  | nan => decide

/-- The sign of a zero does not matter to an order. -/
theorem lt_congr_left (h : x.toRat? = some r) : x < y ↔ finite r < y := by
  cases x <;> cases h
  · exact Iff.rfl
  · cases y <;> exact Iff.rfl

theorem lt_finite_of_toRat? (h : x.toRat? = some r) : x < finite q ↔ r < q :=
  (lt_congr_left h).trans finite_lt_finite

theorem le_finite_of_toRat? (h : x.toRat? = some r) : x ≤ finite q ↔ r ≤ q := by
  cases x <;> cases h
  · exact finite_le_finite
  · exact finite_le_finite (r := 0)

theorem finite_le_of_toRat? (h : y.toRat? = some r) : finite q ≤ y ↔ q ≤ r := by
  cases y <;> cases h
  · exact finite_le_finite
  · exact finite_le_finite (q := 0)

/-- A bound that a number keeps to is kept to by its value, also where that stands for nothing. -/
theorem le_value (h : ¬ x < finite r) (h₀ : r ≤ 0) : r ≤ x.value := by
  unfold value
  cases hx : x.toRat? with
  | none => exact h₀
  | some q => rwa [lt_finite_of_toRat? hx, Rat.not_lt] at h

theorem value_le (h : ¬ finite r < x) (h₀ : 0 ≤ r) : x.value ≤ r := by
  unfold value
  cases x with
  | finite q => exact Rat.not_lt.mp (finite_lt_finite.not.mp h)
  | negZero | inf | nan => exact h₀

theorem value_lt (h : ¬ finite r ≤ x) (h₀ : 0 < r) : x.value < r := by
  unfold value
  cases hx : x.toRat? with
  | none => exact h₀
  | some q => rwa [finite_le_of_toRat? hx, Rat.not_le] at h

theorem not_lt_zero (h : x.toRat? = some r) : ¬ x < 0 ↔ 0 ≤ r := by
  change ¬ x < finite 0 ↔ 0 ≤ r
  rw [lt_finite_of_toRat? h, Rat.not_lt]

theorem not_le_zero (h : x.toRat? = some r) : ¬ x ≤ 0 ↔ 0 < r := by
  change ¬ x ≤ finite 0 ↔ 0 < r
  rw [le_finite_of_toRat? h, Rat.not_le]

theorem pyEq_finite : x.pyEq (finite q) ↔ x.toRat? = some q := by
  cases x <;> simp [pyEq, toRat?]

/-- Only a finite value is near another. -/
theorem abs_sub_lt_iff : abs (x - finite q) < finite r ↔ ∃ p, x.toRat? = some p ∧ |p - q| < r := by
  cases x with
  | finite p =>
    change finite |p - q| < finite r ↔ _
    simp
  | negZero =>
    change finite |0 - q| < finite r ↔ _
    simp [toRat?]
  | inf negative =>
    exact iff_of_false (show ¬ false = true by decide) (by simp [toRat?])
  | nan =>
    exact iff_of_false (show ¬ false = true by decide) (by simp [toRat?])

end PyFloat

/-- Numbers that floats stand for. -/
class PyNumber (ν : Type) where
  toFloat : ν → PyFloat
  ofFloat? : PyFloat → Option ν
  ofFloat?_toFloat : ∀ x, ofFloat? (toFloat x) = some x

attribute [simp] PyNumber.ofFloat?_toFloat

instance : PyNumber Rat := ⟨.finite, PyFloat.toRat?, fun _ => rfl⟩

instance : PyNumber PyFloat := ⟨id, some, fun _ => rfl⟩

theorem PyNumber.toFloat_injective {ν : Type} [PyNumber ν] :
    Function.Injective (toFloat : ν → PyFloat) := by
  intro x y h
  have hread := congrArg (@ofFloat? ν _) h
  simpa only [ofFloat?_toFloat, Option.some.injEq] using hread
