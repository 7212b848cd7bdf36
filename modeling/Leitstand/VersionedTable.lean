import Mathlib.Order.Lattice
import Leitstand.Table

universe u v w
variable {κ : Type u} {α : Type v} {key : α → κ} {ν : Type w} [LinearOrder ν] (version : α → ν)

namespace Table

/-- What a row leaves where it meets another: the later version, the old one on a tie. -/
def newer (old : Option α) (a : α) : Option α :=
  some (old.elim a fun b => if version b < version a then a else b)

/-- What the rows leave, one after the other. -/
def newest (old : Option α) (rows : List α) : Option α := rows.foldl (newer version) old

variable {version} {old : Option α} {a b : α} {rows rows' : List α}

theorem newer_some_of_le (h : version a ≤ version b) : newer version (some b) a = some b := by
  rw [newer, Option.elim_some, if_neg (not_lt.mpr h)]

theorem newer_right_comm (h : version a ≠ version b) :
    newer version (newer version old a) b = newer version (newer version old b) a := by
  cases old with
  | none =>
    obtain hlt | hlt := lt_or_gt_of_ne h <;> simp [newer, hlt, not_lt_of_gt hlt]
  | some c =>
    obtain hlt | hlt := lt_or_gt_of_ne h <;> by_cases hca : version c < version a <;>
      by_cases hcb : version c < version b <;>
        simp [newer, hca, hcb, hlt, not_lt_of_gt hlt]
    · exact absurd (hca.trans hlt) hcb
    · exact absurd (hcb.trans hlt) hca

/-- Rows of distinct versions leave the same in every order. -/
theorem newest_perm (h : rows.Perm rows') (hne : (rows.map version).Nodup) (old : Option α) :
    newest version old rows = newest version old rows' := by
  refine h.foldl_eq' ?_ old
  intro x hx y hy z
  by_cases he : version x = version y
  · rw [List.inj_on_of_nodup_map hne hx hy he]
  · exact newer_right_comm he

theorem newest_of_le (h : ∀ a ∈ rows, version a ≤ version b) :
    newest version (some b) rows = some b := by
  induction rows with
  | nil => rfl
  | cons a rows ih =>
    have hstep := newer_some_of_le (h a List.mem_cons_self)
    rw [newest, List.foldl_cons, hstep]
    exact ih fun c hc => h c (List.mem_cons_of_mem a hc)

/-- Only the last version counts, against what was there before. -/
theorem newest_of_max (ha : a ∈ rows) (hne : (rows.map version).Nodup)
    (hmax : ∀ b ∈ rows, version b ≤ version a) (old : Option α) :
    newest version old rows = newer version old a := by
  obtain ⟨front, back, rfl⟩ := List.append_of_mem ha
  rw [newest_perm List.perm_middle hne, newest, List.foldl_cons]
  have hle : ∀ b ∈ front ++ back, version b ≤ version a := fun b hb =>
    hmax b (List.perm_middle.mem_iff.mpr (List.mem_cons_of_mem a hb))
  cases old with
  | none => exact newest_of_le hle
  | some c =>
    by_cases hc : version c < version a
    · simp only [newer, Option.elim_some, if_pos hc]
      exact newest_of_le hle
    · simp only [newer, Option.elim_some, if_neg hc]
      exact newest_of_le fun b hb => (hle b hb).trans (not_lt.mp hc)

section Upserts
variable [DecidableEq κ]

/-- Rows written where their version is later. -/
def advanceAll (version : α → ν) (t : Table key) (rows : List α) : Table key :=
  t.upsertAll rows fun new old => decide (version old < version new)

theorem find?_advanceAll (t : Table key) (h : (rows.map key).Nodup) (k : κ) :
    (t.advanceAll version rows).find? k =
      newest version (t.find? k) (rows.find? fun a => key a = k).toList := by
  unfold advanceAll
  rw [find?_upsertAll h]
  cases rows.find? fun a => key a = k with
  | none => rfl
  | some a => simp [newest, newer]

/-- Batches of rows, each of distinct keys, leave under a key the newest of what they have of it. -/
theorem find?_foldl_advanceAll (t : Table key) {batches : List (List α)}
    (h : ∀ rows ∈ batches, (rows.map key).Nodup) (k : κ) :
    (batches.foldl (advanceAll version) t).find? k = newest version (t.find? k)
      (batches.filterMap fun rows => rows.find? fun a => key a = k) := by
  induction batches generalizing t with
  | nil => rfl
  | cons rows batches ih =>
    rw [List.foldl_cons, ih _ fun more hm => h more (List.mem_cons_of_mem rows hm),
      find?_advanceAll t (h rows List.mem_cons_self), newest, newest, ← List.foldl_append,
      List.filterMap_cons]
    cases rows.find? fun a => key a = k <;> rfl

end Upserts
end Table
