import Mathlib.Data.List.Nodup
import Mathlib.Data.List.Perm.Basic
import Mathlib.Logic.Function.Basic

universe u v
variable {κ : Type u} {α : Type v} {key : α → κ}

/-- Rows in insertion order under a primary key: no key occurs twice. -/
structure Table (key : α → κ) where
  rows : List α
  nodup : (rows.map key).Nodup

namespace Table

def empty : Table key := ⟨[], List.nodup_nil⟩

section Lookup
variable [DecidableEq κ]

def find? (t : Table key) (k : κ) : Option α := t.rows.find? fun a => key a = k

/-- `a` in place of the row that has its key. -/
def replace (t : Table key) (a : α) : Table key :=
  ⟨t.rows.map fun b => if key b = key a then a else b, by
    have h : (t.rows.map fun b => if key b = key a then a else b).map key = t.rows.map key := by
      rw [List.map_map]
      apply List.map_congr_left
      intro b _
      dsimp only [Function.comp_apply]
      split_ifs with hb
      · exact hb.symm
      · rfl
    rw [h]
    exact t.nodup⟩

def insert (t : Table key) (a : α) (h : t.find? (key a) = none) : Table key :=
  ⟨t.rows ++ [a], by
    rw [List.map_append, List.nodup_append]
    refine ⟨t.nodup, by simp, ?_⟩
    intro k hk k' hk' he
    obtain ⟨b, hb, rfl⟩ := List.mem_map.mp hk
    simp only [List.map_cons, List.map_nil, List.mem_singleton] at hk'
    have hn := List.find?_eq_none.mp h b hb
    exact hn (by simpa using he.trans hk')⟩

def erase (t : Table key) (k : κ) : Table key :=
  ⟨t.rows.filter fun a => key a ≠ k, t.nodup.sublist (List.filter_sublist.map key)⟩

/-- Insert, or on a conflict replace the row where `advance` lets the new one through. -/
def upsert (t : Table key) (a : α) (advance : α → Bool) : Table key :=
  match h : t.find? (key a) with
  | none => t.insert a h
  | some b => if advance b then t.replace a else t

/-- Upserts of the rows in turn; `advance` sees the new row and the one it conflicts with. -/
def upsertAll (t : Table key) (rows : List α) (advance : α → α → Bool) : Table key :=
  rows.foldl (fun t a => t.upsert a (advance a)) t

/-- The rows keyed as a dictionary keys them: a later one takes the place of an earlier one. -/
def ofRows (rows : List α) : Table key := empty.upsertAll rows fun _ _ => true

theorem key_of_find? {t : Table key} {k : κ} {a : α} (h : t.find? k = some a) : key a = k := by
  simpa using List.find?_some h

theorem mem_of_find? {t : Table key} {k : κ} {a : α} (h : t.find? k = some a) : a ∈ t.rows :=
  List.mem_of_find?_eq_some h

theorem find?_eq_none_iff {t : Table key} {k : κ} : t.find? k = none ↔ ∀ a ∈ t.rows, key a ≠ k := by
  simp [find?]

theorem find?_of_mem {t : Table key} {a : α} (h : a ∈ t.rows) : t.find? (key a) = some a := by
  cases hf : t.find? (key a) with
  | none => exact absurd rfl (find?_eq_none_iff.mp hf a h)
  | some b =>
    have he := List.inj_on_of_nodup_map t.nodup (mem_of_find? hf) h (key_of_find? hf)
    rw [he]

theorem find?_eq_some_iff {t : Table key} {k : κ} {a : α} :
    t.find? k = some a ↔ a ∈ t.rows ∧ key a = k :=
  ⟨fun h => ⟨mem_of_find? h, key_of_find? h⟩, fun h => h.2 ▸ find?_of_mem h.1⟩

theorem mem_iff_find? {t : Table key} {a : α} : a ∈ t.rows ↔ t.find? (key a) = some a := by
  rw [find?_eq_some_iff, and_iff_left rfl]

@[simp] theorem find?_empty (k : κ) : (empty : Table key).find? k = none := rfl

theorem find?_replace (t : Table key) (a : α) (k : κ) :
    (t.replace a).find? k = if k = key a then (t.find? k).map fun _ => a else t.find? k := by
  unfold find? replace
  dsimp only
  induction t.rows with
  | nil => simp
  | cons b rows ih =>
    by_cases hb : key b = key a
    · simp only [List.map_cons, hb, ↓reduceIte, List.find?_cons]
      by_cases hk : key a = k
      · simp [hk]
      · have hk' : ¬ k = key a := fun h => hk h.symm
        simpa [hk, hk'] using ih
    · simp only [List.map_cons, hb, ↓reduceIte, List.find?_cons]
      by_cases hk : key b = k
      · have hk' : ¬ k = key a := fun h => hb (hk.trans h)
        simp [hk, hk']
      · simpa [hk] using ih

@[simp] theorem find?_replace_self {t : Table key} {a b : α} (h : t.find? (key a) = some b) :
    (t.replace a).find? (key a) = some a := by
  rw [find?_replace, if_pos rfl, h, Option.map_some]

theorem find?_replace_of_find? {t : Table key} {a b : α} {k₀ : κ} (ha : key a = k₀)
    (h : t.find? k₀ = some b) (k : κ) :
    (t.replace a).find? k = if k = k₀ then some a else t.find? k := by
  rw [find?_replace, ha]
  by_cases hk : k = k₀
  · rw [if_pos hk, if_pos hk, hk, h, Option.map_some]
  · rw [if_neg hk, if_neg hk]

theorem find?_replace_ne (t : Table key) {a : α} {k : κ} (h : k ≠ key a) :
    (t.replace a).find? k = t.find? k := by rw [find?_replace, if_neg h]

theorem mem_replace {t : Table key} {a b : α} (h : b ∈ (t.replace a).rows) :
    b = a ∨ b ∈ t.rows ∧ key b ≠ key a := by
  have hb := find?_of_mem h
  rw [find?_replace] at hb
  split_ifs at hb with hk
  · obtain ⟨c, -, rfl⟩ := Option.map_eq_some_iff.mp hb
    exact .inl rfl
  · exact .inr ⟨mem_of_find? hb, hk⟩

/-- A row that is replaced keeps its place, and so do the others. -/
theorem rows_replace {t : Table key} {a b : α} (h : t.find? (key a) = some b) :
    ∃ front back, t.rows = front ++ b :: back ∧ (t.replace a).rows = front ++ a :: back ∧
      ∀ c ∈ front ++ back, key c ≠ key a := by
  obtain ⟨front, back, hrows⟩ := List.append_of_mem (mem_of_find? h)
  have hb := key_of_find? h
  have hn := t.nodup
  rw [hrows, List.map_append, List.map_cons, List.nodup_middle, List.nodup_cons,
    ← List.map_append] at hn
  have hother : ∀ c ∈ front ++ back, key c ≠ key a := by
    intro c hc he
    exact hn.1 (List.mem_map.mpr ⟨c, hc, he.trans hb.symm⟩)
  rw [List.forall_mem_append] at hother
  have hsame : ∀ rows : List α, (∀ c ∈ rows, key c ≠ key a) →
      (rows.map fun c => if key c = key a then a else c) = rows := fun rows hrows =>
    (List.map_congr_left fun c hc => if_neg (hrows c hc)).trans (List.map_id' rows)
  refine ⟨front, back, hrows, ?_, List.forall_mem_append.mpr hother⟩
  change t.rows.map _ = _
  rw [hrows, List.map_append, List.map_cons, hsame front hother.1, hsame back hother.2, if_pos hb]

theorem mem_insert {t : Table key} {a b : α} {h : t.find? (key a) = none} :
    b ∈ (t.insert a h).rows ↔ b ∈ t.rows ∨ b = a := by
  simp [insert]

theorem mem_erase {t : Table key} {b : α} {k : κ} :
    b ∈ (t.erase k).rows ↔ b ∈ t.rows ∧ key b ≠ k := by
  simp [erase]

theorem replace_replace (t : Table key) {a b : α} (h : key a = key b) :
    (t.replace a).replace b = t.replace b := by
  unfold replace
  simp only [mk.injEq, List.map_map]
  apply List.map_congr_left
  intro c _
  dsimp only [Function.comp_apply]
  rw [h]
  split_ifs <;> rfl

theorem replace_of_find? {t : Table key} {a : α} (h : t.find? (key a) = some a) :
    t.replace a = t := by
  have hr : (t.rows.map fun b => if key b = key a then a else b) = t.rows := by
    refine (List.map_congr_left ?_).trans (List.map_id' _)
    intro b hb
    split_ifs with hk
    · exact List.inj_on_of_nodup_map t.nodup (mem_of_find? h) hb hk.symm
    · rfl
  unfold replace
  simp only [hr]

theorem find?_insert (t : Table key) (a : α) (h : t.find? (key a) = none) (k : κ) :
    (t.insert a h).find? k = if k = key a then some a else t.find? k := by
  have hi : (t.insert a h).find? k = (t.find? k).or ([a].find? fun b => key b = k) :=
    List.find?_append
  rw [hi]
  split_ifs with hk
  · subst hk
    rw [h, Option.none_or]
    exact List.find?_cons_of_pos (by simp)
  · rw [List.find?_cons_of_neg (by simpa using fun he => hk he.symm), List.find?_nil, Option.or_none]

theorem find?_erase (t : Table key) (k k' : κ) :
    (t.erase k).find? k' = if k' = k then none else t.find? k' := by
  by_cases hk : k' = k
  · subst hk
    rw [if_pos rfl, find?_eq_none_iff]
    intro a ha
    simpa [erase] using (List.mem_filter.mp ha).2
  · rw [if_neg hk]
    cases h : t.find? k' with
    | none =>
      rw [find?_eq_none_iff] at h ⊢
      exact fun a ha => h a (List.mem_filter.mp ha).1
    | some a =>
      obtain ⟨ha, rfl⟩ := find?_eq_some_iff.mp h
      exact find?_of_mem (List.mem_filter.mpr ⟨ha, by simpa using hk⟩)

theorem find?_upsert (t : Table key) (a : α) (advance : α → Bool) (k : κ) :
    (t.upsert a advance).find? k =
      if k = key a then some ((t.find? k).elim a fun b => if advance b then a else b)
      else t.find? k := by
  unfold upsert
  split
  · rename_i h
    rw [find?_insert]
    split_ifs with hk
    · rw [hk, h, Option.elim_none]
    · rfl
  · rename_i b h
    split_ifs with hb hk hk
    · rw [hk, find?_replace_self h, h, Option.elim_some, if_pos hb]
    · exact find?_replace_ne t hk
    · rw [hk, h, Option.elim_some, if_neg hb]
    · rfl

/-- An upsert whatever the row in place. -/
theorem find?_upsert_true (t : Table key) (a : α) (k : κ) :
    (t.upsert a fun _ => true).find? k = if k = key a then some a else t.find? k := by
  rw [find?_upsert]
  by_cases hk : k = key a
  · rw [if_pos hk, if_pos hk]
    cases t.find? k with
    | none => rfl
    | some b => rw [Option.elim_some, if_pos rfl]
  · rw [if_neg hk, if_neg hk]

theorem mem_upsert {t : Table key} {a b : α} {advance : α → Bool}
    (h : b ∈ (t.upsert a advance).rows) : b ∈ t.rows ∨ b = a := by
  have hb := find?_of_mem h
  rw [find?_upsert] at hb
  split_ifs at hb with hk
  · cases hf : t.find? (key b) with
    | none => simp_all
    | some c =>
      rw [hf, Option.elim_some] at hb
      split_ifs at hb
      · exact .inr (Option.some.inj hb).symm
      · exact .inl (Option.some.inj hb ▸ mem_of_find? hf)
  · exact .inl (mem_of_find? hb)

theorem mem_upsertAll {t : Table key} {rows : List α} {b : α} {advance : α → α → Bool}
    (h : b ∈ (t.upsertAll rows advance).rows) : b ∈ t.rows ∨ b ∈ rows := by
  induction rows generalizing t with
  | nil => exact .inl h
  | cons a rows ih =>
    obtain h | h := ih h
    · obtain h | rfl := mem_upsert h
      · exact .inl h
      · exact .inr List.mem_cons_self
    · exact .inr (List.mem_cons_of_mem a h)

/-- Rows of distinct keys do not see one another. -/
theorem find?_upsertAll {t : Table key} {rows : List α} (h : (rows.map key).Nodup)
    (advance : α → α → Bool) (k : κ) : (t.upsertAll rows advance).find? k =
      match rows.find? fun a => key a = k with
      | none => t.find? k
      | some a => some ((t.find? k).elim a fun b => if advance a b then a else b) := by
  induction rows generalizing t with
  | nil => rfl
  | cons a rows ih =>
    rw [List.map_cons, List.nodup_cons] at h
    have hrest := ih (t := t.upsert a (advance a)) h.2
    rw [find?_upsert] at hrest
    refine hrest.trans ?_
    by_cases hk : key a = k
    · have hn : (rows.find? fun b => key b = k) = none := by
        rw [List.find?_eq_none]
        intro b hb hbk
        exact h.1 (List.mem_map.mpr ⟨b, hb, (by simpa using hbk : key b = k).trans hk.symm⟩)
      rw [hn, List.find?_cons_of_pos (by simpa using hk), if_pos hk.symm]
    · rw [List.find?_cons_of_neg (by simpa using hk), if_neg fun h => hk h.symm]

theorem find?_upsertAll_of_absent {t : Table key} {rows : List α} {advance : α → α → Bool} {k : κ}
    (h : ∀ a ∈ rows, key a ≠ k) : (t.upsertAll rows advance).find? k = t.find? k := by
  induction rows generalizing t with
  | nil => rfl
  | cons a rows ih =>
    have hk : ¬ k = key a := fun he => h a List.mem_cons_self he.symm
    refine (ih fun b hb => h b (List.mem_cons_of_mem a hb)).trans ?_
    rw [find?_upsert, if_neg hk]

/-- A key among rows that always advance is taken over by one of them. -/
theorem find?_upsertAll_of_present {t : Table key} {rows : List α} {k : κ}
    (h : ∃ a ∈ rows, key a = k) :
    ∃ b ∈ rows, (t.upsertAll rows fun _ _ => true).find? k = some b := by
  induction rows generalizing t with
  | nil => simp at h
  | cons a rows ih =>
    by_cases hrest : ∃ b ∈ rows, key b = k
    · obtain ⟨b, hb, hf⟩ := ih (t := t.upsert a fun _ => true) hrest
      exact ⟨b, List.mem_cons_of_mem a hb, hf⟩
    · obtain ⟨b, hb, rfl⟩ := h
      obtain rfl | hb := List.mem_cons.mp hb
      · have hn : ∀ c ∈ rows, key c ≠ key b := fun c hc he => hrest ⟨c, hc, he⟩
        refine ⟨b, List.mem_cons_self, (find?_upsertAll_of_absent hn).trans ?_⟩
        rw [find?_upsert, if_pos rfl]
        cases t.find? (key b) <;> rfl
      · exact absurd ⟨b, hb, rfl⟩ hrest

/-- No key is lost. -/
theorem exists_mem_upsertAll {t : Table key} {a : α} (h : a ∈ t.rows) (rows : List α)
    (advance : α → α → Bool) : ∃ b ∈ (t.upsertAll rows advance).rows, key b = key a := by
  induction rows generalizing t a with
  | nil => exact ⟨a, h, rfl⟩
  | cons c rows ih =>
    have hstep : ∃ b ∈ (t.upsert c (advance c)).rows, key b = key a := by
      have hf := find?_upsert t c (advance c) (key a)
      rw [find?_of_mem h, Option.elim_some] at hf
      split_ifs at hf
      all_goals exact ⟨_, mem_of_find? hf, key_of_find? hf⟩
    obtain ⟨b, hb, hkey⟩ := hstep
    obtain ⟨d, hd, hkey'⟩ := ih hb
    exact ⟨d, hd, hkey'.trans hkey⟩

theorem exists_mem_upsertAll_of_row {t : Table key} {rows : List α} {a : α} (h : a ∈ rows)
    (advance : α → α → Bool) : ∃ b ∈ (t.upsertAll rows advance).rows, key b = key a := by
  induction rows generalizing t with
  | nil => cases h
  | cons c rows ih =>
    obtain rfl | h := List.mem_cons.mp h
    · have hf := find?_upsert t a (advance a) (key a)
      rw [if_pos rfl] at hf
      obtain ⟨b, hb, hkey⟩ := exists_mem_upsertAll (mem_of_find? hf) rows advance
      exact ⟨b, hb, hkey.trans (key_of_find? hf)⟩
    · exact ih h

/-- Rows of distinct keys that always advance take the place of what has their keys. -/
theorem mem_upsertAll_iff {t : Table key} {rows : List α} (h : (rows.map key).Nodup) {a : α} :
    a ∈ (t.upsertAll rows fun _ _ => true).rows ↔
      a ∈ rows ∨ a ∈ t.rows ∧ ∀ b ∈ rows, key b ≠ key a := by
  rw [mem_iff_find?]
  by_cases hr : ∃ b ∈ rows, key b = key a
  · obtain ⟨b, hb, hf⟩ := find?_upsertAll_of_present (t := t) hr
    have hkey := key_of_find? hf
    rw [hf, Option.some.injEq]
    constructor
    · rintro rfl
      exact .inl hb
    · rintro (ha | ⟨-, hn⟩)
      · exact List.inj_on_of_nodup_map h hb ha hkey
      · exact absurd hkey (hn b hb)
  · have hn : ∀ b ∈ rows, key b ≠ key a := fun b hb he => hr ⟨b, hb, he⟩
    rw [find?_upsertAll_of_absent hn, find?_eq_some_iff, and_iff_left rfl]
    exact ⟨fun ha => .inr ⟨ha, hn⟩, fun ha => ha.elim (fun hm => absurd rfl (hn a hm)) And.left⟩

/-- Distinct rows over all of a table's keys replace the table. -/
theorem upsertAll_perm {t : Table key} {rows : List α} (h : (rows.map key).Nodup)
    (hcover : ∀ a ∈ t.rows, ∃ b ∈ rows, key b = key a) :
    (t.upsertAll rows fun _ _ => true).rows.Perm rows := by
  rw [List.perm_ext_iff_of_nodup (List.Nodup.of_map key (Table.nodup _)) (List.Nodup.of_map key h)]
  have hkey : ∀ a, (∃ b ∈ rows, key b = key a) →
      ∃ b ∈ rows, (t.upsertAll rows fun _ _ => true).find? (key a) = some b := fun a ha =>
    find?_upsertAll_of_present ha
  intro a
  constructor
  · intro ha
    have hsome : ∃ b ∈ rows, key b = key a := by
      obtain hold | hnew := mem_upsertAll ha
      · exact hcover a hold
      · exact ⟨a, hnew, rfl⟩
    obtain ⟨b, hb, hf⟩ := hkey a hsome
    rw [find?_of_mem ha] at hf
    exact Option.some.inj hf ▸ hb
  · intro ha
    obtain ⟨b, hb, hf⟩ := hkey a ⟨a, ha, rfl⟩
    have he : b = a := List.inj_on_of_nodup_map h hb ha (key_of_find? hf)
    exact mem_of_find? (he ▸ hf)

/-- Tables that answer alike have the same rows. -/
theorem perm_of_find? {t t' : Table key} (h : ∀ k, t.find? k = t'.find? k) :
    t.rows.Perm t'.rows := by
  rw [List.perm_ext_iff_of_nodup (List.Nodup.of_map key t.nodup) (List.Nodup.of_map key t'.nodup)]
  intro a
  rw [mem_iff_find?, mem_iff_find?, h]

/-- The rows without those that have one of the keys. -/
def without (t : Table key) (gone : List κ) : Table key :=
  ⟨t.rows.filter fun a => key a ∉ gone, t.nodup.sublist (List.filter_sublist.map key)⟩

theorem mem_without {t : Table key} {gone : List κ} {a : α} :
    a ∈ (t.without gone).rows ↔ a ∈ t.rows ∧ key a ∉ gone := by
  simp [without]

section Cascade
variable (parent : α → Option κ)

/-- The keys of the rows left under a row that is gone. -/
def orphans (t : Table key) (gone : List κ) : List κ :=
  ((t.without gone).rows.filter fun a =>
    (parent a).any fun k => k ∈ gone ∧ (t.find? k).isSome).map key

def cascade : Nat → Table key → List κ → Table key
  | 0, t, _ => t
  | fuel + 1, t, gone => cascade fuel (t.without gone) (t.orphans parent gone)

/-- The deletion of the rows with these keys, and with each row of those under it. -/
def deleteCascade (t : Table key) (gone : List κ) : Table key :=
  t.cascade parent (t.rows.length + 1) gone

variable {parent}

theorem mem_orphans {t : Table key} {gone : List κ} {k : κ} : k ∈ t.orphans parent gone ↔
    ∃ a ∈ t.rows, key a = k ∧ k ∉ gone ∧ ∃ k' ∈ gone, parent a = some k' ∧ ∃ b ∈ t.rows,
      key b = k' := by
  unfold orphans
  simp only [List.mem_map, List.mem_filter, mem_without]
  constructor
  · rintro ⟨a, ⟨⟨ha, hk⟩, hp⟩, rfl⟩
    obtain ⟨k', hk', hp⟩ := (Option.any_eq_true _ _).mp hp
    obtain ⟨hgone, hsome⟩ := of_decide_eq_true hp
    obtain ⟨b, hb⟩ := Option.isSome_iff_exists.mp hsome
    exact ⟨a, ha, rfl, hk, k', hgone, hk', b, mem_of_find? hb, key_of_find? hb⟩
  · rintro ⟨a, ha, rfl, hk, k', hgone, hp, b, hb, rfl⟩
    refine ⟨a, ⟨⟨ha, hk⟩, ?_⟩, rfl⟩
    rw [hp, Option.any_some, find?_of_mem hb]
    exact decide_eq_true ⟨hgone, rfl⟩

theorem mem_of_mem_cascade (fuel : Nat) {t : Table key} {gone : List κ} {a : α}
    (h : a ∈ (t.cascade parent fuel gone).rows) : a ∈ t.rows := by
  induction fuel generalizing t gone with
  | zero => exact h
  | succ fuel ih => exact (mem_without.mp (ih h)).1

theorem mem_cascade_succ {fuel : Nat} {t : Table key} {gone : List κ} {a : α}
    (h : a ∈ (t.cascade parent (fuel + 1) gone).rows) : a ∈ t.rows ∧ key a ∉ gone :=
  mem_without.mp (mem_of_mem_cascade fuel h)

theorem mem_deleteCascade {t : Table key} {gone : List κ} {a : α}
    (h : a ∈ (t.deleteCascade parent gone).rows) : a ∈ t.rows ∧ key a ∉ gone := mem_cascade_succ h

/-- The cascade spares rows that are under one another only. -/
theorem mem_cascade_of_closed {S : α → Prop} {fuel : Nat} {t : Table key} {gone : List κ}
    (hgone : ∀ a ∈ t.rows, S a → key a ∉ gone)
    (hparent : ∀ a ∈ t.rows, S a → ∀ b ∈ t.rows, parent a = some (key b) → S b) {a : α}
    (ha : a ∈ t.rows) (hs : S a) : a ∈ (t.cascade parent fuel gone).rows := by
  induction fuel generalizing t gone with
  | zero => exact ha
  | succ fuel ih =>
    refine ih ?_ ?_ (mem_without.mpr ⟨ha, hgone a ha hs⟩)
    · intro b hb hsb horphan
      obtain ⟨hb, -⟩ := mem_without.mp hb
      obtain ⟨c, hc, he, -, k, hk, hp, d, hd, rfl⟩ := mem_orphans.mp horphan
      obtain rfl := List.inj_on_of_nodup_map t.nodup hc hb he
      exact hgone d hd (hparent c hc hsb d hd hp) hk
    · intro b hb hsb c hc
      exact hparent b (mem_without.mp hb).1 hsb c (mem_without.mp hc).1

theorem mem_deleteCascade_of_closed {S : α → Prop} {t : Table key} {gone : List κ}
    (hgone : ∀ a ∈ t.rows, S a → key a ∉ gone)
    (hparent : ∀ a ∈ t.rows, S a → ∀ b ∈ t.rows, parent a = some (key b) → S b) {a : α}
    (ha : a ∈ t.rows) (hs : S a) : a ∈ (t.deleteCascade parent gone).rows :=
  mem_cascade_of_closed hgone hparent ha hs

end Cascade

theorem mem_ofRows {rows : List α} {a : α} (h : a ∈ (ofRows rows : Table key).rows) : a ∈ rows := by
  obtain h | h := mem_upsertAll h
  · cases h
  · exact h

/-- Rows of new and distinct keys come after the others, in their order. -/
theorem rows_upsertAll {t : Table key} {rows : List α} (h : (rows.map key).Nodup)
    (hnew : ∀ a ∈ rows, t.find? (key a) = none) (advance : α → α → Bool) :
    (t.upsertAll rows advance).rows = t.rows ++ rows := by
  induction rows generalizing t with
  | nil => exact (List.append_nil _).symm
  | cons a rows ih =>
    rw [List.map_cons, List.nodup_cons] at h
    have ha : t.find? (key a) = none := hnew a List.mem_cons_self
    have hstep : (t.upsert a (advance a)).rows = t.rows ++ [a] := by
      unfold upsert
      split
      · rfl
      · rename_i b hb
        rw [ha] at hb
        cases hb
    have hrest : ∀ b ∈ rows, (t.upsert a (advance a)).find? (key b) = none := by
      intro b hb
      have hne : key b ≠ key a := fun he => h.1 (List.mem_map.mpr ⟨b, hb, he⟩)
      rw [find?_upsert, if_neg hne]
      exact hnew b (List.mem_cons_of_mem a hb)
    change ((t.upsert a (advance a)).upsertAll rows advance).rows = _
    rw [ih h.2 hrest, hstep, List.append_assoc]
    rfl

theorem rows_ofRows {rows : List α} (h : (rows.map key).Nodup) :
    (ofRows rows : Table key).rows = rows :=
  rows_upsertAll h (fun _ _ => rfl) _

end Lookup

end Table
