import Mathlib.Data.List.Sort
import Leitstand.Table

universe u v w
variable {κ : Type u} {ρ : Type v} {τ : Type w}

/-- Rows that hold a forest: each may point at the row it is under, and has its place among the rows
under the same one. A row and the trees under it make a tree. -/
structure RowForest (κ : Type u) (ρ : Type v) (τ : Type w) where
  key : ρ → κ
  parent : ρ → Option κ
  sequence : ρ → Nat
  assemble : ρ → List τ → τ

namespace RowForest

/-- The rows list the trees depth first, the top ones under `p` and numbered from `n` on. -/
inductive Lists (F : RowForest κ ρ τ) : Option κ → Nat → List ρ → List τ → Prop
  | nil (p : Option κ) (n : Nat) : Lists F p n [] []
  | cons {p : Option κ} {n : Nat} {row : ρ} {below rest : List ρ} {children trees : List τ} :
      F.parent row = p → F.sequence row = n → Lists F (some (F.key row)) 0 below children →
      Lists F p (n + 1) rest trees →
      Lists F p n (row :: (below ++ rest)) (F.assemble row children :: trees)

section Lists
variable {F : RowForest κ ρ τ} {p : Option κ} {n : Nat} {part : List ρ} {trees : List τ}

/-- A listed row is a top one or under a listed one. -/
theorem Lists.parent_eq (h : F.Lists p n part trees) {row : ρ} (hrow : row ∈ part) :
    F.parent row = p ∨ ∃ above ∈ part, F.parent row = some (F.key above) := by
  induction h with
  | nil => cases hrow
  | @cons p n top below rest children trees hp hn _ _ ihb ihr =>
    obtain rfl | hrow := List.mem_cons.mp hrow
    · exact .inl hp
    · obtain hrow | hrow := List.mem_append.mp hrow
      · obtain h | ⟨above, ha, h⟩ := ihb hrow
        · exact .inr ⟨top, List.mem_cons_self, h⟩
        · exact .inr ⟨above, List.mem_cons_of_mem _ (List.mem_append_left _ ha), h⟩
      · obtain h | ⟨above, ha, h⟩ := ihr hrow
        · exact .inl h
        · exact .inr ⟨above, List.mem_cons_of_mem _ (List.mem_append_right _ ha), h⟩

theorem Lists.le_sequence (h : F.Lists p n part trees) (hp : ∀ row ∈ part, p ≠ some (F.key row))
    {row : ρ} (hrow : row ∈ part) (htop : F.parent row = p) : n ≤ F.sequence row := by
  induction h with
  | nil => cases hrow
  | @cons p n top below rest children trees _ hn hb _ _ ihr =>
    obtain rfl | hrow := List.mem_cons.mp hrow
    · exact hn.ge
    · obtain hrow | hrow := List.mem_append.mp hrow
      · obtain h | ⟨above, ha, h⟩ := hb.parent_eq hrow
        · exact absurd (htop.symm.trans h) (hp top List.mem_cons_self)
        · refine absurd (htop.symm.trans h) (hp above ?_)
          exact List.mem_cons_of_mem _ (List.mem_append_left _ ha)
      · have hle := ihr (fun row h => hp row (List.mem_cons_of_mem _ (List.mem_append_right _ h)))
          hrow htop
        omega

/-- What the distinctness of a listing's keys says of its parts. -/
theorem nodup_parts {row : ρ} {below rest : List ρ}
    (h : ((row :: (below ++ rest)).map F.key).Nodup) :
    (below.map F.key).Nodup ∧ (rest.map F.key).Nodup ∧ (∀ a ∈ below, F.key row ≠ F.key a) ∧
      (∀ a ∈ rest, F.key row ≠ F.key a) ∧ ∀ a ∈ below, ∀ b ∈ rest, F.key a ≠ F.key b := by
  rw [List.map_cons, List.map_append, List.nodup_cons, List.nodup_append] at h
  obtain ⟨hrow, hbelow, hrest, hdisj⟩ := h
  refine ⟨hbelow, hrest, ?_, ?_, ?_⟩
  · intro a ha he
    exact hrow (he ▸ List.mem_append_left _ (List.mem_map_of_mem ha))
  · intro a ha he
    exact hrow (he ▸ List.mem_append_right _ (List.mem_map_of_mem ha))
  · intro a ha b hb
    exact hdisj _ (List.mem_map_of_mem ha) _ (List.mem_map_of_mem hb)

/-- No two listed rows have the same place. -/
theorem Lists.nodup_place (h : F.Lists p n part trees) (hk : (part.map F.key).Nodup)
    (hp : ∀ row ∈ part, p ≠ some (F.key row)) :
    (part.map fun row => (F.parent row, F.sequence row)).Nodup := by
  induction h with
  | nil => exact List.nodup_nil
  | @cons p n row below rest children trees htop hn hb hr ihb ihr =>
    obtain ⟨hkb, hkr, hrb, hrr, hbr⟩ := nodup_parts hk
    have hpb : ∀ a ∈ below, p ≠ some (F.key a) := fun a ha =>
      hp a (List.mem_cons_of_mem _ (List.mem_append_left _ ha))
    have hpr : ∀ a ∈ rest, p ≠ some (F.key a) := fun a ha =>
      hp a (List.mem_cons_of_mem _ (List.mem_append_right _ ha))
    -- A row below `row` is under it or under another row below it, so never beside it.
    have hbelow : ∀ a ∈ below, F.parent a ≠ p ∧ ∀ b ∈ rest, F.parent a ≠ some (F.key b) := by
      intro a ha
      obtain h | ⟨above, habove, h⟩ := hb.parent_eq ha
      · rw [h]
        exact ⟨(hp row List.mem_cons_self).symm, fun b hb he => hrr b hb (Option.some.inj he)⟩
      · rw [h]
        exact ⟨(hpb above habove).symm, fun b hb he => hbr above habove b hb (Option.some.inj he)⟩
    rw [List.map_cons, List.map_append, List.nodup_cons, List.nodup_append]
    refine ⟨?_, ihb hkb fun a ha he => hrb a ha (Option.some.inj he), ihr hkr hpr, ?_⟩
    · intro hmem
      obtain hmem | hmem := List.mem_append.mp hmem
      · obtain ⟨a, ha, he⟩ := List.mem_map.mp hmem
        exact (hbelow a ha).1 ((Prod.mk.inj he).1.trans htop)
      · obtain ⟨a, ha, he⟩ := List.mem_map.mp hmem
        obtain ⟨he₁, he₂⟩ := Prod.mk.inj he
        have hle := hr.le_sequence hpr ha (he₁.trans htop)
        omega
    · intro x hx y hy he
      obtain ⟨a, ha, rfl⟩ := List.mem_map.mp hx
      obtain ⟨b, hb', rfl⟩ := List.mem_map.mp hy
      have hparent := (Prod.mk.inj he).1
      obtain h | ⟨above, habove, h⟩ := hr.parent_eq hb'
      · exact (hbelow a ha).1 (hparent.trans h)
      · exact (hbelow a ha).2 above habove (hparent.trans h)

end Lists

section Build
variable [DecidableEq κ] (F : RowForest κ ρ τ) (rows : List ρ)

def under (p : Option κ) : List ρ := rows.filter fun row => F.parent row = p

/-- The trees under `p`, or `none` where `fuel` is less than their depth. -/
def build : Nat → Option κ → Option (List τ)
  | 0, _ => none
  | fuel + 1, p =>
    ((F.under rows p).insertionSort fun a b => F.sequence a ≤ F.sequence b).mapM fun row =>
      (build fuel (some (F.key row))).map (F.assemble row)

end Build

section Rebuild
variable [DecidableEq κ] {F : RowForest κ ρ τ} {rows part : List ρ} {p : Option κ} {n : Nat}
  {trees : List τ}

theorem under_append (a b : List ρ) : F.under (a ++ b) p = F.under a p ++ F.under b p :=
  List.filter_append a b

theorem under_cons_of_eq {row : ρ} (h : F.parent row = p) :
    F.under (row :: rows) p = row :: F.under rows p := List.filter_cons_of_pos (by simpa using h)

theorem under_cons_of_ne {row : ρ} (h : F.parent row ≠ p) :
    F.under (row :: rows) p = F.under rows p := List.filter_cons_of_neg (by simpa using h)

/-- Nothing in a listing is under a key from outside it. -/
theorem Lists.under_eq_nil (h : F.Lists p n part trees) {q : Option κ} (hq : q ≠ p)
    (hpart : ∀ row ∈ part, q ≠ some (F.key row)) : F.under part q = [] := by
  refine List.filter_eq_nil_iff.mpr ?_
  intro row hrow he
  have hparent : F.parent row = q := by simpa using he
  obtain h | ⟨above, ha, h⟩ := h.parent_eq hrow
  · exact hq (hparent.symm.trans h)
  · exact hpart above ha (hparent.symm.trans h)

/-- The top rows of a listing come in order. -/
theorem Lists.pairwise_under (h : F.Lists p n part trees) (hk : (part.map F.key).Nodup)
    (hp : ∀ row ∈ part, p ≠ some (F.key row)) :
    (F.under part p).Pairwise fun a b => F.sequence a < F.sequence b := by
  induction h with
  | nil => exact List.Pairwise.nil
  | @cons p n row below rest children trees htop hn hb hr _ ihr =>
    obtain ⟨-, hkr, -, -, -⟩ := nodup_parts hk
    have hpr : ∀ a ∈ rest, p ≠ some (F.key a) := fun a ha =>
      hp a (List.mem_cons_of_mem _ (List.mem_append_right _ ha))
    have hbelow : F.under below p = [] := hb.under_eq_nil (hp row List.mem_cons_self) fun a ha =>
      hp a (List.mem_cons_of_mem _ (List.mem_append_left _ ha))
    rw [under_cons_of_eq htop, under_append, hbelow, List.nil_append, List.pairwise_cons]
    refine ⟨?_, ihr hkr hpr⟩
    intro a ha
    obtain ⟨ha, he⟩ := List.mem_filter.mp ha
    have hle := hr.le_sequence hpr ha (by simpa using he)
    omega

/-- Sorting brings the rows back into the order in which they were listed. -/
theorem insertionSort_under (h : (F.under rows p).Perm (F.under part p))
    (hs : (F.under part p).Pairwise fun a b => F.sequence a < F.sequence b) :
    (F.under rows p).insertionSort (fun a b => F.sequence a ≤ F.sequence b) = F.under part p := by
  have hperm := (List.perm_insertionSort (fun a b => F.sequence a ≤ F.sequence b) _).trans h
  have hinj : ((F.under part p).map F.sequence).Nodup := by
    rw [List.Nodup, List.pairwise_map]
    exact hs.imp Nat.ne_of_lt
  refine hperm.eq_of_pairwise ?_ (List.pairwise_insertionSort _ _) (hs.imp Nat.le_of_lt)
  intro a b ha hb hab hba
  exact List.inj_on_of_nodup_map hinj (hperm.mem_iff.mp ha) hb (Nat.le_antisymm hab hba)

/-- What is under a row of a listing is listed below it. -/
theorem Lists.under_below {row : ρ} {below rest : List ρ} {children : List τ}
    (hb : F.Lists (some (F.key row)) 0 below children) (hr : F.Lists p (n + 1) rest trees)
    (htop : F.parent row = p) (hk : ((row :: (below ++ rest)).map F.key).Nodup)
    (hp : ∀ a ∈ row :: (below ++ rest), p ≠ some (F.key a)) {above : ρ}
    (habove : above = row ∨ above ∈ below) :
    F.under (row :: (below ++ rest)) (some (F.key above)) =
      F.under below (some (F.key above)) := by
  obtain ⟨-, -, -, hrr, hbr⟩ := nodup_parts hk
  have hmem : above ∈ row :: (below ++ rest) := by
    obtain rfl | h := habove
    · exact List.mem_cons_self
    · exact List.mem_cons_of_mem _ (List.mem_append_left _ h)
  have hrest : F.under rest (some (F.key above)) = [] := by
    refine hr.under_eq_nil (hp above hmem).symm ?_
    intro a ha he
    obtain rfl | h := habove
    · exact hrr a ha (Option.some.inj he)
    · exact hbr above h a ha (Option.some.inj he)
  rw [under_cons_of_ne (htop.trans_ne (hp above hmem)), under_append, hrest, List.append_nil]

/-- What is under a row of the rest is listed in the rest. -/
theorem Lists.under_rest {row : ρ} {below rest : List ρ} {children : List τ}
    (hb : F.Lists (some (F.key row)) 0 below children) (htop : F.parent row = p)
    (hk : ((row :: (below ++ rest)).map F.key).Nodup)
    (hp : ∀ a ∈ row :: (below ++ rest), p ≠ some (F.key a)) {above : ρ} (habove : above ∈ rest) :
    F.under (row :: (below ++ rest)) (some (F.key above)) =
      F.under rest (some (F.key above)) := by
  obtain ⟨-, -, -, hrr, hbr⟩ := nodup_parts hk
  have hmem : above ∈ row :: (below ++ rest) :=
    List.mem_cons_of_mem _ (List.mem_append_right _ habove)
  have hbelow : F.under below (some (F.key above)) = [] := by
    refine hb.under_eq_nil (fun he => hrr above habove (Option.some.inj he).symm) ?_
    intro a ha he
    exact hbr a ha above habove (Option.some.inj he).symm
  rw [under_cons_of_ne (htop.trans_ne (hp above hmem)), under_append, hbelow, List.nil_append]

theorem Lists.mapM_build (h : F.Lists p n part trees) (hk : (part.map F.key).Nodup)
    (hp : ∀ row ∈ part, p ≠ some (F.key row))
    (hrows : ∀ row ∈ part,
      (F.under rows (some (F.key row))).Perm (F.under part (some (F.key row))))
    {fuel : Nat} (hfuel : part.length ≤ fuel) :
    ((F.under part p).mapM fun row => (F.build rows fuel (some (F.key row))).map
      (F.assemble row)) = some trees := by
  induction h generalizing fuel with
  | nil => rfl
  | @cons p n row below rest children trees htop hn hb hr ihb ihr =>
    obtain ⟨hkb, hkr, hrb, -, -⟩ := nodup_parts hk
    have hpr : ∀ a ∈ rest, p ≠ some (F.key a) := fun a ha =>
      hp a (List.mem_cons_of_mem _ (List.mem_append_right _ ha))
    have hpb : ∀ a ∈ below, some (F.key row) ≠ some (F.key a) := fun a ha he =>
      hrb a ha (Option.some.inj he)
    have hbelow : F.under below p = [] := hb.under_eq_nil (hp row List.mem_cons_self) fun a ha =>
      hp a (List.mem_cons_of_mem _ (List.mem_append_left _ ha))
    rw [List.length_cons, List.length_append] at hfuel
    obtain ⟨fuel, rfl⟩ : ∃ m, fuel = m + 1 := ⟨fuel - 1, by omega⟩
    have hchildren : F.build rows (fuel + 1) (some (F.key row)) = some children := by
      have hperm := hrows row List.mem_cons_self
      rw [hb.under_below hr htop hk hp (.inl rfl)] at hperm
      unfold build
      rw [insertionSort_under hperm (hb.pairwise_under hkb hpb)]
      refine ihb hkb hpb ?_ (by omega)
      intro a ha
      rw [← hb.under_below hr htop hk hp (.inr ha)]
      exact hrows a (List.mem_cons_of_mem _ (List.mem_append_left _ ha))
    have hrest : rest.length ≤ fuel + 1 := by omega
    have htrees := ihr hkr hpr (by
      intro a ha
      rw [← hb.under_rest htop hk hp ha]
      exact hrows a (List.mem_cons_of_mem _ (List.mem_append_right _ ha))) hrest
    rw [under_cons_of_eq htop, under_append, hbelow, List.nil_append, List.mapM_cons, hchildren,
      htrees]
    rfl

/-- A listed forest is rebuilt from its rows, in whatever order they come. -/
theorem Lists.build_eq (h : F.Lists none 0 part trees) (hk : (part.map F.key).Nodup)
    (hrows : rows.Perm part) : F.build rows (rows.length + 1) none = some trees := by
  have hp : ∀ row ∈ part, none ≠ some (F.key row) := fun row _ he => by cases he
  have hunder : ∀ p, (F.under rows p).Perm (F.under part p) := fun p => hrows.filter _
  unfold build
  rw [insertionSort_under (hunder none) (h.pairwise_under hk hp)]
  exact h.mapM_build hk hp (fun row _ => hunder _) hrows.length_eq.ge

end Rebuild
end RowForest
