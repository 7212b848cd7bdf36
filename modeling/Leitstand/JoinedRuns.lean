import Mathlib.Data.List.SplitBy

universe u v w
variable {α : Type u} {β : Type v} {κ : Type w}

/-! Runs that share their joining points: put together without the repeats, and cut apart again. -/

namespace JoinedRuns

/-- The runs one after another, the first element of each later run left out. -/
def join : List (List α) → List α
  | [] => []
  | run :: runs => run ++ runs.flatMap List.tail

/-- Where each run lies in what the runs join to, as the place it begins at and its length. -/
def stretches : Nat → List (List α) → List (Nat × Nat)
  | _, [] => []
  | offset, run :: runs => (offset, run.length) :: stretches (offset + (run.length - 1)) runs

def cut (l : List α) (stretch : Nat × Nat) : List α := (l.drop stretch.1).take stretch.2

/-- A list without the elements at which a new run begins, the first apart. -/
def dropBreaks (r : α → α → Bool) : List α → List α
  | [] => []
  | [a] => [a]
  | a :: b :: rest =>
    if r a b then a :: dropBreaks r (b :: rest) else a :: (dropBreaks r (b :: rest)).tail

section Join
variable {run next : List α} {runs : List (List α)} {offset : Nat} {l : List β} {f : α → β}

theorem join_map (runs : List (List α)) : join (runs.map (List.map f)) = (join runs).map f := by
  cases runs with
  | nil => rfl
  | cons run runs =>
    change run.map f ++ (runs.map (List.map f)).flatMap List.tail =
      (run ++ runs.flatMap List.tail).map f
    rw [List.map_append, List.map_flatMap, List.flatMap_map]
    simp only [List.map_tail]

theorem stretches_map (offset : Nat) (runs : List (List α)) :
    stretches offset (runs.map (List.map f)) = stretches offset runs := by
  induction runs generalizing offset with
  | nil => rfl
  | cons run runs ih =>
    rw [List.map_cons]
    unfold stretches
    rw [List.length_map, ih]

theorem cut_map (l : List α) (s : Nat × Nat) : cut (l.map f) s = (cut l s).map f := by
  unfold cut
  rw [← List.map_drop, ← List.map_take]

/-- From the second run on it is the joining point, not the first of the run, that comes first. -/
theorem join_cons_cons (hnext : next ≠ []) :
    join (run :: next :: runs) = run ++ (join (next :: runs)).tail := by
  obtain ⟨a, rest, rfl⟩ := List.exists_cons_of_ne_nil hnext
  rfl

theorem length_join_cons_cons (hrun : run ≠ []) (hnext : next ≠ []) :
    (join (run :: next :: runs)).length =
      (run.length - 1) + (join (next :: runs)).length := by
  have hpos := List.length_pos_iff.mpr hrun
  have hpos' : 0 < (join (next :: runs)).length := by
    unfold join
    rw [List.length_append]
    exact Nat.add_pos_left (List.length_pos_iff.mpr hnext) _
  rw [join_cons_cons hnext, List.length_append, List.length_tail]
  omega

/-- Every stretch lies within the list. -/
theorem stretches_within (hruns : [] ∉ runs) (hlen : l.length = offset + (join runs).length) :
    ∀ s ∈ stretches offset runs, s.1 + s.2 ≤ l.length := by
  induction runs generalizing offset with
  | nil => nofun
  | cons run runs ih =>
    intro s hs
    rw [List.mem_cons, not_or] at hruns
    rcases List.mem_cons.mp hs with rfl | hs
    · have hle : run.length ≤ (join (run :: runs)).length := by
        unfold join
        rw [List.length_append]
        exact Nat.le_add_right _ _
      dsimp only
      omega
    · cases runs with
      | nil => cases hs
      | cons next runs =>
        have hnext : next ≠ [] := fun h => hruns.2 (h ▸ List.mem_cons_self)
        rw [length_join_cons_cons (Ne.symm hruns.1) hnext] at hlen
        exact ih hruns.2 (by omega) s hs

theorem length_cut (s : Nat × Nat) (h : s.1 + s.2 ≤ l.length) : (cut l s).length = s.2 := by
  unfold cut
  rw [List.length_take, List.length_drop]
  omega

theorem map_snd_stretches (offset : Nat) (runs : List (List α)) :
    (stretches offset runs).map Prod.snd = runs.map List.length := by
  induction runs generalizing offset with
  | nil => rfl
  | cons run runs ih => exact congrArg (run.length :: ·) (ih _)

theorem length_cuts (hruns : [] ∉ runs) (hlen : l.length = offset + (join runs).length) :
    ((stretches offset runs).map (cut l)).map List.length = runs.map List.length := by
  rw [List.map_map, ← map_snd_stretches offset]
  exact List.map_congr_left fun s hs => length_cut s (stretches_within hruns hlen s hs)

/-- The stretches cut out of a list join to the list. -/
theorem join_cuts (hne : runs ≠ []) (hruns : [] ∉ runs)
    (hlen : l.length = offset + (join runs).length) :
    join ((stretches offset runs).map (cut l)) = l.drop offset := by
  induction runs generalizing offset with
  | nil => exact absurd rfl hne
  | cons run runs ih =>
    rw [List.mem_cons, not_or] at hruns
    cases runs with
    | nil =>
      have hall : (l.drop offset).length ≤ run.length := by
        rw [List.length_drop, hlen]
        simp [join]
      change (l.drop offset).take run.length ++ [] = _
      rw [List.append_nil, List.take_of_length_le hall]
    | cons next runs =>
      have hnext : next ≠ [] := fun h => hruns.2 (h ▸ List.mem_cons_self)
      have hpos := List.length_pos_iff.mpr (Ne.symm hruns.1)
      rw [length_join_cons_cons (Ne.symm hruns.1) hnext] at hlen
      have hlen' : l.length = offset + (run.length - 1) + (join (next :: runs)).length := by omega
      have hrest := ih (List.cons_ne_nil _ _) hruns.2 hlen'
      have hwithin := stretches_within hruns.2 hlen'
      have hcut : cut l (offset + (run.length - 1), next.length) ≠ [] := by
        rw [← List.length_pos_iff, length_cut _ (hwithin _ List.mem_cons_self)]
        exact List.length_pos_iff.mpr hnext
      change join (_ :: _ :: _) = _
      rw [join_cons_cons hcut]
      change _ ++ (join ((stretches _ (next :: runs)).map (cut l))).tail = _
      rw [hrest, List.tail_drop]
      unfold cut
      dsimp only
      have hend : offset + (run.length - 1) + 1 = offset + run.length := by omega
      rw [hend, ← List.drop_drop, List.take_append_drop]

/-- Consecutive stretches share an element. -/
theorem cuts_share (hruns : [] ∉ runs) (hlen : l.length = offset + (join runs).length) :
    ((stretches offset runs).map (cut l)).IsChain fun a b => ∃ x ∈ a.getLast?, b.head? = some x := by
  induction runs generalizing offset with
  | nil => exact .nil
  | cons run runs ih =>
    rw [List.mem_cons, not_or] at hruns
    cases runs with
    | nil => exact .singleton _
    | cons next runs =>
      have hnext : next ≠ [] := fun h => hruns.2 (h ▸ List.mem_cons_self)
      have hpos := List.length_pos_iff.mpr (Ne.symm hruns.1)
      have hpos' := List.length_pos_iff.mpr hnext
      rw [length_join_cons_cons (Ne.symm hruns.1) hnext] at hlen
      have hlen' : l.length = offset + (run.length - 1) + (join (next :: runs)).length := by omega
      have hwithin := stretches_within hruns.2 hlen' _ List.mem_cons_self
      dsimp only at hwithin
      have hlast : run.length - 1 < run.length := by omega
      refine .cons_cons ⟨l[offset + (run.length - 1)], ?_, ?_⟩ (ih hruns.2 hlen')
      · change ((l.drop offset).take run.length).getLast? = _
        rw [List.getLast?_eq_getElem?, List.length_take, List.length_drop,
          Nat.min_eq_left (by omega), List.getElem?_take_of_lt hlast, List.getElem?_drop,
          List.getElem?_eq_getElem]
      · change ((l.drop (offset + (run.length - 1))).take next.length).head? = _
        rw [List.head?_eq_getElem?, List.getElem?_take_of_lt hpos', List.getElem?_drop,
          Nat.add_zero, List.getElem?_eq_getElem]

/-- Runs that already share their joining points are what is cut out of what they join to. -/
theorem cuts_join (hruns : [] ∉ runs)
    (hshare : runs.IsChain fun a b => a.getLast? = b.head?) (front : List α) :
    (stretches front.length runs).map (cut (front ++ join runs)) = runs := by
  induction runs generalizing front with
  | nil => rfl
  | cons run runs ih =>
    rw [List.mem_cons, not_or] at hruns
    have hcut : cut (front ++ join (run :: runs)) (front.length, run.length) = run := by
      unfold cut join
      rw [List.drop_left, List.take_left]
    change cut _ _ :: _ = _
    rw [hcut]
    congr 1
    cases runs with
    | nil => rfl
    | cons next runs =>
      rw [List.isChain_cons_cons] at hshare
      have hnext : next ≠ [] := fun h => hruns.2 (h ▸ List.mem_cons_self)
      obtain ⟨x, rest, rfl⟩ := List.exists_cons_of_ne_nil hnext
      have hlast : run.dropLast ++ [x] = run := List.dropLast_append_getLast? x hshare.1
      have hwhole : front ++ join (run :: (x :: rest) :: runs) =
          (front ++ run.dropLast) ++ join ((x :: rest) :: runs) := by
        change front ++ (run ++ (rest ++ runs.flatMap List.tail)) =
          (front ++ run.dropLast) ++ (x :: rest ++ runs.flatMap List.tail)
        nth_rewrite 1 [← hlast]
        simp only [List.append_assoc, List.cons_append, List.nil_append]
      have hfront : front.length + (run.length - 1) = (front ++ run.dropLast).length := by
        rw [List.length_append, List.length_dropLast]
      rw [hwhole, hfront]
      exact ih hruns.2 hshare.2 _

theorem tail_join (hruns : [] ∉ runs) : (join runs).tail = runs.flatMap List.tail := by
  cases runs with
  | nil => rfl
  | cons run runs =>
    rw [List.mem_cons, not_or] at hruns
    obtain ⟨a, rest, rfl⟩ := List.exists_cons_of_ne_nil (Ne.symm hruns.1)
    rfl

section Breaks
variable {r : α → α → Bool} {a : α} {rest : List α}

theorem dropBreaks_cons_cons (a b : α) (rest : List α) : dropBreaks r (a :: b :: rest) =
    if r a b then a :: dropBreaks r (b :: rest) else a :: (dropBreaks r (b :: rest)).tail := rfl

/-- Nothing is left out within a run. -/
theorem dropBreaks_run (hrun : (a :: run).IsChain fun x y => r x y = true)
    (hbreak : ∀ b ∈ rest.head?, r ((a :: run).getLast (List.cons_ne_nil _ _)) b = false) :
    dropBreaks r (a :: run ++ rest) = a :: run ++ (dropBreaks r rest).tail := by
  induction run generalizing a with
  | nil =>
    cases rest with
    | nil => rfl
    | cons b rest =>
      have hr : ¬ r a b = true := Bool.eq_false_iff.mp (hbreak b rfl)
      exact (dropBreaks_cons_cons a b rest).trans (if_neg hr)
  | cons b run ih =>
    rw [List.isChain_cons_cons] at hrun
    have hrest := ih hrun.2 hbreak
    exact (dropBreaks_cons_cons a b _).trans ((if_pos hrun.1).trans (congrArg (a :: ·) hrest))

theorem join_eq_dropBreaks (hruns : [] ∉ runs)
    (hrun : ∀ run ∈ runs, run.IsChain fun x y => r x y = true)
    (hbreak : runs.IsChain fun a b => ∃ ha hb, r (a.getLast ha) (b.head hb) = false) :
    join runs = dropBreaks r runs.flatten := by
  induction runs with
  | nil => rfl
  | cons run runs ih =>
    rw [List.mem_cons, not_or] at hruns
    rw [List.forall_mem_cons] at hrun
    rw [List.isChain_cons] at hbreak
    obtain ⟨a, rest, rfl⟩ := List.exists_cons_of_ne_nil (Ne.symm hruns.1)
    rw [List.flatten_cons, dropBreaks_run hrun.1, ← ih hruns.2 hrun.2 hbreak.2, tail_join hruns.2]
    · rfl
    · intro b hb
      cases runs with
      | nil => cases hb
      | cons next runs =>
        obtain ⟨hlast, hhead, hr⟩ := hbreak.1 next rfl
        obtain ⟨c, later, rfl⟩ := List.exists_cons_of_ne_nil hhead
        obtain rfl : c = b := Option.some.inj hb
        exact hr

theorem join_splitBy (r : α → α → Bool) (l : List α) : join (l.splitBy r) = dropBreaks r l := by
  rw [join_eq_dropBreaks (List.nil_notMem_splitBy r l) (fun _ => List.isChain_of_mem_splitBy)
    (List.isChain_getLast_head_splitBy r l), List.flatten_splitBy]

end Breaks

end Join

end JoinedRuns
