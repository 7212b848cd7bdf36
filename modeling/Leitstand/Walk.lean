import Leitstand.StepSystem

universe u v
variable {σ : Type u} {ε : Type v} {α : Type v}

/-- The log leads from `s` to `t`: each entry starts where the one before it ended. -/
def IsWalk (src dst : ε → σ) : σ → List ε → σ → Prop
  | s, [], t => s = t
  | s, e :: es, t => src e = s ∧ IsWalk src dst (dst e) es t

section Walk
variable {src dst : ε → σ} {s t : σ} {es : List ε} {e : ε}

theorem isWalk_append {es' : List ε} : IsWalk src dst s (es ++ es') t ↔
    ∃ m, IsWalk src dst s es m ∧ IsWalk src dst m es' t := by
  induction es generalizing s with
  | nil => simp [IsWalk]
  | cons e es ih => simp only [List.cons_append, IsWalk, ih, exists_and_left, and_assoc]

theorem isWalk_snoc :
    IsWalk src dst s (es ++ [e]) t ↔ IsWalk src dst s es (src e) ∧ dst e = t := by
  simp [isWalk_append, IsWalk]

theorem IsWalk.snoc (h : IsWalk src dst s es t) (hs : src e = t) :
    IsWalk src dst s (es ++ [e]) (dst e) := isWalk_snoc.mpr ⟨hs ▸ h, rfl⟩

/-- A walk that never leaves a stopping state ends at the entry that enters one. -/
theorem IsWalk.last_of_stop (stop : σ → Prop) {pre post : List ε}
    (h : IsWalk src dst s (pre ++ e :: post) t) (hsrc : ∀ f ∈ pre ++ e :: post, ¬ stop (src f))
    (he : stop (dst e)) : post = [] := by
  obtain ⟨m, _, _, hpost⟩ := isWalk_append.mp h
  cases post with
  | nil => rfl
  | cons f post =>
    have hf : ¬ stop (src f) := hsrc f (by simp)
    exact absurd (hpost.1 ▸ he) hf

theorem IsWalk.end_unique {t' : σ} (h : IsWalk src dst s es t) (h' : IsWalk src dst s es t') :
    t = t' := by
  induction es generalizing s with
  | nil => exact h.symm.trans h'
  | cons e es ih => exact ih h.2 h'.2

/-- A walk that enters a set no entry leaves ends in it. -/
theorem IsWalk.end_of_absorbing (A : σ → Prop) (h : IsWalk src dst s es t)
    (hkeep : ∀ f ∈ es, A (src f) → A (dst f)) (he : e ∈ es) (hA : A (dst e)) : A t := by
  induction es using List.reverseRecOn generalizing t with
  | nil => cases he
  | append_singleton es f ih =>
    obtain ⟨hw, rfl⟩ := isWalk_snoc.mp h
    obtain he | he := List.mem_append.mp he
    · have hsrc := ih hw (fun g hg => hkeep g (List.mem_append_left _ hg)) he
      exact hkeep f (by simp) hsrc
    · exact List.mem_singleton.mp he ▸ hA

/-- A walk that climbs leaves no state twice. -/
theorem IsWalk.nodup_src (rank : σ → Nat) (h : IsWalk src dst s es t)
    (hclimb : ∀ e ∈ es, rank (src e) < rank (dst e)) : (es.map src).Nodup := by
  have hall : (∀ e ∈ es, rank s ≤ rank (src e)) ∧ (es.map src).Nodup := by
    induction es generalizing s with
    | nil => simp
    | cons e es ih =>
      obtain ⟨rfl, hrest⟩ := h
      have he := hclimb e List.mem_cons_self
      obtain ⟨hle, hnd⟩ := ih hrest fun f hf => hclimb f (List.mem_cons_of_mem e hf)
      constructor
      · intro f hf
        obtain rfl | hf := List.mem_cons.mp hf
        · exact Nat.le_refl _
        · have hf := hle f hf
          omega
      · rw [List.map_cons, List.nodup_cons]
        refine ⟨fun hmem => ?_, hnd⟩
        obtain ⟨f, hf, hsrc⟩ := List.mem_map.mp hmem
        have hf := hle f hf
        rw [hsrc] at hf
        omega
  exact hall.2

end Walk

namespace StepSystem
variable {ι : Type u} [DecidableEq σ]

/-- The changes of what `view` shows, along the actions from `i`. -/
def changes (step : ι → α → Option ι) (view : ι → σ) : ι → List α → List (σ × σ)
  | _, [] => []
  | i, a :: acts => (step i a).elim [] fun j =>
    if view j = view i then changes step view j acts
    else (view i, view j) :: changes step view j acts

variable {step : ι → α → Option ι} {view : ι → σ} {i j : ι} {acts : List α}

theorem isWalk_changes (h : exec step i acts = some j) :
    IsWalk Prod.fst Prod.snd (view i) (changes step view i acts) (view j) := by
  induction acts generalizing i with
  | nil =>
    cases h
    rfl
  | cons a acts ih =>
    obtain ⟨m, hm, hrest⟩ := exec_cons_iff.mp h
    rw [changes, hm, Option.elim_some]
    split_ifs with hv
    · exact hv ▸ ih hrest
    · exact ⟨rfl, ih hrest⟩

/-- Every change is one that some step makes. -/
theorem mem_changes {R : σ → σ → Prop}
    (hstep : ∀ i a j, step i a = some j → view j = view i ∨ R (view i) (view j)) {e : σ × σ}
    (he : e ∈ changes step view i acts) : R e.1 e.2 := by
  induction acts generalizing i with
  | nil => cases he
  | cons a acts ih =>
    rw [changes] at he
    cases hm : step i a with
    | none =>
      rw [hm] at he
      cases he
    | some m =>
      rw [hm, Option.elim_some] at he
      split_ifs at he with hv
      · exact ih he
      · obtain rfl | he := List.mem_cons.mp he
        · exact (hstep i a m hm).resolve_left hv
        · exact ih he

end StepSystem
