import Mathlib.Data.List.Induction

universe u v
variable {σ : Type u} {α : Type v}

namespace StepSystem

section Exec
variable (step : σ → α → Option σ)

/-- The state after the actions, or `none` once one of them is not possible. -/
def exec (s : σ) (acts : List α) : Option σ := acts.foldlM step s

@[simp] theorem exec_nil (s : σ) : exec step s [] = some s := rfl

@[simp] theorem exec_cons (s : σ) (a : α) (acts : List α) :
    exec step s (a :: acts) = (step s a).bind fun s' => exec step s' acts := rfl

theorem exec_append (s : σ) (xs ys : List α) :
    exec step s (xs ++ ys) = (exec step s xs).bind fun m => exec step m ys := by
  induction xs generalizing s with
  | nil => rfl
  | cons x xs ih => simp only [List.cons_append, exec_cons, Option.bind_assoc, ih]

theorem exec_snoc (s : σ) (xs : List α) (a : α) :
    exec step s (xs ++ [a]) = (exec step s xs).bind fun m => step m a := by
  rw [exec_append]
  congr 1
  funext m
  simp

variable {step}

theorem exec_append_iff {s t : σ} {xs ys : List α} :
    exec step s (xs ++ ys) = some t ↔ ∃ m, exec step s xs = some m ∧ exec step m ys = some t := by
  rw [exec_append, Option.bind_eq_some_iff]

theorem exec_snoc_iff {s t : σ} {xs : List α} {a : α} :
    exec step s (xs ++ [a]) = some t ↔ ∃ m, exec step s xs = some m ∧ step m a = some t := by
  rw [exec_snoc, Option.bind_eq_some_iff]

theorem exec_cons_iff {s t : σ} {a : α} {acts : List α} :
    exec step s (a :: acts) = some t ↔ ∃ m, step s a = some m ∧ exec step m acts = some t := by
  rw [exec_cons, Option.bind_eq_some_iff]

/-- What holds at first and survives one step, the actions before it known, holds of every run. -/
theorem exec_history {I : List α → σ → Prop} {s₀ t : σ} {acts : List α} (h₀ : I [] s₀)
    (hstep : ∀ past s a s', exec step s₀ past = some s → I past s → step s a = some s' →
      I (past ++ [a]) s') (h : exec step s₀ acts = some t) : I acts t := by
  induction acts using List.reverseRecOn generalizing t with
  | nil => cases h; exact h₀
  | append_singleton acts a ih =>
    obtain ⟨m, hm, ha⟩ := exec_snoc_iff.mp h
    exact hstep acts m a t hm (ih hm) ha

theorem exec_invariant {I : σ → Prop} {s₀ t : σ} {acts : List α}
    (hstep : ∀ s a s', I s → step s a = some s' → I s') (h₀ : I s₀)
    (h : exec step s₀ acts = some t) : I t :=
  exec_history (I := fun _ s => I s) h₀ (fun _ s a s' _ hs ha => hstep s a s' hs ha) h

end Exec

/-- `P` holds at every step of the run from `s`, seeing the actions taken before that step. -/
def Throughout (step : σ → α → Option σ) (P : List α → σ → α → Prop) :
    List α → σ → List α → Prop
  | _, _, [] => True
  | past, s, a :: acts => P past s a ∧
      ∀ s', step s a = some s' → Throughout step P (past ++ [a]) s' acts

section Throughout
variable {step : σ → α → Option σ} {P Q : List α → σ → α → Prop}

instance decidableThroughout [∀ past s a, Decidable (P past s a)] :
    ∀ past s acts, Decidable (Throughout step P past s acts)
  | _, _, [] => isTrue trivial
  | past, s, a :: acts =>
    match h : step s a with
    | none => decidable_of_iff (P past s a) (by simp [Throughout, h])
    | some s' =>
      let rest := decidableThroughout (past ++ [a]) s' acts
      decidable_of_iff (P past s a ∧ Throughout step P (past ++ [a]) s' acts)
        (by simp [Throughout, h])

theorem throughout_iff {past : List α} {s : σ} {acts : List α} :
    Throughout step P past s acts ↔ ∀ pre a post m, acts = pre ++ a :: post →
      exec step s pre = some m → P (past ++ pre) m a := by
  induction acts generalizing past s with
  | nil => simp [Throughout]
  | cons b acts ih =>
    simp only [Throughout, ih]
    constructor
    · rintro ⟨hb, hrest⟩ pre a post m he hm
      cases pre with
      | nil =>
        cases he
        cases hm
        simpa using hb
      | cons c pre =>
        obtain ⟨rfl, htail⟩ := List.cons.inj he
        obtain ⟨s', hs', hm'⟩ := exec_cons_iff.mp hm
        simpa using hrest s' hs' pre a post m htail hm'
    · intro h
      refine ⟨by simpa using h [] b acts s rfl rfl, ?_⟩
      intro s' hs' pre a post m he hm
      have hp := h (b :: pre) a post m (by rw [he]; rfl) (exec_cons_iff.mpr ⟨s', hs', hm⟩)
      simpa using hp

/-- One step condition follows from another throughout a run, under an invariant that the other
keeps. -/
theorem Throughout.of_invariant {I : List α → σ → Prop} {past : List α} {s : σ} {acts : List α}
    (hPQ : ∀ past s a, I past s → P past s a → Q past s a)
    (hI : ∀ past s a s', I past s → P past s a → step s a = some s' → I (past ++ [a]) s')
    (h : I past s) (hP : Throughout step P past s acts) : Throughout step Q past s acts := by
  induction acts generalizing past s with
  | nil => trivial
  | cons a acts ih =>
    refine ⟨hPQ past s a h hP.1, ?_⟩
    intro s' hs'
    exact ih (hI past s a s' h hP.1 hs') (hP.2 s' hs')

/-- Two step conditions that agree under an invariant hold throughout the same runs. -/
theorem throughout_congr {I : List α → σ → Prop} {past : List α} {s : σ} {acts : List α}
    (hI : ∀ past s a s', I past s → step s a = some s' → I (past ++ [a]) s')
    (hPQ : ∀ past s a, I past s → (P past s a ↔ Q past s a)) (h : I past s) :
    Throughout step P past s acts ↔ Throughout step Q past s acts := by
  have hstep {R : List α → σ → α → Prop} : ∀ past s a s', I past s → R past s a →
      step s a = some s' → I (past ++ [a]) s' := fun past s a s' hi _ => hI past s a s' hi
  constructor
  · exact Throughout.of_invariant (fun past s a hi => (hPQ past s a hi).mp) hstep h
  · exact Throughout.of_invariant (fun past s a hi => (hPQ past s a hi).mpr) hstep h

theorem throughout_append {past : List α} {s m : σ} {xs ys : List α}
    (h : exec step s xs = some m) : Throughout step P past s (xs ++ ys) ↔
      Throughout step P past s xs ∧ Throughout step P (past ++ xs) m ys := by
  induction xs generalizing past s with
  | nil =>
    cases h
    simp [Throughout]
  | cons b xs ih =>
    obtain ⟨s₁, hs₁, hm⟩ := exec_cons_iff.mp h
    have hrec := @ih (past ++ [b]) _ hm
    simp only [List.cons_append, Throughout, hs₁, Option.some.injEq, forall_eq', hrec, and_assoc,
      List.append_assoc, List.nil_append]

theorem throughout_snoc {past : List α} {s m : σ} {acts : List α} {a : α}
    (h : exec step s acts = some m) : Throughout step P past s (acts ++ [a]) ↔
      Throughout step P past s acts ∧ P (past ++ acts) m a := by
  rw [throughout_append h]
  simp [Throughout]

/-- What survives the steps of a kind holds after a run of such steps. -/
theorem Throughout.exec_invariant {I : σ → Prop} {past : List α} {s t : σ} {acts : List α}
    (hstep : ∀ past s a s', I s → P past s a → step s a = some s' → I s')
    (hP : Throughout step P past s acts) (h₀ : I s) (h : exec step s acts = some t) : I t := by
  induction acts generalizing past s with
  | nil =>
    obtain rfl := Option.some.inj h
    exact h₀
  | cons a acts ih =>
    obtain ⟨s', hs', hrest⟩ := exec_cons_iff.mp h
    exact ih (hP.2 s' hs') (hstep past s a s' h₀ hP.1 hs') hrest

theorem Throughout.of_append {past : List α} {s : σ} {xs ys : List α}
    (h : Throughout step P past s (xs ++ ys)) : Throughout step P past s xs := by
  rw [throughout_iff] at h ⊢
  intro pre a post m he hm
  exact h pre a (post ++ ys) m (by rw [he, List.append_assoc]; rfl) hm

end Throughout

end StepSystem
