import Leitstand.Transaction

namespace TxM
variable {σ ε κ χ β γ : Type} {P P' : σ → Prop} {Q Q' : β → σ → Prop} {R : γ → σ → Prop}
  {E E' : χ → Prop}

/-- Started on a store with `P`, the computation gives a result and leaves a store with `Q`, or it
fails with an error in `E`. What it queues and sends does not matter. -/
structure Triple (P : σ → Prop) (m : TxM σ ε κ χ β) (Q : β → σ → Prop) (E : χ → Prop) : Prop where
  ok : ∀ {tx tx' : Tx σ ε κ} {b : β}, P tx.store → m.exec tx = (.ok b, tx') → Q b tx'.store
  error : ∀ {tx tx' : Tx σ ε κ} {e : χ}, P tx.store → m.exec tx = (.error e, tx') → E e

namespace Triple

/-- The rule for a computation that is one step: what `exec` gives is looked at. -/
theorem of_exec {m : TxM σ ε κ χ β} (x : σ → Except χ β) (f : σ → σ)
    (hm : ∀ tx, (m.exec tx).1 = x tx.store ∧ (m.exec tx).2.store = f tx.store)
    (hok : ∀ s b, P s → x s = .ok b → Q b (f s)) (herror : ∀ s e, P s → x s = .error e → E e) :
    Triple P m Q E where
  ok {tx tx' b} hp hx := by
    obtain ⟨hb, hs⟩ := hm tx
    rw [hx] at hb hs
    have hq := hok tx.store b hp hb.symm
    rwa [← hs] at hq
  error {tx tx' e} hp hx := by
    obtain ⟨he, -⟩ := hm tx
    rw [hx] at he
    exact herror tx.store e hp he.symm

theorem pure (b : β) (h : ∀ s, P s → Q b s) : Triple P (pure b : TxM σ ε κ χ β) Q E := by
  apply of_exec (fun _ => .ok b) id (fun _ => ⟨rfl, rfl⟩)
  · rintro s b' hp ⟨⟩
    exact h s hp
  · rintro s e hp ⟨⟩

theorem throw (e : χ) (h : ∀ s, P s → E e) : Triple P (throw e : TxM σ ε κ χ β) Q E := by
  apply of_exec (fun _ => .error e) id (fun _ => ⟨rfl, rfl⟩)
  · rintro s b hp ⟨⟩
  · rintro s e' hp ⟨⟩
    exact h s hp

theorem check (x : Except χ β) (hok : ∀ s b, P s → x = .ok b → Q b s)
    (herror : ∀ s e, P s → x = .error e → E e) :
    Triple P (check x : TxM σ ε κ χ β) Q E :=
  of_exec (fun _ => x) id (fun _ => ⟨rfl, rfl⟩) hok herror

/-- The rule for a computation that reads the store and changes nothing. -/
theorem read {m : TxM σ ε κ χ β} (f : σ → β) (hm : ∀ tx, m.exec tx = (.ok (f tx.store), tx))
    (h : ∀ s, P s → Q (f s) s) : Triple P m Q E := by
  apply of_exec (fun s => .ok (f s)) id (fun tx => by rw [hm tx]; exact ⟨rfl, rfl⟩)
  · rintro s b hp ⟨⟩
    exact h s hp
  · rintro s e hp ⟨⟩

theorem setStore {Q : Unit → σ → Prop} (f : σ → σ) (h : ∀ s, P s → Q () (f s)) :
    Triple P (setStore f : TxM σ ε κ χ Unit) Q E := by
  apply of_exec (fun _ => .ok ()) f (fun _ => ⟨rfl, rfl⟩)
  · rintro s u hp -
    exact h s hp
  · rintro s e hp ⟨⟩

theorem enqueue {Q : Unit → σ → Prop} (event : ε) (h : ∀ s, P s → Q () s) :
    Triple P (enqueue event : TxM σ ε κ χ Unit) Q E := by
  apply of_exec (fun _ => .ok ()) id (fun _ => ⟨rfl, rfl⟩)
  · rintro s u hp -
    exact h s hp
  · rintro s e hp ⟨⟩

theorem send {Q : Unit → σ → Prop} (c : κ) (h : ∀ s, P s → Q () s) :
    Triple P (send c : TxM σ ε κ χ Unit) Q E := by
  apply of_exec (fun _ => .ok ()) id (fun _ => ⟨rfl, rfl⟩)
  · rintro s u hp -
    exact h s hp
  · rintro s e hp ⟨⟩

theorem bind {m : TxM σ ε κ χ β} {f : β → TxM σ ε κ χ γ} (hm : Triple P m Q E)
    (hf : ∀ b, Triple (Q b) (f b) R E) : Triple P (m >>= f) R E where
  ok {tx tx' c} hp hx := by
    obtain ⟨b, tx₁, hb, hc⟩ := exec_bind_ok.mp hx
    exact (hf b).ok (hm.ok hp hb) hc
  error {tx tx' e} hp hx := by
    rw [exec_bind] at hx
    rcases hy : m.exec tx with ⟨e' | b, tx₁⟩
    · rw [hy] at hx
      obtain ⟨he, -⟩ := Prod.mk.inj hx
      obtain rfl := Except.error.inj he
      exact hm.error hp hy
    · rw [hy] at hx
      exact (hf b).error (hm.ok hp hy) hx

/-- The rule of consequence. -/
theorem weaken {m : TxM σ ε κ χ β} (h : Triple P' m Q' E') (hP : ∀ s, P s → P' s)
    (hQ : ∀ b s, Q' b s → Q b s) (hE : ∀ e, E' e → E e) : Triple P m Q E where
  ok hp hx := hQ _ _ (h.ok (hP _ hp) hx)
  error hp hx := hE _ (h.error (hP _ hp) hx)

theorem pre {m : TxM σ ε κ χ β} (h : Triple P' m Q E) (hP : ∀ s, P s → P' s) : Triple P m Q E :=
  h.weaken hP (fun _ _ => id) (fun _ => id)

theorem post {m : TxM σ ε κ χ β} (h : Triple P m Q' E) (hQ : ∀ b s, Q' b s → Q b s) :
    Triple P m Q E :=
  h.weaken (fun _ => id) hQ (fun _ => id)

theorem forget {m : TxM σ ε κ χ β} (h : Triple (fun _ => True) m Q E) : Triple P m Q E :=
  h.pre fun _ _ => trivial

/-- What the precondition says of the store it is started on may be used throughout. -/
theorem of_store {m : TxM σ ε κ χ β} (h : ∀ s₀, P s₀ → Triple (fun s => s = s₀) m Q E) :
    Triple P m Q E where
  ok {tx _ _} hp hx := (h tx.store hp).ok rfl hx
  error {tx _ _} hp hx := (h tx.store hp).error rfl hx

/-- On a known store, what is read is known. -/
theorem read_bind {m : TxM σ ε κ χ β} {k : β → TxM σ ε κ χ γ} {s₀ : σ} (f : σ → β)
    (hm : ∀ tx, m.exec tx = (.ok (f tx.store), tx))
    (h : Triple (fun s => s = s₀) (k (f s₀)) R E) : Triple (fun s => s = s₀) (m >>= k) R E := by
  have hread : Triple (fun s => s = s₀) m (fun b s => b = f s₀ ∧ s = s₀) E :=
    .read f hm fun s hs => ⟨congrArg f hs, hs⟩
  refine hread.bind fun b => .of_store ?_
  rintro s ⟨rfl, rfl⟩
  exact h

theorem check_bind {x : Except χ β} {k : β → TxM σ ε κ χ γ} (herror : ∀ e, x = .error e → E e)
    (h : ∀ b, x = .ok b → Triple P (k b) R E) :
    Triple P ((TxM.check x : TxM σ ε κ χ β) >>= k) R E := by
  cases hx : x with
  | error e =>
    rw [check_error_bind]
    exact .throw e fun _ _ => herror e hx
  | ok b =>
    rw [check_ok_bind]
    exact h b hx

end Triple
end TxM
