import Leitstand.Transaction
import Mathlib.Data.Prod.Basic

variable {σ ε κ χ ν β γ : Type}

/-- A transaction that notes what some of its operations are given. What it has noted stays, also
when it fails. -/
abbrev NotingM (ν σ ε κ χ β : Type) := TxM (σ × List ν) ε κ χ β

namespace NotingM
open TxM

/-- The transaction without the notes. -/
def plain (tx : Tx (σ × List ν) ε κ) : Tx σ ε κ := { tx with store := tx.store.1 }

/-- A computation that notes nothing. -/
def quiet (m : TxM σ ε κ χ β) : NotingM ν σ ε κ χ β :=
  ExceptT.mk fun tx =>
    ((m.exec (plain tx)).1,
      { (m.exec (plain tx)).2 with store := ((m.exec (plain tx)).2.store, tx.store.2) })

def note (a : ν) : NotingM ν σ ε κ χ Unit := setStore fun s => (s.1, s.2 ++ [a])

/-- All that a computation notes, started on this store. -/
def noted (m : NotingM ν σ ε κ χ β) (s : σ) : List ν := (m.exec { store := (s, []) }).2.store.2

theorem exec_quiet (m : TxM σ ε κ χ β) (tx : Tx (σ × List ν) ε κ) :
    (quiet m).exec tx = ((m.exec (plain tx)).1,
      { (m.exec (plain tx)).2 with store := ((m.exec (plain tx)).2.store, tx.store.2) }) := rfl

theorem exec_note (a : ν) (tx : Tx (σ × List ν) ε κ) :
    (note a : NotingM ν σ ε κ χ Unit).exec tx =
      (.ok (), { tx with store := (tx.store.1, tx.store.2 ++ [a]) }) := rfl

@[simp] theorem plain_note (a : ν) (tx : Tx (σ × List ν) ε κ) :
    plain { tx with store := (tx.store.1, tx.store.2 ++ [a]) } = plain tx := rfl

/-- But for its notes, the one computation is the other. -/
def Erases (m' : NotingM ν σ ε κ χ β) (m : TxM σ ε κ χ β) : Prop :=
  ∀ tx, Prod.map id plain (m'.exec tx) = m.exec (plain tx)

namespace Erases

theorem quiet (m : TxM σ ε κ χ β) : Erases (quiet m : NotingM ν σ ε κ χ β) m := fun _ => rfl

theorem pure (b : β) : Erases (pure b : NotingM ν σ ε κ χ β) (pure b) := fun _ => rfl

theorem bind {m' : NotingM ν σ ε κ χ β} {m : TxM σ ε κ χ β} {f' : β → NotingM ν σ ε κ χ γ}
    {f : β → TxM σ ε κ χ γ} (hm : Erases m' m) (hf : ∀ b, Erases (f' b) (f b)) :
    Erases (m' >>= f') (m >>= f) := by
  intro tx
  rw [exec_bind, exec_bind, ← hm tx]
  rcases m'.exec tx with ⟨e | b, tx'⟩
  · rfl
  · exact hf b tx'

theorem noted {m' : NotingM ν σ ε κ χ β} {m : TxM σ ε κ χ β} (h : Erases m' m) (a : ν) :
    Erases (note a >>= fun _ => m') m := by
  intro tx
  rw [exec_bind, exec_note]
  exact h _

end Erases

/-- The computation, on this transaction, notes these and no more. -/
def Adds (m : NotingM ν σ ε κ χ β) (tx : Tx (σ × List ν) ε κ) (l : List ν) : Prop :=
  (m.exec tx).2.store.2 = tx.store.2 ++ l

namespace Adds
variable {tx : Tx (σ × List ν) ε κ} {l : List ν}

theorem pure (b : β) : Adds (pure b : NotingM ν σ ε κ χ β) tx [] := (List.append_nil _).symm

theorem quiet (m : TxM σ ε κ χ β) : Adds (quiet m : NotingM ν σ ε κ χ β) tx [] :=
  (List.append_nil _).symm

/-- What follows adds nothing. -/
theorem bind {m : NotingM ν σ ε κ χ β} {f : β → NotingM ν σ ε κ χ γ} (hm : Adds m tx l)
    (hf : ∀ b tx', Adds (f b) tx' []) : Adds (m >>= f) tx l := by
  unfold Adds at hm ⊢
  rw [exec_bind, ← hm]
  rcases m.exec tx with ⟨e | b, tx'⟩
  · rfl
  · exact (hf b tx').trans (List.append_nil _)

theorem note {m : NotingM ν σ ε κ χ β} {a : ν} (hm : ∀ tx', Adds m tx' l) :
    Adds (note a >>= fun _ => m) tx (a :: l) := by
  unfold Adds at hm ⊢
  rw [exec_bind, exec_note]
  exact (hm _).trans (by simp)

/-- The notes of what comes after something that notes nothing. -/
theorem after {m : TxM σ ε κ χ β} {f : β → NotingM ν σ ε κ χ γ} {b : β} {tx' : Tx σ ε κ}
    (hx : m.exec (plain tx) = (.ok b, tx'))
    (hf : Adds (f b) { tx' with store := (tx'.store, tx.store.2) } l) :
    Adds (NotingM.quiet m >>= f) tx l := by
  unfold Adds at hf ⊢
  rw [exec_bind, exec_quiet, hx]
  exact hf

theorem noted_eq {m : NotingM ν σ ε κ χ β} {s : σ} (h : Adds m { store := (s, []) } l) :
    noted m s = l := h

end Adds

/-- Where the store is as `I` says the computation notes only what `P` allows; if it succeeds, the
store is then as `J` says. -/
def Notes (I : σ → Prop) (P : ν → Prop) (m : NotingM ν σ ε κ χ β) (J : β → σ → Prop) : Prop :=
  ∀ tx, I tx.store.1 → (∀ a ∈ tx.store.2, P a) →
    (∀ a ∈ (m.exec tx).2.store.2, P a) ∧ ∀ b, (m.exec tx).1 = .ok b → J b (m.exec tx).2.store.1

namespace Notes
variable {I : σ → Prop} {P : ν → Prop} {J : β → σ → Prop} {K : γ → σ → Prop}

theorem bind {m : NotingM ν σ ε κ χ β} {f : β → NotingM ν σ ε κ χ γ} (hm : Notes I P m J)
    (hf : ∀ b, Notes (J b) P (f b) K) : Notes I P (m >>= f) K := by
  intro tx hI hP
  obtain ⟨hnotes, hpost⟩ := hm tx hI hP
  rw [exec_bind]
  rcases hx : m.exec tx with ⟨e | b, tx'⟩
  · rw [hx] at hnotes
    exact ⟨hnotes, nofun⟩
  · rw [hx] at hnotes hpost
    exact hf b tx' (hpost b rfl) hnotes

theorem pure {b : β} (h : ∀ s, I s → J b s) : Notes I P (pure b : NotingM ν σ ε κ χ β) J := by
  intro tx hI hP
  refine ⟨hP, ?_⟩
  rintro b' ⟨⟩
  exact h _ hI

theorem quiet {m : TxM σ ε κ χ β}
    (h : ∀ tx b tx', I tx.store → m.exec tx = (.ok b, tx') → J b tx'.store) :
    Notes I P (quiet m : NotingM ν σ ε κ χ β) J := by
  intro tx hI hP
  refine ⟨hP, ?_⟩
  intro b hb
  rw [exec_quiet] at hb
  exact h (plain tx) b (m.exec (plain tx)).2 hI (Prod.ext hb rfl)

/-- What leaves the store as it is keeps what is known of it. -/
theorem keeping {m : TxM σ ε κ χ β} (h : ∀ tx, (m.exec tx).2.store = tx.store) :
    Notes I P (NotingM.quiet m : NotingM ν σ ε κ χ β) fun _ => I := by
  apply quiet
  intro tx b tx' hI hx
  have hstore := h tx
  rw [hx] at hstore
  rw [hstore]
  exact hI

theorem note {m : NotingM ν σ ε κ χ β} {a : ν} (hm : Notes I P m J) (ha : ∀ s, I s → P a) :
    Notes I P (note a >>= fun _ => m) J := by
  intro tx hI hP
  rw [exec_bind, exec_note]
  refine hm _ hI ?_
  intro b hb
  obtain hb | hb := List.mem_append.mp hb
  · exact hP b hb
  · rw [List.mem_singleton.mp hb]
    exact ha _ hI

theorem imp {m : NotingM ν σ ε κ χ β} {I' : σ → Prop} {J' : β → σ → Prop} (hm : Notes I P m J)
    (hI : ∀ s, I' s → I s) (hJ : ∀ b s, J b s → J' b s) : Notes I' P m J' := by
  intro tx hs hP
  obtain ⟨hnotes, hpost⟩ := hm tx (hI _ hs) hP
  exact ⟨hnotes, fun b hb => hJ b _ (hpost b hb)⟩

theorem assume {m : NotingM ν σ ε κ χ β} {p : Prop} (hm : p → Notes I P m J) :
    Notes (fun s => I s ∧ p) P m J := fun tx hI hP => hm hI.2 tx hI.1 hP

theorem forall_noted {m : NotingM ν σ ε κ χ β} (hm : Notes I P m J) {s : σ} (h : I s) :
    ∀ a ∈ noted m s, P a := (hm { store := (s, []) } h nofun).1

end Notes
end NotingM
