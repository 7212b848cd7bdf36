import Mathlib.Logic.Basic

variable {σ ε κ χ β γ : Type}

/-- A transaction: the store as it sees it, the events held for its commit, and the commands it
has sent out, which a rollback does not take back. -/
structure Tx (σ ε κ : Type) where
  store : σ
  queued : List ε := []
  sent : List κ := []

/-- The transaction `tx` carried on as `tx'`, which started on the store that `tx` left. -/
def Tx.andThen (tx tx' : Tx σ ε κ) : Tx σ ε κ :=
  { store := tx'.store, queued := tx.queued ++ tx'.queued, sent := tx.sent ++ tx'.sent }

theorem Tx.andThen_assoc (tx tx' tx'' : Tx σ ε κ) :
    (tx.andThen tx').andThen tx'' = tx.andThen (tx'.andThen tx'') := by
  simp only [Tx.andThen, List.append_assoc]

/-- What has been committed, what has been published and what has been sent. -/
structure World (σ ε κ : Type) where
  store : σ
  bus : List ε := []
  sent : List κ := []

abbrev TxM (σ ε κ χ β : Type) := ExceptT χ (StateM (Tx σ ε κ)) β

namespace TxM

def exec (m : TxM σ ε κ χ β) (tx : Tx σ ε κ) : Except χ β × Tx σ ε κ := (ExceptT.run m).run tx

def store : TxM σ ε κ χ σ := do return (← get).store

def setStore (f : σ → σ) : TxM σ ε κ χ Unit := modify fun tx => { tx with store := f tx.store }

def enqueue (e : ε) : TxM σ ε κ χ Unit := modify fun tx => { tx with queued := tx.queued ++ [e] }

def send (c : κ) : TxM σ ε κ χ Unit := modify fun tx => { tx with sent := tx.sent ++ [c] }

def check (x : Except χ β) : TxM σ ε κ χ β := ExceptT.mk (pure x)

/-- Run as one transaction: an error leaves only what was sent. -/
def atomically (m : TxM σ ε κ χ β) (w : World σ ε κ) : Except χ β × World σ ε κ :=
  match m.exec { store := w.store } with
  | (.ok b, tx) =>
    (.ok b, { store := tx.store, bus := w.bus ++ tx.queued, sent := w.sent ++ tx.sent })
  | (.error e, tx) => (.error e, { w with sent := w.sent ++ tx.sent })

section Exec
variable (tx : Tx σ ε κ)

@[simp] theorem exec_pure (b : β) : (pure b : TxM σ ε κ χ β).exec tx = (.ok b, tx) := rfl

@[simp] theorem exec_throw (e : χ) : (throw e : TxM σ ε κ χ β).exec tx = (.error e, tx) := rfl

@[simp] theorem exec_bind (m : TxM σ ε κ χ β) (f : β → TxM σ ε κ χ γ) :
    (m >>= f).exec tx = match m.exec tx with
      | (.ok b, tx') => (f b).exec tx'
      | (.error e, tx') => (.error e, tx') := by
  change (ExceptT.run (m >>= f)).run tx = _
  simp only [exec]
  rcases h : (ExceptT.run m).run tx with ⟨r, tx'⟩
  rw [ExceptT.run_bind, StateT.run_bind]
  erw [h]
  cases r <;> rfl

theorem exec_bind_ok {m : TxM σ ε κ χ β} {f : β → TxM σ ε κ χ γ} {c : γ} {tx tx'' : Tx σ ε κ} :
    (m >>= f).exec tx = (.ok c, tx'') ↔
      ∃ b tx', m.exec tx = (.ok b, tx') ∧ (f b).exec tx' = (.ok c, tx'') := by
  rw [exec_bind]
  rcases m.exec tx with ⟨e | b, tx'⟩ <;> simp [and_assoc]

@[simp] theorem exec_map (f : β → γ) (m : TxM σ ε κ χ β) :
    (f <$> m).exec tx = match m.exec tx with
      | (.ok b, tx') => (.ok (f b), tx')
      | (.error e, tx') => (.error e, tx') := by
  rw [map_eq_pure_bind, exec_bind]
  rfl

@[simp] theorem exec_store : (store : TxM σ ε κ χ σ).exec tx = (.ok tx.store, tx) := rfl

theorem exec_setStore (f : σ → σ) : (setStore f : TxM σ ε κ χ Unit).exec tx =
    (.ok (), { tx with store := f tx.store }) := rfl

theorem exec_enqueue (e : ε) : (enqueue e : TxM σ ε κ χ Unit).exec tx =
    (.ok (), { tx with queued := tx.queued ++ [e] }) := rfl

theorem exec_send (c : κ) : (send c : TxM σ ε κ χ Unit).exec tx =
    (.ok (), { tx with sent := tx.sent ++ [c] }) := rfl

@[simp] theorem exec_check (x : Except χ β) :
    (check x : TxM σ ε κ χ β).exec tx = (x, tx) := rfl

end Exec

@[simp] theorem check_ok_bind (b : β) (f : β → TxM σ ε κ χ γ) : check (.ok b) >>= f = f b := rfl

@[simp] theorem check_error_bind (e : χ) (f : β → TxM σ ε κ χ γ) :
    check (.error e) >>= f = check (.error e) := rfl

/-- What two computations leave alone, one after the other leaves alone. -/
theorem keeps_bind {δ : Type} (view : Tx σ ε κ → δ) {m : TxM σ ε κ χ β} {f : β → TxM σ ε κ χ γ}
    (hm : ∀ tx, view (m.exec tx).2 = view tx) (hf : ∀ b tx, view ((f b).exec tx).2 = view tx)
    (tx : Tx σ ε κ) : view ((m >>= f).exec tx).2 = view tx := by
  have htx := hm tx
  rw [exec_bind]
  rcases hx : m.exec tx with ⟨e | b, tx'⟩
  · rwa [hx] at htx
  · rw [hx] at htx
    exact (hf b tx').trans htx

/-- The computation only looks: it leaves the transaction as it found it. -/
def ReadOnly (m : TxM σ ε κ χ β) : Prop := ∀ tx, (m.exec tx).2 = tx

namespace ReadOnly

theorem pure (b : β) : ReadOnly (pure b : TxM σ ε κ χ β) := fun _ => rfl

theorem throw (e : χ) : ReadOnly (throw e : TxM σ ε κ χ β) := fun _ => rfl

theorem check (x : Except χ β) : ReadOnly (check x : TxM σ ε κ χ β) := fun _ => rfl

theorem store : ReadOnly (store : TxM σ ε κ χ σ) := fun _ => rfl

theorem bind {m : TxM σ ε κ χ β} {f : β → TxM σ ε κ χ γ} (hm : ReadOnly m)
    (hf : ∀ b, ReadOnly (f b)) : ReadOnly (m >>= f) := keeps_bind id hm hf

end ReadOnly

theorem ReadOnly.atomically {m : TxM σ ε κ χ β} (hm : ReadOnly m) (w : World σ ε κ) :
    (m.atomically w).2 = w := by
  have htx := hm { store := w.store }
  unfold TxM.atomically
  rcases hx : m.exec { store := w.store } with ⟨e | b, tx⟩ <;> rw [hx] at htx <;>
    obtain rfl : tx = { store := w.store } := htx <;> simp

/-- A property of every computation put together without sending anything. -/
structure Composes (P : ∀ {β : Type}, TxM σ ε κ χ β → Prop) : Prop where
  pure : ∀ {β : Type} (b : β), P (pure b)
  throw : ∀ {β : Type} (e : χ), P (throw e : TxM σ ε κ χ β)
  store : P store
  setStore : ∀ f, P (setStore f)
  enqueue : ∀ e, P (enqueue e)
  bind : ∀ {β γ : Type} {m : TxM σ ε κ χ β} {f : β → TxM σ ε κ χ γ}, P m → (∀ b, P (f b)) →
    P (m >>= f)

theorem Composes.check {P : ∀ {β : Type}, TxM σ ε κ χ β → Prop} (h : Composes P)
    (x : Except χ β) : P (check x) := by
  cases x with
  | error e => exact h.throw e
  | ok b => exact h.pure b

/-- The computation sends nothing, whether it fails or not. -/
def Silent (m : TxM σ ε κ χ β) : Prop := ∀ tx, (m.exec tx).2.sent = tx.sent

theorem Silent.composes : @Composes σ ε κ χ Silent where
  pure := fun _ _ => rfl
  throw := fun _ _ => rfl
  store := fun _ => rfl
  setStore := fun _ _ => rfl
  enqueue := fun _ _ => rfl
  bind := fun hm hf => keeps_bind Tx.sent hm hf

/-- The computation sends commands of this kind only, whether it fails or not. -/
def Sends (kind : κ → Prop) (m : TxM σ ε κ χ β) : Prop :=
  ∀ tx, ∃ commands, (m.exec tx).2.sent = tx.sent ++ commands ∧ ∀ c ∈ commands, kind c

theorem Sends.of_same {kind : κ → Prop} {m : TxM σ ε κ χ β}
    (h : ∀ tx, (m.exec tx).2.sent = tx.sent) : Sends kind m :=
  fun tx => ⟨[], (h tx).trans (List.append_nil _).symm, by simp⟩

theorem Sends.send {kind : κ → Prop} {c : κ} (h : kind c) :
    Sends kind (send c : TxM σ ε κ χ Unit) :=
  fun _ => ⟨[c], rfl, fun _ hc => List.mem_singleton.mp hc ▸ h⟩

theorem Sends.bind {kind : κ → Prop} {m : TxM σ ε κ χ β} {f : β → TxM σ ε κ χ γ}
    (hm : Sends kind m) (hf : ∀ b, Sends kind (f b)) : Sends kind (m >>= f) := by
  intro tx
  obtain ⟨commands, hsent, hkind⟩ := hm tx
  rw [exec_bind]
  rcases hx : m.exec tx with ⟨e | b, tx'⟩
  · rw [hx] at hsent
    exact ⟨commands, hsent, hkind⟩
  · rw [hx] at hsent
    obtain ⟨more, hmore, hkind'⟩ := hf b tx'
    refine ⟨commands ++ more, ?_, List.forall_mem_append.mpr ⟨hkind, hkind'⟩⟩
    rw [← List.append_assoc, ← hsent]
    exact hmore

theorem Sends.composes (kind : κ → Prop) : @Composes σ ε κ χ (Sends kind) where
  pure := fun _ => .of_same fun _ => rfl
  throw := fun _ => .of_same fun _ => rfl
  store := .of_same fun _ => rfl
  setStore := fun _ => .of_same fun _ => rfl
  enqueue := fun _ => .of_same fun _ => rfl
  bind := Sends.bind

/-- The computation takes no notice of what has been queued and sent before it. -/
def Framed (m : TxM σ ε κ χ β) : Prop :=
  ∀ tx, m.exec tx = Prod.map id tx.andThen (m.exec { store := tx.store })

theorem Framed.send (c : κ) : Framed (send c : TxM σ ε κ χ Unit) := fun tx => by
  simp [exec_send, Prod.map, Tx.andThen]

theorem Framed.bind {m : TxM σ ε κ χ β} {f : β → TxM σ ε κ χ γ} (hm : Framed m)
    (hf : ∀ b, Framed (f b)) : Framed (m >>= f) := by
  intro tx
  rw [exec_bind, exec_bind, hm tx]
  rcases m.exec { store := tx.store } with ⟨e | b, tx'⟩
  · rfl
  · change (f b).exec (tx.andThen tx') = Prod.map id tx.andThen ((f b).exec tx')
    rw [hf b (tx.andThen tx'), hf b tx']
    refine Prod.ext rfl ?_
    exact tx.andThen_assoc tx' _

theorem Framed.composes : @Composes σ ε κ χ Framed where
  pure := fun _ tx => by simp [Prod.map, Tx.andThen]
  throw := fun _ tx => by simp [Prod.map, Tx.andThen]
  store := fun tx => by simp [Prod.map, Tx.andThen]
  setStore := fun _ tx => by simp [exec_setStore, Prod.map, Tx.andThen]
  enqueue := fun _ tx => by simp [exec_enqueue, Prod.map, Tx.andThen]
  bind := fun hm hf => hm.bind hf

/-- A transaction that commits may as well be committed piece by piece. -/
theorem atomically_bind_ok {m : TxM σ ε κ χ β} {f : β → TxM σ ε κ χ γ} {w w'' : World σ ε κ} {c : γ}
    (hf : ∀ b, Framed (f b)) (h : (m >>= f).atomically w = (.ok c, w'')) :
    ∃ b w', m.atomically w = (.ok b, w') ∧ (f b).atomically w' = (.ok c, w'') := by
  unfold atomically at h ⊢
  rcases hx : (m >>= f).exec { store := w.store } with ⟨e | c', tx''⟩
  · rw [hx] at h
    cases (Prod.mk.inj h).1
  · rw [hx] at h
    obtain ⟨hc, rfl⟩ := Prod.mk.inj h
    obtain rfl := Except.ok.inj hc
    obtain ⟨b, tx', hm, hb⟩ := exec_bind_ok.mp hx
    refine ⟨b, _, by rw [hm], ?_⟩
    have hfb := hf b tx'
    rw [hb] at hfb
    dsimp only
    rcases hy : (f b).exec { store := tx'.store } with ⟨e | c'', ty⟩
    · rw [hy] at hfb
      cases (Prod.mk.inj hfb).1
    · rw [hy] at hfb
      obtain ⟨hc, rfl⟩ := Prod.mk.inj hfb
      obtain rfl : c' = c'' := Except.ok.inj hc
      simp [Tx.andThen]

theorem atomically_error {m : TxM σ ε κ χ β} {w w' : World σ ε κ} {e : χ}
    (hm : ∀ tx', m.exec { store := w.store } = (.error e, tx') → tx'.sent = [])
    (h : m.atomically w = (.error e, w')) : w' = w := by
  unfold atomically at h
  rcases hx : m.exec { store := w.store } with ⟨e' | b, tx'⟩
  · rw [hx] at h
    obtain ⟨he, rfl⟩ := Prod.mk.inj h
    obtain rfl := Except.error.inj he
    simp [hm tx' hx]
  · rw [hx] at h
    cases (Prod.mk.inj h).1

/-- Whatever the transaction, the computation gives `x` and sends these commands, and does no more. -/
def Yields (m : TxM σ ε κ χ β) (x : Except χ β) (commands : List κ) : Prop :=
  ∀ tx, m.exec tx = (x, { tx with sent := tx.sent ++ commands })

namespace Yields

theorem check (x : Except χ β) : Yields (check x : TxM σ ε κ χ β) x [] := fun tx => by simp

theorem send (c : κ) : Yields (send c : TxM σ ε κ χ Unit) (.ok ()) [c] := fun _ => rfl

theorem bind_ok {m : TxM σ ε κ χ β} {f : β → TxM σ ε κ χ γ} {b : β} {x : Except χ γ}
    {commands commands' : List κ} (hm : Yields m (.ok b) commands) (hf : Yields (f b) x commands') :
    Yields (m >>= f) x (commands ++ commands') := by
  intro tx
  rw [exec_bind, hm tx]
  exact (hf _).trans (by simp)

theorem bind_error {m : TxM σ ε κ χ β} {e : χ} {commands : List κ}
    (hm : Yields m (.error e) commands) (f : β → TxM σ ε κ χ γ) :
    Yields (m >>= f) (.error e) commands := by
  intro tx
  rw [exec_bind, hm tx]

end Yields

/-- But for what it sends, the computation gives `x`. -/
def Gives (m : TxM σ ε κ χ β) (x : Except χ β) : Prop := ∃ commands, Yields m x commands

namespace Gives

theorem check (x : Except χ β) : Gives (check x : TxM σ ε κ χ β) x := ⟨[], .check x⟩

theorem bind {m : TxM σ ε κ χ β} {f : β → TxM σ ε κ χ γ} {x : Except χ β} {y : β → Except χ γ}
    (hm : Gives m x) (hf : ∀ b, x = .ok b → Gives (f b) (y b)) : Gives (m >>= f) (x >>= y) := by
  obtain ⟨commands, hm⟩ := hm
  cases x with
  | error e => exact ⟨commands, hm.bind_error f⟩
  | ok b =>
    obtain ⟨commands', hf⟩ := hf b rfl
    exact ⟨commands ++ commands', hm.bind_ok hf⟩

theorem foldlM {α : Type} {step : β → α → TxM σ ε κ χ β} {step' : β → α → Except χ β}
    (hstep : ∀ b a, Gives (step b a) (step' b a)) (items : List α) (b : β) :
    Gives (items.foldlM step b) (items.foldlM step' b) := by
  induction items generalizing b with
  | nil => exact .check (.ok b)
  | cons a rest ih =>
    rw [List.foldlM_cons, List.foldlM_cons]
    exact (hstep b a).bind fun b' _ => ih b'

end Gives

end TxM
