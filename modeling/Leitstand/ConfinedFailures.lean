import Leitstand.GuardedToolset
import Leitstand.StepSystem

namespace Leitstand
namespace ToolGuard
open StepSystem

/-- An operation that a turn performs on its guard, with what the wrapped toolset would return or
raise if it were asked. -/
inductive Operation (T I A R : Type) where
  | forRun (reply : Except Raised Unit)
  | enter (reply : Except Raised Unit)
  | getInstructions (reply : Except Raised I)
  | getTools (reply : Except Raised (ToolsByName T))
  | callTool (name : String) (toolArgs : A) (tool : T) (reply : Except Raised R)
  | exit (reply : Except Raised (Option Bool))

/-- A turn has a copy of the guard for itself from `forRun` on, and enters it before all else. -/
inductive Turn where
  | absent
  | created (guard : GuardedMCPToolset)
  | running (guard : GuardedMCPToolset)
  | closed

inductive Result (T I R : Type) where
  | self
  | instructions (text : String ⊕ I)
  | tools (tools : ToolsByName T)
  | called (result : R)
  | suppresses (answer : Option Bool)

/-- What an operation led to, and whether the wrapped toolset was asked for it. -/
structure Done (T I R : Type) where
  asked : Bool
  outcome : Except Raised (Result T I R)
  turn : Turn
  memory : MCPServerMemory T

/-- All turns on one server: they share the memory and may overlap. -/
structure State (T I A R : Type) where
  memory : MCPServerMemory T
  turns : Nat → Turn
  /-- Each time that the wrapped toolset was asked, with the turn, in order. -/
  exchanges : List (Nat × Operation T I A R)

section Steps
variable {T I A R : Type} (base : GuardedMCPToolset)

def Operation.run (memory : MCPServerMemory T) : Turn → Operation T I A R → Option (Done T I R)
  | .absent, .forRun reply =>
    some { asked := base.forRun.asks, outcome := (base.forRun.result reply).map fun _ => .self
           turn := (base.forRun.result reply).toOption.elim .closed .created, memory }
  | .created guard, .enter reply =>
    some { asked := guard.enter.asks, outcome := (guard.enter.result reply).1.map fun _ => .self
           turn := (guard.enter.result reply).1.toOption.elim .closed fun _ =>
            .running (guard.enter.result reply).2
           memory }
  | .running guard, .getInstructions reply =>
    some { asked := (guard.getInstructions : Guarded I _).asks
           outcome := (guard.getInstructions.result reply).map .instructions
           turn := .running guard, memory }
  | .running guard, .getTools reply =>
    some { asked := (guard.getTools memory).asks
           outcome := ((guard.getTools memory).result reply).1.map .tools
           turn := .running ((guard.getTools memory).result reply).2.1
           memory := ((guard.getTools memory).result reply).2.2 }
  | .running guard, .callTool _ _ _ reply =>
    some { asked := (guard.callTool : Guarded R _).asks
           outcome := (guard.callTool.result reply).1.map .called
           turn := .running (guard.callTool.result reply).2, memory }
  | .running guard, .exit reply =>
    some { asked := guard.exit.asks, outcome := (guard.exit.result reply).map .suppresses
           turn := .closed, memory }
  | _, _ => none

def State.initial : State T I A R := ⟨.initial, fun _ => .absent, []⟩

def State.after (s : State T I A R) (a : Nat × Operation T I A R) (done : Done T I R) :
    State T I A R where
  memory := done.memory
  turns := Function.update s.turns a.1 done.turn
  exchanges := if done.asked then s.exchanges ++ [a] else s.exchanges

/-- The next operation of one of the turns: what it returns or raises, and the state after it. -/
def perform (s : State T I A R) (a : Nat × Operation T I A R) :
    Option (Except Raised (Result T I R) × State T I A R) :=
  (a.2.run base s.memory (s.turns a.1)).map fun done => (done.outcome, s.after a done)

def step (s : State T I A R) (a : Nat × Operation T I A R) : Option (State T I A R) :=
  (perform base s a).map (·.2)

end Steps

section Operations
variable {T I A R : Type}

def Operation.raised : Operation T I A R → Option Raised
  | .forRun (.error raised) | .enter (.error raised) | .getInstructions (.error raised)
  | .getTools (.error raised) | .callTool _ _ _ (.error raised) | .exit (.error raised) =>
    some raised
  | _ => none

def Operation.listed : Operation T I A R → Option (ToolsByName T)
  | .getTools (.ok tools) => some tools
  | _ => none

/-- What a turn does between entering its guard and leaving it. -/
def Operation.inner : Operation T I A R → Bool
  | .getInstructions _ | .getTools _ | .callTool .. => true
  | _ => false

/-- The wrapped toolset meets the operation with an error. -/
def Operation.fails (strict : Bool) (op : Operation T I A R) : Bool :=
  op.raised.any (·.isError strict)

/-- The wrapped toolset meets the operation with an error that nothing in the operation catches. -/
def Operation.uncaught (strict : Bool) : Operation T I A R → Bool
  | .forRun (.error raised) | .getInstructions (.error raised) => raised.isError strict
  | .enter (.error (.baseException _)) | .getTools (.error (.baseException _))
  | .callTool _ _ _ (.error (.baseException _)) | .exit (.error (.baseException _)) => strict
  | _ => false

def Turn.asks : Turn → Operation T I A R → Bool
  | .absent, .forRun _ => true
  | .created _, .enter _ => true
  | .running guard, .getInstructions _ | .running guard, .getTools _
  | .running guard, .callTool .. => guard.available
  | .running guard, .exit _ => guard.entered
  | _, _ => false

end Operations

section Exchanges
variable {T I A R : Type}

/-- An operation of the turn has met an error. -/
def MetError (strict : Bool) (k : Nat) (exchanges : List (Nat × Operation T I A R)) : Prop :=
  ∃ e ∈ exchanges, e.1 = k ∧ e.2.fails strict = true

/-- The tools that the server listed last, whichever turn it listed them for. -/
def lastListed (exchanges : List (Nat × Operation T I A R)) : ToolsByName T :=
  exchanges.foldl (fun tools e => e.2.listed.getD tools) .empty

end Exchanges
section Run
variable {T I A R : Type} {base guard : GuardedMCPToolset} {memory : MCPServerMemory T}
  {turn : Turn} {op : Operation T I A R} {done : Done T I R} {strict : Bool} {failed : Prop}

theorem run_of_asks (h : turn.asks op = true) : ∃ done, op.run base memory turn = some done := by
  cases turn <;> cases op <;> first | exact ⟨_, rfl⟩ | cases h

theorem asked_eq (h : op.run base memory turn = some done) : done.asked = turn.asks op := by
  revert h
  fun_cases Operation.run base memory turn op <;> intro h
  all_goals cases h
  · rfl
  · rfl
  · exact GuardedMCPToolset.asks_getInstructions
  · exact GuardedMCPToolset.asks_getTools
  · exact GuardedMCPToolset.asks_callTool
  · exact GuardedMCPToolset.asks_exit

/-- Only an ordinary `Exception` is an error that an operation may catch. -/
theorem raised_of_caught (hf : op.fails strict = true) (hc : op.uncaught strict = false) :
    ∃ reason, op.raised = some (.exception reason) := by
  obtain ⟨raised, hraised, herror⟩ := (Option.any_eq_true _ _).mp hf
  cases raised with
  | toolFailed message => cases herror
  | exception reason => exact ⟨reason, hraised⟩
  | baseException reason =>
    exfalso
    obtain rfl : strict = true := herror
    revert hraised hc
    fun_cases Operation.raised op <;> intro hraised hc <;> cases hraised <;> cases hc

/-- What is known of a turn, given whether one of its operations has met an error. -/
def Turn.Sound (failed : Prop) : Turn → Prop
  | .absent => ¬ failed
  | .created guard => guard.available = false ∧ ¬ failed
  | .running guard => guard.available = true → ¬ failed
  | .closed => True

theorem not_asks_of_failed (hs : turn.Sound failed) (hf : failed) (hop : op.inner = true) :
    turn.asks op = false := by
  rw [Bool.eq_false_iff]
  intro hasks
  cases op with
  | forRun reply | enter reply | exit reply => cases hop
  | getInstructions reply | getTools reply | callTool name toolArgs tool reply =>
    cases turn with
    | running guard => exact hs hasks hf
    | absent | created guard | closed => cases hasks

/-- A guard that still serves, and that was just spared any `Exception`, has met no error. -/
theorem not_failed_of_available {asked : Prop} (hs : (Turn.running guard).Sound failed)
    (ha : guard.available = true) (hc : op.uncaught strict = false)
    (hno : ∀ reason, op.raised ≠ some (.exception reason)) :
    ¬ (failed ∨ asked ∧ op.fails strict = true) := by
  intro hf
  apply hf.elim (hs ha)
  intro hf
  obtain ⟨reason, hr⟩ := raised_of_caught hf.2 hc
  exact hno reason hr

theorem sound_run (h : op.run base memory turn = some done) (hs : turn.Sound failed)
    (hc : turn.asks op = true → op.uncaught strict = false) :
    done.turn.Sound (failed ∨ done.asked = true ∧ op.fails strict = true) := by
  revert h
  fun_cases Operation.run base memory turn op <;> intro h
  all_goals cases h
  case case1 reply =>
    cases reply with
    | error raised => trivial
    | ok => exact ⟨rfl, fun hf => hf.elim hs fun hf => Bool.false_ne_true hf.2⟩
  case case2 guard reply =>
    obtain ⟨havailable, hnot⟩ := hs
    cases reply with
    | ok => exact fun _ hf => hf.elim hnot fun hf => Bool.false_ne_true hf.2
    | error raised =>
      cases raised with
      | baseException reason => trivial
      | toolFailed message | exception reason =>
        intro hentered
        exact absurd (havailable.symm.trans hentered) Bool.false_ne_true
  case case3 guard reply =>
    intro havailable
    apply not_failed_of_available hs havailable (hc havailable)
    intro reason hr
    cases reply with
    | ok instructions => cases hr
    | error raised =>
      cases hr
      cases hc havailable
  case case4 guard reply =>
    intro hafter
    obtain ⟨havailable, hreply⟩ := GuardedMCPToolset.available_getTools hafter
    apply not_failed_of_available hs havailable (hc havailable)
    intro reason hr
    cases reply with
    | ok tools => cases hr
    | error raised => exact hreply reason (congrArg _ (Option.some.inj hr))
  case case5 guard name toolArgs tool reply =>
    intro hafter
    obtain ⟨havailable, hreply⟩ := GuardedMCPToolset.available_callTool hafter
    apply not_failed_of_available hs havailable (hc havailable)
    intro reason hr
    cases reply with
    | ok result => cases hr
    | error raised => exact hreply reason (congrArg _ (Option.some.inj hr))
  case case6 guard reply => trivial

/-- An error escapes just where the wrapped toolset is asked and nothing catches what it raises. -/
theorem escapes_run (h : op.run base memory turn = some done) :
    escapes strict done.outcome = (turn.asks op && op.uncaught strict) := by
  revert h
  fun_cases Operation.run base memory turn op <;> intro h
  all_goals cases h
  all_goals rw [escapes_map]
  case case1 reply =>
    cases reply <;> rfl
  case case2 guard reply =>
    cases reply with
    | ok => rfl
    | error raised => cases raised <;> rfl
  case case3 guard reply =>
    change _ = (guard.available && _)
    cases ha : guard.available with
    | true =>
      rw [GuardedMCPToolset.getInstructions_asking ha, escapes_map]
      cases reply <;> rfl
    | false =>
      obtain ⟨text, htext⟩ := GuardedMCPToolset.getInstructions_alone ha reply
      rw [htext]
      rfl
  case case4 guard reply =>
    change _ = (guard.available && _)
    cases ha : guard.available with
    | true =>
      rw [GuardedMCPToolset.getTools_asking ha]
      cases reply with
      | ok tools => rfl
      | error raised => cases raised <;> rfl
    | false =>
      rw [GuardedMCPToolset.getTools_alone ha]
      rfl
  case case5 guard name toolArgs tool reply =>
    change _ = (guard.available && _)
    cases ha : guard.available with
    | true =>
      rw [GuardedMCPToolset.callTool_asking ha]
      cases reply with
      | ok result => rfl
      | error raised => cases raised <;> rfl
    | false =>
      rw [GuardedMCPToolset.callTool_alone ha]
      rfl
  case case6 guard reply =>
    change _ = (guard.entered && _)
    cases ha : guard.entered with
    | true =>
      rw [GuardedMCPToolset.exit_asking ha]
      cases reply with
      | ok answer => rfl
      | error raised => cases raised <;> rfl
    | false =>
      rw [GuardedMCPToolset.exit_alone ha]
      rfl

theorem lastTools_run (h : op.run base memory turn = some done) : done.memory.lastTools =
    if done.asked then op.listed.getD memory.lastTools else memory.lastTools := by
  revert h
  fun_cases Operation.run base memory turn op <;> intro h
  all_goals cases h
  case case4 guard reply =>
    rw [GuardedMCPToolset.asks_getTools]
    by_cases ha : guard.available = true
    · rw [GuardedMCPToolset.getTools_asking ha, if_pos ha]
      cases reply with
      | ok tools => rfl
      | error raised => cases raised <;> rfl
    · rw [GuardedMCPToolset.getTools_alone (Bool.eq_false_iff.mpr ha), if_neg ha]
  all_goals
    change memory.lastTools = ite _ memory.lastTools memory.lastTools
    rw [ite_self]

theorem offers_run {reply : Except Raised (ToolsByName T)}
    (h : (Operation.getTools reply : Operation T I A R).run base memory turn = some done)
    (hs : turn.Sound failed)
    (hc : turn.asks (.getTools reply : Operation T I A R) = true →
      (Operation.getTools reply : Operation T I A R).uncaught strict = false)
    (hf : failed ∨
      done.asked = true ∧ (Operation.getTools reply : Operation T I A R).fails strict = true) :
    done.outcome = .ok (.tools done.memory.lastTools) := by
  cases turn with
  | absent | created guard | closed => cases h
  | running guard =>
    cases h
    by_cases ha : guard.available = true
    · obtain ⟨reason, hr⟩ := raised_of_caught (hf.resolve_left (hs ha)).2 (hc ha)
      cases reply with
      | ok tools => cases hr
      | error raised =>
        cases hr
        rw [GuardedMCPToolset.getTools_asking ha]
        rfl
    · rw [GuardedMCPToolset.getTools_alone (Bool.eq_false_iff.mpr ha)]
      rfl

theorem serves_run
    (h : (Operation.enter (.ok ()) : Operation T I A R).run base memory turn = some done) :
    ∃ guard, done.turn = .running guard ∧ guard.available = true := by
  cases turn with
  | absent | running guard | closed => cases h
  | created guard =>
    cases h
    exact ⟨_, rfl, rfl⟩

end Run

section Confined
variable {T I A R : Type} {base : GuardedMCPToolset} {strict : Bool} {k : Nat}
  {s s' : State T I A R} {a : Nat × Operation T I A R} {done : Done T I R}

/-- What the guard is for, at the next operation of the run if it is one of turn `k`. -/
structure ConfinedAt (base : GuardedMCPToolset) (strict : Bool) (k : Nat) (s : State T I A R)
    (a : Nat × Operation T I A R) : Prop where
  raises : ∀ outcome s', a.1 = k → perform base s a = some (outcome, s') →
    escapes strict outcome = false
  apart : ∀ outcome s', a.1 = k → a.2.inner = true → MetError strict k s.exchanges →
    perform base s a = some (outcome, s') → s'.exchanges = s.exchanges
  offers : ∀ reply outcome s', a = (k, .getTools reply) →
    perform base s a = some (outcome, s') → MetError strict k s'.exchanges →
    outcome = .ok (.tools (lastListed s'.exchanges))
  serves : ∀ outcome s', a = (k, .enter (.ok ())) → perform base s a = some (outcome, s') →
    ∃ guard, s'.turns k = .running guard ∧ guard.available = true

/-- Where turn `k` asks the wrapped toolset, that raises no error that nothing catches. -/
def CaughtAt (strict : Bool) (k : Nat) (s : State T I A R) (a : Nat × Operation T I A R) : Prop :=
  a.1 = k → (s.turns k).asks a.2 = true → a.2.uncaught strict = false

structure Inv (strict : Bool) (k : Nat) (s : State T I A R) : Prop where
  turn : (s.turns k).Sound (MetError strict k s.exchanges)
  memory : s.memory.lastTools = lastListed s.exchanges

theorem inv_initial : Inv strict k (State.initial : State T I A R) where
  turn := by
    rintro ⟨e, he, -⟩
    cases he
  memory := rfl

theorem perform_eq_some {outcome : Except Raised (Result T I R)} :
    perform base s a = some (outcome, s') ↔ ∃ done,
      a.2.run base s.memory (s.turns a.1) = some done ∧ done.outcome = outcome ∧
        s.after a done = s' := by
  unfold perform
  rw [Option.map_eq_some_iff]
  apply exists_congr
  intro done
  rw [Prod.mk.injEq]

theorem step_eq_some : step base s a = some s' ↔ ∃ done,
    a.2.run base s.memory (s.turns a.1) = some done ∧ s.after a done = s' := by
  unfold step perform
  rw [Option.map_map, Option.map_eq_some_iff]
  rfl

theorem turns_after : (s.after a done).turns a.1 = done.turn := Function.update_self ..

theorem turns_after_ne (h : a.1 ≠ k) : (s.after a done).turns k = s.turns k :=
  Function.update_of_ne h.symm ..

theorem metError_after : MetError strict k (s.after a done).exchanges ↔
    MetError strict k s.exchanges ∨ a.1 = k ∧ done.asked = true ∧ a.2.fails strict = true := by
  unfold State.after MetError
  dsimp only
  cases done.asked with
  | false => simp
  | true => simp [or_and_right, exists_or]

theorem lastListed_after : lastListed (s.after a done).exchanges =
    if done.asked then a.2.listed.getD (lastListed s.exchanges) else lastListed s.exchanges := by
  unfold State.after lastListed
  dsimp only
  cases done.asked with
  | false => rfl
  | true =>
    rw [if_pos rfl, List.foldl_append]
    rfl

theorem memory_after (hI : Inv strict k s)
    (h : a.2.run base s.memory (s.turns a.1) = some done) :
    done.memory.lastTools = lastListed (s.after a done).exchanges := by
  rw [lastTools_run h, lastListed_after, hI.memory]

theorem inv_step (hI : Inv strict k s) (hc : CaughtAt strict k s a)
    (h : step base s a = some s') : Inv strict k s' := by
  obtain ⟨done, hdone, rfl⟩ := step_eq_some.mp h
  refine ⟨?_, memory_after hI hdone⟩
  rw [metError_after]
  by_cases hk : a.1 = k
  · subst hk
    rw [turns_after]
    simpa using sound_run hdone hI.turn (hc rfl)
  · rw [turns_after_ne hk]
    simpa [hk] using hI.turn

theorem confinedAt_of_inv (hI : Inv strict k s) (hc : CaughtAt strict k s a) :
    ConfinedAt base strict k s a where
  raises := by
    rintro outcome s' rfl h
    obtain ⟨done, hdone, rfl, rfl⟩ := perform_eq_some.mp h
    rw [escapes_run hdone, Bool.and_eq_false_iff, or_iff_not_imp_left, Bool.not_eq_false]
    exact hc rfl
  apart := by
    rintro outcome s' rfl hinner hmet h
    obtain ⟨done, hdone, -, rfl⟩ := perform_eq_some.mp h
    have hasked : done.asked = false :=
      (asked_eq hdone).trans (not_asks_of_failed hI.turn hmet hinner)
    unfold State.after
    rw [hasked]
    rfl
  offers := by
    rintro reply outcome s' rfl h hmet
    obtain ⟨done, hdone, rfl, rfl⟩ := perform_eq_some.mp h
    rw [← memory_after hI hdone]
    refine offers_run hdone hI.turn (hc rfl) ?_
    simpa using metError_after.mp hmet
  serves := by
    rintro outcome s' rfl h
    obtain ⟨done, hdone, -, rfl⟩ := perform_eq_some.mp h
    rw [turns_after]
    exact serves_run hdone

theorem caughtAt_of_confined (h : ConfinedAt base strict k s a) : CaughtAt strict k s a := by
  rintro rfl hasks
  have hrun : ∃ done, a.2.run base s.memory (s.turns a.1) = some done := run_of_asks hasks
  obtain ⟨done, hdone⟩ := hrun
  have hescapes : escapes strict done.outcome = false :=
    h.raises done.outcome (s.after a done) rfl (perform_eq_some.mpr ⟨done, hdone, rfl, rfl⟩)
  rw [escapes_run hdone, hasks] at hescapes
  exact hescapes

/-- The failures of one turn stay confined, whatever the other turns do meanwhile, just if the
wrapped toolset raises none where nothing catches it. -/
theorem failures_confined_iff (base : GuardedMCPToolset) (strict : Bool) (k : Nat)
    (acts : List (Nat × Operation T I A R)) :
    Throughout (step base) (fun _ s a => ConfinedAt base strict k s a) [] .initial acts ↔
      Throughout (step base) (fun _ s a => CaughtAt strict k s a) [] .initial acts := by
  constructor
  · intro h
    exact h.of_invariant (I := fun _ _ => True) (fun _ _ _ _ => caughtAt_of_confined)
      (fun _ _ _ _ _ _ _ => trivial) trivial
  · intro h
    exact h.of_invariant (I := fun _ => Inv strict k) (fun _ _ _ => confinedAt_of_inv)
      (fun _ _ _ _ => inv_step) inv_initial

end Confined

section Weather

def weatherGuard : GuardedMCPToolset :=
  { server := "weather"
    allowlist := ⟨[⟨"daily_forecast", by decide, by decide, by decide⟩]⟩ }

/-- A server that is up at first and gone when the turn asks for its instructions. -/
def lostAtInstructions : List (Nat × Operation Unit Unit Unit Unit) :=
  [(0, .forRun (.ok ())), (0, .enter (.ok ())),
    (0, .getInstructions (.error (.exception "Connection closed")))]

/-- The error escapes, and the guard still asks the server for its tools. -/
theorem instructions_escape :
    ¬ Throughout (step weatherGuard) (fun _ s a => ConfinedAt weatherGuard false 0 s a) [] .initial
        lostAtInstructions ∧
      ∃ s, exec (step weatherGuard) .initial lostAtInstructions = some s ∧
        MetError false 0 s.exchanges ∧ ∃ outcome s',
          perform weatherGuard s (0, .getTools (.error (.exception "Connection closed"))) =
            some (outcome, s') ∧ s'.exchanges ≠ s.exchanges := by
  constructor
  · intro h
    have hlast := ((h.2 _ rfl).2 _ rfl).1
    exact Bool.noConfusion (hlast.raises _ _ rfl rfl)
  · refine ⟨_, rfl, ⟨_, List.mem_concat_self, rfl, rfl⟩, _, _, rfl, ?_⟩
    exact fun h => absurd (congrArg List.length h) (by decide)

end Weather

end ToolGuard
end Leitstand
