import Leitstand.ExternalTools
import Leitstand.Table
import Mathlib.Data.List.Perm.Basic

namespace Leitstand

/-- What a call raises: a failure to tell the model of, any other `Exception`, or what an
`except Exception` does not catch, such as a cancellation. -/
inductive Raised where
  | toolFailed (message : String)
  | exception (reason : String)
  | baseException (reason : String)

/-- Every exception but a `ToolFailed` is an error; what is no `Exception` is one only if `strict`. -/
def Raised.isError (strict : Bool) : Raised → Bool
  | .toolFailed _ => false
  | .exception _ => true
  | .baseException _ => strict

/-- A call that returns or raises so lets an error escape. -/
def escapes {β : Type} (strict : Bool) : Except Raised β → Bool
  | .ok _ => false
  | .error raised => raised.isError strict

@[simp] theorem escapes_map {β γ : Type} (strict : Bool) (f : β → γ) (outcome : Except Raised β) :
    escapes strict (outcome.map f) = escapes strict outcome := by
  cases outcome <;> rfl

/-- The tools that a server listed, by their names. -/
abbrev ToolsByName (T : Type) := Table (Prod.fst : String × T → String)

/-- What the guard keeps about its server from one turn to the next. -/
structure MCPServerMemory (T : Type) where
  lastTools : ToolsByName T
  loggedMissing : List String
  loggedOnce : loggedMissing.Nodup

/-- An operation gives its result by itself, or it asks the wrapped toolset and goes on with what
that returns or raises. -/
inductive Guarded (ρ β : Type) where
  | alone (result : β)
  | asking (next : Except Raised ρ → β)

def Guarded.asks {ρ β : Type} : Guarded ρ β → Bool
  | .alone _ => false
  | .asking _ => true

def Guarded.result {ρ β : Type} (reply : Except Raised ρ) : Guarded ρ β → β
  | .alone result => result
  | .asking next => next reply

/-- Confines an external server's failures to its own tools, for one turn. -/
structure GuardedMCPToolset where
  server : String
  allowlist : ToolAllowlist
  available : Bool := false
  entered : Bool := false

section Memory
variable {T : Type}

def MCPServerMemory.initial : MCPServerMemory T := ⟨.empty, [], List.nodup_nil⟩

/-- The patterns without a tool that no turn has logged yet, in the order in which they are logged. -/
def MCPServerMemory.missing (memory : MCPServerMemory T) (allowlist : ToolAllowlist)
    (tools : ToolsByName T) : List String :=
  ((allowlist.unmatched (tools.rows.map Prod.fst)).filter (· ∉ memory.loggedMissing)).mergeSort
    fun p q => decide (p ≤ q)

theorem MCPServerMemory.mem_missing {memory : MCPServerMemory T} {allowlist : ToolAllowlist}
    {tools : ToolsByName T} {pattern : String} : pattern ∈ memory.missing allowlist tools ↔
      pattern ∈ allowlist.unmatched (tools.rows.map Prod.fst) ∧ pattern ∉ memory.loggedMissing := by
  unfold missing
  rw [List.mem_mergeSort, List.mem_filter, decide_eq_true_iff]

def MCPServerMemory.reportMissing (memory : MCPServerMemory T) (allowlist : ToolAllowlist)
    (tools : ToolsByName T) : MCPServerMemory T :=
  { memory with
    loggedMissing := memory.loggedMissing ++ memory.missing allowlist tools
    loggedOnce := by
      have hmissing : (memory.missing allowlist tools).Nodup :=
        (List.mergeSort_perm _ _).nodup_iff.mpr ((List.nodup_dedup _).filter _)
      refine memory.loggedOnce.append hmissing ?_
      intro pattern hlogged hnew
      exact (MCPServerMemory.mem_missing.mp hnew).2 hlogged }

end Memory

namespace GuardedMCPToolset
variable {T I R : Type}

/-- A copy of the guard for one turn, around what the wrapped toolset gives for it. -/
def forRun (self : GuardedMCPToolset) : Guarded Unit (Except Raised GuardedMCPToolset) :=
  .asking fun wrapped => wrapped.map fun _ => { server := self.server, allowlist := self.allowlist }

def enter (self : GuardedMCPToolset) : Guarded Unit (Except Raised Unit × GuardedMCPToolset) :=
  .asking fun
    | .error (.baseException reason) => (.error (.baseException reason), self)
    | .error _ => (.ok (), self)
    | .ok () => (.ok (), { self with entered := true, available := true })

/-- The wrapped toolset's answer says whether it suppresses what ended the turn. -/
def exit (self : GuardedMCPToolset) : Guarded (Option Bool) (Except Raised (Option Bool)) :=
  if self.entered = false then .alone (.ok none)
  else .asking fun
    | .error (.baseException reason) => .error (.baseException reason)
    | .error _ => .ok none
    | .ok suppresses => .ok suppresses

def unavailable (self : GuardedMCPToolset) : String :=
  "The " ++ self.server ++ " service is unavailable this turn."

/-- Outside every `try`: what the wrapped toolset raises is raised on, and the guard stays as it
is. -/
def getInstructions (self : GuardedMCPToolset) : Guarded I (Except Raised (String ⊕ I)) :=
  if self.available = false then
    .alone (.ok (.inl (self.unavailable ++
      " Say so if the operator asks for it, and do not call its tools.")))
  else .asking fun reply => reply.map .inr

def getTools (self : GuardedMCPToolset) (memory : MCPServerMemory T) :
    Guarded (ToolsByName T)
      (Except Raised (ToolsByName T) × GuardedMCPToolset × MCPServerMemory T) :=
  -- The tools listed last, so that a call to one does not end the turn as an unknown tool.
  if self.available = false then .alone (.ok memory.lastTools, self, memory)
  else .asking fun
    | .error (.baseException reason) => (.error (.baseException reason), self, memory)
    | .error _ => (.ok memory.lastTools, { self with available := false }, memory)
    | .ok tools =>
      (.ok tools, self, { memory.reportMissing self.allowlist tools with lastTools := tools })

def callTool (self : GuardedMCPToolset) : Guarded R (Except Raised R × GuardedMCPToolset) :=
  if self.available = false then .alone (.error (.toolFailed self.unavailable), self)
  else .asking fun
    | .error (.exception _) =>
      (.error (.toolFailed self.unavailable), { self with available := false })
    | reply => (reply, self)

section Spec
variable {guard : GuardedMCPToolset} {memory : MCPServerMemory T}

@[simp] theorem asks_getInstructions :
    (guard.getInstructions : Guarded I _).asks = guard.available := by
  unfold getInstructions
  cases guard.available <;> rfl

@[simp] theorem asks_getTools : (guard.getTools memory).asks = guard.available := by
  unfold getTools
  cases guard.available <;> rfl

@[simp] theorem asks_callTool : (guard.callTool : Guarded R _).asks = guard.available := by
  unfold callTool
  cases guard.available <;> rfl

@[simp] theorem asks_exit : guard.exit.asks = guard.entered := by
  unfold exit
  cases guard.entered <;> rfl

theorem getInstructions_alone (h : guard.available = false) (reply : Except Raised I) :
    ∃ text, guard.getInstructions.result reply = .ok (.inl text) := by
  unfold getInstructions
  rw [if_pos h]
  exact ⟨_, rfl⟩

theorem getInstructions_asking (h : guard.available = true) (reply : Except Raised I) :
    guard.getInstructions.result reply = reply.map .inr := by
  unfold getInstructions
  rw [h]
  rfl

theorem getTools_alone (h : guard.available = false) (reply : Except Raised (ToolsByName T)) :
    (guard.getTools memory).result reply = (.ok memory.lastTools, guard, memory) := by
  unfold getTools
  rw [if_pos h]
  rfl

theorem getTools_asking (h : guard.available = true) (reply : Except Raised (ToolsByName T)) :
    (guard.getTools memory).result reply = match reply with
      | .error (.baseException reason) => (.error (.baseException reason), guard, memory)
      | .error _ => (.ok memory.lastTools, { guard with available := false }, memory)
      | .ok tools =>
        (.ok tools, guard,
          { memory.reportMissing guard.allowlist tools with lastTools := tools }) := by
  unfold getTools
  rw [h]
  rfl

theorem callTool_alone (h : guard.available = false) (reply : Except Raised R) :
    guard.callTool.result reply = (.error (.toolFailed guard.unavailable), guard) := by
  unfold callTool
  rw [if_pos h]
  rfl

theorem callTool_asking (h : guard.available = true) (reply : Except Raised R) :
    guard.callTool.result reply = match reply with
      | .error (.exception _) =>
        (.error (.toolFailed guard.unavailable), { guard with available := false })
      | reply => (reply, guard) := by
  unfold callTool
  rw [h]
  rfl

theorem exit_alone (h : guard.entered = false) (reply : Except Raised (Option Bool)) :
    guard.exit.result reply = .ok none := by
  unfold exit
  rw [if_pos h]
  rfl

theorem exit_asking (h : guard.entered = true) (reply : Except Raised (Option Bool)) :
    guard.exit.result reply = match reply with
      | .error (.baseException reason) => .error (.baseException reason)
      | .error _ => .ok none
      | .ok suppresses => .ok suppresses := by
  unfold exit
  rw [h]
  rfl

/-- A guard that still serves after a list of tools has served before and met no `Exception`. -/
theorem available_getTools {reply : Except Raised (ToolsByName T)}
    (h : ((guard.getTools memory).result reply).2.1.available = true) :
    guard.available = true ∧ ∀ reason, reply ≠ .error (.exception reason) := by
  by_cases ha : guard.available = true
  · refine ⟨ha, ?_⟩
    rintro reason rfl
    rw [getTools_asking ha] at h
    cases h
  · rw [getTools_alone (Bool.eq_false_iff.mpr ha)] at h
    exact absurd h ha

theorem available_callTool {reply : Except Raised R}
    (h : (guard.callTool.result reply).2.available = true) :
    guard.available = true ∧ ∀ reason, reply ≠ .error (.exception reason) := by
  by_cases ha : guard.available = true
  · refine ⟨ha, ?_⟩
    rintro reason rfl
    rw [callTool_asking ha] at h
    cases h
  · rw [callTool_alone (Bool.eq_false_iff.mpr ha)] at h
    exact absurd h ha

end Spec

end GuardedMCPToolset
end Leitstand
