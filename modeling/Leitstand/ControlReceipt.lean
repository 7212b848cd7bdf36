import Leitstand.JsonText
import Leitstand.RunRefinement

namespace Leitstand
open TxM

abbrev Bytes := List UInt8

/-- `bytes.strip()`: without the blanks at both ends. -/
def Bytes.strip (body : Bytes) : Bytes :=
  let blank : UInt8 → Bool := fun b => b == 32 || (9 ≤ b && b ≤ 13)
  ((body.dropWhile blank).reverse.dropWhile blank).reverse

/-- The bytes of an empty JSON object. -/
def Bytes.emptyObject : Bytes := [0x7b, 0x7d]

/-- A value of the open enumeration `ControlRefusal`. -/
inductive RefusalValue where
  | unspecified | notExecutingRun | other
  | unrecognized (value : Int)
  deriving DecidableEq

/-- The message a robot answers a command with; left out, a field has its default. -/
structure ControlResponse where
  applied : Bool := false
  refusal : RefusalValue := .unspecified
  reason : Option String := none
  deriving DecidableEq

/-- What becomes of a body that is parsed; `raised` stands for any error but a `ParseError`, such as
that of a body that is not UTF-8. -/
inductive Parsed where
  | message (m : ControlResponse)
  | parseError
  | raised
  deriving DecidableEq

/-- How control messages are written as canonical JSON and read back. -/
structure ControlFormat where
  toJson : ControlResponse → Bytes
  parse : Bytes → Parsed

/-- A reply to a query: an error, or a payload. -/
inductive Reply where
  | error
  | payload (body : Bytes)

namespace MissionDispatcher

def refusalFromProto : RefusalValue → ControlRefusal
  | .unspecified => .unspecified
  | .notExecutingRun => .notExecutingRun
  | .other => .other
  -- A value this code does not know is never read as applied.
  | .unrecognized _ => .unspecified

def controlReplyFromProto (response : ControlResponse) : ControlReply :=
  if response.applied then { applied := some true }
  else
    { applied := some false, refusal := some (refusalFromProto response.refusal)
      reason := response.reason }

def replyPayloadBytes : Reply → Option Bytes
  | .error => none
  | .payload body => some body

/-- A 0.3.0 client answers a cancel with an empty payload, which means applied. -/
def meansApplied (body : Bytes) : Bool := body.strip == [] || body.strip == Bytes.emptyObject

/-- The robot's receipt among the replies, `none` where reading them raises; silence is
`applied = none`. -/
def control (format : ControlFormat) : List Reply → Option ControlReply
  | [] => some { applied := none }
  | reply :: replies =>
    match replyPayloadBytes reply with
    | none => control format replies
    | some body =>
      if meansApplied body then some { applied := some true }
      else match format.parse body with
        | .parseError => control format replies
        | .raised => none
        | .message response => some (controlReplyFromProto response)

end MissionDispatcher

open MissionDispatcher

/-- The format writes this message as canonical JSON does and reads it back: what has its default is
left out, nothing is read from blanks, and nothing set from a message without a field. -/
structure ControlFormat.Canonical (format : ControlFormat) (m : ControlResponse) : Prop where
  roundTrip : format.parse (format.toJson m) = .message m
  empty : m = {} → format.toJson m = Bytes.emptyObject
  blank : ∀ body : Bytes, body.strip = [] → format.parse body = .parseError
  bare : ∀ (body : Bytes) m', body.strip = Bytes.emptyObject → format.parse body = .message m' →
    m' = {}

/-- A reply that is an error, or holds something that is no message. -/
inductive Reply.Unreadable (format : ControlFormat) : Reply → Prop
  | error : Unreadable format .error
  | payload (body : Bytes) (hne : body ≠ []) (h : ∀ m, format.parse body ≠ .message m) :
    Unreadable format (.payload body)

/-- The receipt says what the message says. -/
structure ReadAs (reply : ControlReply) (m : ControlResponse) : Prop where
  applied : reply.applied = some true ↔ m.applied = true
  refused : m.applied = false → reply.applied = some false ∧
    reply.refusal = some (refusalFromProto m.refusal) ∧ reply.reason = m.reason

/-- With this receipt a pause or a resume is written only if the message says it was applied. -/
structure WrittenIfApplied (reply : ControlReply) (m : ControlResponse) : Prop where
  pause : ∀ now command (w : Backend),
    ((RunService.pause now command reply).atomically w).2.store ≠ w.store → m.applied = true
  resume : ∀ now command (w : Backend),
    ((RunService.resume now command reply).atomically w).2.store ≠ w.store → m.applied = true

/-- The receipt is read as the robot meant it, and acted on so. -/
def Honoured (reply : Option ControlReply) (m : ControlResponse) : Prop :=
  ∃ receipt, reply = some receipt ∧ ReadAs receipt m ∧ WrittenIfApplied receipt m

/-- The reply is one of those taken for a 0.3.0 client's. -/
def Reply.takenAsApplied : Reply → Bool
  | .error => false
  | .payload body => meansApplied body

/-- The reply cannot be read, nor be passed over. -/
def Reply.raises (format : ControlFormat) : Reply → Bool
  | .error => false
  | .payload body => decide (format.parse body = .raised)

/-- The first of the replies that is not passed over. -/
def firstStop (format : ControlFormat) (replies : List Reply) : Option Reply :=
  replies.find? fun reply => reply.takenAsApplied || reply.raises format

section Receipt
variable {format : ControlFormat} {m : ControlResponse} {noise replies : List Reply}

/-- What cannot be read is passed over, up to what is taken for a 0.3.0 client's answer or raises. -/
theorem control_noise (h : ∀ reply ∈ noise, reply.Unreadable format) :
    MissionDispatcher.control format (noise ++ replies) =
      match firstStop format noise with
      | none => MissionDispatcher.control format replies
      | some stop => if stop.takenAsApplied then some { applied := some true } else none := by
  induction noise with
  | nil => rfl
  | cons reply noise ih =>
    obtain ⟨hreply, hnoise⟩ := List.forall_mem_cons.mp h
    have hrest := ih hnoise
    unfold firstStop at hrest ⊢
    rw [List.cons_append, MissionDispatcher.control, List.find?_cons]
    cases hreply with
    | error => exact hrest
    | payload body hne hparse =>
      have htaken : (Reply.payload body).takenAsApplied = meansApplied body := rfl
      have hraises : (Reply.payload body).raises format = decide (format.parse body = .raised) := rfl
      dsimp only [replyPayloadBytes]
      rw [htaken, hraises]
      by_cases hb : meansApplied body = true
      · simp [hb, htaken]
      · cases hp : format.parse body with
        | message m => exact absurd hp (hparse m)
        | parseError => simp [hb, hrest]
        | raised => simp [hb, htaken]

/-- Only the message in which every field has its default is written like such an answer. -/
theorem meansApplied_toJson (h : format.Canonical m) :
    meansApplied (format.toJson m) = true ↔ m = {} := by
  have hread := h.roundTrip
  unfold meansApplied
  rw [Bool.or_eq_true, beq_iff_eq, beq_iff_eq]
  constructor
  · rintro (hblank | hbare)
    · rw [h.blank _ hblank] at hread
      cases hread
    · exact h.bare _ m hbare hread
  · intro hm
    rw [h.empty hm]
    exact .inr (by decide)

theorem control_toJson (h : format.Canonical m) :
    MissionDispatcher.control format (.payload (format.toJson m) :: replies) =
      some (if m = {} then { applied := some true } else controlReplyFromProto m) := by
  have htaken := meansApplied_toJson h
  rw [MissionDispatcher.control]
  dsimp only [replyPayloadBytes]
  rw [h.roundTrip]
  by_cases hm : m = {}
  · rw [if_pos (htaken.mpr hm), if_pos hm]
  · rw [if_neg fun ht => hm (htaken.mp ht), if_neg hm]

theorem readAs_fromProto : ReadAs (controlReplyFromProto m) m := by
  unfold controlReplyFromProto
  cases ha : m.applied with
  | true => exact ⟨by simp [ha], by simp [ha]⟩
  | false => exact ⟨by simp [ha], by simp [ha]⟩

theorem readAs_applied : ReadAs { applied := some true } m ↔ m.applied = true := by
  constructor
  · exact fun h => h.applied.mp rfl
  · exact fun ha => ⟨by simp [ha], by simp [ha]⟩

section Steer
variable {now : Datetime} {command : ControlRunCommand} {trigger : RunTrigger} {action : String}
  {dispatch : UUID → RobotId → Command} {entry : UUID → UUID → AuditEntry} {reply : ControlReply}

/-- A pause or a resume goes through only if the robot took it. -/
theorem steer_applied {tx tx' : Tx Store Event Command} {run : MissionRun}
    (hx : (RunService.steer now command trigger action dispatch entry reply).exec tx =
      (.ok run, tx')) : reply.applied = some true := by
  unfold RunService.steer at hx
  simp only [exec_bind_ok, exec_check, raiseIf_eq_ok, Prod.mk.injEq] at hx
  obtain ⟨_, _, -, _, _, -, _, _, -, _, _, -, _, _, -, _, _, ⟨hsome, -⟩, _, _, ⟨hnot, -⟩, -⟩ := hx
  rcases ha : reply.applied with _ | _ | _
  · exact absurd ha hsome
  · exact absurd ha hnot
  · rfl

theorem steer_unapplied (h : reply.applied ≠ some true) (w : Backend) :
    ((RunService.steer now command trigger action dispatch entry reply).atomically w).2.store =
      w.store := by
  unfold atomically
  rcases hx : (RunService.steer now command trigger action dispatch entry reply).exec
      { store := w.store } with ⟨e | run, tx⟩
  · rfl
  · exact absurd (steer_applied hx) h

end Steer

theorem ReadAs.written {reply : ControlReply} (h : ReadAs reply m) : WrittenIfApplied reply m where
  pause := by
    intro now command w hw
    by_contra ha
    exact hw (steer_unapplied (fun hr => ha (h.applied.mp hr)) w)
  resume := by
    intro now command w hw
    by_contra ha
    exact hw (steer_unapplied (fun hr => ha (h.applied.mp hr)) w)

theorem honoured_some {receipt : ControlReply} : Honoured (some receipt) m ↔ ReadAs receipt m := by
  constructor
  · rintro ⟨receipt', he, hread, -⟩
    exact Option.some.inj he ▸ hread
  · exact fun hread => ⟨receipt, rfl, hread, hread.written⟩

/-- A robot's answer to a pause or a resume is read as it was meant, and acted on so, exactly if
nothing before it stops the reading and one of its fields is set, or what stops the reading is taken
for an answer that says the same. -/
theorem control_receipt_iff (h : format.Canonical m)
    (hnoise : ∀ reply ∈ noise, reply.Unreadable format) :
    Honoured (MissionDispatcher.control format (noise ++ .payload (format.toJson m) :: replies)) m ↔
    match firstStop format noise with
    | none => m ≠ {}
    | some stop => stop.takenAsApplied = true ∧ m.applied = true := by
  rw [control_noise hnoise, control_toJson h]
  cases firstStop format noise with
  | none =>
    dsimp only
    rw [honoured_some]
    by_cases hm : m = {}
    · rw [if_pos hm, readAs_applied, hm]
      simp
    · rw [if_neg hm]
      exact iff_of_true readAs_fromProto hm
  | some stop =>
    dsimp only
    by_cases ht : stop.takenAsApplied = true
    · rw [if_pos ht, honoured_some, readAs_applied, and_iff_right ht]
    · rw [if_neg ht]
      refine iff_of_false ?_ fun hc => ht hc.1
      rintro ⟨receipt, hnone, -⟩
      cases hnone

end Receipt
section Demo

def demoRefusal : RefusalValue → String
  | .unspecified => "\"CONTROL_REFUSAL_UNSPECIFIED\""
  | .notExecutingRun => "\"CONTROL_REFUSAL_NOT_EXECUTING_RUN\""
  | .other => "\"CONTROL_REFUSAL_OTHER\""
  | .unrecognized value => toString value

/-- The fields of the message that are written, in the order of their numbers. -/
def demoFields (m : ControlResponse) : List String :=
  (if m.applied then ["\"applied\": true"] else []) ++
    (if m.refusal = .unspecified then [] else ["\"refusal\": " ++ demoRefusal m.refusal]) ++
    m.reason.toList.map fun reason => "\"reason\": " ++ Json.quoted reason

def demoJson (m : ControlResponse) : Bytes :=
  let text := if demoFields m = [] then "\x7b\x7d"
    else "\x7b\n  " ++ String.intercalate ",\n  " (demoFields m) ++ "\n\x7d"
  text.toList.map fun c => c.toNat.toUInt8

/-- A robot that was asked to pause and is busy with something else. -/
def demoBusy : ControlResponse := { refusal := .other, reason := some "busy" }

def demoMessages : List ControlResponse := [{}, { applied := true }, demoBusy]

/-- The format as far as the demo's messages go. -/
def demoFormat : ControlFormat where
  toJson := demoJson
  parse := fun body => match demoMessages.find? fun m => demoJson m == body with
    | none => .parseError
    | some m => .message m

theorem demoFormat_parse {body : Bytes} {m : ControlResponse}
    (h : demoMessages.find? (fun m => demoJson m == body) = some m) :
    m ∈ demoMessages ∧ demoJson m = body := by
  have hsame := List.find?_some h
  exact ⟨List.mem_of_find?_eq_some h, beq_iff_eq.mp hsame⟩

theorem demoFormat_canonical {m : ControlResponse} (h : demoFormat.parse (demoJson m) = .message m) :
    demoFormat.Canonical m where
  roundTrip := h
  empty := by
    rintro rfl
    decide
  blank := by
    intro body hblank
    dsimp only [demoFormat]
    cases hm : demoMessages.find? fun m => demoJson m == body with
    | none => rfl
    | some m' =>
      obtain ⟨hmem, rfl⟩ := demoFormat_parse hm
      have hsome : ∀ m ∈ demoMessages, (demoJson m).strip ≠ [] := by decide
      exact absurd hblank (hsome m' hmem)
  bare := by
    intro body m' hbare hm'
    dsimp only [demoFormat] at hm'
    cases hm : demoMessages.find? fun m => demoJson m == body with
    | none => simp [hm] at hm'
    | some m'' =>
      rw [hm] at hm'
      obtain rfl := Parsed.message.inj hm'
      obtain ⟨hmem, rfl⟩ := demoFormat_parse hm
      have hsome : ∀ m ∈ demoMessages, (demoJson m).strip = Bytes.emptyObject → m = {} := by decide
      exact hsome m'' hmem hbare

/-- The busy robot answers after an error and a body that is no JSON. -/
theorem control_receipt_iff_busy :
    Honoured (MissionDispatcher.control demoFormat
      ([.error, .payload [0x6e]] ++ [.payload (demoFormat.toJson demoBusy)])) demoBusy ↔
    match firstStop demoFormat [.error, .payload [0x6e]] with
    | none => demoBusy ≠ {}
    | some stop => stop.takenAsApplied = true ∧ demoBusy.applied = true := by
  refine control_receipt_iff (demoFormat_canonical (by decide)) ?_
  have hparse : demoFormat.parse [0x6e] = .parseError := by decide
  rintro reply (_ | ⟨_, _ | ⟨_, _ | _⟩⟩)
  · exact .error
  · exact .payload _ (by decide) (by simp [hparse])

/-- A refusal without a reason is read as if the robot had paused. -/
theorem refusal_read_as_applied : ¬ ∀ (format : ControlFormat) (m : ControlResponse)
    (noise : List Reply), format.Canonical m → (∀ reply ∈ noise, reply.Unreadable format) →
    Honoured (MissionDispatcher.control format (noise ++ [.payload (format.toJson m)])) m := by
  intro hall
  obtain ⟨receipt, hreceipt, hread, -⟩ :=
    hall demoFormat {} [] (demoFormat_canonical (by decide)) (by simp)
  have hcontrol : MissionDispatcher.control demoFormat [.payload (demoFormat.toJson {})] =
      some { applied := some true } := by decide
  rw [List.nil_append, hcontrol] at hreceipt
  obtain rfl := Option.some.inj hreceipt
  have happlied := hread.applied.mp rfl
  cases happlied

end Demo
end Leitstand
