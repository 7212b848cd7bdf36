import Leitstand.EventBus
import Leitstand.Json
import Leitstand.Uuid

namespace Leitstand

open StepSystem

section Auth

/-- What `str.strip` takes off a header. -/
def isBlank (c : Char) : Bool :=
  UUID.isSpace c || (28 ≤ c.toNat && c.toNat ≤ 31) || c.toNat == 133 || c.toNat == 160

/-- The token of an Authorization header, if it carries a bearer. -/
def bearerToken (authorization : Option String) : Option String := do
  let header ← authorization
  let scheme := header.toList.takeWhile (· ≠ ' ')
  let token := (header.toList.dropWhile (· ≠ ' ')).tail
  if scheme.map Char.toLower ≠ "bearer".toList then none
  else match UUID.strip isBlank token with
    | [] => none
    | stripped => some (String.ofList stripped)

def wsTokenPrefix : String := "leitstand.bearer."
def wsSubprotocol : String := "leitstand.v1"

/-- The token offered among the subprotocols; the first that bears one decides. -/
def wsCredential (subprotocols : List String) : Option String := do
  let offered ← subprotocols.find? fun offered =>
    wsTokenPrefix.toList.isPrefixOf offered.toList
  match offered.toList.drop wsTokenPrefix.length with
  | [] => none
  | token => some (String.ofList token)

def selectedSubprotocol (subprotocols : List String) : Option String :=
  if wsSubprotocol ∈ subprotocols then some wsSubprotocol else none

/-- Whether a presented token satisfies the configured one. -/
def tokenAccepted (authBearerToken token : Option String) : Bool :=
  match authBearerToken with
  | none => true
  | some expected => token = some expected

end Auth

section Frames

/-- What a client asks for. -/
inductive ClientFrame where
  | subscribe (topic : String)
  | unsubscribe (topic : String)
  | pong
  | ping

/-- `request_id: str | None`, `none` where it is neither. -/
def requestId? (fields : Dict) : Option (Option String) :=
  match fields.lookup "request_id" with
  | none | some .null => some none
  | some (.str requestId) => some (some requestId)
  | some _ => none

/-- The topic of a frame that has one, `none` where the frame is not valid. -/
def topic? (fields : Dict) : Option String :=
  match fields.lookup "topic", requestId? fields with
  | some (.str topic), some _ => some topic
  | _, _ => none

/-- A frame by its `type`, `none` where a `ValidationError` or `ValueError` is raised. -/
def ClientFrame.validate : Json → Option ClientFrame
  | .obj fields => match fields.lookup "type" with
    | some (.str "subscribe") => (topic? fields).map .subscribe
    | some (.str "unsubscribe") => (topic? fields).map .unsubscribe
    | some (.str "pong") => some .pong
    | some (.str "ping") => some .ping
    | _ => none
  | _ => none

/-- The `request_id` that an error frame repeats, `none` where the error frame is itself not valid. -/
def errorRequestId : Json → Option (Option String)
  | .obj fields => requestId? fields
  | _ => some none

inductive ServerFrame (P : Type) where
  | hello (version : String)
  | event (event : BusEvent P)
  | ping
  | pong
  | error (requestId : Option String) (code message : String)

end Frames

/-- Where a task of `pump_subscription` stands; once it has started it has a queue. -/
inductive PumpStage where
  | created
  | waiting (queue : Nat)
  | sending (queue : Nat)
  | ended (queue : Option Nat)
  deriving DecidableEq

structure Pump where
  client : Nat
  topicPrefix : String
  stage : PumpStage := .created
  cancelled : Bool := false

/-- Where the endpoint of a connection stands, which serves, cancels its tasks and awaits them. -/
inductive EndpointStage where
  | receiving
  | answering
  | leaving
  | left
  deriving DecidableEq

inductive HeartbeatStage where
  | sleeping
  | sending
  | ended
  deriving DecidableEq

/-- The coroutine that handed a frame to the socket. -/
inductive Sender where
  | endpoint
  | heartbeat
  | pump (i : Nat)
  deriving DecidableEq

/-- A connection that was accepted, with the frames that were handed to its socket. -/
structure Client (P : Type) where
  credential : Option String
  subprotocol : Option String
  stage : EndpointStage := .receiving
  connected : Bool := true
  heartbeat : HeartbeatStage := .sleeping
  subs : Table (Prod.fst : String × Nat → String) := .empty
  sent : List (Sender × ServerFrame P)

structure HubSettings where
  authBearerToken : Option String
  version : String
  /-- `str(e)` of the error that a frame raises. -/
  refusal : Json → String

/-- The hub over the bus of the application, with every call that was made on the bus. -/
structure Hub (P : Type) where
  settings : HubSettings
  bus : EventBus P
  calls : List (BusAction P) := []
  clients : List (Client P) := []
  pumps : List Pump := []

/-- A call by the rest of the application; a handshake; what each coroutine of a connection does
between two awaits. -/
inductive HubAction (P : Type) where
  | bus (a : BusAction P)
  | connect (authorization : Option String) (subprotocols : List String)
  | receive (c : Nat) (raw : Json)
  | interrupt (c : Nat)
  | answered (c : Nat)
  | unanswered (c : Nat)
  | beat (c : Nat)
  | beaten (c : Nat)
  | unbeaten (c : Nat)
  | timeout (c : Nat)
  | stop (c : Nat)
  | close (c : Nat)
  | start (i : Nat)
  | forward (i : Nat)
  | forwarded (i : Nat)
  | fail (i : Nat) (gone : Bool)
  | unwind (i : Nat)

def PumpStage.queue? : PumpStage → Option Nat
  | .created => none
  | .waiting queue | .sending queue => some queue
  | .ended queue => queue

/-- It is in its `try`, so that it has subscribed and not yet unsubscribed. -/
def PumpStage.isOpen : PumpStage → Bool
  | .waiting _ | .sending _ => true
  | _ => false

def PumpStage.isEnded : PumpStage → Bool
  | .ended _ => true
  | _ => false

def EndpointStage.serves : EndpointStage → Bool
  | .receiving | .answering => true
  | _ => false

namespace Client
variable {P : Type}

def say (sender : Sender) (frame : ServerFrame P) (client : Client P) : Client P :=
  { client with sent := client.sent ++ [(sender, frame)] }

/-- The events that one pump handed to the socket. -/
def eventsFrom (client : Client P) (i : Nat) : List (BusEvent P) :=
  client.sent.filterMap fun
    | (sender, .event event) => if sender = .pump i then some event else none
    | _ => none

end Client

namespace Hub
variable {P : Type}

def isOwn (s : Hub P) (queue : Nat) : Bool := s.pumps.any fun pump => pump.stage.queue? = some queue

/-- Other subscribers keep to their own queues. -/
def allows (s : Hub P) : BusAction P → Bool
  | .unsubscribe _ queue | .read queue => !s.isOwn queue
  | _ => true

def call (s : Hub P) (a : BusAction P) : Option (Hub P) :=
  (s.bus.step a).map fun bus => { s with bus, calls := s.calls ++ [a] }

def setClient (s : Hub P) (c : Nat) (f : Client P → Client P) : Hub P :=
  { s with clients := s.clients.modify c f }

def setStage (s : Hub P) (i : Nat) (stage : PumpStage) : Hub P :=
  { s with pumps := s.pumps.modify i fun pump => { pump with stage } }

/-- `task.cancel()` for each of the tasks. -/
def cancel (s : Hub P) (tasks : List Nat) : Hub P :=
  { s with pumps := s.pumps.mapIdx fun i pump =>
      if i ∈ tasks then { pump with cancelled := true } else pump }

def stageOf (s : Hub P) (c : Nat) : Option EndpointStage := s.clients[c]?.map (·.stage)

def connected (s : Hub P) (c : Nat) : Bool := s.clients[c]?.any (·.connected)

def subsOf (s : Hub P) (c : Nat) : Table (Prod.fst : String × Nat → String) :=
  s.clients[c]?.elim .empty (·.subs)

/-- The events that a connection got from one pump. -/
def eventsOf (s : Hub P) (c i : Nat) : List (BusEvent P) :=
  s.clients[c]?.elim [] (·.eventsFrom i)

/-- The `finally` of the endpoint up to its `gather`. -/
def leave (s : Hub P) (c : Nat) : Hub P :=
  (s.cancel ((s.subsOf c).rows.map (·.2))).setClient c fun client =>
    { client with stage := .leaving }

/-- Back to `receive_json`, which raises once the socket is closed. -/
def resume (s : Hub P) (c : Nat) : Hub P :=
  if s.connected c then s.setClient c fun client => { client with stage := .receiving }
  else s.leave c

/-- A frame is handed to the socket and its `send` awaited, which raises once the socket is closed. -/
def answer (s : Hub P) (c : Nat) (frame : ServerFrame P) : Hub P :=
  if s.connected c then
    s.setClient c fun client => { client.say .endpoint frame with stage := .answering }
  else s.leave c

def subscribe (s : Hub P) (c : Nat) (topic : String) : Hub P :=
  match (s.subsOf c).find? topic with
  | some _ => s
  | none =>
    { s.setClient c fun client =>
        { client with subs := client.subs.upsert (topic, s.pumps.length) fun _ => true } with
      pumps := s.pumps ++ [{ client := c, topicPrefix := topic }] }

def unsubscribe (s : Hub P) (c : Nat) (topic : String) : Hub P :=
  match (s.subsOf c).find? topic with
  | none => s
  | some (_, i) => (s.cancel [i]).setClient c fun client =>
      { client with subs := client.subs.erase topic }

def receive (s : Hub P) (c : Nat) (raw : Json) : Hub P :=
  match ClientFrame.validate raw with
  | some (.subscribe topic) => (s.subscribe c topic).resume c
  | some (.unsubscribe topic) => (s.unsubscribe c topic).resume c
  | some .pong => s.resume c
  | some .ping => s.answer c .pong
  | none => match errorRequestId raw with
    | some requestId => s.answer c (.error requestId "bad_frame" (s.settings.refusal raw))
    | none => s.leave c

def connect (s : Hub P) (authorization : Option String) (subprotocols : List String) : Hub P :=
  let credential := (bearerToken authorization).or (wsCredential subprotocols)
  if tokenAccepted s.settings.authBearerToken credential then
    { s with clients := s.clients ++
        [{ credential
           subprotocol := selectedSubprotocol subprotocols
           sent := [(.endpoint, .hello s.settings.version)] }] }
  else s

/-- The `finally` of a pump. -/
def finish (s : Hub P) (i : Nat) (topicPrefix : String) (queue : Nat) : Option (Hub P) :=
  (s.call (.unsubscribe topicPrefix queue)).map fun s => s.setStage i (.ended (some queue))

/-- The first step of a pump; one that was cancelled before never enters its body. -/
def start (s : Hub P) (i : Nat) : Option (Hub P) := do
  let pump ← s.pumps[i]?
  if pump.stage ≠ .created then none
  else if pump.cancelled then some (s.setStage i (.ended none))
  else (s.call (.subscribe pump.topicPrefix)).map fun called =>
    called.setStage i (.waiting s.bus.queues.length)

def forward (s : Hub P) (i : Nat) : Option (Hub P) := do
  let pump ← s.pumps[i]?
  match pump.stage, pump.cancelled with
  | .waiting queue, false =>
    let inbox ← s.bus.queues[queue]?
    let event ← inbox.items.head?
    let read ← s.call (.read queue)
    if s.connected pump.client then
      some ((read.setClient pump.client (·.say (.pump i) (.event event))).setStage i (.sending queue))
    else read.finish i pump.topicPrefix queue
  | _, _ => none

def forwarded (s : Hub P) (i : Nat) : Option (Hub P) := do
  let pump ← s.pumps[i]?
  match pump.stage, pump.cancelled with
  | .sending queue, false => some (s.setStage i (.waiting queue))
  | _, _ => none

/-- `send_json` raises, because the socket is gone or for another reason. -/
def fail (s : Hub P) (i : Nat) (gone : Bool) : Option (Hub P) := do
  let pump ← s.pumps[i]?
  match pump.stage, pump.cancelled with
  | .sending queue, false =>
    (s.setClient pump.client fun client =>
      { client with connected := client.connected && !gone }).finish i pump.topicPrefix queue
  | _, _ => none

/-- The next step of a pump that was cancelled. -/
def unwind (s : Hub P) (i : Nat) : Option (Hub P) := do
  let pump ← s.pumps[i]?
  if pump.stage.isOpen && pump.cancelled then
    let queue ← pump.stage.queue?
    s.finish i pump.topicPrefix queue
  else none

/-- What the endpoint awaits before it returns. -/
def gathered (s : Hub P) (client : Client P) : Bool :=
  client.heartbeat = .ended &&
    client.subs.rows.all fun (_, i) => s.pumps[i]?.all (·.stage.isEnded)

def setHeartbeat (s : Hub P) (c : Nat) (heartbeat : HeartbeatStage) : Hub P :=
  s.setClient c fun client => { client with heartbeat }

def disconnect (s : Hub P) (c : Nat) : Hub P :=
  s.setClient c fun client => { client with connected := false }

/-- A step of a connection's heartbeat, which is cancelled once the endpoint leaves. -/
def whileServing (s : Hub P) (c : Nat) (heartbeat : HeartbeatStage) (s' : Hub P) : Option (Hub P) := do
  let client ← s.clients[c]?
  if client.stage.serves && client.heartbeat = heartbeat then some s' else none

def step (s : Hub P) : HubAction P → Option (Hub P)
  | .bus a => if s.allows a then s.call a else none
  | .connect authorization subprotocols => some (s.connect authorization subprotocols)
  | .receive c raw => if s.stageOf c = some .receiving then some (s.receive c raw) else none
  | .interrupt c => if s.stageOf c = some .receiving then some (s.leave c) else none
  | .answered c => if s.stageOf c = some .answering then some (s.resume c) else none
  | .unanswered c =>
    if s.stageOf c = some .answering then some ((s.disconnect c).leave c) else none
  | .beat c => s.whileServing c .sleeping (if s.connected c then
      (s.setClient c (·.say .heartbeat .ping)).setHeartbeat c .sending else s.setHeartbeat c .ended)
  | .beaten c => s.whileServing c .sending (s.setHeartbeat c .sleeping)
  | .unbeaten c => s.whileServing c .sending ((s.disconnect c).setHeartbeat c .ended)
  | .timeout c => s.whileServing c .sleeping ((s.disconnect c).setHeartbeat c .ended)
  | .stop c => if s.stageOf c = some .leaving then some (s.setHeartbeat c .ended) else none
  | .close c => do
    let client ← s.clients[c]?
    if client.stage = .leaving && s.gathered client then
      some (s.setClient c fun client => { client with stage := .left })
    else none
  | .start i => s.start i
  | .forward i => s.forward i
  | .forwarded i => s.forwarded i
  | .fail i gone => s.fail i gone
  | .unwind i => s.unwind i

/-- The application as it starts: a bus that nothing was called on, and no connection. -/
def init (settings : HubSettings) (queueMaxsize : Nat) : Hub P :=
  { settings, bus := .start queueMaxsize }

end Hub
end Leitstand
