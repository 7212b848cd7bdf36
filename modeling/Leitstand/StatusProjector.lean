import Leitstand.LockedCalls
import Leitstand.StatusEvents
import Leitstand.SubscriberReads

namespace Leitstand

open StepSystem

/-- A task drains one of the projector's queues, or sweeps the robots that it listed; a sweep in
which a recompute fails goes no further. -/
inductive ProjectorTask where
  | drain (topicPrefix : String) (queue : Nat)
  | sweep (left : List RobotId) (failed : Bool)

/-- What a recompute has read so far. -/
inductive Reading where
  | nothing
  | robot (online : Bool)
  | runs (online hasActive : Bool)
  | status (status : Option RobotStatus)

/-- The projector beside the backend. `outbox` are the events of committed transactions that are
still to be published, `published` the statuses handed to the bus, the oldest first. -/
structure StatusProjector where
  sys : System
  outbox : List Event := []
  bus : EventBus Message
  workers : Workers ProjectorTask RobotId Reading
  last : Table (Prod.fst : RobotId × RobotStatus → RobotId) := .empty
  published : List (RobotId × RobotStatus) := []

inductive ProjectorAction where
  | backend (a : Action)
  | publish (i : Nat)
  | telemetry (robotId : RobotId) (sample : Telemetry)
  | factsheet (factsheet : RobotFactsheet)
  | created (missionId : UUID)
  | bus (a : BusAction Message)
  | take (i : Nat)
  | list (robotIds : List RobotId)
  | next (i : Nat)
  | acquire (i : Nat)
  | read (i : Nat)
  | finish (i : Nat)
  | fail (i : Nat)

def missionPrefix : String := "events/mission"

/-- What an event of a transaction does on the bus. -/
def Event.onBus (e : Event) (bus : EventBus Message) : EventBus Message :=
  match e with
  | .publish topic payload latch => bus.publish topic.text (.event payload) latch
  | .unlatch topic => bus.unlatch topic.text

namespace ProjectorTask

def queue? : ProjectorTask → Option Nat
  | .drain _ queue => some queue
  | .sweep _ _ => none

def abort : ProjectorTask → ProjectorTask
  | .sweep left _ => .sweep left true
  | task => task

end ProjectorTask

namespace StatusProjector

def isOwn (s : StatusProjector) (queue : Nat) : Bool :=
  s.workers.any fun w => w.task.queue? = some queue

/-- Other subscribers keep to their own queues, and publish what has an action of its own. -/
def allows (s : StatusProjector) : BusAction Message → Bool
  | .run | .subscribe _ => true
  | .unsubscribe _ queue | .read queue => !s.isOwn queue
  | .publish _ _ _ | .unlatch _ => false

/-- `charging` of the latest battery sample. -/
def charging (s : StatusProjector) (robotId : RobotId) : Bool :=
  match s.bus.latched.find? (robotTopic robotId "battery") with
  | some (_, .telemetry (.battery battery)) => battery.charging
  | _ => false

/-- The status that a new subscriber finds. -/
def shown (s : StatusProjector) (robotId : RobotId) : Option RobotStatus :=
  match s.bus.latched.find? (robotTopic robotId "status") with
  | some (_, .status status) => some status
  | _ => none

/-- One read of `compute`: the robot, then its runs, then its battery. -/
def readNext (s : StatusProjector) (robotId : RobotId) : Reading → Option Reading
  | .nothing => match s.sys.store.robots.find? robotId with
    | none => some (.status none)
    | some row => some (.robot row.toDomain.online)
  | .robot online => some (.runs online (hasExecutingRun s.sys.store robotId))
  | .runs online hasActive =>
    some (.status (some (deriveRobotStatus online hasActive (s.charging robotId))))
  | .status _ => none

/-- The end of `_recompute`: only a status that differs from the last one is published. -/
def conclude (s : StatusProjector) (robotId : RobotId) : Option RobotStatus → StatusProjector
  | none => s
  | some status =>
    if (s.last.find? robotId).map (·.2) = some status then s
    else { s with
      last := s.last.upsert (robotId, status) fun _ => true
      bus := s.bus.publish (robotTopic robotId "status") (.status status) true
      published := s.published ++ [(robotId, status)] }

def take (s : StatusProjector) (i : Nat) : Option StatusProjector :=
  match s.workers.task i, s.workers.call i with
  | some (.drain _ queue), none => do
    let inbox ← s.bus.queues[queue]?
    let event ← inbox.items.head?
    let bus ← s.bus.read queue
    some { s with
      bus
      workers := s.workers.setCall i
        ((affectedRobot event.topic event.payload).map fun key => { key }) }
  | _, _ => none

def next (s : StatusProjector) (i : Nat) : Option StatusProjector :=
  match s.workers.task i, s.workers.call i with
  | some (.sweep (robotId :: left) false), none => some { s with
      workers := (s.workers.setTask i (.sweep left false)).setCall i (some { key := robotId }) }
  | _, _ => none

def acquire (s : StatusProjector) (i : Nat) : Option StatusProjector :=
  match s.workers.call i with
  | some { key, held := none } =>
    if s.workers.free then
      some { s with workers := s.workers.setCall i (some { key, held := some .nothing }) }
    else none
  | _ => none

def read (s : StatusProjector) (i : Nat) : Option StatusProjector :=
  match s.workers.call i with
  | some { key, held := some reading } => (s.readNext key reading).map fun reading =>
      { s with workers := s.workers.setCall i (some { key, held := some reading }) }
  | _ => none

def finish (s : StatusProjector) (i : Nat) : Option StatusProjector :=
  match s.workers.call i with
  | some { key, held := some (.status status) } =>
    some { s.conclude key status with workers := s.workers.setCall i none }
  | _ => none

def fail (s : StatusProjector) (i : Nat) : Option StatusProjector :=
  match s.workers.task i, s.workers.call i with
  | some task, some { key := _, held := some _ } =>
    some { s with workers := (s.workers.setTask i task.abort).setCall i none }
  | _, _ => none

def step (s : StatusProjector) : ProjectorAction → Option StatusProjector
  | .backend a => (s.sys.step a).map fun sys => { s with
      sys, outbox := s.outbox ++ sys.world.bus.drop s.sys.world.bus.length }
  | .publish i => s.outbox[i]?.map fun e => { s with
      outbox := s.outbox.eraseIdx i, bus := e.onBus s.bus }
  | .telemetry robotId sample => some { s with
      bus := (s.bus.publish (robotTopic robotId sample.kind) (.telemetry sample) true).publish
        (robotAggregateTopic robotId) (.aggregate sample) false }
  | .factsheet factsheet => some { s with
      bus := s.bus.publish (robotTopic factsheet.robotId "factsheet") (.factsheet factsheet) true }
  | .created missionId => some { s with
      bus := s.bus.publish (missionTopic missionId "created") (.created missionId) false }
  | .bus a => if s.allows a then (s.bus.step a).map fun bus => { s with bus } else none
  | .take i => s.take i
  | .list robotIds =>
    if robotIds.Perm (s.sys.store.robots.rows.map RobotRow.id) then
      some { s with workers := s.workers ++ [{ task := .sweep robotIds false }] }
    else none
  | .next i => s.next i
  | .acquire i => s.acquire i
  | .read i => s.read i
  | .finish i => s.finish i
  | .fail i => s.fail i

/-- `start`: the registry and the mission subtree are subscribed to, and drained. -/
def start (sys : System) (outbox : List Event) (bus : EventBus Message) : StatusProjector :=
  let registered := bus.subscribe registryTopic
  { sys, outbox
    bus := registered.subscribe missionPrefix
    workers := [{ task := .drain registryTopic bus.queues.length },
      { task := .drain missionPrefix registered.queues.length }] }

/-- The projector as it starts beside a backend that runs, on a bus that no status was latched on. -/
structure Initial (s : StatusProjector) : Prop where
  sys : s.sys.Reachable
  started : ∃ n past bus, 0 < n ∧ exec EventBus.step (EventBus.start n) past = some bus ∧
    (∀ robotId, bus.latched.find? (robotTopic robotId "status") = none) ∧
    s = start s.sys s.outbox bus

def Reachable (s : StatusProjector) : Prop :=
  ∃ s₀ acts, Initial s₀ ∧ exec step s₀ acts = some s

end StatusProjector
end Leitstand
