import Leitstand.StepSystem
import Leitstand.MissionManagement
import Leitstand.RunRefinement

namespace Leitstand
open TxM

/-- A robot's answer to the metadata query, with the runs that had been started by then. -/
structure Answer where
  replies : List MetadataReply
  known : List UUID

/-- The handler of one `PUT` sample; it waits for the robot's answer, then for its arrival. -/
structure PutHandler where
  robotId : RobotId
  answer : Option Answer := none

/-- A robot recorded online whose runs are still to be reconciled with what it said. `known` are the
runs that had been started when it said so. -/
structure Reconnection where
  robotId : RobotId
  claim : Claim
  known : List UUID

/-- A reconciliation under way: the runs it has still to judge, and those it judged unclaimed. -/
structure Reconciliation extends Reconnection where
  startedAt : Datetime
  left : List UUID
  judged : List MissionRun := []

/-- The backend and what is in flight in it. A dispatch or a deletion under way holds its
mission's lock; `recorded` are the frames of stored runs whose recording was committed. -/
structure System where
  world : Backend
  digests : Digests
  factsheets : Factsheets
  clock : Datetime := 0
  issued : List UUID := []
  dispatches : List Prepared := []
  deletions : List (UUID × Option Bool) := []
  handlers : List PutHandler := []
  reconnections : List Reconnection := []
  reconciliations : List Reconciliation := []
  recorded : List (RobotId × MissionStateMessage) := []

inductive Action where
  | tick (duration : Nat)
  | dispatch (command : StartRunCommand)
  | insert (i : Nat) (runId : UUID)
  | abandonDispatch (i : Nat)
  | settle (command : SettleRunCommand)
  | cancel (command : CancelRunCommand) (reply : ControlReply)
  | close (command : ControlRunCommand)
  | pause (command : ControlRunCommand) (reply : ControlReply)
  | resume (command : ControlRunCommand) (reply : ControlReply)
  | annotate (runId : UUID) (notes : Option String)
  | deleteRun (runId : UUID)
  | record (robotId : RobotId) (state : MissionStateMessage)
  | deleteMission (missionId : UUID)
  | countRuns (i : Nat)
  | finishDeletion (i : Nat)
  | abandonDeletion (i : Nat)
  | restoreMission (missionId : UUID)
  | livelinessPut (robotId : RobotId)
  | livelinessDelete (robotId : RobotId)
  | answerMetadata (i : Nat) (replies : List MetadataReply)
  | metadataArrives (i : Nat)
  | startReconciliation (i : Nat)
  | judgeRun (i : Nat)
  | closeJudged (i : Nat)
  | dropJudged (i : Nat)
  | endReconciliation (i : Nat)
  | abandonReconciliation (i : Nat)

namespace System
open RunReconciliation

def store (s : System) : Store := s.world.store

def runs (s : System) : Table StoredRun.runId := s.world.store.runs

def reconcileGrace : Datetime := seconds 30

def locked (s : System) (missionId : UUID) : Bool :=
  (s.dispatches.any fun p => p.command.missionId = missionId) ||
    s.deletions.any fun d => d.1 = missionId

def perform {β : Type} (s : System) (m : ServiceM β) : System :=
  { s with world := (m.atomically s.world).2 }

def outcome {β : Type} (s : System) (m : ServiceM β) : Except ServiceError β :=
  (m.atomically s.world).1

/-- A command addressed to a mission waits for its lock. -/
def command {β : Type} (s : System) (missionId : UUID) (m : ServiceM β) : Option System :=
  if s.locked missionId then none else some (s.perform m)

def startDispatch (s : System) (command : StartRunCommand) : Option System :=
  if s.locked command.missionId then none
  else match s.outcome (RunService.prepareRead s.digests s.factsheets s.clock command) with
    -- A refused dispatch lets go of the lock at once.
    | .error _ => some s
    | .ok p => some { s with dispatches := s.dispatches ++ [p] }

/-- The insert of a prepared dispatch, under a run id never drawn before. -/
def insertRun (s : System) (i : Nat) (runId : UUID) : Option System :=
  match s.dispatches[i]? with
  | none => none
  | some p =>
    if runId ∈ s.issued then none
    else some { s.perform (RunService.prepareInsert s.digests runId p) with
      dispatches := s.dispatches.eraseIdx i, issued := runId :: s.issued }

/-- The frame is about a stored run of the robot that sends it. -/
def owns (s : System) (robotId : RobotId) (state : MissionStateMessage) : Bool :=
  (s.runs.find? state.runId).any fun r => r.robotId = robotId

def recordFrame (s : System) (robotId : RobotId) (state : MissionStateMessage) : System :=
  match s.outcome (MissionStateService.record s.clock robotId state) with
  -- A frame whose rows Postgres refuses is rolled back as a whole.
  | .error _ => s
  | .ok _ => { s.perform (MissionStateService.record s.clock robotId state) with
      recorded := if s.owns robotId state then s.recorded ++ [(robotId, state)] else s.recorded }

def startDeletion (s : System) (missionId : UUID) : Option System :=
  if s.locked missionId then none
  else match s.outcome (MissionManagement.deleteRead missionId) with
    | .error _ => some s
    | .ok _ => some { s with deletions := s.deletions ++ [(missionId, none)] }

def countRuns (s : System) (i : Nat) : Option System :=
  match s.deletions[i]? with
  | some (missionId, none) =>
    match s.outcome (MissionManagement.deleteCount missionId) with
    | .error _ => none
    | .ok hasRuns => some { s with deletions := s.deletions.set i (missionId, some hasRuns) }
  | _ => none

def finishDeletion (s : System) (i : Nat) : Option System :=
  match s.deletions[i]? with
  | some (missionId, some hasRuns) =>
    some { s.perform (MissionManagement.deleteFinish s.clock missionId hasRuns) with
      deletions := s.deletions.eraseIdx i }
  | _ => none

def livelinessPut (s : System) (robotId : RobotId) : System :=
  if RobotConnectivity.robotIdMatches robotId then
    { s with handlers := s.handlers ++ [{ robotId }] }
  else s

def answerMetadata (s : System) (i : Nat) (replies : List MetadataReply) : Option System :=
  match s.handlers[i]? with
  | some ⟨robotId, none⟩ =>
    some { s with handlers := s.handlers.set i ⟨robotId, some { replies, known := s.issued }⟩ }
  | _ => none

/-- The runs a reconciliation of the robot goes through. -/
def activeRuns (s : System) (robotId : RobotId) : List UUID :=
  (Runs.listActive (fun r => r.robotId = robotId) s.store).map (·.runId)

/-- The robot's row and the instant its runs are judged by. -/
def recordOnline (s : System) (command : RecordOnlineCommand) (known : List UUID) : System :=
  { s.perform (RobotConnectivity.recordOnline s.clock command) with
    reconnections := s.reconnections ++
      [{ robotId := command.robotId, claim := command.claim s.clock, known }] }

def metadataArrives (s : System) (i : Nat) : Option System :=
  match s.handlers[i]? with
  | some ⟨robotId, some answer⟩ =>
    let rest := { s with handlers := s.handlers.eraseIdx i }
    match RobotConnectivity.fetchMetadata robotId answer.replies with
    -- No usable reply: the handler ends and the row stays as it is.
    | none => some rest
    | some command => some (rest.recordOnline command answer.known)
  | _ => none

/-- A reported claim is reconciled at once, a robot without one gets the grace window. -/
def startReconciliation (s : System) (i : Nat) : Option System :=
  match s.reconnections[i]? with
  | none => none
  | some w =>
    if w.claim.claimReported = false ∧ s.clock < w.claim.since + reconcileGrace then none
    else some { s with
      reconnections := s.reconnections.eraseIdx i
      reconciliations := s.reconciliations ++
        [{ w with startedAt := s.clock, left := s.activeRuns w.robotId }] }

def judgeRun (s : System) (i : Nat) : Option System :=
  match s.reconciliations[i]? with
  | none => none
  | some c =>
    match c.left with
    | [] => none
    | runId :: left =>
      let judgement := (judge c.startedAt c.claim runId).atomically s.world
      match judgement.1 with
      | .error _ => none
      | .ok run => some { s with
          world := judgement.2
          reconciliations := s.reconciliations.set i
            { c with left, judged := c.judged ++ run.toList } }

def closeJudged (s : System) (i : Nat) : Option System :=
  match s.reconciliations[i]? with
  | none => none
  | some c =>
    match c.judged with
    | [] => none
    | run :: judged => some { s.perform (closeUnclaimed s.clock run) with
        reconciliations := s.reconciliations.set i { c with judged } }

/-- A sweep that fails after its cancel went out leaves the run. -/
def dropJudged (s : System) (i : Nat) : Option System :=
  match s.reconciliations[i]? with
  | none => none
  | some c => some { s with
      reconciliations := s.reconciliations.set i { c with judged := c.judged.tail } }

def endReconciliation (s : System) (i : Nat) : Option System :=
  match s.reconciliations[i]? with
  | none => none
  | some c =>
    if c.left = [] ∧ c.judged.isEmpty then
      some { s.perform (stopClaim c.robotId c.claim) with
        reconciliations := s.reconciliations.eraseIdx i }
    else none

def step (s : System) : Action → Option System
  | .tick duration => some { s with clock := s.clock + duration }
  | .dispatch command => s.startDispatch command
  | .insert i runId => s.insertRun i runId
  | .abandonDispatch i => some { s with dispatches := s.dispatches.eraseIdx i }
  | .settle command => some (s.perform (RunService.settle s.clock command))
  | .cancel command reply =>
    s.command command.missionId (RunService.cancel s.clock command reply)
  | .close command => s.command command.missionId (RunService.close s.clock command)
  | .pause command reply => s.command command.missionId (RunService.pause s.clock command reply)
  | .resume command reply => s.command command.missionId (RunService.resume s.clock command reply)
  | .annotate runId notes => some (s.perform (RunService.annotate s.clock runId notes))
  | .deleteRun runId => some (s.perform (RunService.delete runId))
  | .record robotId state => some (s.recordFrame robotId state)
  | .deleteMission missionId => s.startDeletion missionId
  | .countRuns i => s.countRuns i
  | .finishDeletion i => s.finishDeletion i
  | .abandonDeletion i => some { s with deletions := s.deletions.eraseIdx i }
  | .restoreMission missionId =>
    s.command missionId (MissionManagement.restore s.clock missionId)
  | .livelinessPut robotId => some (s.livelinessPut robotId)
  | .livelinessDelete robotId => some (s.perform (RobotConnectivity.recordOffline robotId))
  | .answerMetadata i replies => s.answerMetadata i replies
  | .metadataArrives i => s.metadataArrives i
  | .startReconciliation i => s.startReconciliation i
  | .judgeRun i => s.judgeRun i
  | .closeJudged i => s.closeJudged i
  | .dropJudged i => s.dropJudged i
  | .endReconciliation i => s.endReconciliation i
  | .abandonReconciliation i => some { s with
      reconciliations := s.reconciliations.eraseIdx i }

/-- The backend as it starts: no run yet, nothing in flight, every robot offline. -/
structure Initial (s : System) : Prop where
  runs : s.runs = .empty
  offline : ∀ robot ∈ s.store.robots.rows, robot.online = false
  bus : s.world.bus = []
  sent : s.world.sent = []
  audit : s.store.audit = []
  issued : s.issued = []
  dispatches : s.dispatches = []
  deletions : s.deletions = []
  handlers : s.handlers = []
  reconnections : s.reconnections = []
  reconciliations : s.reconciliations = []
  recorded : s.recorded = []

def Reachable (s : System) : Prop := ∃ s₀ acts, Initial s₀ ∧ StepSystem.exec step s₀ acts = some s

/-- A backend that starts on these missions, before any robot has come online. -/
def boot (missions : Table Mission.missionId) (factsheets : Factsheets) (digests : Digests) :
    System :=
  { world := { store := { missions } }, digests, factsheets }

theorem boot_initial (missions : Table Mission.missionId) (factsheets : Factsheets)
    (digests : Digests) : Initial (boot missions factsheets digests) where
  runs := rfl
  offline := by simp [boot, store, Table.empty]
  bus := rfl
  sent := rfl
  audit := rfl
  issued := rfl
  dispatches := rfl
  deletions := rfl
  handlers := rfl
  reconnections := rfl
  reconciliations := rfl
  recorded := rfl

theorem Reachable.step {s s' : System} {a : Action} (h : Reachable s) (hs : s.step a = some s') :
    Reachable s' := by
  obtain ⟨s₀, acts, h₀, hx⟩ := h
  exact ⟨s₀, acts ++ [a], h₀, StepSystem.exec_snoc_iff.mpr ⟨s, hx, hs⟩⟩

/-- What holds at the start and survives every step holds in every reachable state. -/
theorem Reachable.invariant {I : System → Prop} (h₀ : ∀ s, Initial s → I s)
    (hstep : ∀ s a s', I s → s.step a = some s' → I s') {s : System} (h : Reachable s) : I s := by
  obtain ⟨s₀, acts, hi, hx⟩ := h
  exact StepSystem.exec_invariant hstep (h₀ s₀ hi) hx

end System

section Demo

def demoMission : Mission :=
  { missionId := 1, name := "north field", description := none
    stages :=
      { stages := [.mk 10 (some [.mk 11 none (.navigation [])]) (.navigation [.wgs84 52 8 none]),
          .mk 12 none (.navigation [.wgs84 52 9 none])]
        nonempty := by simp
        nodup := by decide }
    assignedRobotId := some "r1", archivedAt := none, createdAt := 0, updatedAt := 0 }

def demoFactsheet : RobotFactsheet :=
  { robotId := "r1", navigation := some [.wgs84], coverage := none, physicalParameters := none }

/-- One mission and the robot it is assigned to. -/
def demo : System :=
  .boot ⟨[demoMission], by simp⟩ ⟨[demoFactsheet], by simp⟩ ⟨fun _ => "", fun _ => ""⟩

def demoOnline : List Action :=
  [.livelinessPut "r1", .answerMetadata 0 [.object (some "r1") .null], .metadataArrives 0]

def demoDispatch : List Action :=
  [.dispatch { missionId := 1, origin := { kind := .manual, actor := "operator" } }, .insert 0 7]

/-- The robot's frame number `headerId` of the demo's run. -/
def demoFrame (headerId : Nat) (execStatus : MissionExecStatus)
    (stageStates : List StageState := []) : Action :=
  .record "r1" { runId := 7, headerId, timestamp := 0, execStatus, stageStates }

def demoSettle (outcome : DispatchOutcome) : Action :=
  .settle { runId := 7, outcome, repliedAt := 0 }

theorem demo_reaches (P : System → Bool) (acts : List Action)
    (h : (StepSystem.exec System.step demo acts).any P = true) : ∃ s, s.Reachable ∧ P s = true := by
  obtain ⟨s, hs, hp⟩ := (Option.any_eq_true _ _).mp h
  exact ⟨s, ⟨demo, acts, System.boot_initial _ _ _, hs⟩, hp⟩

end Demo
end Leitstand
