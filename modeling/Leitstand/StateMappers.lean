import Leitstand.MissionState
import Leitstand.Outcomes
import Mathlib.Algebra.Order.Ring.Rat
import Mathlib.Data.List.Dedup

namespace Leitstand

/-- The wire's own values; a number that is none of them is read as it stands. -/
inductive ProtoExecStatus where
  | unspecified | running | paused | succeeded | failed | cancelled
  | unrecognized (number : Int)

inductive ProtoStageStatus where
  | unspecified | waiting | initializing | running | paused | finished | failed | cancelled | skipped
  | unrecognized (number : Int)

inductive ProtoSeverity where
  | unspecified | warning | fatal
  | unrecognized (number : Int)

/-- A stage's state on the wire; `progress` is `none` where it is not a finite number. -/
structure ProtoStageState (Timestamp : Type) where
  stageId : String
  status : ProtoStageStatus
  startedAt : Option Timestamp
  endedAt : Option Timestamp
  progress : Option Rat
  result : List (String × String)

structure ProtoError where
  severity : ProtoSeverity
  type : String
  references : List (String × String)
  description : String

structure ProtoMissionState (Timestamp : Type) where
  runId : String
  headerId : Int
  timestamp : Option Timestamp
  execStatus : ProtoExecStatus
  currentStageIndex : Int
  stageStates : List (ProtoStageState Timestamp)
  errors : List ProtoError

/-- Why a frame must not be interpreted. -/
inductive FrameError where
  | missingTimestamp (runId : String)
  | unmappedExecStatus (status : ProtoExecStatus) (runId : String)
  | unmappedStageStatus (status : ProtoStageStatus) (stageId : String)
  | duplicateStageId (runId : String)
  | malformedUuid (text : String)
  | timestampOutOfRange
  | invalid (field : String)

def missionExecStatusFromProto : ProtoExecStatus → Option MissionExecStatus
  | .running => some .running
  | .paused => some .paused
  | .succeeded => some .succeeded
  | .failed => some .failed
  | .cancelled => some .cancelled
  | .unspecified | .unrecognized _ => none

def stageStatusFromProto : ProtoStageStatus → Option StageStatus
  | .waiting => some .waiting
  | .initializing => some .initializing
  | .running => some .running
  | .paused => some .paused
  | .finished => some .finished
  | .failed => some .failed
  | .cancelled => some .cancelled
  | .skipped => some .skipped
  | .unspecified | .unrecognized _ => none

def errorFromProto (error : ProtoError) : MissionError where
  origin := .robot
  -- Unknown severities degrade to fatal.
  severity := match error.severity with
    | .warning => .warning
    | .fatal | .unspecified | .unrecognized _ => .fatal
  type := error.type
  references := error.references.map fun (key, value) => { key, value }
  description := error.description

section Mapper
variable {Timestamp : Type}

/-- `utc` is `none` where a timestamp is no datetime. -/
def datetimeFromProto (utc : Timestamp → Option Datetime) (ts : Timestamp) :
    Except FrameError Datetime :=
  (utc ts).elim (.error .timestampOutOfRange) .ok

def uuidFromProto (text : String) : Except FrameError UUID :=
  (UUID.parse text).elim (.error (.malformedUuid text)) .ok

variable (utc : Timestamp → Option Datetime)

def stageStateFromProto (state : ProtoStageState Timestamp) : Except FrameError StageState := do
  let some status := stageStatusFromProto state.status
    | throw (.unmappedStageStatus state.status state.stageId)
  let stageId ← uuidFromProto state.stageId
  let startedAt ← state.startedAt.mapM (datetimeFromProto utc)
  let endedAt ← state.endedAt.mapM (datetimeFromProto utc)
  -- The wire cannot enforce the bounds, and it admits NaN.
  let some progress := state.progress | throw (.invalid "progress")
  if 0 ≤ progress ∧ progress ≤ 1 then
    return { stageId, status, startedAt, endedAt, progress
             result := if state.result = [] then none else some state.result }
  else throw (.invalid "progress")

def missionStateFromProto (state : ProtoMissionState Timestamp) :
    Except FrameError MissionStateMessage := do
  let some ts := state.timestamp | throw (.missingTimestamp state.runId)
  let some execStatus := missionExecStatusFromProto state.execStatus
    | throw (.unmappedExecStatus state.execStatus state.runId)
  let stageStates ← state.stageStates.mapM (stageStateFromProto utc)
  if (stageStates.map (·.stageId)).dedup.length ≠ stageStates.length then
    throw (.duplicateStageId state.runId)
  else
    let runId ← uuidFromProto state.runId
    let timestamp ← datetimeFromProto utc ts
    if state.headerId < 0 then throw (.invalid "header_id")
    else if state.currentStageIndex < 0 then throw (.invalid "current_stage_index")
    else
      return { runId, headerId := state.headerId.toNat, timestamp, execStatus, stageStates
               errors := state.errors.map errorFromProto }

end Mapper

def missionStatePrefix : String := "leitstand/robot/"

def missionStateSuffix : String := "/mission/state"

def extractRobotId (key : String) : Option RobotId :=
  let inner := (key.toList.take (key.length - missionStateSuffix.length)).drop
    missionStatePrefix.length
  if missionStatePrefix.toList <+: key.toList ∧ missionStateSuffix.toList <:+ key.toList then
    if inner = [] ∨ '/' ∈ inner then none else some (String.ofList inner)
  else none

section Sample
variable {Payload Timestamp : Type}

/-- What a sample has the service record: nothing, where it cannot be interpreted. -/
def handleSample (parse : Payload → Option (ProtoMissionState Timestamp))
    (utc : Timestamp → Option Datetime) (key : String) (payload : Payload) :
    Option (RobotId × MissionStateMessage) := do
  let robotId ← extractRobotId key
  let proto ← parse payload
  let state ← (missionStateFromProto utc proto).toOption
  return (robotId, state)

variable {utc : Timestamp → Option Datetime}

theorem missionStateFromProto_ensures (proto : ProtoMissionState Timestamp) :
    (missionStateFromProto utc proto).Ensures
      (fun state => (state.stageStates.map (·.stageId)).Nodup) fun _ => True := by
  unfold missionStateFromProto
  cases proto.timestamp with
  | none => exact .error trivial
  | some ts =>
    cases missionExecStatusFromProto proto.execStatus with
    | none => exact .error trivial
    | some execStatus =>
      refine (Except.Ensures.any _).bind fun stageStates _ => ?_
      by_cases hlength : (stageStates.map (·.stageId)).dedup.length = stageStates.length
      · rw [if_neg (not_not_intro hlength)]
        refine (Except.Ensures.any _).bind fun runId _ => ?_
        refine (Except.Ensures.any _).bind fun timestamp _ => ?_
        split_ifs
        · exact .error trivial
        · exact .error trivial
        · refine .ok ?_
          have hsame := hlength.trans (List.length_map fun s : StageState => s.stageId).symm
          exact List.dedup_eq_self.mp ((List.dedup_sublist _).eq_of_length hsame)
      · rw [if_pos hlength]
        exact .error trivial

/-- A frame that is handed on names no stage twice. -/
theorem nodup_handleSample {parse : Payload → Option (ProtoMissionState Timestamp)} {key : String}
    {payload : Payload} {robotId : RobotId} {state : MissionStateMessage}
    (h : handleSample parse utc key payload = some (robotId, state)) :
    (state.stageStates.map (·.stageId)).Nodup := by
  unfold handleSample at h
  obtain ⟨key, -, h⟩ := Option.bind_eq_some_iff.mp h
  obtain ⟨proto, -, h⟩ := Option.bind_eq_some_iff.mp h
  obtain ⟨mapped, hmapped, h⟩ := Option.bind_eq_some_iff.mp h
  obtain ⟨rfl, rfl⟩ := Prod.mk.inj (Option.some.inj h)
  refine (@missionStateFromProto_ensures Timestamp utc proto).returns mapped ?_
  cases hx : missionStateFromProto utc proto with
  | error e =>
    rw [hx] at hmapped
    cases hmapped
  | ok state =>
    rw [hx] at hmapped
    rw [Option.some.inj hmapped]

end Sample
end Leitstand
