import Leitstand.RunReconciliation

namespace Leitstand

/-- The `active_run_id` of a metadata answer. -/
inductive ClaimField where
  | absent | null | text (runId : String) | otherValue
  deriving DecidableEq

/-- A reply to the metadata query: without a payload, with one that is no JSON object, or an object
whose `id` is a text or not. -/
inductive MetadataReply where
  | empty
  | unreadable
  | object (id : Option String) (activeRunId : ClaimField)
  deriving DecidableEq

structure RecordOnlineCommand where
  robotId : RobotId
  metadata : Metadata
  activeRunId : Option String
  claimReported : Bool
  deriving DecidableEq

def RecordOnlineCommand.claim (command : RecordOnlineCommand) (since : Datetime) : Claim :=
  { since, claimedRunId := command.activeRunId, claimReported := command.claimReported }

namespace RobotConnectivity
open TxM

def isIdHead (c : Char) : Bool := ('a' ≤ c && c ≤ 'z') || ('0' ≤ c && c ≤ '9')

/-- `^[a-z0-9][a-z0-9_-]*$` -/
def robotIdMatches (robotId : RobotId) : Bool :=
  match robotId.toList with
  | [] => false
  | c :: cs => isIdHead c && cs.all fun c => isIdHead c || c = '_' || c = '-'

/-- The first usable reply counts. -/
def fetchMetadata (robotId : RobotId) : List MetadataReply → Option RecordOnlineCommand
  | [] => none
  | .object (some id) field :: rest =>
    -- A claim that is neither a text nor null spoils its reply, and so does another robot's id.
    if field = .otherValue ∨ id ≠ robotId then fetchMetadata robotId rest
    else
      some
        { robotId, metadata := { id }
          activeRunId := match field with
            | .text runId => some runId
            | _ => none
          claimReported := field ≠ .absent }
  | _ :: rest => fetchMetadata robotId rest

def recordOnline (now : Datetime) (command : RecordOnlineCommand) : ServiceM RobotRow := do
  let robot ← Robots.recordOnline now command.robotId command.metadata
  publish .registry (.robotOnline command.robotId) false
  return robot

def recordOffline (robotId : RobotId) : ServiceM (Option RobotRow) := do
  let robot ← Robots.recordOffline robotId
  if robot.isSome then
    publish .registry (.robotOffline robotId) false
  return robot

end RobotConnectivity
end Leitstand
