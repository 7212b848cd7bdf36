import Leitstand.RunMachine
import Leitstand.RunService
import Leitstand.MissionStateService
import Leitstand.RunReconciliation
import Leitstand.MissionManagement
import Leitstand.RobotConnectivity
import Leitstand.StepSystem
import Leitstand.Walk
import Leitstand.System
import Leitstand.CancelInFlight
import Leitstand.TransitionLog
import Leitstand.FrameOrder
import Leitstand.RequestConfirmation
import Leitstand.ClosedRuns
import Leitstand.ViewAgreement
import Leitstand.ActiveRuns
import Leitstand.MissionSerialisation
import Leitstand.OnlineFlag
import Leitstand.ReconcileEvidence
import Leitstand.ChatTurn
import Leitstand.MissionWire
import Leitstand.RobotFitDepth
import Leitstand.ToolCallGate
import Leitstand.UuidText
import Leitstand.WireRoundTrip
import Leitstand.ConcurrentEdit
import Leitstand.LatchedFrame
import Leitstand.LifecycleEvents
import Leitstand.FrozenPlan
import Leitstand.ErrorAttribution
import Leitstand.FinalProjection
import Leitstand.KeptStages
import Leitstand.ClaimedRun
import Leitstand.RequestedMode
import Leitstand.ControlReceipt
import Leitstand.RetainedCause
import Leitstand.StageIdentity
import Leitstand.PlanAgreement
import Leitstand.PlannedFit
import Leitstand.PlannerQuestion
import Leitstand.StageReplacement
import Leitstand.PlannerCalls
import Leitstand.RefusedRequests
import Leitstand.LossyQueue
import Leitstand.EventBus
import Leitstand.BusDelivery
import Leitstand.BusRuns
import Leitstand.SubscriberReads
import Leitstand.JoinedRuns
import Leitstand.PathSegments
import Leitstand.FleetView
import Leitstand.ExternalServers
import Leitstand.ExternalTools
import Leitstand.JsonUnique
import Leitstand.DigestIdentity
import Leitstand.UpdateOutcome
import Leitstand.ConfinedFailures
import Leitstand.DistinctWrites
import Leitstand.ProjectorRuns
import Leitstand.HubSessions
import Leitstand.ChatAudit
import Leitstand.AnsweredRequests
