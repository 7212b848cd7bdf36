import Leitstand.ActiveRuns

namespace Leitstand

inductive RobotStatus where
  | offline | charging | active | idle
  deriving DecidableEq

/-- The displayed status, by priority offline > charging > active > idle. -/
def deriveRobotStatus (online hasActiveMission charging : Bool) : RobotStatus :=
  if !online then .offline
  else if charging then .charging
  else if hasActiveMission then .active
  else .idle

structure Pose where
  ts : Datetime
  lat : Rat
  lon : Rat
  headingDeg : Option Rat := none
  horizontalAccuracyM : Option Rat := none
  deriving DecidableEq

structure Battery where
  ts : Datetime
  batteryPct : Fin 101
  charging : Bool
  deriving DecidableEq

/-- The latest telemetry of each robot. -/
structure RobotStateView where
  latestPose : RobotId → Option Pose
  latestBattery : RobotId → Option Battery

structure Robot where
  id : RobotId
  metadata : Metadata
  online : Bool
  lastSeen : Datetime
  deriving DecidableEq

def RobotRow.toDomain (row : RobotRow) : Robot :=
  { id := row.id, metadata := row.metadata, online := row.online, lastSeen := row.lastSeenAt }

structure RobotOverview where
  robot : Robot
  pose : Option Pose
  battery : Option Battery
  status : RobotStatus
  factsheet : Option RobotFactsheet
  currentRun : Option MissionRunSummary

def StoredRun.toSummary (r : StoredRun) : MissionRunSummary := r.run.toMissionRunSummary

section Queries
variable (store : Store)

def hasExecutingRun (robotId : RobotId) : Bool :=
  store.runs.rows.any fun r => r.robotId = robotId && isExecuting r.status

/-- An answer of `list_active`; the query gives no order. -/
def ListsActive (listed : List MissionRunSummary) : Prop :=
  listed.Perm ((store.runs.rows.filter fun r => isActive r.status).map StoredRun.toSummary)

/-- An answer of the robot list; how the ids are ordered is left to the database's collation. -/
def ListsRobots (robots : List Robot) : Prop :=
  robots.Perm (store.robots.rows.map RobotRow.toDomain)

end Queries

namespace FleetView
variable (view : RobotStateView) (factsheets : Factsheets)

/-- Every robot's active run: where a robot had several, the last one listed. -/
def currentRuns (listed : List MissionRunSummary) : Table MissionRunSummary.robotId := .ofRows listed

def buildOverview (currentRuns : Table MissionRunSummary.robotId) (robot : Robot) : RobotOverview :=
  let battery := view.latestBattery robot.id
  let current := currentRuns.find? robot.id
  { robot, pose := view.latestPose robot.id, battery
    status := deriveRobotStatus robot.online (current.any fun run => isExecuting run.status)
      (battery.any (·.charging))
    factsheet := factsheets.find? robot.id, currentRun := current }

def listRobots (robots : List Robot) (listed : List MissionRunSummary) : List RobotOverview :=
  robots.map (buildOverview view factsheets (currentRuns listed))

def getRobot (store : Store) (listed : List MissionRunSummary) (robotId : RobotId) :
    Option RobotOverview :=
  (store.robots.find? robotId).map fun row =>
    buildOverview view factsheets (currentRuns listed) row.toDomain

end FleetView

namespace RobotStatusService

def compute (view : RobotStateView) (store : Store) (robotId : RobotId) : Option RobotStatus :=
  (store.robots.find? robotId).map fun row => deriveRobotStatus row.toDomain.online
    (hasExecutingRun store robotId) ((view.latestBattery robotId).any (·.charging))

end RobotStatusService

section Agreement
variable {store : Store} {listed : List MissionRunSummary} {robotId : RobotId}

/-- What a listed run is a summary of. -/
theorem ListsActive.mem_iff (h : ListsActive store listed) {run : MissionRunSummary} :
    run ∈ listed ↔ ∃ r ∈ store.runs.rows, isActive r.status = true ∧ r.toSummary = run := by
  rw [List.Perm.mem_iff h]
  simp only [List.mem_map, List.mem_filter, and_assoc]

theorem isActive_of_isExecuting {status : RunStatus} (h : isExecuting status = true) :
    isActive status = true := by
  unfold isActive
  rw [h, Bool.true_or]

/-- A robot's run in the fleet list executes if and only if the robot has an executing run. -/
theorem currentRun_isExecuting (hone : OneActive store) (h : ListsActive store listed) :
    ((FleetView.currentRuns listed).find? robotId).any (fun run => isExecuting run.status) =
      hasExecutingRun store robotId := by
  rw [Bool.eq_iff_iff]
  constructor
  · intro hany
    obtain ⟨run, hrun, hexecuting⟩ := (Option.any_eq_true _ _).mp hany
    have hrobot := Table.key_of_find? hrun
    have hmem : run ∈ listed := by
      rcases Table.mem_upsertAll (Table.mem_of_find? hrun) with hempty | hmem
      · cases hempty
      · exact hmem
    obtain ⟨r, hr, -, rfl⟩ := h.mem_iff.mp hmem
    refine List.any_eq_true.mpr ⟨r, hr, ?_⟩
    exact Bool.and_eq_true_iff.mpr ⟨decide_eq_true hrobot, hexecuting⟩
  · intro hhas
    obtain ⟨r, hr, hboth⟩ := List.any_eq_true.mp hhas
    obtain ⟨hrobot, hexecuting⟩ := Bool.and_eq_true_iff.mp hboth
    have hrobot := of_decide_eq_true hrobot
    have hlists := h.mem_iff.mpr ⟨r, hr, isActive_of_isExecuting hexecuting, rfl⟩
    obtain ⟨run, hmem, hfind⟩ := Table.find?_upsertAll_of_present
      (t := (.empty : Table MissionRunSummary.robotId)) ⟨_, hlists, hrobot⟩
    -- The run listed last for the robot is the one that executes, for the robot has no other.
    obtain ⟨q, hq, hactive, rfl⟩ := h.mem_iff.mp hmem
    have hsame := hone q hq r hr ((Table.key_of_find? hfind).trans hrobot.symm) hactive
      (isActive_of_isExecuting hexecuting)
    refine (Option.any_eq_true _ _).mpr ⟨_, hfind, ?_⟩
    rw [hsame]
    exact hexecuting

/-- The overview of a robot shows the status that is computed for it alone. -/
theorem buildOverview_status (view : RobotStateView) (factsheets : Factsheets)
    (hone : OneActive store) (h : ListsActive store listed) {row : RobotRow}
    (hrow : row ∈ store.robots.rows) : RobotStatusService.compute view store row.id =
      some (FleetView.buildOverview view factsheets (FleetView.currentRuns listed)
        row.toDomain).status := by
  unfold RobotStatusService.compute FleetView.buildOverview
  rw [Table.find?_of_mem hrow, ← currentRun_isExecuting hone h]
  rfl

/-- The fleet list shows each robot that is known once, each with the status computed for it. -/
theorem fleet_list_agrees {s : System} (h : s.Reachable) (view : RobotStateView)
    {robots : List Robot} (hrobots : ListsRobots s.store robots) (hlisted : ListsActive s.store listed) :
    let overviews := FleetView.listRobots view s.factsheets robots listed
    (overviews.map fun overview => overview.robot.id).Perm (s.store.robots.rows.map RobotRow.id) ∧
    (∀ overview ∈ overviews,
      RobotStatusService.compute view s.store overview.robot.id = some overview.status) ∧
    ∀ robotId, RobotStatusService.compute view s.store robotId =
      (FleetView.getRobot view s.factsheets s.store listed robotId).map (·.status) := by
  refine ⟨?_, ?_, ?_⟩
  · have hids := List.Perm.map Robot.id hrobots
    rw [List.map_map] at hids
    unfold FleetView.listRobots
    rw [List.map_map]
    exact hids
  · intro overview hoverview
    obtain ⟨robot, hrobot, rfl⟩ := List.mem_map.mp hoverview
    obtain ⟨row, hrow, rfl⟩ := List.mem_map.mp (hrobots.mem_iff.mp hrobot)
    exact buildOverview_status view s.factsheets h.oneActive hlisted hrow
  · intro robotId
    cases hfind : s.store.robots.find? robotId with
    | none => simp [RobotStatusService.compute, FleetView.getRobot, hfind]
    | some row =>
      obtain ⟨hrow, rfl⟩ := Table.find?_eq_some_iff.mp hfind
      rw [buildOverview_status view s.factsheets h.oneActive hlisted hrow]
      simp [FleetView.getRobot, hfind]

/-- A robot that is online and drives: both show it as active. -/
theorem fleet_list_agrees_active : ∃ (s : System) (robots : List Robot)
    (listed : List MissionRunSummary), s.Reachable ∧
    (FleetView.listRobots ⟨fun _ => none, fun _ => none⟩ s.factsheets robots listed).map
      (fun overview => (overview.robot.id, overview.status)) = [("r1", .active)] ∧
    ∀ overview ∈ FleetView.listRobots ⟨fun _ => none, fun _ => none⟩ s.factsheets robots listed,
      RobotStatusService.compute ⟨fun _ => none, fun _ => none⟩ s.store overview.robot.id =
        some overview.status := by
  obtain ⟨s, hs, hp⟩ := demo_reaches (fun s => (FleetView.listRobots
      ⟨fun _ => none, fun _ => none⟩ s.factsheets (s.store.robots.rows.map RobotRow.toDomain)
      ((s.runs.rows.filter fun r => isActive r.status).map StoredRun.toSummary)).map
      (fun overview => (overview.robot.id, overview.status)) = [("r1", RobotStatus.active)])
    (demoOnline ++ demoDispatch ++ [demoSettle .accepted]) (by decide)
  exact ⟨s, _, _, hs, of_decide_eq_true hp,
    (fleet_list_agrees hs _ (List.Perm.refl _) (List.Perm.refl _)).2.1⟩

end Agreement

end Leitstand
