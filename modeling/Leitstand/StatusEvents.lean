import Leitstand.EventBus
import Leitstand.FleetView
import Leitstand.LifecycleEvents
import Leitstand.OnlineFlag
import Leitstand.UuidText

namespace Leitstand

def registryTopic : String := "events/registry"

/-- Per-robot topic. -/
def robotTopic (robotId : RobotId) (kind : String) : String :=
  "events/robot/" ++ robotId ++ "/" ++ kind

/-- Per-mission topic. -/
def missionTopic (missionId : UUID) (kind : String) : String :=
  "events/mission/" ++ missionId.str ++ "/" ++ kind

def Topic.text : Topic → String
  | .registry => registryTopic
  | .missionState missionId => missionTopic missionId "state"
  | .missionLifecycle missionId => missionTopic missionId "lifecycle"

/-- Every kind under one robot. -/
def robotAggregateTopic (robotId : RobotId) : String := "events/robot/" ++ robotId

inductive Telemetry where
  | pose (pose : Pose)
  | battery (battery : Battery)

def Telemetry.kind : Telemetry → String
  | .pose _ => "pose"
  | .battery _ => "battery"

/-- What goes over the bus. -/
inductive Message where
  | event (payload : Payload)
  | created (missionId : UUID)
  | telemetry (sample : Telemetry)
  | aggregate (sample : Telemetry)
  | factsheet (factsheet : RobotFactsheet)
  | status (status : RobotStatus)

/-- `payload.get("robot_id")` -/
def Message.robotId? : Message → Option RobotId
  | .event (.lifecycle _ _ robotId _ _ _) => some robotId
  | .event (.robotOnline robotId) => some robotId
  | .event (.robotOffline robotId) => some robotId
  | _ => none

/-- `topic.split("/")` -/
def segmentsOf (topic : String) : List (List Char) := topic.toList.splitOn '/'

/-- The robot that a status-affecting event concerns. -/
def affectedRobot (topic : String) (payload : Message) : Option RobotId :=
  if topic = registryTopic then payload.robotId?
  else match segmentsOf topic with
    | _ :: _ :: _ :: kind :: _ => if kind = "lifecycle".toList then payload.robotId? else none
    | _ => none

section Topics
variable {robotId : RobotId} {missionId : UUID} {kind : String}

theorem slash_not_mem_str (missionId : UUID) : '/' ∉ missionId.str.toList := by
  intro h
  obtain h | h := UUID.mem_str h
  · cases h
  · obtain ⟨d, hd, he⟩ := UUID.mem_hex h
    have hnone : ∀ d < 16, UUID.hexDigit d ≠ '/' := by decide
    exact hnone d hd he.symm

theorem segmentsOf_missionTopic (hkind : '/' ∉ kind.toList) :
    segmentsOf (missionTopic missionId kind) =
      ["events".toList, "mission".toList, missionId.str.toList, kind.toList] := by
  have hno : ∀ l : List Char, '/' ∉ l → ∀ c ∈ l, (c == '/') = false := by
    intro l hl c hc
    rw [beq_eq_false_iff_ne]
    rintro rfl
    exact hl hc
  have hfirst : ∀ l rest : List Char, '/' ∉ l →
      (l ++ '/' :: rest).splitOn '/' = l :: rest.splitOn '/' := fun l rest hl =>
    List.splitOnP_append_cons_of_forall_mem (hno l hl) '/' rfl rest
  have htext : (missionTopic missionId kind).toList = "events".toList ++ '/' ::
      ("mission".toList ++ '/' :: (missionId.str.toList ++ '/' :: kind.toList)) := by
    simp [missionTopic, String.toList_append]
  unfold segmentsOf
  rw [htext, hfirst _ _ (by decide), hfirst _ _ (by decide), hfirst _ _ (slash_not_mem_str _)]
  exact congrArg (fun l => "events".toList :: "mission".toList :: missionId.str.toList :: l)
    (List.splitOnP_eq_singleton (hno _ hkind))

theorem missionTopic_ne_registry : missionTopic missionId kind ≠ registryTopic := by
  intro h
  have hlist := congrArg String.toList h
  simp [missionTopic, registryTopic, String.toList_append] at hlist

theorem prefix_of_topicMatches {topic topicPrefix : String}
    (h : topicMatches topic topicPrefix = true) : topicPrefix.toList <+: topic.toList := by
  obtain h | h := Bool.or_eq_true_iff.mp h
  · obtain rfl := of_decide_eq_true h
    exact List.prefix_rfl
  · refine List.IsPrefix.trans ?_ (List.isPrefixOf_iff_prefix.mp h)
    rw [String.toList_append]
    exact List.prefix_append _ _

/-- What the backend announces is nothing under a robot. -/
theorem robotTopic_not_matches (topic : Topic) :
    topicMatches (robotTopic robotId kind) topic.text = false := by
  rw [Bool.eq_false_iff]
  intro h
  obtain ⟨rest, hrest⟩ := prefix_of_topicMatches h
  cases topic with
  | registry => simp [Topic.text, robotTopic, registryTopic, String.toList_append] at hrest
  | missionState | missionLifecycle =>
    simp [Topic.text, robotTopic, missionTopic, String.toList_append] at hrest

theorem robotTopic_ne_text (topic : Topic) : robotTopic robotId kind ≠ topic.text := by
  intro h
  have hmatches : topicMatches (robotTopic robotId kind) topic.text = false :=
    robotTopic_not_matches topic
  unfold topicMatches at hmatches
  rw [decide_eq_true h, Bool.true_or] at hmatches
  cases hmatches

theorem robotTopic_ne_status {id : RobotId} (hne : kind.toList ≠ [])
    (h : kind.toList.getLast? ≠ some 's') : robotTopic robotId "status" ≠ robotTopic id kind := by
  intro heq
  apply h
  have hlast := congrArg (fun t : String => t.toList.getLast?) heq
  simp only [robotTopic, String.toList_append] at hlast
  rw [List.getLast?_append_of_ne_nil _ hne] at hlast
  exact hlast.symm.trans (List.getLast?_append_of_ne_nil _ (by decide))

theorem robotTopic_inj {id : RobotId} (h : robotTopic id kind = robotTopic robotId kind) :
    id = robotId := by
  have hlist := congrArg String.toList h
  simp only [robotTopic, String.toList_append, List.append_cancel_right_eq,
    List.append_cancel_left_eq] at hlist
  exact String.toList_inj.mp hlist

/-- Of what the backend announces, the registry's events and the status changes concern a robot. -/
theorem affectedRobot_text (topic : Topic) (payload : Payload) :
    affectedRobot topic.text (.event payload) = match topic with
      | .missionState _ => none
      | _ => (Message.event payload).robotId? := by
  cases topic with
  | registry => exact if_pos rfl
  | missionState missionId =>
    unfold affectedRobot Topic.text
    rw [if_neg missionTopic_ne_registry, segmentsOf_missionTopic (by decide)]
    exact if_neg (by decide)
  | missionLifecycle missionId =>
    unfold affectedRobot Topic.text
    rw [if_neg missionTopic_ne_registry, segmentsOf_missionTopic (by decide)]
    exact if_pos rfl

end Topics

/-- The robot whose status the event may change. -/
def Event.concerns : Event → Option RobotId
  | .publish topic payload _ => affectedRobot topic.text (.event payload)
  | .unlatch _ => none

theorem RunTransition.change_none {e : RunTransition} (h : e.change = none) :
    e.fromStatus = e.toStatus := by
  unfold change at h
  split_ifs at h with he
  exact he

/-- A run is in the state its last change brought it to. -/
theorem LegalLog.status_eq {r : StoredRun} (h : LegalLog r) :
    (r.statusChanges.getLast?).elim RunStatus.pending (·.1) = r.status := by
  have hwalk := h.walk
  unfold StoredRun.statusChanges
  generalize r.transitions = log at hwalk
  generalize r.status = status at hwalk
  induction log using List.reverseRecOn generalizing status with
  | nil => exact hwalk
  | append_singleton log e ih =>
    obtain ⟨hlog, rfl⟩ := isWalk_snoc.mp hwalk
    rw [List.filterMap_append]
    cases hc : e.change with
    | none =>
      rw [List.filterMap_cons_none hc, List.filterMap_nil, List.append_nil, ih _ hlog,
        e.change_none hc]
    | some change =>
      rw [List.filterMap_cons_some hc, List.filterMap_nil, List.getLast?_concat]
      unfold RunTransition.change at hc
      split_ifs at hc
      obtain rfl := Option.some.inj hc
      rfl

namespace StoredRun
variable {r : StoredRun} {input : RunInput}

theorem concerns_lifecycleEvent (status : RunStatus) (trigger : RunTrigger)
    (reason : Option String) :
    (r.lifecycleEvent status trigger reason).concerns = some r.robotId :=
  affectedRobot_text (.missionLifecycle r.missionId) _

/-- A run that changes its status says so in an event that names its robot. -/
theorem concerns_respond (hr : LegalLog r) (h : (r.respond input).row.status ≠ r.status) :
    ∃ e ∈ (r.respond input).events, e.concerns = some r.robotId := by
  have hannounces := r.announces_respond input
  have hsome : announced r.runId (r.respond input).events ≠ [] := by
    intro hnone
    apply h
    unfold Announces at hannounces
    rw [hnone, List.append_nil] at hannounces
    rw [← (hr.respond input).status_eq, ← hr.status_eq, hannounces]
  obtain ⟨change, hchange⟩ := List.exists_mem_of_ne_nil _ hsome
  obtain ⟨e, he, hlifecycle⟩ := List.mem_filterMap.mp hchange
  refine ⟨e, he, ?_⟩
  obtain ⟨rows, errors, rfl⟩ | ⟨status, trigger, reason, rfl⟩ := r.of_respond input e he
  · cases hlifecycle
  · exact concerns_lifecycleEvent status trigger reason

end StoredRun

namespace System
variable {s s' : System} {a : Action} {robotId : RobotId}

/-- What the store says of a robot's status: whether it is online and has an executing run. -/
def facts (s : System) (robotId : RobotId) : Option (Bool × Bool) :=
  (s.store.robots.find? robotId).map fun row => (row.online, hasExecutingRun s.store robotId)

theorem facts_congr (hrobot : s'.store.robots.find? robotId = s.store.robots.find? robotId)
    (hruns : hasExecutingRun s'.store robotId = hasExecutingRun s.store robotId) :
    s'.facts robotId = s.facts robotId := by
  unfold facts
  rw [hrobot, hruns]

theorem hasExecutingRun_congr (h : s'.runs = s.runs) :
    hasExecutingRun s'.store robotId = hasExecutingRun s.store robotId :=
  congrArg (fun runs : Table StoredRun.runId =>
    runs.rows.any fun r => r.robotId = robotId && isExecuting r.status) h

/-- A run's answer is about its own robot, which executes as before if the status is the same. -/
theorem hasExecutingRun_replace {runs : Table StoredRun.runId} {r q : StoredRun}
    (hr : runs.find? r.runId = some r) (hid : q.runId = r.runId) (hbot : q.robotId = r.robotId)
    (h : r.robotId = robotId → q.status = r.status) :
    ((runs.replace q).rows.any fun r => r.robotId = robotId && isExecuting r.status) =
      runs.rows.any fun r => r.robotId = robotId && isExecuting r.status := by
  obtain ⟨front, back, hrows, hreplaced, -⟩ := Table.rows_replace (a := q) (hid ▸ hr)
  rw [hrows, hreplaced, List.any_append, List.any_append, List.any_cons, List.any_cons, hbot]
  by_cases hb : r.robotId = robotId
  · rw [h hb]
  · simp [hb]

/-- The step changed nothing about the robot, or one of its events names it. -/
def Tells (s s' : System) (robotId : RobotId) : Prop :=
  ∃ events, s'.world.bus = s.world.bus ++ events ∧
    (s'.facts robotId = s.facts robotId ∨ ∃ e ∈ events, e.concerns = some robotId)

theorem Tells.of_same (hb : s'.world.bus = s.world.bus) (hf : s'.facts robotId = s.facts robotId) :
    Tells s s' robotId := ⟨[], by rw [hb, List.append_nil], .inl hf⟩

theorem tells_recordOffline (id : RobotId) :
    Tells s (s.perform (RobotConnectivity.recordOffline id)) robotId := by
  have hx := @recordOffline_eq { store := s.store } id
  cases hr : s.store.robots.find? id with
  | none =>
    rw [hr] at hx
    rw [perform_ok hx]
    exact .of_same (List.append_nil _) rfl
  | some row =>
    rw [hr] at hx
    rw [perform_ok hx]
    refine ⟨[.publish .registry (.robotOffline id) false], rfl, ?_⟩
    by_cases hid : id = robotId
    · exact .inr ⟨_, List.mem_singleton_self _, hid ▸ affectedRobot_text .registry _⟩
    · have hkey : row.id = id := Table.key_of_find? hr
      have hne : robotId ≠ row.id := fun he => hid (hkey.symm.trans he.symm)
      have hfind : (s.store.robots.replace { row with online := false }).find? robotId =
          s.store.robots.find? robotId := Table.find?_replace_ne _ hne
      exact .inl (facts_congr hfind rfl)

theorem tells_recordOnline (command : RecordOnlineCommand) (known : List UUID) :
    Tells s (s.recordOnline command known) robotId := by
  have hx := @recordOnline_eq { store := s.store } s.clock command
  have hid : (onlineRow s.clock s.store command).id = command.robotId := by
    unfold onlineRow
    split
    · rfl
    · rename_i row hrow
      have hkey : row.id = command.robotId := Table.key_of_find? hrow
      exact hkey
  unfold recordOnline
  rw [perform_ok hx]
  refine ⟨[.publish .registry (.robotOnline command.robotId) false], rfl, ?_⟩
  by_cases hk : command.robotId = robotId
  · exact .inr ⟨_, List.mem_singleton_self _, hk ▸ affectedRobot_text .registry _⟩
  · have hne : robotId ≠ (onlineRow s.clock s.store command).id := fun he => hk (hid ▸ he.symm)
    have hfind : (s.store.robots.upsert (onlineRow s.clock s.store command) fun _ => true).find?
        robotId = s.store.robots.find? robotId := by
      rw [Table.find?_upsert, if_neg hne]
    exact .inl (facts_congr hfind rfl)

theorem tells_metadataArrives {i : Nat} (h : s.metadataArrives i = some s') :
    Tells s s' robotId := by
  obtain ⟨id, answer, -, rfl⟩ := metadataArrives_some h
  cases RobotConnectivity.fetchMetadata id answer.replies with
  | none => exact .of_same rfl rfl
  | some command => exact tells_recordOnline command answer.known

theorem editsRobots_eq_true (h : a.editsRobots = true) :
    (∃ id, a = .livelinessDelete id) ∨ ∃ i, a = .metadataArrives i := by
  cases a with
  | livelinessDelete id => exact .inl ⟨id, rfl⟩
  | metadataArrives i => exact .inr ⟨i, rfl⟩
  | _ => cases h

/-- Whenever a robot comes, goes, starts or stops executing, an event says so and names the robot. -/
theorem tells_step (hs : s.Reachable) (h : s.step a = some s') : Tells s s' robotId := by
  cases ha : a.editsRobots with
  | true =>
    obtain ⟨id, rfl⟩ | ⟨i, rfl⟩ := editsRobots_eq_true ha
    · obtain rfl := Option.some.inj h
      exact tells_recordOffline id
    · exact tells_metadataArrives h
  | false =>
    have hrobot : s'.store.robots.find? robotId = s.store.robots.find? robotId :=
      congrArg (·.find? robotId) ((step_runs hs.snapshots h).frame.robots ha)
    cases step_runs hs.snapshots h with
    | idle events runs bus =>
      exact ⟨events, bus, .inl (facts_congr hrobot (hasExecutingRun_congr runs))⟩
    | created p runId dispatch cause fresh absent free drawn runs bus =>
      refine ⟨_, bus, .inl (facts_congr hrobot ?_)⟩
      -- The new run waits for its robot's answer.
      have hrows : s'.store.runs.rows = s.store.runs.rows ++ [freshRun s.digests runId p] :=
        congrArg Table.rows runs
      unfold hasExecutingRun
      rw [hrows, List.any_append, List.any_cons, List.any_nil]
      have hpending : isExecuting (freshRun s.digests runId p).status = false := rfl
      rw [hpending, Bool.and_false, Bool.or_false, Bool.or_false]
    | deleted r found cause ended runs bus =>
      refine ⟨_, bus, .inl (facts_congr hrobot ?_)⟩
      rw [Bool.eq_iff_iff]
      have hrows : s'.store.runs.rows = (s.runs.erase r.runId).rows := congrArg Table.rows runs
      unfold hasExecutingRun
      rw [hrows, List.any_eq_true, List.any_eq_true]
      constructor
      · rintro ⟨q, hq, hexecutes⟩
        exact ⟨q, (Table.mem_erase.mp hq).1, hexecutes⟩
      · rintro ⟨q, hq, hexecutes⟩
        refine ⟨q, Table.mem_erase.mpr ⟨hq, ?_⟩, hexecutes⟩
        -- The run that goes has ended.
        intro hid
        have hsame : some q = some r := (Table.find?_of_mem hq).symm.trans (hid ▸ found)
        obtain rfl := Option.some.inj hsame
        rw [isTerminal_of_isExecuting (Bool.and_eq_true_iff.mp hexecutes).2] at ended
        cases ended
    | responded r input found cause runs bus =>
      refine ⟨_, bus, ?_⟩
      by_cases hsame : r.robotId = robotId → (r.respond input).row.status = r.status
      · refine .inl (facts_congr hrobot ?_)
        have hbot : (r.respond input).row.robotId = r.robotId :=
          congrArg FrozenRun.robotId (r.frozen_respond input)
        exact (congrArg (fun runs : Table StoredRun.runId =>
          runs.rows.any fun r => r.robotId = robotId && isExecuting r.status) runs).trans
          (hasExecutingRun_replace found (r.runId_respond input) hbot hsame)
      · rw [Classical.not_imp] at hsame
        obtain ⟨rfl, hchanged⟩ := hsame
        exact .inr (StoredRun.concerns_respond (hs.legalLog (Table.mem_of_find? found)) hchanged)

end System
end Leitstand
