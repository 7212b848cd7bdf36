import Leitstand.System

namespace Leitstand
open TxM RunService

section Services
variable {tx tx' : Tx Store Event Command}

/-- The run a dispatch inserts. -/
def freshRun (digests : Digests) (runId : UUID) (p : Prepared) : StoredRun :=
  { run :=
      { runId := runId
        missionId := p.mission.missionId
        robotId := p.robotId
        status := .pending
        stages := p.mission.stages
        stagesDigest := digests.stagesDigest p.mission.stages.stages
        siteAnchors := orNone p.siteAnchors
        origin := p.command.origin
        notes := p.command.notes
        createdAt := p.now
        updatedAt := p.now } }

theorem prepareInsert_ok {digests : Digests} {runId : UUID} {p : Prepared} {run : MissionRun}
    (hx : (prepareInsert digests runId p).exec tx = (.ok run, tx')) :
    ∃ h : tx.store.runs.find? (freshRun digests runId p).runId = none,
      run = (freshRun digests runId p).toRun ∧
      Runs.robotIndex tx.store p.robotId = none ∧
      (tx.store.missions.find? p.mission.missionId).isSome ∧
      tx' =
        { store := { tx.store with
            runs := tx.store.runs.insert (freshRun digests runId p) h
            audit := tx.store.audit ++
              [.dispatch p.mission.missionId runId p.robotId p.command.allowConcurrent] }
          queued := tx.queued ++ [(freshRun digests runId p).stateEvent
            (waitingStageStatuses p.mission.stages.stages p.now) none]
          sent := tx.sent } := by
  unfold prepareInsert Runs.create at hx
  simp only [exec_bind, exec_store] at hx
  split at hx
  · rename_i b tx₁ hc
    split at hc
    · simp at hc
    · rename_i hnone
      split at hc
      · simp [Runs.listActiveByRobot] at hc
      · rename_i hidx
        split at hc
        · simp at hc
        · rename_i hm
          simp [exec_setStore] at hc
          obtain ⟨rfl, rfl⟩ := hc
          simp [publishRunState, publish, audit, exec_setStore, exec_enqueue] at hx
          refine ⟨hnone, hx.1.symm, by simpa [isActive] using hidx, ?_, ?_⟩
          · exact Option.isSome_iff_ne_none.mpr (by simpa using hm)
          · rw [← hx.2]
            rfl
  · simp at hx

/-- The events of a run's deletion: the latched frame goes with the mission's last run. -/
def deletionEvents (runs : Table StoredRun.runId) (r : StoredRun) : List Event :=
  if (runs.erase r.runId).rows.filter (fun q => q.missionId = r.missionId) = [] then
    [.unlatch (.missionState r.missionId)]
  else []

theorem deleteRun_ok {runId : UUID} {u : Unit}
    (hx : (RunService.delete runId).exec tx = (.ok u, tx')) :
    ∃ r, tx.store.runs.find? runId = some r ∧ isTerminal r.status = true ∧
      tx'.store = { tx.store with
        runs := tx.store.runs.erase runId
        audit := tx.store.audit ++ [.deleteRun r.missionId r.runId r.status r.robotId] } ∧
      tx'.queued = tx.queued ++ deletionEvents tx.store.runs r ∧ tx'.sent = tx.sent := by
  unfold RunService.delete at hx
  simp only [Runs.getForUpdate, exec_bind, exec_get] at hx
  cases hf : tx.store.runs.find? runId with
  | none => simp [hf] at hx
  | some r =>
    have hid := Table.key_of_find? hf
    simp only [hf, Option.map_some, exec_bind_ok, exec_check, Prod.mk.injEq, raiseIf_eq_ok] at hx
    obtain ⟨_, _, ⟨ha, rfl⟩, _, _, hd, _, _, hc, hx⟩ := hx
    simp only [Runs.delete, exec_setStore, Prod.mk.injEq, StoredRun.toRun_runId, hid] at hd
    simp only [Runs.countByMission, exec_bind, exec_store, exec_pure, Prod.mk.injEq] at hc
    obtain ⟨-, rfl⟩ := hd
    obtain ⟨hcount, rfl⟩ := hc
    obtain rfl := Except.ok.inj hcount
    refine ⟨r, rfl, by simpa [isActive_eq_not_isTerminal] using ha, ?_⟩
    unfold deletionEvents
    rw [hid]
    split_ifs at hx with hlast
    · have hnone : (tx.store.runs.erase runId).rows.filter (fun q => q.missionId = r.missionId) = [] :=
        List.length_eq_zero_iff.mp hlast
      rw [if_pos hnone]
      simp [unlatch, audit, exec_enqueue, exec_setStore, hid] at hx
      subst hx
      exact ⟨rfl, rfl, rfl⟩
    · have hsome : (tx.store.runs.erase runId).rows.filter (fun q => q.missionId = r.missionId) ≠ [] :=
        fun h => hlast (List.length_eq_zero_iff.mpr h)
      rw [if_neg hsome]
      simp [audit, exec_setStore, hid] at hx
      subst hx
      exact ⟨rfl, (List.append_nil _).symm, rfl⟩

theorem deleteRead_ok {missionId : UUID} {u : Unit}
    (hx : (MissionManagement.deleteRead missionId).exec tx = (.ok u, tx')) : tx = tx' ∧
      (tx.store.missions.find? missionId).isSome ∧
      ∀ r ∈ tx.store.runs.rows, r.missionId = missionId → isActive r.status = false := by
  unfold MissionManagement.deleteRead at hx
  simp only [Missions.getForUpdate, exec_bind, exec_store, exec_pure] at hx
  cases hm : tx.store.missions.find? missionId with
  | none => simp [hm] at hx
  | some mission =>
    simp only [hm, Runs.listActiveByMission, exec_bind, exec_store, exec_pure, exec_check,
      Prod.mk.injEq, raiseIf_eq_ok, ne_eq, not_not] at hx
    refine ⟨hx.2, rfl, ?_⟩
    intro r hr hmi
    by_contra ha
    have hmem : r.run.toMissionRunSummary ∈
        Runs.listActive (fun r => r.missionId = missionId) tx.store := by
      rw [Runs.listActive, List.mem_insertionSort]
      exact List.mem_map.mpr ⟨r, List.mem_filter.mpr ⟨hr, by simp [hmi, ha]⟩, rfl⟩
    rw [hx.1] at hmem
    cases hmem

theorem deleteCount_ok {missionId : UUID} {hasRuns : Bool}
    (hx : (MissionManagement.deleteCount missionId).exec tx = (.ok hasRuns, tx')) : tx = tx' ∧
      (hasRuns = false → ∀ r ∈ tx.store.runs.rows, r.missionId ≠ missionId) := by
  simp [MissionManagement.deleteCount, Runs.countByMission] at hx
  refine ⟨hx.2, ?_⟩
  rintro rfl
  simpa using hx.1

/-- The missions a deletion leaves: the mission is archived where runs were counted for it, and
removed where there were none and are none. -/
inductive DeletedMissions (now : Datetime) (store : Store) (missionId : UUID) :
    Bool → Table Mission.missionId → Prop
  | archived (m : Mission) (found : store.missions.find? missionId = some m) :
    DeletedMissions now store missionId true
      (store.missions.replace { m with archivedAt := some now, updatedAt := now })
  | absent (gone : store.missions.find? missionId = none) :
    DeletedMissions now store missionId true store.missions
  | removed (unused : ∀ r ∈ store.runs.rows, r.missionId ≠ missionId) :
    DeletedMissions now store missionId false (store.missions.erase missionId)
  | refused : DeletedMissions now store missionId false store.missions

theorem DeletedMissions.find?_ne {now : Datetime} {store : Store} {missionId id : UUID}
    {hasRuns : Bool} {missions : Table Mission.missionId}
    (h : DeletedMissions now store missionId hasRuns missions) (hid : id ≠ missionId) :
    missions.find? id = store.missions.find? id := by
  cases h with
  | archived m hf =>
    have hm : m.missionId = missionId := Table.key_of_find? hf
    exact Table.find?_replace_ne _ fun he => hid (he.trans hm)
  | removed => rw [Table.find?_erase, if_neg hid]
  | absent | refused => rfl

/-- A deletion keeps a mission that has a run. -/
theorem DeletedMissions.kept {now : Datetime} {store : Store} {missionId : UUID} {hasRuns : Bool}
    {missions : Table Mission.missionId} (h : DeletedMissions now store missionId hasRuns missions)
    (hs : (store.missions.find? missionId).isSome) {r : StoredRun} (hr : r ∈ store.runs.rows)
    (hm : r.missionId = missionId) : (missions.find? missionId).isSome := by
  cases h with
  | archived m hf =>
    rw [Table.find?_replace]
    split_ifs
    · rwa [Option.isSome_map]
    · exact hs
  | removed unused => exact absurd hm (unused r hr)
  | absent | refused => exact hs

theorem deleteFinish_ok {now : Datetime} {missionId : UUID} {hasRuns : Bool} {u : Unit}
    (hx : (MissionManagement.deleteFinish now missionId hasRuns).exec tx = (.ok u, tx')) :
    tx'.queued = tx.queued ∧ tx'.sent = tx.sent ∧ ∃ entry missions, tx'.store =
      { tx.store with missions := missions, audit := tx.store.audit ++ [entry] } ∧
      DeletedMissions now tx.store missionId hasRuns missions := by
  unfold MissionManagement.deleteFinish at hx
  cases hasRuns with
  | true =>
    simp only [↓reduceIte, exec_bind, Missions.archive, Missions.setArchived, exec_store] at hx
    cases hm : tx.store.missions.find? missionId with
    | none =>
      simp [hm, audit, exec_setStore] at hx
      subst hx
      exact ⟨rfl, rfl, _, _, rfl, .absent hm⟩
    | some m =>
      simp [hm, audit, exec_setStore] at hx
      subst hx
      exact ⟨rfl, rfl, _, _, rfl, .archived m hm⟩
  | false =>
    simp only [Bool.false_eq_true, ↓reduceIte, exec_bind, Missions.delete, exec_store] at hx
    split_ifs at hx with ha
    · simp at hx
    · simp [audit, exec_setStore] at hx
      subst hx
      exact ⟨rfl, rfl, _, _, rfl, .removed (by simpa using ha)⟩

theorem deleteFinish_error {now : Datetime} {missionId : UUID} {hasRuns : Bool} {e : ServiceError}
    (hx : (MissionManagement.deleteFinish now missionId hasRuns).exec tx = (.error e, tx')) :
    hasRuns = false := by
  cases hasRuns with
  | false => rfl
  | true =>
    unfold MissionManagement.deleteFinish at hx
    simp only [↓reduceIte, exec_bind, Missions.archive, Missions.setArchived, exec_store] at hx
    cases hm : tx.store.missions.find? missionId <;> simp [hm, audit, exec_setStore] at hx

theorem restore_ok {now : Datetime} {missionId : UUID} {mission : Mission}
    (hx : (MissionManagement.restore now missionId).exec tx = (.ok mission, tx')) :
    ∃ m, tx.store.missions.find? missionId = some m ∧ tx'.queued = tx.queued ∧
      tx'.sent = tx.sent ∧ tx'.store = { tx.store with
        missions := tx.store.missions.replace { m with archivedAt := none, updatedAt := now }
        audit := tx.store.audit ++ [.restoreMission missionId] } := by
  unfold MissionManagement.restore at hx
  simp only [Missions.getForUpdate, exec_bind, exec_store, exec_pure] at hx
  cases hm : tx.store.missions.find? missionId with
  | none => simp [hm] at hx
  | some m =>
    simp only [hm, exec_bind_ok, exec_check, Prod.mk.injEq, raiseIf_eq_ok] at hx
    obtain ⟨_, _, ⟨-, rfl⟩, _, _, hr, hx⟩ := hx
    simp [Missions.restore, Missions.setArchived, hm, exec_setStore] at hr
    obtain ⟨rfl, rfl⟩ := hr
    simp [audit, exec_setStore] at hx
    obtain ⟨-, rfl⟩ := hx
    exact ⟨m, rfl, rfl, rfl, rfl⟩

/-- The robot's row after it came online. -/
def onlineRow (now : Datetime) (store : Store) (command : RecordOnlineCommand) : RobotRow :=
  match store.robots.find? command.robotId with
  | none =>
    { id := command.robotId, metadata := command.metadata, firstSeenAt := now, lastSeenAt := now
      online := true }
  | some row => { row with metadata := command.metadata, lastSeenAt := now, online := true }

theorem recordOnline_eq (now : Datetime) (command : RecordOnlineCommand) :
    (RobotConnectivity.recordOnline now command).exec tx = (.ok (onlineRow now tx.store command),
      { store := { tx.store with
          robots := tx.store.robots.upsert (onlineRow now tx.store command) fun _ => true }
        queued := tx.queued ++ [.publish .registry (.robotOnline command.robotId) false]
        sent := tx.sent }) := by
  rfl

theorem recordOffline_eq (robotId : RobotId) :
    (RobotConnectivity.recordOffline robotId).exec tx =
      match tx.store.robots.find? robotId with
      | none => (.ok none, tx)
      | some row => (.ok (some { row with online := false }),
        { store := { tx.store with robots := tx.store.robots.replace { row with online := false } }
          queued := tx.queued ++ [.publish .registry (.robotOffline robotId) false]
          sent := tx.sent }) := by
  cases h : tx.store.robots.find? robotId <;>
    simp [RobotConnectivity.recordOffline, Robots.recordOffline, h, publish, exec_setStore,
      exec_enqueue]

end Services

/-- The state view an event carries, if it carries one. -/
def Event.view : Event → Option RunStateView
  | .publish _ (.state view) _ => some view
  | _ => none

/-- The event says that a robot came or went. -/
def Event.AboutRobot : Event → Prop
  | .publish .registry (.robotOnline _) _ | .publish .registry (.robotOffline _) _ => True
  | _ => False

theorem Event.AboutRobot.view {e : Event} (h : e.AboutRobot) : e.view = none := by
  unfold AboutRobot at h
  split at h <;> first | rfl | cases h

def Action.editsMissions : Action → Bool
  | .finishDeletion _ | .restoreMission _ => true
  | _ => false

def Action.editsRobots : Action → Bool
  | .livelinessDelete _ | .metadataArrives _ => true
  | _ => false

def Action.locks : Action → Bool
  | .dispatch _ | .insert _ _ | .abandonDispatch _ | .deleteMission _ | .countRuns _
  | .finishDeletion _ | .abandonDeletion _ => true
  | _ => false

def Action.reconciles : Action → Bool
  | .startReconciliation _ | .judgeRun _ | .closeJudged _ | .dropJudged _ | .endReconciliation _
  | .abandonReconciliation _ => true
  | _ => false

/-- The action that gives a run this input. -/
def Action.Causes (a : Action) (r : StoredRun) : RunInput → Prop
  | .settled _ command => a = .settle command ∧ command.runId = r.runId
  | .cancelled _ mode _ reply =>
    ∃ command : CancelRunCommand, a = .cancel command reply ∧ command.mode = mode
  | .closed _ => ∃ command, a = .close command
  | .paused _ => ∃ command reply, a = .pause command reply
  | .resumed _ => ∃ command reply, a = .resume command reply
  | .reported _ state => a = .record r.robotId state ∧ state.runId = r.runId
  | .unclaimed _ _ => ∃ i, a = .closeJudged i
  | .annotated _ notes => a = .annotate r.runId notes

/-- Each action gives a run one kind of input, and most give it none. -/
theorem Action.Causes.input {a : Action} {r : StoredRun} {input : RunInput}
    (h : a.Causes r input) :
    match a with
    | .settle command => ∃ now, input = .settled now command
    | .cancel command reply => ∃ now offline, input = .cancelled now command.mode offline reply
    | .close _ => ∃ now, input = .closed now
    | .pause _ _ => ∃ now, input = .paused now
    | .resume _ _ => ∃ now, input = .resumed now
    | .record robotId state =>
      robotId = r.robotId ∧ state.runId = r.runId ∧ ∃ now, input = .reported now state
    | .closeJudged _ => ∃ now judged, input = .unclaimed now judged
    | .annotate _ notes => ∃ now, input = .annotated now notes
    | _ => False := by
  cases input with
  | settled now command =>
    obtain ⟨rfl, -⟩ := h
    exact ⟨now, rfl⟩
  | cancelled now mode offline reply =>
    obtain ⟨command, rfl, rfl⟩ := h
    exact ⟨now, offline, rfl⟩
  | closed now =>
    obtain ⟨command, rfl⟩ := h
    exact ⟨now, rfl⟩
  | paused now | resumed now =>
    obtain ⟨command, reply, rfl⟩ := h
    exact ⟨now, rfl⟩
  | reported now state =>
    obtain ⟨rfl, hid⟩ := h
    exact ⟨rfl, hid, now, rfl⟩
  | unclaimed now judged =>
    obtain ⟨i, rfl⟩ := h
    exact ⟨now, judged, rfl⟩
  | annotated now notes =>
    obtain rfl : a = .annotate r.runId notes := h
    exact ⟨now, rfl⟩

namespace System
variable {s s' : System} {a : Action} {β : Type}

/-- The insert of a dispatch that is under way, with an id that was not drawn before. -/
theorem insertRun_eq_some {i : Nat} {runId : UUID} : s.insertRun i runId = some s' ↔ ∃ p,
    s.dispatches[i]? = some p ∧ runId ∉ s.issued ∧
      s' = { s.perform (RunService.prepareInsert s.digests runId p) with
        dispatches := s.dispatches.eraseIdx i, issued := runId :: s.issued } := by
  unfold insertRun
  constructor
  · intro h
    split at h
    · cases h
    · rename_i p hp
      split_ifs at h with hfresh
      exact ⟨p, hp, hfresh, (Option.some.inj h).symm⟩
  · rintro ⟨p, hp, hfresh, rfl⟩
    rw [hp]
    exact if_neg hfresh

/-- The end of a deletion that has counted the mission's runs. -/
theorem finishDeletion_eq_some {i : Nat} : s.finishDeletion i = some s' ↔ ∃ missionId hasRuns,
    s.deletions[i]? = some (missionId, some hasRuns) ∧
      s' = { s.perform (MissionManagement.deleteFinish s.clock missionId hasRuns) with
        deletions := s.deletions.eraseIdx i } := by
  unfold finishDeletion
  constructor
  · intro h
    split at h
    · rename_i missionId hasRuns hi
      exact ⟨missionId, hasRuns, hi, (Option.some.inj h).symm⟩
    · cases h
  · rintro ⟨missionId, hasRuns, hi, rfl⟩
    rw [hi]

/-- The close of the first run that a reconciliation has judged and not closed yet. -/
theorem closeJudged_eq_some {i : Nat} : s.closeJudged i = some s' ↔ ∃ c run judged,
    s.reconciliations[i]? = some c ∧ c.judged = run :: judged ∧
      s' = { s.perform (RunReconciliation.closeUnclaimed s.clock run) with
        reconciliations := s.reconciliations.set i { c with judged } } := by
  unfold closeJudged
  constructor
  · intro h
    split at h
    · cases h
    · rename_i c hi
      split at h
      · cases h
      · rename_i run judged hj
        exact ⟨c, run, judged, hi, hj, (Option.some.inj h).symm⟩
  · rintro ⟨c, run, judged, hi, hj, rfl⟩
    rw [hi]
    dsimp only
    rw [hj]

/-- What a step leaves alone beside the store. -/
structure StepFrame (s : System) (a : Action) (s' : System) : Prop where
  digests : s'.digests = s.digests
  clock : (∀ duration, a ≠ .tick duration) → s'.clock = s.clock
  issued : (∀ i runId, a ≠ .insert i runId) → s'.issued = s.issued
  recorded : (∀ robotId state, a ≠ .record robotId state) → s'.recorded = s.recorded
  dispatches : a.locks = false → s'.dispatches = s.dispatches
  deletions : a.locks = false → s'.deletions = s.deletions
  handlers : (∀ id, a ≠ .livelinessPut id) → (∀ i replies, a ≠ .answerMetadata i replies) →
    (∀ i, a ≠ .metadataArrives i) → s'.handlers = s.handlers
  reconciliations : a.reconciles = false → s'.reconciliations = s.reconciliations

theorem step_frame (h : s.step a = some s') : StepFrame s a s' := by
  cases a with
  | _ =>
    dsimp only [step, command, startDispatch, insertRun, recordFrame, startDeletion, countRuns,
      finishDeletion, livelinessPut, answerMetadata, metadataArrives, recordOnline,
      startReconciliation, judgeRun, closeJudged, dropJudged, endReconciliation] at h
    repeat' split at h
    all_goals first
      | (cases h; done)
      | (cases h; constructor <;> simp [perform, Action.locks, Action.reconciles])

/-- What a step leaves alone beside the runs. -/
structure StoreFrame (s : System) (a : Action) (s' : System) : Prop where
  missions : a.editsMissions = false → s'.store.missions = s.store.missions
  robots : a.editsRobots = false → s'.store.robots = s.store.robots
  audit : s.store.audit <+: s'.store.audit

theorem StoreFrame.of_store (h : s'.world.store = s.world.store) : StoreFrame s a s' where
  missions := fun _ => congrArg Store.missions h
  robots := fun _ => congrArg Store.robots h
  audit := by
    have haudit : s'.store.audit = s.store.audit := congrArg Store.audit h
    exact haudit ▸ List.prefix_rfl

theorem StoreFrame.of_runs {runs : Table StoredRun.runId} {entries : List AuditEntry}
    (h : s'.store = { s.store with runs := runs, audit := s.store.audit ++ entries }) :
    StoreFrame s a s' where
  missions := fun _ => by rw [h]
  robots := fun _ => by rw [h]
  audit := ⟨entries, by rw [h]⟩

/-- What a step does to the runs, the events it publishes and the frames it takes in. -/
inductive RunsStep (s : System) (a : Action) (s' : System) : Prop where
  | idle (events : List Event) (runs : s'.runs = s.runs)
      (bus : s'.world.bus = s.world.bus ++ events) (quiet : ∀ e ∈ events, e.AboutRobot)
      (recorded : s'.recorded = s.recorded) (rest : StoreFrame s a s')
  | responded (r : StoredRun) (input : RunInput) (found : s.runs.find? r.runId = some r)
      (cause : a.Causes r input) (runs : s'.runs = s.runs.replace (r.respond input).row)
      (bus : s'.world.bus = s.world.bus ++ (r.respond input).events)
      (recorded : s'.recorded = s.recorded ++ input.frame?.toList.map (r.robotId, ·))
      (rest : StoreFrame s a s')
  | created (p : Prepared) (runId : UUID) (dispatch : p ∈ s.dispatches)
      (cause : ∃ i, a = .insert i runId) (fresh : runId ∉ s.issued)
      (absent : s.runs.find? (freshRun s.digests runId p).runId = none)
      (free : Runs.robotIndex s.store p.robotId = none) (drawn : runId ∈ s'.issued)
      (runs : s'.runs = s.runs.insert (freshRun s.digests runId p) absent)
      (bus : s'.world.bus = s.world.bus ++ [(freshRun s.digests runId p).stateEvent
        (waitingStageStatuses p.mission.stages.stages p.now) none])
      (recorded : s'.recorded = s.recorded) (rest : StoreFrame s a s')
  | deleted (r : StoredRun) (found : s.runs.find? r.runId = some r)
      (cause : a = .deleteRun r.runId) (ended : isTerminal r.status = true)
      (runs : s'.runs = s.runs.erase r.runId)
      (bus : s'.world.bus = s.world.bus ++ deletionEvents s.runs r)
      (recorded : s'.recorded = s.recorded) (rest : StoreFrame s a s')

theorem RunsStep.frame (h : RunsStep s a s') : StoreFrame s a s' := by
  cases h <;> assumption

theorem perform_ok {m : ServiceM β} {b : β} {tx : Tx Store Event Command}
    (h : m.exec { store := s.store } = (.ok b, tx)) : s.perform m =
      { s with world :=
        { store := tx.store, bus := s.world.bus ++ tx.queued, sent := s.world.sent ++ tx.sent } } := by
  have hx : m.exec { store := s.world.store } = (.ok b, tx) := h
  simp [perform, atomically, hx]

/-- An operation that did to a run what the run answers stores that answer and sends its commands. -/
theorem perform_answers {m : ServiceM β} {b : β} {tx : Tx Store Event Command} {r : StoredRun}
    (input : RunInput) (hr : s.runs.find? r.runId = some r)
    (hx : m.exec { store := s.store } = (.ok b, tx))
    (ha : Answers { store := s.store } tx (r.respond input)) :
    (s.perform m).runs.find? r.runId = some (r.respond input).row ∧
      (s.perform m).world.sent = s.world.sent ++ (r.respond input).commands := by
  obtain ⟨entries, rfl⟩ := ha
  have hkey := r.runId_respond input
  rw [perform_ok hx]
  constructor
  · exact hkey ▸ Table.find?_replace_self (hkey.symm ▸ hr)
  · exact congrArg (s.world.sent ++ ·) (List.nil_append _)

theorem perform_error {m : ServiceM β} {e : ServiceError} {tx : Tx Store Event Command}
    (h : m.exec { store := s.store } = (.error e, tx)) : s.perform m =
      { s with world := { s.world with sent := s.world.sent ++ tx.sent } } := by
  have hx : m.exec { store := s.world.store } = (.error e, tx) := h
  simp [perform, atomically, hx]

theorem outcome_eq (s : System) (m : ServiceM β) :
    s.outcome m = (m.exec { store := s.store }).1 := by
  change (m.atomically s.world).1 = (m.exec { store := s.world.store }).1
  unfold atomically
  rcases m.exec { store := s.world.store } with ⟨_ | _, _⟩ <;> rfl

theorem RunsStep.congr {s'' : System} (h : RunsStep s a s') (hw : s''.world = s'.world)
    (hr : s''.recorded = s'.recorded) (hi : s''.issued = s'.issued) : RunsStep s a s'' := by
  have hruns : s''.runs = s'.runs := congrArg (·.store.runs) hw
  have hrest : StoreFrame s a s'' := by
    have hst : s''.store = s'.store := congrArg World.store hw
    obtain ⟨missions, robots, audit⟩ := h.frame
    exact ⟨hst ▸ missions, hst ▸ robots, hst ▸ audit⟩
  cases h with
  | idle events runs bus quiet recorded =>
    exact .idle events (hruns.trans runs) (hw ▸ bus) quiet (hr.trans recorded) hrest
  | responded r input found cause runs bus recorded =>
    exact .responded r input found cause (hruns.trans runs) (hw ▸ bus) (hr.trans recorded) hrest
  | created p runId dispatch cause fresh absent free drawn runs bus recorded =>
    exact .created p runId dispatch cause fresh absent free (hi ▸ drawn) (hruns.trans runs) (hw ▸ bus)
      (hr.trans recorded) hrest
  | deleted r found cause ended runs bus recorded =>
    exact .deleted r found cause ended (hruns.trans runs) (hw ▸ bus) (hr.trans recorded) hrest

/-- A step that leaves the store and the events alone. -/
theorem RunsStep.of_store (hst : s'.world.store = s.world.store)
    (hb : s'.world.bus = s.world.bus) (hf : s'.recorded = s.recorded) : RunsStep s a s' :=
  .idle [] (congrArg Store.runs hst) (by simp [hb]) (by simp) hf (.of_store hst)

theorem RunsStep.of_world_eq (h : s'.world = s.world) (hf : s'.recorded = s.recorded) :
    RunsStep s a s' :=
  .of_store (congrArg World.store h) (congrArg World.bus h) hf

/-- A step of a mission's row and of the audit. -/
theorem RunsStep.of_missions {missions : Table Mission.missionId} {entries : List AuditEntry}
    (ha : a.editsMissions = true) (hst : s'.store =
      { s.store with missions := missions, audit := s.store.audit ++ entries })
    (hb : s'.world.bus = s.world.bus) (hf : s'.recorded = s.recorded) : RunsStep s a s' := by
  have hruns : s'.store.runs = s.store.runs := by rw [hst]
  have hrobots : s'.store.robots = s.store.robots := by rw [hst]
  have haudit : s'.store.audit = s.store.audit ++ entries := by rw [hst]
  exact .idle [] hruns (by simp [hb]) (by simp) hf
    ⟨by simp [ha], fun _ => hrobots, ⟨entries, haudit.symm⟩⟩

/-- A service that answers for one run, or fails, makes a step of that run or none. -/
theorem perform_runsStep {m : ServiceM β}
    (h : ∀ b tx, m.exec { store := s.store } = (.ok b, tx) → ∃ r input,
      s.runs.find? r.runId = some r ∧ Answers { store := s.store } tx (r.respond input) ∧
        a.Causes r input ∧ input.frame? = none) : RunsStep s a (s.perform m) := by
  rcases hx : m.exec { store := s.store } with ⟨e | b, tx⟩
  · rw [perform_error hx]
    exact .of_store rfl rfl rfl
  · obtain ⟨r, input, hr, ⟨entries, rfl⟩, hc, hn⟩ := h b tx hx
    rw [perform_ok hx]
    exact .responded r input hr hc rfl rfl (by simp [hn]) (.of_runs rfl)

end System
end Leitstand
