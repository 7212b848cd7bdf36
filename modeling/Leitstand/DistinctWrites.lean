import Leitstand.FrameRows
import Leitstand.ReconcileStore
import Leitstand.StageWrites
import Leitstand.StateMappers

namespace Leitstand
namespace StageWrites
open TxM NotingM

section Notes
variable {tx : Tx (Store × List (List StageStateRecord)) Event Command}
  {tx₀ : Tx Store Event Command} {r : StoredRun} {run : MissionRun} {now : Datetime}
  {events : List Event} {entries : List AuditEntry} {commands : List Command}
  {status : RunStatus} {live : List StageStateRecord} {state : MissionStateMessage}

theorem writeStageRows_adds (runId : UUID) (records : List StageStateRecord) (versioned : Bool) :
    Adds (writeStageRows runId records versioned) tx [records] := .note fun _ => .quiet _

/-- What a frame that leaves the run in this status passes on of its own rows. -/
def livePassed (status : RunStatus) (live : List StageStateRecord) :
    List (List StageStateRecord) :=
  if live ≠ [] ∧ isExecuting status then [live] else []

theorem recordLive_adds : Adds (recordLive run status live) tx (livePassed status live) := by
  unfold recordLive livePassed
  split_ifs with h
  · have hupsert : Adds (upsertStageRuns run.runId live) tx [live] := by
      unfold upsertStageRuns
      rw [if_neg h.1]
      exact writeStageRows_adds run.runId live true
    exact hupsert.bind fun _ _ => (Adds.quiet _).bind fun _ _ => .quiet _
  · exact .pure ()

theorem settleStageState_adds (hp : plain tx = saving tx₀ r events entries commands)
    (h : Holds tx₀ r.runId) (hid : run.runId = r.runId) (hs : run.stages = r.run.stages)
    (errors : Option (List MissionError)) (overlay : List StageStateRecord) :
    Adds (settleStageState now run status errors overlay) tx [r.finalRows now status overlay] := by
  have hstored := @exec_getStageRuns_saving tx₀ r events entries commands _ h hid
  rw [← hp] at hstored
  refine .after hstored ?_
  have hr : finalStageStatuses run.stages.stages
      ((Table.ofRows r.stageRows).upsertAll overlay fun _ _ => true) status now =
        r.finalRows now status overlay := by rw [hs]; rfl
  have hne : r.finalRows now status overlay ≠ [] :=
    finalStageStatuses_ne_nil r.run.stages.nonempty _ _ _
  have hwrite : ∀ tx', Adds (overwriteStageRuns run.runId (r.finalRows now status overlay)) tx'
      [r.finalRows now status overlay] := by
    intro tx'
    unfold overwriteStageRuns
    rw [if_neg hne]
    exact writeStageRows_adds run.runId _ false
  dsimp only
  rw [hr]
  exact (hwrite _).bind fun _ _ => (Adds.quiet _).bind fun _ _ => .pure _

/-- What a frame passes on: the rows the run ends with, if it ends it, or else its own. -/
def reportPassed (now : Datetime) (r : StoredRun) (state : MissionStateMessage) :
    List (List StageStateRecord) :=
  let live := MissionStateService.liveRecords state r.plan
  match MissionStateService.reportUpdate r.toRun state with
  | none => livePassed r.status live
  | some u =>
    if isTerminal u.newStatus then [r.finalRows now u.newStatus live]
    else livePassed u.newStatus live

theorem applyReport_adds
    (hp : plain tx = saving tx₀ (r.touched now state) [] [] []) (h : Holds tx₀ r.runId) :
    Adds (applyReport now r.toRun state) tx (reportPassed now r state) := by
  obtain ⟨hf, hs, -⟩ := @touched_same r now state
  have hrows : ∀ status overlay, (r.touched now state).finalRows now status overlay =
      r.finalRows now status overlay := by
    obtain ⟨report, htouched⟩ := r.touched_eq now state
    rw [htouched]
    exact fun _ _ => rfl
  unfold applyReport reportPassed
  dsimp only
  generalize r.touched now state = q at *
  have hid : r.toRun.runId = q.runId := (congrArg FrozenRun.runId hf).symm
  have hplan : r.toRun.stages = q.run.stages := (congrArg FrozenRun.stages hf).symm
  have h : Holds tx₀ q.runId := hid ▸ h
  cases hu : MissionStateService.reportUpdate r.toRun state with
  | none => exact recordLive_adds
  | some u =>
    obtain ⟨he, ht⟩ := reportUpdate_expected hu
    have hupdate := @exec_updateStatus_saving tx₀ q [] [] [] _ h hid u (hs.trans he) (hs ▸ ht)
      now
    rw [← hp] at hupdate
    refine .after hupdate ?_
    refine Adds.bind ?_ fun _ _ => .quiet _
    unfold recordStages
    dsimp only
    split_ifs with hterm
    · have hsettle := @settleStageState_adds
        { saving tx₀ (q.withStatus now u) [] [] [] with
          store := ((saving tx₀ (q.withStatus now u) [] [] []).store, tx.store.2) }
        tx₀ (q.withStatus now u) r.toRun now [] [] [] u.newStatus rfl h hid hplan u.errors
        (MissionStateService.liveRecords state r.plan)
      rw [StoredRun.finalRows_withStatus, hrows] at hsettle
      exact hsettle.bind fun _ _ => .pure _
    · exact recordLive_adds

/-- A frame of the robot's own run is noted to pass on just these rows. -/
theorem noted_record {store : Store} {robotId : RobotId}
    (hr : store.runs.find? state.runId = some r) (hb : r.robotId = robotId) :
    noted (record now robotId state) store = reportPassed now r state := by
  have hid := Table.key_of_find? hr
  rw [← hid] at hr
  have h : Holds ({ store } : Tx Store Event Command) r.runId :=
    Option.isSome_iff_exists.mpr ⟨r, hr⟩
  have hget : (Runs.getForUpdate state.runId).exec ({ store } : Tx Store Event Command) =
      (.ok (some r.toRun), { store }) := by
    rw [Runs.getForUpdate, exec_get, ← hid, hr]
    rfl
  have htouch := @touchReport_eq { store } r now [] [] [] state h
  rw [saving_self hr] at htouch
  refine Adds.noted_eq (.after hget ?_)
  dsimp only
  rw [StoredRun.toRun_robotId, if_neg (not_not_intro hb)]
  exact .after htouch (applyReport_adds rfl h)

theorem noted_record_dropped {store : Store} {robotId : RobotId}
    (h : ∀ r, store.runs.find? state.runId = some r → r.robotId ≠ robotId) :
    noted (record now robotId state) store = [] := by
  have hget := @exec_get { store } state.runId
  refine Adds.noted_eq (.after hget ?_)
  cases hf : store.runs.find? state.runId with
  | none => exact .pure ()
  | some r =>
    dsimp only [Option.map_some]
    rw [StoredRun.toRun_robotId, if_pos (h r hf)]
    exact .pure ()

end Notes

section Placed
variable {run : MissionRun} {now : Datetime} {status : RunStatus}
  {overlay : List StageStateRecord}

/-- The run was read from a store like this one: its plan is the one that the store has. -/
structure ReadFrom (run : MissionRun) (store : Store) : Prop where
  placed : store.StagesPlaced
  plan : ∀ r ∈ store.runs.rows, r.runId = run.runId → r.run.stages = run.stages

theorem readFrom_toRun {store : Store} {r : StoredRun} (h : store.StagesPlaced)
    (hr : r ∈ store.runs.rows) : ReadFrom r.toRun store where
  placed := h
  plan := by
    intro q hq hid
    have hfind := Table.find?_of_mem hq
    rw [show q.runId = r.runId from hid, Table.find?_of_mem hr] at hfind
    rw [Option.some.inj hfind]
    rfl

theorem ReadFrom.save {store : Store} {r : StoredRun} (h : ReadFrom run store)
    (hr : r.Placed) (hplan : r.runId = run.runId → r.run.stages = run.stages) :
    ReadFrom run (Runs.saveRun r store) where
  placed := by
    intro q hq
    obtain rfl | hq := Table.mem_replace hq
    · exact hr
    · exact h.placed q hq.1
  plan := by
    intro q hq
    obtain rfl | hq := Table.mem_replace hq
    · exact hplan
    · exact h.plan q hq.1

/-- The rows are of pairwise distinct stages. -/
def Distinct (records : List StageStateRecord) : Prop := (records.map (·.stageId)).Nodup

instance (records : List StageStateRecord) : Decidable (Distinct records) :=
  inferInstanceAs (Decidable (List.Nodup _))

theorem placed_of_mem_final {p : Plan} {liveById : StageRuns} {row : StageStateRecord}
    (hplaced : ∀ row ∈ liveById.rows, PlacedAt p.stages row)
    (h : row ∈ finalStageStatuses p.stages liveById status now) : PlacedAt p.stages row := by
  obtain ⟨index, stage, hi, rfl | ⟨hrow, -⟩⟩ := mem_finalStageStatuses h
  · exact ⟨stage, hi, .inl ⟨rfl, rfl⟩⟩
  · exact hplaced row hrow

theorem overwriteStageRuns_notes {records : List StageStateRecord} (hd : Distinct records)
    (hplaced : ∀ row ∈ records, PlacedAt run.stages.stages row) :
    Notes (ReadFrom run) Distinct (overwriteStageRuns run.runId records)
      fun _ => Store.StagesPlaced := by
  unfold overwriteStageRuns
  split_ifs
  · exact .pure fun store h => h.placed
  · refine .note (.quiet ?_) fun _ _ => hd
    intro tx b tx' h hx
    unfold Runs.writeStageRows at hx
    rw [exec_bind, exec_find] at hx
    cases hf : tx.store.runs.find? run.runId with
    | none =>
      rw [hf] at hx
      cases hx
    | some r =>
      rw [hf] at hx
      dsimp only at hx
      split_ifs at hx
      · cases hx
      · obtain ⟨-, rfl⟩ := Prod.mk.inj hx
        have hr := Table.mem_of_find? hf
        have hplan : r.run.stages = run.stages := h.plan r hr (Table.key_of_find? hf)
        refine (h.save (r := r.withStageRows records false) ?_ fun _ => hplan).placed
        intro row hrow
        obtain hrow | hrow := Table.mem_upsertAll hrow
        · exact h.placed r hr row hrow
        · change PlacedAt r.run.stages.stages row
          rw [hplan]
          exact hplaced row hrow

/-- A run is settled with rows of distinct stages, whatever rows the last frame brings. -/
theorem settleStageState_notes (errors : Option (List MissionError))
    (hover : ∀ row ∈ overlay, PlacedAt run.stages.stages row) :
    Notes (ReadFrom run) Distinct (settleStageState now run status errors overlay)
      fun _ => Store.StagesPlaced := by
  refine .bind (J := fun rows store => ReadFrom run store ∧
    ∀ row ∈ rows, PlacedAt run.stages.stages row) (.quiet ?_) ?_
  · intro tx rows tx' h hx
    obtain ⟨hrows, rfl⟩ := Prod.mk.inj hx
    obtain rfl := Except.ok.inj hrows
    refine ⟨h, ?_⟩
    cases hf : tx.store.runs.find? run.runId with
    | none => exact fun _ hrow => absurd hrow List.not_mem_nil
    | some r =>
      intro row hrow
      have hr := Table.mem_of_find? hf
      have hplaced := h.placed r hr row ((List.mem_insertionSort _).mp hrow)
      rw [← h.plan r hr (Table.key_of_find? hf)]
      exact hplaced
  · refine fun rows => .assume fun hrows => ?_
    have hplaced : ∀ row ∈ ((Table.ofRows rows : StageRuns).upsertAll overlay
        fun _ _ => true).rows, PlacedAt run.stages.stages row := by
      intro row hrow
      obtain hrow | hrow := Table.mem_upsertAll hrow
      · exact hrows row (Table.mem_ofRows hrow)
      · exact hover row hrow
    have hd : Distinct (finalStageStatuses run.stages.stages
        ((Table.ofRows rows : StageRuns).upsertAll overlay fun _ _ => true) status now) :=
      List.pairwise_map.mpr ((finalStageStatuses_pairwise status now hplaced).imp fun h => h.1)
    refine (overwriteStageRuns_notes hd fun row => placed_of_mem_final hplaced).bind fun _ => ?_
    exact .bind (.keeping fun _ => rfl) fun _ => .pure fun _ h => h

open RunReconciliation (judge stopClaim)

theorem updateStatus_store {u : StatusUpdate} {tx tx' : Tx Store Event Command}
    {updated : Option MissionRun} (h : ReadFrom run tx.store)
    (hx : (Runs.updateStatus now run.runId u).exec tx = (.ok updated, tx')) :
    ReadFrom run tx'.store := by
  unfold Runs.updateStatus at hx
  rw [exec_bind, exec_find] at hx
  cases hf : tx.store.runs.find? run.runId with
  | none =>
    rw [hf] at hx
    obtain ⟨-, rfl⟩ := Prod.mk.inj hx
    exact h
  | some r =>
    rw [hf] at hx
    dsimp only at hx
    have hr := Table.mem_of_find? hf
    split_ifs at hx
    · obtain ⟨-, rfl⟩ := Prod.mk.inj hx
      exact h.save (h.placed r hr) fun _ => h.plan r hr (Table.key_of_find? hf)
    · obtain ⟨-, rfl⟩ := Prod.mk.inj hx
      exact h

theorem closeUnclaimed_notes : Notes (ReadFrom run) Distinct (closeUnclaimed now run)
    fun _ => Store.StagesPlaced := by
  refine .bind (J := fun _ => ReadFrom run) (.quiet fun _ _ _ => updateStatus_store) ?_
  intro updated
  cases updated with
  | none => exact .pure fun _ h => h.placed
  | some updated =>
    refine (settleStageState_notes (some [RunReconciliation.unclaimedError])
      fun _ hrow => absurd hrow List.not_mem_nil).bind fun _ => ?_
    exact .bind (.keeping fun _ => rfl) fun _ => .pure fun _ h => h

/-- What the store is like once a run has been judged, which leaves it as it is. -/
def Judged (found : Option MissionRun) (store : Store) : Prop :=
  store.StagesPlaced ∧ ∀ run, found = some run → ReadFrom run store

theorem judged_store {claim : Claim} {runId : UUID} {tx tx' : Tx Store Event Command}
    {found : Option MissionRun} (h : tx.store.StagesPlaced)
    (hx : (judge now claim runId).exec tx = (.ok found, tx')) : Judged found tx'.store := by
  rw [System.judge_eq] at hx
  have hnone : ∀ {tx₁ tx₂ : Tx Store Event Command}, tx₁.store.StagesPlaced →
      ((.ok none, tx₁) : Except ServiceError (Option MissionRun) × _) = (.ok found, tx₂) →
      Judged found tx₂.store := by
    rintro tx₁ tx₂ h ⟨⟩
    exact ⟨h, fun run hrun => absurd hrun.symm (Option.some_ne_none run)⟩
  cases hf : tx.store.runs.find? runId with
  | none =>
    rw [hf] at hx
    exact hnone h hx
  | some r =>
    rw [hf] at hx
    dsimp only at hx
    split_ifs at hx
    · exact hnone h hx
    · obtain ⟨hfound, rfl⟩ := Prod.mk.inj hx
      obtain rfl := Except.ok.inj hfound
      refine ⟨h, ?_⟩
      intro run hrun
      obtain rfl := Option.some.inj hrun
      exact readFrom_toRun h (Table.mem_of_find? hf)

theorem reconcileEach_notes (claim : Claim) (ids : List UUID) :
    Notes Store.StagesPlaced Distinct (reconcileEach now claim ids)
      fun _ => Store.StagesPlaced := by
  induction ids with
  | nil => exact .pure fun _ h => h
  | cons runId ids ih =>
    refine .bind (J := Judged) (.quiet fun _ _ _ => judged_store) fun found => ?_
    have hrest : ∀ ended : Option UUID, Notes Store.StagesPlaced Distinct
        (do return ended.toList ++ (← reconcileEach now claim ids)) fun _ => Store.StagesPlaced :=
      fun ended => ih.bind fun _ => .pure fun _ h => h
    cases found with
    | none =>
      refine .bind (J := fun _ => Store.StagesPlaced) (.pure fun _ h => ?_) hrest
      exact h.1
    | some run =>
      refine .bind (closeUnclaimed_notes.imp (fun _ h => ?_) fun _ _ h => h) hrest
      exact h.2 run rfl

theorem reconcileRobotRuns_notes (robotId : RobotId) (claim : Claim) :
    Notes Store.StagesPlaced Distinct (reconcileRobotRuns now robotId claim) fun _ _ => True := by
  refine .bind (.keeping fun _ => rfl) fun live => ?_
  refine (reconcileEach_notes claim _).bind fun ended => ?_
  refine .bind (J := fun _ _ => True) (.quiet fun _ _ _ _ _ => trivial) fun _ => ?_
  exact .pure fun _ _ => trivial

end Placed

section Once
variable {r : StoredRun} {state : MissionStateMessage} {now : Datetime} {robotId : RobotId}
  {store : Store}
open MissionStateService (lookupIndex liveRecords reportUpdate)

/-- The status of the run once the frame has been taken. -/
def reportedTo (r : StoredRun) (state : MissionStateMessage) : RunStatus :=
  (reportUpdate r.toRun state).elim r.status (·.newStatus)

/-- The frame names a stage of the run's plan twice. -/
def Repeats (r : StoredRun) (state : MissionStateMessage) : Prop :=
  ¬ ((state.stageStates.map (·.stageId)).filter fun id => (lookupIndex r.plan id).isSome).Nodup

/-- The robot names a stage of its run twice in a frame that leaves the run executing. -/
def RepeatsLive (store : Store) (robotId : RobotId) (state : MissionStateMessage) : Prop :=
  ∃ r, store.runs.find? state.runId = some r ∧ r.robotId = robotId ∧
    isExecuting (reportedTo r state) = true ∧ Repeats r state

theorem distinct_liveRecords : Distinct (liveRecords state r.plan) ↔ ¬ Repeats r state := by
  unfold Distinct Repeats
  rw [map_liveRecords, not_not]

theorem forall_livePassed {status : RunStatus} {live : List StageStateRecord} :
    (∀ records ∈ livePassed status live, Distinct records) ↔
      (isExecuting status = true → Distinct live) := by
  unfold livePassed
  split_ifs with h
  · rw [List.forall_mem_singleton]
    exact ⟨fun hd _ => hd, fun hd => hd h.2⟩
  · refine ⟨fun _ he => ?_, fun _ _ hr => absurd hr List.not_mem_nil⟩
    have hnil : live = [] := by
      by_contra hne
      exact h ⟨hne, he⟩
    rw [hnil]
    exact List.nodup_nil

theorem forall_reportPassed (h : r.Placed) :
    (∀ records ∈ reportPassed now r state, Distinct records) ↔
      ¬ (isExecuting (reportedTo r state) = true ∧ Repeats r state) := by
  unfold reportPassed reportedTo
  rw [not_and, ← distinct_liveRecords]
  cases reportUpdate r.toRun state with
  | none => exact forall_livePassed
  | some u =>
    dsimp only [Option.elim_some]
    split_ifs with ht
    · have hlive : ∀ row ∈ liveRecords state r.plan, PlacedAt r.plan row := fun _ hrow =>
        (mem_liveRecords hrow).1
      have hfinal := StoredRun.finalRows_nodup h hlive now u.newStatus
      rw [List.forall_mem_singleton]
      refine ⟨fun _ he => ?_, fun _ => hfinal⟩
      rw [isTerminal_of_isExecuting he] at ht
      cases ht
    · exact forall_livePassed

theorem record_once_iff (h : store.StagesPlaced) :
    (∀ records ∈ noted (record now robotId state) store, Distinct records) ↔
      ¬ RepeatsLive store robotId state := by
  by_cases hr : ∃ r, store.runs.find? state.runId = some r ∧ r.robotId = robotId
  · obtain ⟨r, hr, hb⟩ := hr
    rw [noted_record hr hb, forall_reportPassed (h r (Table.mem_of_find? hr))]
    refine not_congr ⟨fun hlive => ⟨r, hr, hb, hlive⟩, ?_⟩
    rintro ⟨q, hq, -, hlive⟩
    obtain rfl := Option.some.inj (hr.symm.trans hq)
    exact hlive
  · have hnone : noted (record now robotId state) store = [] :=
      noted_record_dropped fun r hf hb => hr ⟨r, hf, hb⟩
    rw [hnone]
    refine ⟨fun _ hlive => ?_, fun _ _ hrecords => absurd hrecords List.not_mem_nil⟩
    obtain ⟨r, hf, hb, -⟩ := hlive
    exact hr ⟨r, hf, hb⟩

/-- Each statement that writes stage rows writes each of them once. -/
structure RowsOnce (s : System) (now : Datetime) (robotId : RobotId) : Prop where
  recorded : ∀ state, (∀ records ∈ noted (record now robotId state) s.store, Distinct records) ↔
    ¬ RepeatsLive s.store robotId state
  sampled : ∀ {Payload Timestamp : Type} (parse : Payload → Option (ProtoMissionState Timestamp))
    (utc : Timestamp → Option Datetime) (key : String) (payload : Payload)
    (state : MissionStateMessage), handleSample parse utc key payload = some (robotId, state) →
      ∀ records ∈ noted (record now robotId state) s.store, Distinct records
  settled : ∀ (run : MissionRun) (status : RunStatus) (errors : Option (List MissionError))
    (overlay : List StageStateRecord),
    (∀ r ∈ s.store.runs.rows, r.runId = run.runId → r.run.stages = run.stages) →
    (overlay = [] ∨ ∃ state, overlay = liveRecords state run.stages.stages) →
      ∀ records ∈ noted (settleStageState now run status errors overlay) s.store, Distinct records
  reconciled : ∀ claim,
    ∀ records ∈ noted (reconcileRobotRuns now robotId claim) s.store, Distinct records

theorem stage_rows_written_once {s : System} (h : s.Reachable) (now : Datetime)
    (robotId : RobotId) : RowsOnce s now robotId where
  recorded := fun _ => record_once_iff h.stagesPlaced
  sampled := by
    intro Payload Timestamp parse utc key payload state hsample
    refine (record_once_iff h.stagesPlaced).mpr ?_
    rintro ⟨r, -, -, -, hrepeats⟩
    exact hrepeats ((nodup_handleSample hsample).filter _)
  settled := by
    intro run status errors overlay hplan hover
    refine (settleStageState_notes errors ?_).forall_noted ⟨h.stagesPlaced, hplan⟩
    obtain rfl | ⟨state, rfl⟩ := hover
    · exact fun _ hrow => absurd hrow List.not_mem_nil
    · exact fun _ hrow => (mem_liveRecords hrow).1
  reconciled := fun claim => (reconcileRobotRuns_notes robotId claim).forall_noted h.stagesPlaced

theorem stage_rows_written_once_running : ∃ s : System, s.Reachable ∧
    (∃ r ∈ s.store.runs.rows, r.status = .running) ∧ RowsOnce s 5 "r1" := by
  obtain ⟨s, hs, hp⟩ := demo_reaches (fun s => s.store.runs.rows.any (·.status = .running))
    (demoDispatch ++ [demoSettle .accepted, demoFrame 1 .running]) (by decide)
  obtain ⟨r, hr, hrunning⟩ := List.any_eq_true.mp hp
  exact ⟨s, hs, ⟨r, hr, of_decide_eq_true hrunning⟩, stage_rows_written_once hs 5 "r1"⟩

/-- The robot has paused, and names the first stage twice. -/
def demoRepeated : MissionStateMessage :=
  { runId := 7, headerId := 2, timestamp := 0, execStatus := .paused
    stageStates := [{ stageId := 10, status := .running }, { stageId := 10, status := .paused }] }

/-- A frame with a stage named twice passes on both rows, and its pause is lost with them. -/
theorem repeated_stage_refused : ∃ s : System, s.Reachable ∧
    (∃ r, s.store.runs.find? 7 = some r ∧ reportedTo r demoRepeated = .paused) ∧
    (∃ records ∈ noted (record 5 "r1" demoRepeated) s.store, ¬ Distinct records) ∧
    (MissionStateService.record 5 "r1" demoRepeated).atomically s.world =
      (.error .cardinalityViolation, s.world) := by
  obtain ⟨s, hs, hp⟩ := demo_reaches (fun s =>
      ((s.store.runs.find? 7).any fun r => reportedTo r demoRepeated = .paused) &&
      ((noted (record 5 "r1" demoRepeated) s.store).any fun records => ¬ Distinct records) &&
      ((MissionStateService.record 5 "r1" demoRepeated).exec { store := s.world.store }).1 =
        .error .cardinalityViolation &&
      ((MissionStateService.record 5 "r1" demoRepeated).exec
        { store := s.world.store }).2.sent.isEmpty)
    (demoDispatch ++ [demoSettle .accepted, demoFrame 1 .running]) (by decide)
  simp only [Bool.and_eq_true, decide_eq_true_eq, List.isEmpty_iff] at hp
  obtain ⟨⟨⟨hpaused, hpassed⟩, hrefused⟩, hunsent⟩ := hp
  obtain ⟨r, hr, hpaused⟩ := (Option.any_eq_true _ _).mp hpaused
  obtain ⟨records, hrecords, htwice⟩ := List.any_eq_true.mp hpassed
  refine ⟨s, hs, ⟨r, hr, of_decide_eq_true hpaused⟩,
    ⟨records, hrecords, of_decide_eq_true htwice⟩, ?_⟩
  have hx : (MissionStateService.record 5 "r1" demoRepeated).exec { store := s.world.store } =
    (.error .cardinalityViolation, _) := Prod.ext hrefused rfl
  rw [atomically, hx]
  dsimp only
  rw [hunsent, List.append_nil]

end Once
end StageWrites
end Leitstand
