import Leitstand.FrameRows

namespace Leitstand
open TxM MissionStateService

/-- The frames of a robot, each recorded in a transaction of its own. -/
def recordAll (robotId : RobotId) (w : Backend) (frames : List (Datetime × MissionStateMessage)) :
    Backend :=
  frames.foldl (fun w frame => ((record frame.1 robotId frame.2).atomically w).2) w

/-- What the live frames of a run leave of its stage rows: the newest of those that mention a stage
has the row, unless the row was as new before. -/
structure RowsOfFrames (r q : StoredRun) (frames : List MissionStateMessage) : Prop where
  newest : ∀ frame ∈ frames, ∀ row ∈ liveRecords frame r.plan,
    (∀ other ∈ frames, row.stageId ∈ other.stageStates.map (·.stageId) →
      other.headerId ≤ frame.headerId) →
    q.stageRuns.find? row.stageId = some ((r.stageRuns.find? row.stageId).elim row fun old =>
      if old.headerId < frame.headerId then row else old)
  untouched : ∀ stageId, (∀ frame ∈ frames, stageId ∉ frame.stageStates.map (·.stageId)) →
    q.stageRuns.find? stageId = r.stageRuns.find? stageId

/-- A settled row keeps of the row before what the robot reported and the run's end leaves alone. -/
structure KeepsReport (row final : StageStateRecord) : Prop where
  headerId : final.headerId = row.headerId
  progress : final.progress = row.progress
  startedAt : final.startedAt = row.startedAt
  result : final.result = row.result

/-- The rows an outcome leaves come from its own of the stages it mentions, and of the others from
those that were there. -/
structure RowsOfOutcome (q e : StoredRun) (outcome : MissionStateMessage) : Prop where
  mentioned : ∀ row ∈ liveRecords outcome q.plan, ∃ final,
    e.stageRuns.find? row.stageId = some final ∧ KeepsReport row final
  others : ∀ row ∈ q.stageRuns.rows, row.stageId ∉ outcome.stageStates.map (·.stageId) →
    ∃ final, e.stageRuns.find? row.stageId = some final ∧ KeepsReport row final

section Run
variable {w : Backend} {r : StoredRun} {frame : MissionStateMessage} {now : Datetime}

/-- A frame that is not refused leaves the run as its machine says. -/
theorem record_runs (hr : w.store.runs.find? r.runId = some r) (hid : frame.runId = r.runId)
    (hrefuse : r.refusesReport now frame = false) :
    ((record now r.robotId frame).atomically w).2.store.runs.find? r.runId =
      some (r.report now frame).row := by
  have hrec := @record_eq { store := w.store } r now frame r.robotId (hid.symm ▸ hr) rfl
  rw [if_neg (by simp [hrefuse])] at hrec
  unfold atomically
  rw [hrec]
  have hkey := r.runId_respond (.reported now frame)
  exact hkey ▸ Table.find?_replace_self (hkey.symm ▸ hr)

/-- The live frames of a run leave it executing, and their rows in turn. -/
theorem recordAll_live {past : List MissionStateMessage} (hpast : StageRows past r)
    (hr : w.store.runs.find? r.runId = some r) (he : isExecuting r.status = true)
    {frames : List (Datetime × MissionStateMessage)}
    (hframes : ∀ f ∈ frames, FrameOf r f.2 ∧ isOutcome f.2.execStatus = false) :
    ∃ q, (recordAll r.robotId w frames).store.runs.find? r.runId = some q ∧
      q.frozen = r.frozen ∧ isExecuting q.status = true ∧
      StageRows (past ++ frames.map (·.2)) q ∧
      q.stageRuns = (frames.map fun f => liveRecords f.2 r.plan).foldl
        (Table.advanceAll (·.headerId)) r.stageRuns := by
  induction frames generalizing w r past with
  | nil => exact ⟨r, hr, rfl, he, by simpa using hpast, rfl⟩
  | cons f frames ih =>
    obtain ⟨hframe, hl⟩ := hframes f List.mem_cons_self
    obtain ⟨hrefuse, he', hrows⟩ := StoredRun.report_live hframe hl he f.1
    have hrun := record_runs hr hframe.run hrefuse
    have hfrozen : (r.report f.1 f.2).row.frozen = r.frozen :=
      r.frozen_respond (.reported f.1 f.2)
    have hid : (r.report f.1 f.2).row.runId = r.runId := congrArg FrozenRun.runId hfrozen
    have hb : (r.report f.1 f.2).row.robotId = r.robotId := congrArg FrozenRun.robotId hfrozen
    have hp : (r.report f.1 f.2).row.plan = r.plan :=
      congrArg (fun f => f.stages.stages) hfrozen
    have hrest : ∀ g ∈ frames, FrameOf (r.report f.1 f.2).row g.2 ∧
        isOutcome g.2.execStatus = false := by
      intro g hg
      obtain ⟨hframe, hl⟩ := hframes g (List.mem_cons_of_mem f hg)
      exact ⟨hframe.congr hfrozen, hl⟩
    rw [← hid] at hrun
    obtain ⟨q, hq, hf, hexec, hstages, hfold⟩ := ih (hpast.report f.1 f.2) hrun he' hrest
    rw [hid, hb] at hq
    refine ⟨q, hq, hf.trans hfrozen, hexec, ?_, ?_⟩
    · simpa using hstages
    · rw [hfold, hrows, hp]
      rfl

end Run

section Rows
variable {r q : StoredRun} {frames frames' : List MissionStateMessage}

/-- What the frames say of one stage. -/
def saidOf (plan : List Stage) (frames : List MissionStateMessage) (stageId : UUID) :
    List StageStateRecord :=
  (frames.map (liveRecords · plan)).filterMap fun rows => rows.find? fun row =>
    row.stageId = stageId

theorem mem_saidOf {plan : List Stage} {stageId : UUID} {row : StageStateRecord}
    (h : row ∈ saidOf plan frames stageId) : row.stageId = stageId ∧ ∃ frame ∈ frames,
      row.headerId = frame.headerId ∧ stageId ∈ frame.stageStates.map (·.stageId) := by
  obtain ⟨rows, hrows, hfind⟩ := List.mem_filterMap.mp h
  obtain ⟨frame, hframe, rfl⟩ := List.mem_map.mp hrows
  have hid : row.stageId = stageId := by simpa using List.find?_some hfind
  have hmem := List.mem_of_find?_eq_some hfind
  exact ⟨hid, frame, hframe, headerId_liveRecords hmem,
    (exists_liveRecord.mp ⟨row, hmem, hid⟩).1⟩

theorem nodup_saidOf (plan : List Stage) (h : (frames.map (·.headerId)).Nodup) (stageId : UUID) :
    ((saidOf plan frames stageId).map (·.headerId)).Nodup := by
  unfold saidOf
  rw [List.filterMap_map, List.nodup_iff_pairwise_ne, List.pairwise_map, List.pairwise_filterMap]
  refine (List.pairwise_map.mp h).imp ?_
  intro a b hab row hrow row' hrow' he
  have ha := headerId_liveRecords (List.mem_of_find?_eq_some hrow)
  have hb := headerId_liveRecords (List.mem_of_find?_eq_some hrow')
  exact hab (ha.symm.trans (he.trans hb))

/-- Frames of distinct headers leave the same rows in every order. -/
theorem newest_saidOf_perm {plan : List Stage} (hp : frames'.Perm frames)
    (h : (frames.map (·.headerId)).Nodup) (old : Option StageStateRecord) (stageId : UUID) :
    Table.newest (·.headerId) old (saidOf plan frames' stageId) =
      Table.newest (·.headerId) old (saidOf plan frames stageId) := by
  refine Table.newest_perm ((hp.map _).filterMap _) ?_ old
  exact nodup_saidOf plan ((hp.map _).nodup_iff.mpr h) stageId

theorem rowsOfFrames (honce : ∀ frame ∈ frames, (frame.stageStates.map (·.stageId)).Nodup)
    (hheaders : (frames.map (·.headerId)).Nodup)
    (hq : ∀ stageId, q.stageRuns.find? stageId =
      Table.newest (·.headerId) (r.stageRuns.find? stageId) (saidOf r.plan frames stageId)) :
    RowsOfFrames r q frames where
  newest := by
    intro frame hframe row hrow hmax
    let t : StageRuns := ⟨liveRecords frame r.plan, nodup_liveRecords (honce frame hframe)⟩
    have hfind : t.find? row.stageId = some row := Table.find?_of_mem hrow
    have hsaid : row ∈ saidOf r.plan frames row.stageId :=
      List.mem_filterMap.mpr ⟨_, List.mem_map.mpr ⟨frame, hframe, rfl⟩, hfind⟩
    rw [hq, Table.newest_of_max hsaid (nodup_saidOf r.plan hheaders row.stageId)]
    · rw [Table.newer, headerId_liveRecords hrow]
    · intro other hother
      obtain ⟨-, frame', hframe', hheader, hmention⟩ := mem_saidOf hother
      rw [hheader, headerId_liveRecords hrow]
      exact hmax frame' hframe' hmention
  untouched := by
    intro stageId hnone
    have hnil : saidOf r.plan frames stageId = [] := by
      rw [List.eq_nil_iff_forall_not_mem]
      intro row hrow
      obtain ⟨-, frame, hframe, -, hmention⟩ := mem_saidOf hrow
      exact hnone frame hframe hmention
    rw [hq, hnil]
    rfl

end Rows

section Outcome
variable {r q : StoredRun} {past : List MissionStateMessage} {overlay : List StageStateRecord}

theorem find?_stageRows (r : StoredRun) (stageId : UUID) :
    (Table.ofRows r.stageRows : StageRuns).find? stageId = r.stageRuns.find? stageId := by
  have hperm : r.stageRows.Perm r.stageRuns.rows := List.perm_insertionSort _ _
  have hnd : (r.stageRows.map (·.stageId)).Nodup := (hperm.map _).nodup_iff.mpr r.stageRuns.nodup
  refine Option.ext fun row => ?_
  rw [Table.find?_eq_some_iff, Table.find?_eq_some_iff, Table.rows_ofRows hnd, hperm.mem_iff]

/-- The rows of the last frame stand over those that were there. -/
theorem find?_liveById (r : StoredRun) (h : (overlay.map (·.stageId)).Nodup) (stageId : UUID) :
    (r.liveById overlay).find? stageId =
      (overlay.find? fun row => row.stageId = stageId).or (r.stageRuns.find? stageId) := by
  unfold StoredRun.liveById
  rw [Table.find?_upsertAll h, find?_stageRows]
  cases overlay.find? fun row => row.stageId = stageId with
  | none => rfl
  | some row => cases r.stageRuns.find? stageId <;> rfl

/-- A row there was before the run's end is found after it, with what the robot reported. -/
theorem finalRows_keep (h : r.Placed) (hover : ∀ row ∈ overlay, PlacedAt r.plan row)
    (now : Datetime) (status : RunStatus) {row : StageStateRecord}
    (hrow : row ∈ (r.liveById overlay).rows) : ∃ final ∈ r.finalRows now status overlay,
      final.stageId = row.stageId ∧ KeepsReport row final := by
  obtain ⟨stage, hi, ⟨hnone, hid⟩ | ⟨hparent, -⟩⟩ := StoredRun.liveById_placed h hover row hrow
  · have hfind : (r.liveById overlay).find? stage.stageId = some row :=
      hid ▸ Table.find?_of_mem hrow
    refine ⟨_, finalStageStatus_mem hi, hid.symm, ?_⟩
    have heq : ((Table.ofRows r.stageRows).upsertAll overlay fun _ _ => true).find? stage.stageId =
        some row := hfind
    rw [heq]
    exact ⟨rfl, rfl, rfl, rfl⟩
  · obtain ⟨hlt, rfl⟩ := List.getElem?_eq_some_iff.mp hi
    refine ⟨row, ?_, rfl, rfl, rfl, rfl, rfl⟩
    refine List.mem_flatten.mpr ⟨_, List.mem_mapIdx.mpr ⟨row.stageIndex, hlt, rfl⟩, ?_⟩
    exact List.mem_cons_of_mem _ (List.mem_filter.mpr ⟨hrow, decide_eq_true hparent⟩)

theorem ending_keeps (h : r.Placed) (hover : ∀ row ∈ overlay, PlacedAt r.plan row)
    (now : Datetime) (u : StatusUpdate) (reason : Option String) {row : StageStateRecord}
    (hrow : row ∈ (r.liveById overlay).rows) : ∃ final,
      (r.ending now u overlay reason).row.stageRuns.find? row.stageId = some final ∧
        KeepsReport row final := by
  obtain ⟨final, hmem, hid, hkeeps⟩ := finalRows_keep h hover now u.newStatus hrow
  have hperm := StoredRun.stageRuns_ending h hover now u reason
  exact ⟨final, hid ▸ Table.find?_of_mem (hperm.mem_iff.mpr hmem), hkeeps⟩

theorem rowsOfOutcome (h : q.Placed) {outcome : MissionStateMessage}
    (hframe : FrameOf q outcome) (now : Datetime) (u : StatusUpdate) (reason : Option String) :
    RowsOfOutcome q (q.ending now u (liveRecords outcome q.plan) reason).row outcome := by
  have hnd : ((liveRecords outcome q.plan).map (·.stageId)).Nodup := nodup_liveRecords hframe.once
  have hover : ∀ row ∈ liveRecords outcome q.plan, PlacedAt q.plan row := fun _ hrow =>
    (mem_liveRecords hrow).1
  constructor
  · intro row hrow
    refine ending_keeps h hover now u reason (Table.mem_iff_find?.mpr ?_)
    let t : StageRuns := ⟨liveRecords outcome q.plan, hnd⟩
    have hfind : t.find? row.stageId = some row := Table.find?_of_mem hrow
    rw [find?_liveById q hnd]
    exact congrArg (Option.or · _) hfind
  · intro row hrow hother
    refine ending_keeps h hover now u reason (Table.mem_iff_find?.mpr ?_)
    have hnone : (liveRecords outcome q.plan).find? (fun other => other.stageId = row.stageId) =
        none := by
      rw [List.find?_eq_none]
      intro other hmem hid
      exact hother (exists_liveRecord.mp ⟨other, hmem, of_decide_eq_true hid⟩).1
    rw [find?_liveById q hnd, hnone, Option.none_or, Table.find?_of_mem hrow]

theorem report_rowsOfOutcome (h : StageRows past q) {outcome : MissionStateMessage}
    (hframe : FrameOf q outcome) (ho : isOutcome outcome.execStatus = true)
    (ht : isTerminal q.status = false) (now : Datetime) :
    q.refusesReport now outcome = false ∧
      isTerminal (q.report now outcome).row.status = true ∧
      RowsOfOutcome q (q.report now outcome).row outcome := by
  obtain ⟨hrefuse, u, hterm, -, heq⟩ := StoredRun.report_outcome h ho ht now
  obtain ⟨hf, hs, hrows⟩ := @touched_same q now outcome
  have hplan : (q.touched now outcome).plan = q.plan := congrArg (fun f => f.stages.stages) hf
  have htouched : StageRows past (q.touched now outcome) :=
    h.of_same hplan (congrArg isTerminal hs) hrows
  have hsettled := rowsOfOutcome htouched.placed (hframe.congr hf) now u none
  rw [hplan] at hsettled
  refine ⟨hrefuse, ?_, ?_⟩
  · rw [heq]
    exact hterm
  · rw [heq]
    exact ⟨hplan ▸ hsettled.mentioned, hrows ▸ hsettled.others⟩

end Outcome

section Confluence
variable {s : System} {r : StoredRun} {frames : List (Datetime × MissionStateMessage)}

/-- The rows of an executing run after its live frames do not depend on their order: the newest
frame that mentions a stage has its row, and an outcome settles what they leave. -/
theorem stage_rows_confluent (h : s.Reachable) (hr : s.runs.find? r.runId = some r)
    (he : isExecuting r.status = true)
    (hframes : ∀ f ∈ frames, FrameOf r f.2 ∧ isOutcome f.2.execStatus = false)
    (hheaders : (frames.map (·.2.headerId)).Nodup) :
    ∃ q, (recordAll r.robotId s.world frames).store.runs.find? r.runId = some q ∧
      RowsOfFrames r q (frames.map (·.2)) ∧
      (∀ frames', (frames'.map (·.2)).Perm (frames.map (·.2)) →
        ∃ q', (recordAll r.robotId s.world frames').store.runs.find? r.runId = some q' ∧
          q'.stageRuns.rows.Perm q.stageRuns.rows) ∧
      ∀ now outcome, FrameOf r outcome → isOutcome outcome.execStatus = true →
        (∀ f ∈ frames, f.2.headerId < outcome.headerId) →
        ∃ e, (recordAll r.robotId s.world (frames ++ [(now, outcome)])).store.runs.find? r.runId =
          some e ∧ isTerminal e.status = true ∧ RowsOfOutcome q e outcome := by
  have hpast := h.stageRows (Table.mem_of_find? hr)
  have hlast : ∀ frames' : List (Datetime × MissionStateMessage), ∀ q : StoredRun,
      q.stageRuns = (frames'.map fun f => liveRecords f.2 r.plan).foldl
        (Table.advanceAll (·.headerId)) r.stageRuns →
      (∀ f ∈ frames', FrameOf r f.2 ∧ isOutcome f.2.execStatus = false) → ∀ stageId,
      q.stageRuns.find? stageId = Table.newest (·.headerId) (r.stageRuns.find? stageId)
        (saidOf r.plan (frames'.map (·.2)) stageId) := by
    intro frames' q hq hframes' stageId
    rw [hq, Table.find?_foldl_advanceAll]
    · rw [saidOf, List.map_map]
      rfl
    · intro rows hrows
      obtain ⟨f, hf, rfl⟩ := List.mem_map.mp hrows
      exact nodup_liveRecords (hframes' f hf).1.once
  obtain ⟨q, hq, hfrozen, hexec, hstages, hfold⟩ := recordAll_live hpast hr he hframes
  have hfind := hlast frames q hfold hframes
  have hheaders' : ((frames.map (·.2)).map (·.headerId)).Nodup := by
    rw [List.map_map]
    exact hheaders
  refine ⟨q, hq, rowsOfFrames ?_ hheaders' hfind, ?_, ?_⟩
  · intro frame hframe
    obtain ⟨f, hf, rfl⟩ := List.mem_map.mp hframe
    exact (hframes f hf).1.once
  · intro frames' hperm
    have hframes' : ∀ f ∈ frames', FrameOf r f.2 ∧ isOutcome f.2.execStatus = false := by
      intro f hf
      obtain ⟨g, hg, he⟩ := List.mem_map.mp (hperm.mem_iff.mp (List.mem_map_of_mem hf))
      exact he ▸ hframes g hg
    obtain ⟨q', hq', -, -, -, hfold'⟩ := recordAll_live hpast hr he hframes'
    refine ⟨q', hq', Table.perm_of_find? fun stageId => ?_⟩
    rw [hlast frames' q' hfold' hframes', hfind, newest_saidOf_perm hperm hheaders']
  · intro now outcome hframe ho _
    have hid : q.runId = r.runId := congrArg FrozenRun.runId hfrozen
    have hb : q.robotId = r.robotId := congrArg FrozenRun.robotId hfrozen
    have hframe' : FrameOf q outcome := hframe.congr hfrozen
    obtain ⟨hrefuse, hterm, hrows⟩ := report_rowsOfOutcome hstages hframe' ho
      (isTerminal_of_isExecuting hexec) now
    rw [← hid] at hq
    have hrun := record_runs hq hframe'.run hrefuse
    rw [hid, hb] at hrun
    refine ⟨_, ?_, hterm, hrows⟩
    rw [recordAll, List.foldl_append]
    exact hrun

end Confluence

section Demo

/-- A frame of the demo's run that says of the first stage how far it is. -/
def demoProgress (headerId : Nat) (progress : Rat) (execStatus : MissionExecStatus) :
    MissionStateMessage :=
  { runId := 7, headerId, timestamp := 0, execStatus
    stageStates := [{ stageId := 10, status := .running, progress }] }

/-- The demo's run after its robot took it and sent these frames. -/
theorem demo_executes (acts : List Action) (P : System → StoredRun → Bool)
    (h : (StepSystem.exec System.step demo (demoDispatch ++ [demoSettle .accepted] ++ acts)).any
      (fun s => (s.runs.find? 7).any fun r =>
        isExecuting r.status && decide (r.robotId = "r1") && P s r) = true) :
    ∃ s r, System.Reachable s ∧ s.runs.find? r.runId = some r ∧ r.runId = 7 ∧ r.robotId = "r1" ∧
      isExecuting r.status = true ∧ P s r = true := by
  obtain ⟨s, hs, hp⟩ := demo_reaches _ _ h
  obtain ⟨r, hr, hp⟩ := (Option.any_eq_true _ _).mp hp
  simp only [Bool.and_eq_true, decide_eq_true_eq] at hp
  have hid : r.runId = 7 := Table.key_of_find? hr
  exact ⟨s, r, hs, hid.symm ▸ hr, hid, hp.1.2, hp.1.1, hp.2⟩

theorem demoProgress_frameOf {r : StoredRun} (h : r.runId = 7) (headerId : Nat) (progress : Rat)
    {execStatus : MissionExecStatus} (hl : isOutcome execStatus = false) :
    FrameOf r (demoProgress headerId progress execStatus) ∧
      isOutcome (demoProgress headerId progress execStatus).execStatus = false :=
  ⟨⟨h.symm, by simp [demoProgress]⟩, hl⟩

theorem stage_rows_confluent_demo : ∃ (s : System) (r q : StoredRun),
    s.runs.find? r.runId = some r ∧
    (recordAll r.robotId s.world [(1, demoProgress 2 1 .running),
      (2, demoProgress 1 0 .paused)]).store.runs.find? r.runId = some q ∧
    RowsOfFrames r q [demoProgress 2 1 .running, demoProgress 1 0 .paused] := by
  obtain ⟨s, r, hs, hr, hid, -, he, -⟩ := demo_executes [] (fun _ _ => true) (by decide)
  let frames := [((1 : Datetime), demoProgress 2 1 .running), (2, demoProgress 1 0 .paused)]
  have hframes : ∀ f ∈ frames, FrameOf r f.2 ∧ isOutcome f.2.execStatus = false := by
    intro f hf
    obtain rfl | hf := List.mem_cons.mp hf
    · exact demoProgress_frameOf hid 2 1 rfl
    · obtain rfl := List.mem_singleton.mp hf
      exact demoProgress_frameOf hid 1 0 rfl
  obtain ⟨q, hq, hrows, -⟩ := stage_rows_confluent hs hr he hframes (by simp [frames, demoProgress])
  exact ⟨s, r, q, hr, hq, hrows⟩

/-- A frame older than the row of the stage it mentions does not reach it, alone as it may be. -/
theorem stage_rows_not_of_frames : ¬ ∀ (s : System) (r : StoredRun)
    (frames : List (Datetime × MissionStateMessage)), s.Reachable →
    s.runs.find? r.runId = some r → isExecuting r.status = true →
    (∀ f ∈ frames, FrameOf r f.2 ∧ isOutcome f.2.execStatus = false) →
    (frames.map (·.2.headerId)).Nodup → ∀ q,
    (recordAll r.robotId s.world frames).store.runs.find? r.runId = some q →
    ∀ f ∈ frames, ∀ row ∈ liveRecords f.2 r.plan,
      (∀ g ∈ frames, row.stageId ∈ g.2.stageStates.map (·.stageId) →
        g.2.headerId ≤ f.2.headerId) → q.stageRuns.find? row.stageId = some row := by
  intro hall
  obtain ⟨s, r, hs, hr, hid, hb, he, hp⟩ := demo_executes [.record "r1" (demoProgress 2 1 .running)]
    (fun s r => ((recordAll "r1" s.world [(1, demoProgress 1 0 .running)]).store.runs.find? 7).any
      fun q : StoredRun => (liveRecords (demoProgress 1 0 .running) r.plan).any fun row =>
        row.stageId = 10 && decide (q.stageRuns.find? 10 ≠ some row)) (by decide)
  obtain ⟨q, hq, hp⟩ := (Option.any_eq_true _ _).mp hp
  obtain ⟨row, hrow, hp⟩ := List.any_eq_true.mp hp
  simp only [Bool.and_eq_true, decide_eq_true_eq] at hp
  have hclaim := hall s r [(1, demoProgress 1 0 .running)] hs hr he
    (by simpa using demoProgress_frameOf hid 1 0 rfl) (by simp) q
    (by rw [hid, hb]; exact hq) _ (List.mem_singleton_self _) row hrow (by simp)
  rw [hp.1] at hclaim
  exact hp.2 hclaim

end Demo
end Leitstand
