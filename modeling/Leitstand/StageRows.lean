import Leitstand.RunHistory

namespace Leitstand

/-- The row has a place in the plan: a stage's position, or that of the stage it cleans up after. -/
def PlacedAt (stages : List Stage) (row : StageStateRecord) : Prop :=
  ∃ stage, stages[row.stageIndex]? = some stage ∧
    (row.parentStageId = none ∧ row.stageId = stage.stageId ∨
      row.parentStageId = some stage.stageId ∧
        ∃ child ∈ stage.children, child.stageId = row.stageId)

/-- One of the frames reports the stage. -/
def Reported (frames : List MissionStateMessage) (stageId : UUID) : Prop :=
  ∃ frame ∈ frames, ∃ stageState ∈ frame.stageStates, stageState.stageId = stageId

theorem Reported.append {frames : List MissionStateMessage} {stageId : UUID}
    (h : Reported frames stageId) (more : List MissionStateMessage) :
    Reported (frames ++ more) stageId := by
  obtain ⟨frame, hf, hs⟩ := h
  exact ⟨frame, List.mem_append_left more hf, hs⟩

def isFinal (status : StageStatus) : Prop :=
  status = .finished ∨ status = .failed ∨ status = .cancelled ∨ status = .skipped

theorem projectStatus_isFinal (status : StageStatus) (runStatus : RunStatus) :
    isFinal (projectStatus status runStatus) := by
  unfold isFinal projectStatus
  split_ifs with h hs hc
  · obtain rfl | rfl := h <;> simp
  · simp
  all_goals cases status <;> simp

section Records
open MissionStateService
variable {stages : List Stage}

theorem placed_of_lookupIndex {stageId : UUID} {found : Nat × Option UUID}
    (h : lookupIndex stages stageId = some found) : ∃ stage, stages[found.1]? = some stage ∧
      (found.2 = none ∧ stageId = stage.stageId ∨
        found.2 = some stage.stageId ∧ ∃ child ∈ stage.children, child.stageId = stageId) := by
  obtain ⟨entry, hentry, rfl⟩ := Option.map_eq_some_iff.mp h
  have hid : entry.1 = stageId := by simpa using List.find?_some hentry
  have hmem := List.mem_reverse.mp (List.mem_of_find?_eq_some hentry)
  obtain ⟨entries, hes, he⟩ := List.mem_flatten.mp hmem
  obtain ⟨index, hi, rfl⟩ := List.mem_mapIdx.mp hes
  refine ⟨stages[index], ?_⟩
  obtain rfl | he := List.mem_cons.mp he
  · exact ⟨List.getElem?_eq_getElem hi, .inl ⟨rfl, hid.symm⟩⟩
  · obtain ⟨child, hc, rfl⟩ := List.mem_map.mp he
    exact ⟨List.getElem?_eq_getElem hi, .inr ⟨rfl, child, hc, hid⟩⟩

/-- A frame's rows are placed by the plan, and the frame reports them. -/
theorem mem_liveRecords {state : MissionStateMessage} {row : StageStateRecord}
    (h : row ∈ liveRecords state stages) :
    PlacedAt stages row ∧ ∃ stageState ∈ state.stageStates, stageState.stageId = row.stageId := by
  obtain ⟨stageState, hs, hrow⟩ := List.mem_filterMap.mp h
  obtain ⟨found, hf, rfl⟩ := Option.map_eq_some_iff.mp hrow
  exact ⟨placed_of_lookupIndex hf, stageState, hs, rfl⟩

theorem mem_finalStageStatuses {liveById : StageRuns} {status : RunStatus} {now : Datetime}
    {row : StageStateRecord} (h : row ∈ finalStageStatuses stages liveById status now) :
    ∃ index stage, stages[index]? = some stage ∧
      (row = finalStageStatus index stage (liveById.find? stage.stageId) status now ∨
        row ∈ liveById.rows ∧ row.parentStageId = some stage.stageId) := by
  obtain ⟨rows, hrows, hrow⟩ := List.mem_flatten.mp h
  obtain ⟨index, hi, rfl⟩ := List.mem_mapIdx.mp hrows
  refine ⟨index, stages[index], List.getElem?_eq_getElem hi, ?_⟩
  obtain rfl | hrow := List.mem_cons.mp hrow
  · exact .inl rfl
  · obtain ⟨hmem, hp⟩ := List.mem_filter.mp hrow
    exact .inr ⟨hmem, of_decide_eq_true hp⟩

theorem finalStageStatus_mem {liveById : StageRuns} {status : RunStatus} {now : Datetime}
    {index : Nat} {stage : Stage} (h : stages[index]? = some stage) :
    finalStageStatus index stage (liveById.find? stage.stageId) status now ∈
      finalStageStatuses stages liveById status now := by
  obtain ⟨hi, rfl⟩ := List.getElem?_eq_some_iff.mp h
  exact List.mem_flatten.mpr ⟨_, List.mem_mapIdx.mpr ⟨index, hi, rfl⟩, List.mem_cons_self⟩

end Records

/-- The stage rows fit the plan and what was reported, and are all settled once the run has ended. -/
structure StageRows (frames : List MissionStateMessage) (r : StoredRun) : Prop where
  placed : ∀ row ∈ r.stageRuns.rows, PlacedAt r.plan row
  reported : ∀ row ∈ r.stageRuns.rows, isTerminal r.status = false ∨ row.parentStageId ≠ none →
    Reported frames row.stageId
  complete : isTerminal r.status = true → ∀ stage ∈ r.plan,
    ∃ row ∈ r.stageRuns.rows, row.stageId = stage.stageId
  final : isTerminal r.status = true → ∀ row ∈ r.stageRuns.rows, row.parentStageId = none →
    isFinal row.status

namespace StageRows
open MissionStateService StoredRun
variable {frames : List MissionStateMessage} {r r' : StoredRun} {now : Datetime} {u : StatusUpdate}

theorem fresh (digests : Digests) (runId : UUID) (p : Prepared) :
    StageRows [] (freshRun digests runId p) where
  placed := by rintro row ⟨⟩
  reported := by rintro row ⟨⟩
  complete := by rintro ⟨⟩
  final := by rintro ⟨⟩

theorem of_same (h : StageRows frames r) (hp : r'.plan = r.plan)
    (ht : isTerminal r'.status = isTerminal r.status) (hs : r'.stageRuns = r.stageRuns) :
    StageRows frames r' where
  placed := by rw [hs, hp]; exact h.placed
  reported := by rw [hs, ht]; exact h.reported
  complete := by rw [hs, hp, ht]; exact h.complete
  final := by rw [hs, ht]; exact h.final

theorem append (h : StageRows frames r) (more : List MissionStateMessage) :
    StageRows (frames ++ more) r where
  placed := h.placed
  reported := fun row hrow hp => (h.reported row hrow hp).append more
  complete := h.complete
  final := h.final

theorem withStatus (h : StageRows frames r) (ht : isTerminal r.status = false)
    (hu : isTerminal u.newStatus = false) : StageRows frames (r.withStatus now u) :=
  h.of_same rfl (hu.trans ht.symm) rfl

/-- Rows that reach a running run come from a frame. -/
theorem recordLive (h : StageRows frames r) {live : List StageStateRecord}
    (hlive : ∀ row ∈ live, PlacedAt r.plan row ∧ Reported frames row.stageId) :
    StageRows frames (r.recordLive live).row := by
  unfold StoredRun.recordLive
  split_ifs with hl
  · have ht : isTerminal r.status = false := isTerminal_of_isExecuting hl.2
    have hmem : ∀ row ∈ (r.withStageRows live true).stageRuns.rows,
        PlacedAt r.plan row ∧ Reported frames row.stageId := by
      intro row hrow
      obtain hrow | hrow := Table.mem_upsertAll hrow
      · exact ⟨h.placed row hrow, h.reported row hrow (.inl ht)⟩
      · exact hlive row hrow
    exact ⟨fun row hrow => (hmem row hrow).1, fun row hrow _ => (hmem row hrow).2,
      fun ht' => absurd (ht.symm.trans ht') (by simp),
      fun ht' => absurd (ht.symm.trans ht') (by simp)⟩
  · exact h

theorem mem_finalRows {status : RunStatus} {overlay : List StageStateRecord}
    {row : StageStateRecord} (h : row ∈ r.finalRows now status overlay) :
    (PlacedAt r.plan row ∧ row.parentStageId = none ∧ isFinal row.status) ∨
      ((row ∈ r.stageRuns.rows ∨ row ∈ overlay) ∧ row.parentStageId ≠ none) := by
  obtain ⟨index, stage, hi, rfl | ⟨hrow, hp⟩⟩ := mem_finalStageStatuses h
  · exact .inl ⟨⟨stage, hi, .inl ⟨rfl, rfl⟩⟩, rfl, projectStatus_isFinal _ _⟩
  · refine .inr ⟨?_, by simp [hp]⟩
    obtain hrow | hrow := Table.mem_upsertAll hrow
    · exact .inl ((List.mem_insertionSort _).mp (Table.mem_ofRows hrow))
    · exact .inr hrow

/-- Ending a run settles the stages it has rows of and those it has none of. -/
theorem ending (h : StageRows frames r) (ht : isTerminal r.status = false)
    (hu : isTerminal u.newStatus = true) {overlay : List StageStateRecord}
    (hover : ∀ row ∈ overlay, PlacedAt r.plan row ∧ Reported frames row.stageId)
    (reason : Option String) : StageRows frames (r.ending now u overlay reason).row := by
  have hrows : (r.ending now u overlay reason).row.stageRuns =
      r.stageRuns.upsertAll (r.finalRows now u.newStatus overlay) (advances false) := rfl
  have hlive : ∀ row, row ∈ r.stageRuns.rows ∨ row ∈ overlay →
      PlacedAt r.plan row ∧ Reported frames row.stageId := by
    rintro row (hrow | hrow)
    · exact ⟨h.placed row hrow, h.reported row hrow (.inl ht)⟩
    · exact hover row hrow
  have hfinal : ∀ {index : Nat} {stage : Stage}, r.plan[index]? = some stage →
      ∃ row ∈ r.finalRows now u.newStatus overlay,
        (r.stageRuns.upsertAll (r.finalRows now u.newStatus overlay) (advances false)).find?
          stage.stageId = some row := fun hi =>
    Table.find?_upsertAll_of_present ⟨_, finalStageStatus_mem hi, rfl⟩
  refine ⟨?_, ?_, ?_, ?_⟩
  · rw [hrows]
    intro row hrow
    obtain hrow | hrow := Table.mem_upsertAll hrow
    · exact h.placed row hrow
    · obtain hrow | ⟨hrow, -⟩ := mem_finalRows hrow
      · exact hrow.1
      · exact (hlive row hrow).1
  · rw [hrows]
    rintro row hrow (ht' | hp)
    · exact absurd (hu.symm.trans ht') (by simp)
    · obtain hrow | hrow := Table.mem_upsertAll hrow
      · exact (hlive row (.inl hrow)).2
      · obtain ⟨-, hn, -⟩ | ⟨hrow, -⟩ := mem_finalRows hrow
        · exact absurd hn hp
        · exact (hlive row hrow).2
  · rw [hrows]
    intro _ stage hstage
    obtain ⟨index, hi⟩ := List.mem_iff_getElem?.mp hstage
    obtain ⟨row, -, hf⟩ := hfinal hi
    exact ⟨row, Table.mem_of_find? hf, Table.key_of_find? hf⟩
  · rw [hrows]
    intro _ row hrow hp
    have hmem : row ∈ r.finalRows now u.newStatus overlay := by
      obtain hold | hnew := Table.mem_upsertAll hrow
      · obtain ⟨stage, hi, ⟨-, hid⟩ | ⟨hsome, -⟩⟩ := h.placed row hold
        · obtain ⟨row', hmem, hf⟩ := hfinal hi
          have heq := Table.find?_of_mem hrow
          rw [hid, hf] at heq
          exact Option.some.inj heq ▸ hmem
        · simp [hp] at hsome
      · exact hnew
    obtain ⟨-, -, hs⟩ | ⟨-, hn⟩ := mem_finalRows hmem
    · exact hs
    · exact absurd hp hn

theorem settle (h : StageRows frames r) (now : Datetime) (command : SettleRunCommand) :
    StageRows frames (r.settle now command).row := by
  unfold StoredRun.settle
  split
  · split_ifs with hp
    · exact h.withStatus (by simp [hp]) rfl
    · exact h.of_same rfl rfl rfl
  · split_ifs with hp
    · refine h.ending ?_ (r.isTerminal_rejectUpdate command) (by simp) _
      obtain hp | hp := hp <;> simp [hp]
    · exact h
  all_goals
    split_ifs with hp
    · exact h.withStatus (by simp [hp]) rfl
    · exact h.of_same rfl rfl rfl

theorem cancel (h : StageRows frames r) (now : Datetime) (mode : CancelMode) (offline : Bool)
    (reply : ControlReply) : StageRows frames (r.cancel now mode offline reply).row := by
  rw [cancel_row]
  split_ifs with ht hr
  · exact h
  all_goals
    have hq : StageRows frames (r.cancelRequested now mode offline reply) :=
      (h.withStatus (u := r.cancelUpdate mode) (by simpa using ht) rfl).of_same rfl rfl rfl
  · exact hq.ending rfl rfl (by simp) _
  · exact hq

theorem steer (h : StageRows frames r) (now : Datetime) {trigger : RunTrigger}
    (htrigger : trigger = .pauseRequest ∨ trigger = .resumeRequest) (command : Command) :
    StageRows frames (r.steer now trigger command).row := by
  unfold StoredRun.steer
  split
  · exact h
  · rename_i target ht
    exact h.withStatus (not_isTerminal_of_allowed ht) (not_isTerminal_of_request htrigger ht)

theorem report (h : StageRows frames r) (now : Datetime) (state : MissionStateMessage) :
    StageRows (frames ++ [state]) (r.report now state).row := by
  obtain ⟨hf, hs, hr⟩ := @touched_same r now state
  have hplan : (r.touched now state).plan = r.plan :=
    congrArg (fun f => f.stages.stages) hf
  have hq : StageRows (frames ++ [state]) (r.touched now state) :=
    (h.append [state]).of_same hplan (congrArg isTerminal hs) hr
  have hlive : ∀ row ∈ liveRecords state r.plan,
      PlacedAt r.plan row ∧ Reported (frames ++ [state]) row.stageId := by
    intro row hrow
    obtain ⟨hp, hrep⟩ := mem_liveRecords hrow
    exact ⟨hp, state, by simp, hrep⟩
  rw [← hplan] at hlive
  obtain ⟨-, h⟩ | ⟨u, hu, hu'⟩ := r.report_cases now state
  · rw [h, ← hplan]
    exact hq.recordLive hlive
  · have ht : isTerminal (r.touched now state).status = false :=
      (congrArg isTerminal hs).trans (reportUpdate_expected hu).2
    obtain ⟨hterm, h⟩ | ⟨hterm, h⟩ := hu' <;> rw [h, ← hplan]
    · exact hq.ending ht hterm hlive _
    · exact (hq.withStatus ht hterm).recordLive hlive

theorem respond (h : StageRows frames r) (input : RunInput) :
    StageRows (frames ++ input.frame?.toList) (r.respond input).row := by
  cases input with
  | reported now state => exact h.report now state
  | settled now command => exact (h.settle now command).append _
  | cancelled now mode offline reply => exact (h.cancel now mode offline reply).append _
  | closed now =>
    refine StageRows.append ?_ _
    dsimp only [StoredRun.respond, StoredRun.close]
    split_ifs with ht
    · exact h
    · exact h.ending (by simpa using ht) rfl (by simp) _
  | paused now => exact (h.steer now (.inl rfl) _).append _
  | resumed now => exact (h.steer now (.inr rfl) _).append _
  | unclaimed now judged =>
    refine StageRows.append ?_ _
    dsimp only [StoredRun.respond, StoredRun.unclaimed]
    split_ifs with hs
    · exact h.ending hs.2 r.isTerminal_unclaimedUpdate (by simp) _
    · exact h
  | annotated now notes =>
    refine StageRows.append ?_ _
    exact h.of_same rfl rfl rfl

end StageRows

theorem System.Reachable.stageRows {s : System} (h : s.Reachable) {r : StoredRun}
    (hr : r ∈ s.runs.rows) : StageRows (s.framesOf r) r :=
  h.run_history StageRows.fresh (fun _ _ input hrows => hrows.respond input) hr

end Leitstand
