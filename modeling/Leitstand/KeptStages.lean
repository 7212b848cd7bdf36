import Leitstand.FrameConfluence
import Leitstand.LatchedView

namespace Leitstand
open MissionStateService

namespace StoredRun
variable {r : StoredRun} {frame : MissionStateMessage} {now : Datetime}

/-- The frame is recorded, and the run is executing after it or ends with it. -/
def Takes (r : StoredRun) (now : Datetime) (frame : MissionStateMessage) : Prop :=
  r.refusesReport now frame = false ∧ (isExecuting (r.report now frame).row.status = true ∨
    isTerminal r.status = false ∧ isTerminal (r.report now frame).row.status = true)

theorem stageRuns_recordLive (live : List StageStateRecord) :
    (r.recordLive live).row.stageRuns = r.stageRuns ∨
      (r.recordLive live).row.stageRuns = r.stageRuns.upsertAll live (advances true) := by
  unfold recordLive
  split_ifs
  · exact .inr rfl
  · exact .inl rfl

/-- An input writes rows of the run or leaves them alone. -/
theorem stageRuns_respond (r : StoredRun) (input : RunInput) :
    (r.respond input).row.stageRuns = r.stageRuns ∨ ∃ rows advance,
      (r.respond input).row.stageRuns = r.stageRuns.upsertAll rows advance := by
  cases input with
  | settled now command =>
    dsimp only [respond, settle]
    split <;> split_ifs <;> first | exact .inl rfl | exact .inr ⟨_, _, rfl⟩
  | cancelled now mode offline reply =>
    dsimp only [respond]
    rw [cancel_row]
    split_ifs <;> first | exact .inl rfl | exact .inr ⟨_, _, rfl⟩
  | closed now =>
    dsimp only [respond, close]
    split_ifs
    · exact .inl rfl
    · exact .inr ⟨_, _, rfl⟩
  | paused now | resumed now =>
    dsimp only [respond, steer]
    split <;> exact .inl rfl
  | reported now state =>
    have hrows := (@touched_same r now state).2.2
    dsimp only [respond]
    obtain ⟨-, h⟩ | ⟨u, -, ⟨-, h⟩ | ⟨-, h⟩⟩ := r.report_cases now state <;> rw [h]
    · obtain hsame | hwrote := stageRuns_recordLive (r := r.touched now state) (liveRecords state r.plan)
      · exact .inl (hsame.trans hrows)
      · exact .inr ⟨_, _, hwrote.trans (congrArg (Table.upsertAll · _ _) hrows)⟩
    · exact .inr ⟨_, _, congrArg (Table.upsertAll · _ _) hrows⟩
    · obtain hsame | hwrote := stageRuns_recordLive
        (r := (r.touched now state).withStatus now u) (liveRecords state r.plan)
      · exact .inl (hsame.trans hrows)
      · exact .inr ⟨_, _, hwrote.trans (congrArg (Table.upsertAll · _ _) hrows)⟩
  | unclaimed now judged =>
    dsimp only [respond, unclaimed]
    split_ifs
    · exact .inr ⟨_, _, rfl⟩
    · exact .inl rfl
  | annotated now notes => exact .inl rfl

/-- No input drops a row. -/
theorem respond_keeps_row {row : StageStateRecord} (h : row ∈ r.stageRuns.rows) (input : RunInput) :
    ∃ row' ∈ (r.respond input).row.stageRuns.rows, row'.stageId = row.stageId := by
  obtain hsame | ⟨rows, advance, hwrote⟩ := r.stageRuns_respond input
  · exact ⟨row, hsame.symm ▸ h, rfl⟩
  · rw [hwrote]
    exact Table.exists_mem_upsertAll h rows advance

/-- The rows of a frame that is taken are in the store after it, or newer ones. -/
theorem report_has_row {past : List MissionStateMessage} (h : StageRows past r)
    (htakes : r.Takes now frame) {row : StageStateRecord} (hrow : row ∈ liveRecords frame r.plan) :
    ∃ row' ∈ (r.report now frame).row.stageRuns.rows, row'.stageId = row.stageId := by
  obtain ⟨hf, hs, hrows⟩ := @touched_same r now frame
  obtain ⟨-, hstatus⟩ := htakes
  rw [status_report] at hstatus
  obtain ⟨hu, h'⟩ | ⟨u, hu, ⟨hterm, h'⟩ | ⟨hterm, h'⟩⟩ := r.report_cases now frame <;>
    rw [hu] at hstatus <;> rw [h']
  · have he : isExecuting (r.touched now frame).status = true := by
      obtain he | ⟨hlive, hended⟩ := hstatus
      · exact hs ▸ he
      · exact absurd (hlive.symm.trans hended) (by simp)
    rw [recordLive_executing he]
    exact Table.exists_mem_upsertAll_of_row hrow _
  · have hplan : (r.touched now frame).plan = r.plan := congrArg (fun f => f.stages.stages) hf
    have hq : StageRows past (r.touched now frame) :=
      h.of_same hplan (congrArg isTerminal hs) hrows
    have hover : ∀ row ∈ liveRecords frame r.plan,
        PlacedAt (r.touched now frame).plan row := fun _ hrow => hplan ▸ (mem_liveRecords hrow).1
    have hpresent : ∃ row' ∈ ((r.touched now frame).liveById (liveRecords frame r.plan)).rows,
        row'.stageId = row.stageId := Table.exists_mem_upsertAll_of_row hrow _
    obtain ⟨row', hrow', hid⟩ := hpresent
    obtain ⟨final, hfinal, -⟩ := ending_keeps hq.placed hover now u none hrow'
    exact ⟨final, Table.mem_of_find? hfinal, (Table.key_of_find? hfinal).trans hid⟩
  · have he : isExecuting ((r.touched now frame).withStatus now u).status = true := by
      obtain he | ⟨-, hended⟩ := hstatus
      · exact he
      · cases hterm.symm.trans hended
    dsimp only
    rw [recordLive_executing he]
    exact Table.exists_mem_upsertAll_of_row hrow _

end StoredRun

namespace System
open StepSystem

/-- While these actions were taken the run, as it stood then, took a frame that says something of
this stage of its plan. -/
def TookStage (s₀ : System) (acts : List Action) (r : StoredRun) (stageId : UUID) : Prop :=
  ∃ before after m frame, acts = before ++ .record r.robotId frame :: after ∧
    exec step s₀ before = some m ∧ m.runs.find? r.runId = some r ∧ frame.runId = r.runId ∧
    r.Takes m.clock frame ∧ stageId ∈ frame.stageStates.map (·.stageId) ∧
    stageId ∈ stageIds r.plan

/-- The run has a row of the stage, and once it has ended the last view published of it shows the
stage. -/
structure Shows (s : System) (r : StoredRun) (stageId : UUID) : Prop where
  row : ∃ row ∈ r.stageRuns.rows, row.stageId = stageId
  view : isTerminal r.status = true → ∃ view, (s.viewsOf r.runId).getLast? = some view ∧
    stageId ∈ view.stageStates.map (·.stageId)

/-- Every planned stage that a frame said something of has its row from then on. -/
def NoStageLost (s₀ : System) (acts : List Action) : Prop :=
  ∀ past rest t, acts = past ++ rest → exec step s₀ past = some t →
    ∀ r stageId, TookStage s₀ past r stageId → ∀ q, t.runs.find? r.runId = some q →
      t.Shows q stageId

variable {s₀ s s' t : System} {acts past rest : List Action} {a : Action} {r : StoredRun}
  {stageId : UUID}

theorem TookStage.append (h : TookStage s₀ past r stageId) (rest : List Action) :
    TookStage s₀ (past ++ rest) r stageId := by
  obtain ⟨before, after, m, frame, rfl, hm, hrest⟩ := h
  exact ⟨before, after ++ rest, m, frame, by simp, hm, hrest⟩

/-- The last action took the stage, or one before it. -/
theorem tookStage_snoc (h : TookStage s₀ (past ++ [a]) r stageId) : TookStage s₀ past r stageId ∨
    ∃ m frame, a = .record r.robotId frame ∧ exec step s₀ past = some m ∧
      m.runs.find? r.runId = some r ∧ frame.runId = r.runId ∧ r.Takes m.clock frame ∧
      stageId ∈ frame.stageStates.map (·.stageId) ∧ stageId ∈ stageIds r.plan := by
  obtain ⟨before, after, m, frame, he, hm, hrest⟩ := h
  cases after using List.reverseRecOn with
  | nil =>
    obtain ⟨rfl, ha⟩ := List.append_inj' he rfl
    obtain rfl := List.singleton_inj.mp ha
    exact .inr ⟨m, frame, rfl, hm, hrest⟩
  | append_singleton after b =>
    have he' : past ++ [a] = (before ++ .record r.robotId frame :: after) ++ [b] := by
      rw [he, List.append_assoc]
      rfl
    obtain ⟨rfl, -⟩ := List.append_inj' he' rfl
    exact .inl ⟨before, after, m, frame, rfl, hm, hrest⟩

theorem record_took (hr : s.runs.find? r.runId = some r) {frame : MissionStateMessage}
    (hid : frame.runId = r.runId) (htakes : r.Takes s.clock frame) :
    (s.recordFrame r.robotId frame).runs.find? r.runId = some (r.report s.clock frame).row := by
  have hrun := recordFrame_run (hid.symm ▸ hr)
  rw [if_neg (by simp [htakes.1]), hid] at hrun
  exact hrun

/-- A row once there is there as long as its run is. -/
theorem RunStep.row_stays (h : RunStep s a s' r) {row : StageStateRecord}
    (hrow : row ∈ r.stageRuns.rows) {q : StoredRun} (hq : s'.runs.find? r.runId = some q) :
    ∃ row' ∈ q.stageRuns.rows, row'.stageId = row.stageId := by
  cases h with
  | same found =>
    obtain rfl := Option.some.inj (found.symm.trans hq)
    exact ⟨row, hrow, rfl⟩
  | took input cause found =>
    obtain rfl := Option.some.inj (found.symm.trans hq)
    exact StoredRun.respond_keeps_row hrow input
  | gone cause ended found =>
    rw [found] at hq
    cases hq

/-- In the end every run shows the rows it has. -/
theorem Reachable.shows (h : s.Reachable) (hr : s.runs.find? r.runId = some r)
    (hrow : ∃ row ∈ r.stageRuns.rows, row.stageId = stageId) : s.Shows r stageId where
  row := hrow
  view := by
    intro _
    obtain ⟨row, hrow, rfl⟩ := hrow
    obtain ⟨rows, errors, hlast, hperm, -⟩ := (h.latched (Table.mem_of_find? hr)).published
    have hsorted : row ∈ r.stageRows := (List.mem_insertionSort _).mpr hrow
    have hread : r.readRows = r.stageRows := if_neg (List.ne_nil_of_mem hsorted)
    refine ⟨_, hlast, ?_⟩
    have hmem : row ∈ rows := hperm.mem_iff.mpr (hread ▸ hsorted)
    exact List.mem_map.mpr ⟨_, List.mem_map.mpr ⟨row, hmem, rfl⟩, rfl⟩

/-- Where only indexed stages are taken, each has its row from then on. -/
theorem took_row (h₀ : s₀.Initial) (hx : exec step s₀ past = some t)
    (hindexed : ∀ r stageId, TookStage s₀ past r stageId → Indexed r.plan stageId)
    (htook : TookStage s₀ past r stageId) {q : StoredRun} (hq : t.runs.find? r.runId = some q) :
    ∃ row ∈ q.stageRuns.rows, row.stageId = stageId := by
  have hall := exec_history (I := fun past t =>
    (∀ r stageId, TookStage s₀ past r stageId → Indexed r.plan stageId) →
      ∀ r stageId, TookStage s₀ past r stageId → r.runId ∈ t.issued ∧
        ∀ q, t.runs.find? r.runId = some q → ∃ row ∈ q.stageRuns.rows, row.stageId = stageId)
    ?_ ?_ hx hindexed r stageId htook
  · exact hall.2 q hq
  · rintro - r stageId ⟨before, after, m, frame, he, -⟩
    simp at he
  · intro past s a s' hpast hI hs hindexed r stageId htook
    have hreach : s.Reachable := ⟨s₀, past, h₀, hpast⟩
    obtain hold | ⟨m, frame, rfl, hm, hr, hid, htakes, hmention, hplanned⟩ := tookStage_snoc htook
    · obtain ⟨hissued, hrows⟩ :=
        hI (fun r k h => hindexed r k (h.append [a])) r stageId hold
      refine ⟨issued_mono hs hissued, fun q hq => ?_⟩
      obtain ⟨p, hp, -⟩ := (hreach.runsStep hs).find?_old hissued hq
      obtain ⟨row, hrow, rfl⟩ := hrows p hp
      have hkey : p.runId = r.runId := Table.key_of_find? hp
      rw [← hkey] at hp hq
      exact (hreach.runStep hs hp).row_stays hrow hq
    · obtain rfl := Option.some.inj (hm.symm.trans hpast)
      obtain rfl := Option.some.inj hs
      have hmem := Table.mem_of_find? hr
      refine ⟨issued_mono (a := .record r.robotId frame) rfl (hreach.snapshots.issued r hmem), ?_⟩
      intro q hq
      obtain rfl := Option.some.inj ((record_took hr hid htakes).symm.trans hq)
      obtain ⟨row, hrow, rfl⟩ := exists_liveRecord.mpr ⟨hmention, hindexed r stageId htook⟩
      exact StoredRun.report_has_row (hreach.stageRows hmem) htakes hrow

end System

theorem PlacedAt.indexed {stages : List Stage} {row : StageStateRecord}
    (h : PlacedAt stages row) : Indexed stages row.stageId := by
  obtain ⟨stage, hi, ⟨-, hid⟩ | ⟨-, hchild⟩⟩ := h
  · exact ⟨stage, List.mem_of_getElem? hi, .inl hid.symm⟩
  · exact ⟨stage, List.mem_of_getElem? hi, .inr hchild⟩

open Leitstand.System StepSystem

/-- No stage a robot reports is lost in just the runs of the backend in which the planned stages it
reports stand in their plan at the top or right under a stage there. -/
theorem no_stage_lost_iff {s₀ : System} (h₀ : s₀.Initial) (acts : List Action) :
    NoStageLost s₀ acts ↔
      ∀ r stageId, TookStage s₀ acts r stageId → Indexed r.plan stageId := by
  constructor
  · rintro h r stageId ⟨before, after, m, frame, rfl, hm, hr, hid, htakes, hrest⟩
    have hx : exec System.step s₀ (before ++ [.record r.robotId frame]) =
        some (m.recordFrame r.robotId frame) := exec_snoc_iff.mpr ⟨m, hm, rfl⟩
    have hq := record_took hr hid htakes
    have htook : TookStage s₀ (before ++ [.record r.robotId frame]) r stageId :=
      ⟨before, [], m, frame, rfl, hm, hr, hid, htakes, hrest⟩
    obtain ⟨row, hrow, rfl⟩ := (h _ after _ (by simp) hx r stageId htook _ hq).row
    have hreach : (m.recordFrame r.robotId frame).Reachable := ⟨s₀, _, h₀, hx⟩
    have hplaced := (hreach.stageRows (Table.mem_of_find? hq)).placed row hrow
    have hfrozen := r.frozen_respond (.reported m.clock frame)
    have hplan : (r.report m.clock frame).row.plan = r.plan :=
      congrArg (fun f => f.stages.stages) hfrozen
    exact hplan ▸ hplaced.indexed
  · rintro hindexed past rest t rfl hx r stageId htook q hq
    have hreach : t.Reachable := ⟨s₀, past, h₀, hx⟩
    have hkey : q.runId = r.runId := Table.key_of_find? hq
    refine hreach.shows (hkey.symm ▸ hq) ?_
    exact took_row h₀ hx (fun r k h => hindexed r k (h.append rest)) htook hq

section Demo

def demoNestedPlan : Plan :=
  { stages := [.mk 10 (some [.mk 11 (some [.mk 13 none (.navigation [])]) (.navigation [])])
      (.navigation [.wgs84 52 8 none])]
    nonempty := by simp
    nodup := by decide }

/-- A mission whose one stage has a cleanup stage that has one of its own. -/
def demoNested : System :=
  .boot ⟨[{ demoMission with stages := demoNestedPlan }], by simp⟩ demo.factsheets
    ⟨fun _ => "", fun _ => ""⟩

def demoNestedFrame : MissionStateMessage :=
  { runId := 7, headerId := 1, timestamp := 0, execStatus := .running
    stageStates := [{ stageId := 13, status := .running }] }

def demoNestedActions : List Action :=
  demoDispatch ++ [demoSettle .accepted, .record "r1" demoNestedFrame]

theorem no_stage_lost_iff_nested : NoStageLost demoNested demoNestedActions ↔
    ∀ r stageId, TookStage demoNested demoNestedActions r stageId → Indexed r.plan stageId :=
  no_stage_lost_iff (System.boot_initial _ _ _) demoNestedActions

/-- The robot says it runs the cleanup of the cleanup, and no row of it is stored. -/
theorem nested_cleanup_lost : ¬ ∀ (s₀ : System) (acts : List Action), s₀.Initial →
    (exec System.step s₀ acts).isSome = true → NoStageLost s₀ acts := by
  intro hall
  have hdemo : (exec System.step demoNested (demoDispatch ++ [demoSettle .accepted])).any (fun m =>
      (m.runs.find? 7).any fun r => decide (r.robotId = "r1") && decide (13 ∈ stageIds r.plan) &&
        !r.refusesReport m.clock demoNestedFrame &&
        isExecuting (r.report m.clock demoNestedFrame).row.status &&
        (r.report m.clock demoNestedFrame).row.stageRuns.rows.isEmpty) = true := by decide
  obtain ⟨m, hm, hp⟩ := (Option.any_eq_true _ _).mp hdemo
  obtain ⟨r, hr, hp⟩ := (Option.any_eq_true _ _).mp hp
  simp only [Bool.and_eq_true, decide_eq_true_eq, Bool.not_eq_true', List.isEmpty_iff] at hp
  obtain ⟨⟨⟨⟨hb, hplanned⟩, hrefuse⟩, he⟩, hnone⟩ := hp
  have hid : r.runId = 7 := Table.key_of_find? hr
  rw [← hid] at hr
  have hx : exec System.step demoNested demoNestedActions =
      some (m.recordFrame r.robotId demoNestedFrame) := by
    rw [hb]
    exact exec_snoc_iff.mpr ⟨m, hm, rfl⟩
  have htakes : r.Takes m.clock demoNestedFrame := ⟨hrefuse, .inl he⟩
  have htook : TookStage demoNested demoNestedActions r 13 := by
    refine ⟨_, [], m, demoNestedFrame, ?_, hm, hr, hid.symm, htakes, by decide, hplanned⟩
    rw [hb]
    rfl
  have hclaim := hall demoNested demoNestedActions (System.boot_initial _ _ _) (by rw [hx]; rfl)
  obtain ⟨row, hrow, -⟩ := (hclaim demoNestedActions [] _ (by simp) hx r 13 htook _
    (record_took hr hid.symm htakes)).row
  rw [hnone] at hrow
  cases hrow

end Demo
end Leitstand
