import Leitstand.ClosedRuns
import Leitstand.FinalRows

namespace Leitstand
open RunService

namespace StoredRun

/-- The rows the state view is read from. -/
def readRows (r : StoredRun) : List StageStateRecord :=
  if r.stageRows = [] then waitingStageStatuses r.plan r.run.createdAt else r.stageRows

/-- The state view as it is read. -/
def restView (r : StoredRun) : RunStateView := r.view r.readRows r.errors

end StoredRun

theorem getRunState_eq {tx : Tx Store Event Command} {r : StoredRun}
    (hr : tx.store.runs.find? r.runId = some r) :
    (getRunState r.runId).exec tx = (.ok (some r.restView), tx) := by
  have hrows : (Runs.getStageRuns r.runId).exec tx = (.ok r.stageRows, tx) := by
    simp [Runs.getStageRuns, exec_find, hr]
  unfold getRunState
  simp only [TxM.exec_bind, exec_get, hr, Option.map_some, hrows]
  rfl

/-- The stored errors are the warning of an unanswered dispatch. -/
def DispatchWarned (errors : Option (List MissionError)) : Prop :=
  ∃ type description, errors = some [dispatchWarning type description]

/-- The run went on without its failing and still stores the warning of its dispatch. -/
def Warned (r : StoredRun) : Prop := r.status ≠ .failed ∧ DispatchWarned r.errors

/-- The last view published shows the rows there are to read, in their order, and the errors there
are to read unless they are a warning. -/
structure Latched (views : List RunStateView) (r : StoredRun) : Prop where
  live : isTerminal r.status = false → r.errors.getD [] = [] ∨ DispatchWarned r.errors
  published : ∃ rows errors, views.getLast? = some (r.view rows errors) ∧ rows.Perm r.readRows ∧
    rows.Pairwise (fun a b => a.stageIndex ≤ b.stageIndex) ∧
    (isTerminal r.status = false ∨ Warned r → errors.getD [] = []) ∧
    (isTerminal r.status = true → ¬ Warned r → errors.getD [] = r.errors.getD [])

theorem stageRows_sorted (r : StoredRun) :
    r.stageRows.Pairwise fun a b => a.stageIndex ≤ b.stageIndex := by
  have htrans : IsTrans StageStateRecord fun a b => a.stageIndex ≤ b.stageIndex :=
    ⟨fun _ _ _ => Nat.le_trans⟩
  have htotal : Std.Total fun a b : StageStateRecord => a.stageIndex ≤ b.stageIndex :=
    ⟨fun _ _ => Nat.le_total _ _⟩
  exact List.pairwise_insertionSort _ _

theorem waitingStageStatuses_sorted (stages : List Stage) (when_ : Datetime) :
    (waitingStageStatuses stages when_).Pairwise fun a b => a.stageIndex ≤ b.stageIndex := by
  rw [List.pairwise_iff_getElem]
  intro i j hi hj hij
  simp only [waitingStageStatuses, List.getElem_mapIdx]
  exact hij.le

theorem readRows_sorted (r : StoredRun) :
    r.readRows.Pairwise fun a b => a.stageIndex ≤ b.stageIndex := by
  unfold StoredRun.readRows
  split_ifs
  · exact waitingStageStatuses_sorted _ _
  · exact stageRows_sorted r

theorem readRows_congr {r q : StoredRun} (hf : q.frozen = r.frozen)
    (hs : q.stageRuns = r.stageRuns) : q.readRows = r.readRows := by
  have hp : q.plan = r.plan := congrArg (fun f => f.stages.stages) hf
  have hc : q.run.createdAt = r.run.createdAt := congrArg FrozenRun.createdAt hf
  have hrows : q.stageRows = r.stageRows := by rw [StoredRun.stageRows, hs, StoredRun.stageRows]
  unfold StoredRun.readRows
  rw [hp, hc, hrows]

theorem readRows_of_ne_nil {r : StoredRun} (h : r.stageRuns.rows ≠ []) :
    r.readRows = r.stageRows := by
  refine if_neg fun hnil => h ?_
  have hperm : r.stageRows.Perm r.stageRuns.rows := List.perm_insertionSort _ _
  rw [hnil] at hperm
  exact hperm.symm.eq_nil

theorem getD_orNone (errors : Option (List MissionError)) :
    (orNone errors).getD [] = errors.getD [] := by
  rcases errors with _ | _ | _ <;> rfl

theorem DispatchWarned.of_orNone {errors : Option (List MissionError)}
    (h : DispatchWarned (orNone errors)) : DispatchWarned errors := by
  rcases errors with _ | _ | _
  · exact h
  · obtain ⟨type, description, he⟩ := h
    cases he
  · exact h

theorem reportUpdate_errors {run : MissionRun} {state : MissionStateMessage} {u : StatusUpdate}
    (h : MissionStateService.reportUpdate run state = some u) :
    (u.newStatus = .failed → u.errors ≠ none) ∧
      (u.newStatus ≠ .failed → u.errors = run.failureErrors.map fun _ => []) := by
  obtain ⟨target, -, rfl⟩ := Option.map_eq_some_iff.mp h
  dsimp only [MissionStateService.reportErrors]
  exact ⟨fun ht => by simp [ht], fun ht => by simp [ht]⟩

namespace Latched
variable {views : List RunStateView} {r q : StoredRun} {frames : List MissionStateMessage}

theorem fresh (views : List RunStateView) (digests : Digests) (runId : UUID) (p : Prepared) :
    Latched (views ++ [(freshRun digests runId p).view
      (waitingStageStatuses p.mission.stages.stages p.now) none]) (freshRun digests runId p) where
  live := fun _ => .inl rfl
  published := by
    refine ⟨_, _, List.getLast?_concat, .refl _, waitingStageStatuses_sorted _ _, ?_, ?_⟩
    · exact fun _ => rfl
    · exact fun _ _ => rfl

theorem of_same (h : Latched views r) (hf : q.frozen = r.frozen) (hst : q.status = r.status)
    (hs : q.stageRuns = r.stageRuns) (he : q.errors = r.errors) : Latched views q := by
  obtain ⟨live, rows, errors, hlast, hperm, hsorted, hnone, hsome⟩ := h
  refine ⟨by rw [hst, he]; exact live, rows, errors, ?_, ?_, hsorted, ?_, ?_⟩
  · rw [hlast, StoredRun.view_congr hf]
  · rw [readRows_congr hf hs]
    exact hperm
  · rw [hst, Warned, hst, he]
    exact hnone
  · rw [hst, Warned, hst, he]
    exact hsome

/-- A live run that stays live publishes no errors. -/
theorem keep (h : Latched views r) (ht : isTerminal r.status = false) (hf : q.frozen = r.frozen)
    (hs : q.stageRuns = r.stageRuns) (hq : isTerminal q.status = false)
    (he : q.errors.getD [] = [] ∨ DispatchWarned q.errors) : Latched views q := by
  obtain ⟨-, rows, errors, hlast, hperm, hsorted, hnone, -⟩ := h
  refine ⟨fun _ => he, rows, errors, ?_, ?_, hsorted, ?_, ?_⟩
  · rw [hlast, StoredRun.view_congr hf]
  · rw [readRows_congr hf hs]
    exact hperm
  · exact fun _ => hnone (.inl ht)
  · intro hterm
    rw [hq] at hterm
    cases hterm

theorem recordLive (h : Latched views r) (ht : isTerminal r.status = false)
    (live : List StageStateRecord) :
    Latched (views ++ (r.recordLive live).events.filterMap Event.view) (r.recordLive live).row := by
  rw [StoredRun.views_recordLive]
  unfold StoredRun.recordLive
  split_ifs with hl
  · have hne : (r.withStageRows live true).stageRuns.rows ≠ [] := by
      obtain ⟨row, hrow⟩ := List.exists_mem_of_ne_nil live hl.1
      obtain ⟨row', hrow', -⟩ := Table.exists_mem_upsertAll_of_row (t := r.stageRuns) hrow
        (StoredRun.advances true)
      exact List.ne_nil_of_mem hrow'
    refine ⟨h.live, _, none, List.getLast?_concat, ?_, stageRows_sorted _, fun _ => rfl, ?_⟩
    · rw [readRows_of_ne_nil hne]
    · intro hterm
      exact absurd (ht.symm.trans hterm) (by simp)
  · rw [List.append_nil]
    exact h

/-- A run that ends shows its final rows, and the errors it ends with or a warning's absence. -/
theorem ending (h : Latched views r) (hrows : StageRows frames r) (ht : isTerminal r.status = false)
    {u : StatusUpdate} (hu : isTerminal u.newStatus = true)
    (hfailed : u.newStatus = .failed → u.errors ≠ none)
    (hwarned : u.newStatus ≠ .failed → ¬ DispatchWarned u.errors)
    {overlay : List StageStateRecord} (hover : ∀ row ∈ overlay, PlacedAt r.plan row)
    (now : Datetime) (reason : Option String) :
    Latched (views ++ [r.view (r.finalRows now u.newStatus overlay) u.errors])
      (r.ending now u overlay reason).row := by
  have hperm := StoredRun.stageRuns_ending hrows.placed hover now u reason
  have hne : (r.ending now u overlay reason).row.stageRuns.rows ≠ [] := by
    intro hnil
    rw [hnil] at hperm
    exact finalStageStatuses_ne_nil r.run.stages.nonempty _ _ _ hperm.symm.eq_nil
  have hread : (r.finalRows now u.newStatus overlay).Perm
      (r.ending now u overlay reason).row.readRows := by
    rw [readRows_of_ne_nil hne]
    exact hperm.symm.trans (List.perm_insertionSort _ _).symm
  have herrors : (r.ending now u overlay reason).row.errors =
      orNone (u.errors.or r.run.failureErrors) := rfl
  refine ⟨?_, _, u.errors, List.getLast?_concat, hread, ?_, ?_, ?_⟩
  · intro hlive
    exact absurd (hu.symm.trans hlive) (by simp)
  · exact (StoredRun.finalRows_pairwise hrows.placed hover now u.newStatus).imp fun hab => hab.2
  · rintro (hlive | ⟨hns, hdw⟩)
    · exact absurd (hu.symm.trans hlive) (by simp)
    · rw [herrors] at hdw
      cases he : u.errors with
      | none => rfl
      | some es =>
        rw [he] at hdw
        exact absurd (he ▸ hdw.of_orNone) (hwarned hns)
  · intro _ hnw
    rw [herrors, getD_orNone]
    cases he : u.errors with
    | some es => rfl
    | none =>
      have hns : u.newStatus ≠ .failed := fun hf => hfailed hf he
      have hw : ¬ DispatchWarned r.errors := by
        intro hdw
        refine hnw ⟨hns, ?_⟩
        rw [herrors, he]
        exact hdw
      obtain hnil | hdw := h.live ht
      · rw [StoredRun.errors, getD_orNone] at hnil
        exact hnil.symm
      · exact absurd hdw hw

theorem settle (h : Latched views r) (hrows : StageRows frames r) (ht : isTerminal r.status = false)
    (now : Datetime) (command : SettleRunCommand) :
    Latched (views ++ (r.settle now command).events.filterMap Event.view)
      (r.settle now command).row := by
  have hlate : Latched (views ++ (r.lateReply command).events.filterMap Event.view)
      (r.lateReply command).row := by
    rw [show (r.lateReply command).events = [] from rfl, List.filterMap_nil, List.append_nil]
    exact h.of_same rfl rfl rfl rfl
  unfold StoredRun.settle
  split
  · split_ifs with hp
    · rw [show List.filterMap Event.view _ = [] from rfl, List.append_nil]
      exact h.keep ht rfl rfl rfl (h.live ht)
    · exact hlate
  · split_ifs with hp
    · have hns : (r.rejectUpdate command).newStatus ≠ .failed := by
        dsimp only [StoredRun.rejectUpdate]
        split_ifs <;> simp
      refine h.ending hrows ht (r.isTerminal_rejectUpdate command) (fun hf => absurd hf hns)
        (fun _ => ?_) (by simp) now _
      rintro ⟨type, description, he⟩
      cases he
    · rw [List.filterMap_nil, List.append_nil]
      exact h
  all_goals
    split_ifs with hp
    · rw [List.filterMap_nil, List.append_nil]
      exact h.keep ht rfl rfl rfl (.inr ⟨_, _, rfl⟩)
    · exact hlate

theorem cancel (h : Latched views r) (hrows : StageRows frames r) (ht : isTerminal r.status = false)
    (now : Datetime) (mode : CancelMode) (offline : Bool) (reply : ControlReply) :
    Latched (views ++ (r.cancel now mode offline reply).events.filterMap Event.view)
      (r.cancel now mode offline reply).row := by
  have hq : Latched views (r.cancelRequested now mode offline reply) :=
    h.keep ht rfl rfl rfl (h.live ht)
  have hqrows : StageRows frames (r.cancelRequested now mode offline reply) :=
    hrows.of_same rfl ht.symm rfl
  have hnt : ¬ isTerminal r.status = true := by simp [ht]
  rw [StoredRun.views_cancel, StoredRun.cancel_row, if_neg hnt, if_neg hnt]
  split_ifs
  · refine hq.ending hqrows rfl rfl (by simp [StoredRun.refusedUpdate]) (fun _ => ?_)
      (by simp) now _
    rintro ⟨type, description, he⟩
    cases he
  · rw [List.append_nil]
    exact hq

theorem steer (h : Latched views r) (hrows : StageRows frames r) (now : Datetime)
    {trigger : RunTrigger} (htrigger : trigger = .pauseRequest ∨ trigger = .resumeRequest)
    (command : Command) :
    Latched (views ++ (r.steer now trigger command).events.filterMap Event.view)
      (r.steer now trigger command).row := by
  have hsteered := hrows.steer now htrigger command
  unfold StoredRun.steer at hsteered ⊢
  split
  · rw [List.filterMap_nil, List.append_nil]
    exact h
  · rename_i target htarget
    have ht := not_isTerminal_of_allowed htarget
    have hq : isTerminal target = false := not_isTerminal_of_request htrigger htarget
    rw [show List.filterMap Event.view _ = [] from rfl, List.append_nil]
    exact h.keep ht rfl rfl hq (h.live ht)

theorem report (h : Latched views r) (hrows : StageRows frames r) (ht : isTerminal r.status = false)
    (now : Datetime) (state : MissionStateMessage) :
    Latched (views ++ (r.report now state).events.filterMap Event.view)
      (r.report now state).row := by
  obtain ⟨hf, hs, hr⟩ := @touched_same r now state
  have he := r.errors_touched now state
  have hplan : (r.touched now state).plan = r.plan := congrArg (fun f => f.stages.stages) hf
  have hq := h.of_same hf hs hr he
  have hqrows : StageRows frames (r.touched now state) :=
    hrows.of_same hplan (congrArg isTerminal hs) hr
  have hqt : isTerminal (r.touched now state).status = false := (congrArg isTerminal hs).trans ht
  have hover : ∀ row ∈ MissionStateService.liveRecords state r.plan,
      PlacedAt (r.touched now state).plan row := by
    rw [hplan]
    exact fun row hrow => (mem_liveRecords hrow).1
  rw [StoredRun.views_report]
  unfold StoredRun.report
  dsimp only
  cases hu : MissionStateService.reportUpdate r.toRun state with
  | none => exact hq.recordLive hqt _
  | some u =>
    obtain ⟨hfailed, hother⟩ := reportUpdate_errors hu
    dsimp only
    split_ifs with hterm
    · refine hq.ending hqrows hqt hterm hfailed (fun hns => ?_) hover now none
      rw [hother hns]
      rintro ⟨type, description, hdw⟩
      obtain ⟨es, -, hes⟩ := Option.map_eq_some_iff.mp hdw
      cases hes
    · have hns : u.newStatus ≠ .failed := fun hf => hterm (by rw [hf]; rfl)
      have hmoved : Latched views ((r.touched now state).withStatus now u) := by
        refine hq.keep hqt rfl rfl (by simpa using hterm) (.inl ?_)
        change (orNone (u.errors.or (r.touched now state).run.failureErrors)).getD [] = []
        rw [getD_orNone, hother hns]
        have herrors : r.toRun.failureErrors = orNone (r.touched now state).run.failureErrors :=
          he.symm
        rw [herrors]
        rcases (r.touched now state).run.failureErrors with _ | _ | _ <;> rfl
      exact hmoved.recordLive (by simpa using hterm) _

theorem respond (h : Latched views r) (hrows : StageRows frames r) (input : RunInput) :
    Latched (views ++ r.publishes input) (r.respond input).row := by
  cases ht : isTerminal r.status with
  | true =>
    have hu := StoredRun.respond_terminal ht input
    rw [StoredRun.publishes, hu.events, List.filterMap_nil, List.append_nil]
    exact h.of_same (r.frozen_respond input) hu.status hu.stageRuns hu.errors
  | false =>
    cases input with
    | settled now command => exact h.settle hrows ht now command
    | cancelled now mode offline reply => exact h.cancel hrows ht now mode offline reply
    | paused now => exact h.steer hrows now (.inl rfl) _
    | resumed now => exact h.steer hrows now (.inr rfl) _
    | reported now state => exact h.report hrows ht now state
    | closed now =>
      dsimp only [StoredRun.publishes, StoredRun.respond, StoredRun.close]
      rw [if_neg (by simp [ht])]
      refine h.ending hrows ht rfl (by simp [StoredRun.closeUpdate]) (fun _ => ?_) (by simp) now _
      rintro ⟨type, description, he⟩
      cases he
    | unclaimed now judged =>
      dsimp only [StoredRun.publishes, StoredRun.respond, StoredRun.unclaimed]
      split_ifs with hs
      · refine h.ending hrows ht r.isTerminal_unclaimedUpdate
          (fun _ => by simp [StoredRun.unclaimedUpdate]) (fun _ => ?_) (by simp) now _
        rintro ⟨type, description, he⟩
        cases he
      · rw [List.filterMap_nil, List.append_nil]
        exact h
    | annotated now notes =>
      rw [show r.publishes (.annotated now notes) = [] from rfl, List.append_nil]
      exact h.of_same rfl rfl rfl rfl

end Latched

theorem System.Reachable.latched {s : System} (h : s.Reachable) {r : StoredRun}
    (hr : r ∈ s.runs.rows) : Latched (s.viewsOf r.runId) r := by
  refine (h.run_trace (P := fun frames views r => StageRows frames r ∧ Latched views r) ?_ ?_ hr).2
  · exact fun views digests runId p => ⟨.fresh digests runId p, .fresh views digests runId p⟩
  · exact fun frames views r input ⟨hrows, hl⟩ => ⟨hrows.respond input, hl.respond hrows input⟩

end Leitstand
