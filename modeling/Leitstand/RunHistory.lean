import Leitstand.Snapshots

namespace Leitstand

theorem reportUpdate_live {run : MissionRun} {state : MissionStateMessage} {u : StatusUpdate}
    (hl : isOutcome state.execStatus = false)
    (h : MissionStateService.reportUpdate run state = some u) : isTerminal u.newStatus = false := by
  obtain ⟨-, target, htarget, rfl⟩ := MissionStateService.reportUpdate_eq_some.mp h
  exact not_isTerminal_of_report hl htarget

namespace StoredRun
variable (r : StoredRun) (now : Datetime)

/-- The state view of the run over these rows. -/
def view (rows : List StageStateRecord) (errors : Option (List MissionError)) : RunStateView :=
  buildRunStateView r.runId r.missionId rows errors

@[simp] theorem view_lifecycleEvent (status : RunStatus) (trigger : RunTrigger)
    (reason : Option String) : (r.lifecycleEvent status trigger reason).view = none := (rfl)

/-- The views an input publishes. -/
def publishes (input : RunInput) : List RunStateView := (r.respond input).events.filterMap Event.view

theorem views_recordLive (live : List StageStateRecord) :
    (r.recordLive live).events.filterMap Event.view =
      if live ≠ [] ∧ isExecuting r.status then
        [r.view (r.withStageRows live true).stageRows none] else [] := by
  unfold recordLive
  split_ifs <;> rfl

theorem views_cancel (mode : CancelMode) (offline : Bool) (reply : ControlReply) :
    (r.cancel now mode offline reply).events.filterMap Event.view =
      if isTerminal r.status then []
      else if r.cancelRefused offline reply then
        ((r.cancelRequested now mode offline reply).ending now (refusedUpdate reply.reason) []
          reply.reason).events.filterMap Event.view
      else [] := by
  have hannounced : (if r.status = .cancelling then []
      else [r.lifecycleEvent .cancelling .cancelRequest]).filterMap Event.view = [] := by
    split_ifs <;> rfl
  unfold cancel
  by_cases ht : isTerminal r.status = true
  · rw [if_pos ht, if_pos ht]
    rfl
  · rw [if_neg ht, if_neg ht]
    dsimp only
    by_cases hr : r.cancelRefused offline reply = true
    · rw [if_pos hr, if_pos hr, List.filterMap_append, hannounced, List.nil_append]
    · rw [if_neg hr, if_neg hr, hannounced]

theorem views_report (state : MissionStateMessage) :
    (r.report now state).events.filterMap Event.view =
      match MissionStateService.reportUpdate r.toRun state with
      | none => ((r.touched now state).recordLive
          (MissionStateService.liveRecords state r.plan)).events.filterMap Event.view
      | some u =>
        if isTerminal u.newStatus then
          [(r.touched now state).view ((r.touched now state).finalRows now u.newStatus
            (MissionStateService.liveRecords state r.plan)) u.errors]
        else (((r.touched now state).withStatus now u).recordLive
          (MissionStateService.liveRecords state r.plan)).events.filterMap Event.view := by
  unfold report
  dsimp only
  cases MissionStateService.reportUpdate r.toRun state with
  | none => rfl
  | some u =>
    dsimp only
    split_ifs
    · rfl
    · simp

/-- A frame moves the run where its update says, or not at all. -/
theorem status_report (state : MissionStateMessage) : (r.report now state).row.status =
    (MissionStateService.reportUpdate r.toRun state).elim r.status (·.newStatus) := by
  have hs := (@touched_same r now state).2.1
  unfold report
  dsimp only
  cases MissionStateService.reportUpdate r.toRun state with
  | none => exact (status_recordLive _ _).trans hs
  | some u =>
    dsimp only
    split_ifs
    · rfl
    · exact status_recordLive _ _

theorem view_congr {r q : StoredRun} (h : q.frozen = r.frozen) (rows : List StageStateRecord)
    (errors : Option (List MissionError)) : q.view rows errors = r.view rows errors := by
  have hid : q.runId = r.runId := congrArg FrozenRun.runId h
  have hm : q.missionId = r.missionId := congrArg FrozenRun.missionId h
  unfold view
  rw [hid, hm]

theorem mem_views_recordLive {live : List StageStateRecord} {view : RunStateView}
    (h : view ∈ (r.recordLive live).events.filterMap Event.view) :
    ∃ rows errors, view = r.view rows errors := by
  rw [views_recordLive] at h
  split_ifs at h
  · exact ⟨_, _, List.mem_singleton.mp h⟩
  · cases h

/-- A run publishes views of itself only. -/
theorem mem_publishes {r : StoredRun} {input : RunInput} {view : RunStateView}
    (h : view ∈ r.publishes input) : ∃ rows errors, view = r.view rows errors := by
  unfold publishes at h
  cases input with
  | settled now command =>
    dsimp only [respond, settle] at h
    split at h <;> split_ifs at h
    all_goals first | exact ⟨_, _, List.mem_singleton.mp h⟩ | cases h
  | cancelled now mode offline reply =>
    dsimp only [respond, cancel] at h
    split_ifs at h
    all_goals first | exact ⟨_, _, List.mem_singleton.mp h⟩ | cases h
  | closed now =>
    dsimp only [respond, close] at h
    split_ifs at h
    all_goals first | exact ⟨_, _, List.mem_singleton.mp h⟩ | cases h
  | paused now | resumed now =>
    dsimp only [respond, steer] at h
    split at h <;> cases h
  | reported now state =>
    have hf := r.frozen_touched now state
    dsimp only [respond] at h
    rw [views_report] at h
    split at h
    · obtain ⟨rows, errors, rfl⟩ := mem_views_recordLive _ h
      exact ⟨rows, errors, view_congr hf rows errors⟩
    · split_ifs at h
      · exact ⟨_, _, (List.mem_singleton.mp h).trans (view_congr hf _ _)⟩
      · obtain ⟨rows, errors, rfl⟩ := mem_views_recordLive _ h
        exact ⟨rows, errors, view_congr hf rows errors⟩
  | unclaimed now judged =>
    dsimp only [respond, unclaimed] at h
    split_ifs at h
    all_goals first | exact ⟨_, _, List.mem_singleton.mp h⟩ | cases h
  | annotated now notes => cases h

end StoredRun

namespace System
variable {s s' : System} {a : Action}

/-- The frames of the run that have been recorded, oldest first. -/
def framesOf (s : System) (r : StoredRun) : List MissionStateMessage :=
  (s.recorded.filter fun frame => frame.1 = r.robotId ∧ frame.2.runId = r.runId).map (·.2)

theorem framesOf_congr {r r' : StoredRun} (h : r.frozen = r'.frozen) :
    s.framesOf r = s.framesOf r' := by
  have hb : r.robotId = r'.robotId := congrArg FrozenRun.robotId h
  have hid : r.runId = r'.runId := congrArg FrozenRun.runId h
  unfold framesOf
  rw [hb, hid]

/-- A run that takes an input takes its frame, if it has one, and no other run does. -/
theorem framesOf_responded {r r' : StoredRun} {input : RunInput} (hc : a.Causes r input)
    (hs : s'.recorded = s.recorded ++ input.frame?.toList.map (r.robotId, ·)) :
    s'.framesOf r' = s.framesOf r' ++ if r.robotId = r'.robotId ∧ r.runId = r'.runId then
      input.frame?.toList else [] := by
  unfold framesOf
  rw [hs, List.filter_append, List.map_append]
  congr 1
  cases input with
  | reported now state =>
    have hid : state.runId = r.runId := hc.2
    simp only [RunInput.frame?, Option.toList_some, List.map_cons, List.map_nil]
    split_ifs with he
    · rw [List.filter_cons_of_pos (by simpa [hid] using he)]
      rfl
    · rw [List.filter_cons_of_neg (by simpa [hid] using he)]
      rfl
  | _ => simp [RunInput.frame?]

/-- What a step does to one stored run. -/
inductive RunStep (s : System) (a : Action) (s' : System) (r : StoredRun) : Prop where
  | same (found : s'.runs.find? r.runId = some r) (frames : s'.framesOf r = s.framesOf r)
  | took (input : RunInput) (cause : a.Causes r input)
      (found : s'.runs.find? r.runId = some (r.respond input).row)
      (frames : s'.framesOf r = s.framesOf r ++ input.frame?.toList)
  | gone (cause : a = .deleteRun r.runId) (ended : isTerminal r.status = true)
      (found : s'.runs.find? r.runId = none)

theorem RunsStep.of_run (h : RunsStep s a s') {r : StoredRun}
    (hr : s.runs.find? r.runId = some r) : RunStep s a s' r := by
  cases h with
  | idle events runs bus quiet recorded =>
    exact .same (runs ▸ hr) (by simp only [framesOf, recorded])
  | responded q input found cause runs bus recorded =>
    have hframes := @framesOf_responded s s' a q r input cause recorded
    have hkey := q.runId_respond input
    by_cases hk : r.runId = q.runId
    · obtain rfl : q = r := Option.some.inj (found.symm.trans (hk ▸ hr))
      rw [if_pos ⟨rfl, rfl⟩] at hframes
      refine .took input cause ?_ hframes
      rw [runs]
      exact hkey ▸ Table.find?_replace_self (hkey.symm ▸ hr)
    · rw [if_neg fun he => hk he.2.symm, List.append_nil] at hframes
      refine .same ?_ hframes
      rw [runs]
      exact (Table.find?_replace_ne _ fun he => hk (he.trans hkey)).trans hr
  | created p runId dispatch cause fresh absent free drawn runs bus recorded =>
    refine .same ?_ (by simp only [framesOf, recorded])
    rw [runs, Table.find?_insert, if_neg, hr]
    intro hk
    rw [← hk, hr] at absent
    cases absent
  | deleted q found cause ended runs bus recorded =>
    by_cases hk : r.runId = q.runId
    · obtain rfl : q = r := Option.some.inj (found.symm.trans (hk ▸ hr))
      exact .gone cause ended (by rw [runs, Table.find?_erase, if_pos rfl])
    · refine .same ?_ (by simp only [framesOf, recorded])
      rw [runs, Table.find?_erase, if_neg hk, hr]

theorem view_deletionEvents (runs : Table StoredRun.runId) (r : StoredRun) :
    ∀ e ∈ deletionEvents runs r, e.view = none := by
  unfold deletionEvents
  split_ifs <;> simp [Event.view]

/-- The views published of the run, oldest first. -/
def viewsOf (s : System) (runId : UUID) : List RunStateView :=
  (s.world.bus.filterMap Event.view).filter fun view => view.runId = runId

theorem viewsOf_quiet {events : List Event} (hb : s'.world.bus = s.world.bus ++ events)
    (hq : ∀ e ∈ events, e.view = none) (runId : UUID) : s'.viewsOf runId = s.viewsOf runId := by
  have hnil : events.filterMap Event.view = [] := List.filterMap_eq_nil_iff.mpr hq
  rw [viewsOf, viewsOf, hb, List.filterMap_append, hnil, List.append_nil]

theorem viewsOf_responded {r : StoredRun} {input : RunInput}
    (hb : s'.world.bus = s.world.bus ++ (r.respond input).events) (runId : UUID) :
    s'.viewsOf runId = s.viewsOf runId ++ if r.runId = runId then r.publishes input else [] := by
  rw [viewsOf, viewsOf, hb, List.filterMap_append, List.filter_append]
  congr 1
  change (r.publishes input).filter _ = _
  split_ifs with hid
  · refine List.filter_eq_self.mpr fun view hv => ?_
    obtain ⟨rows, errors, rfl⟩ := StoredRun.mem_publishes hv
    exact decide_eq_true hid
  · refine List.filter_eq_nil_iff.mpr fun view hv he => ?_
    obtain ⟨rows, errors, rfl⟩ := StoredRun.mem_publishes hv
    exact hid (of_decide_eq_true he)

theorem viewsOf_snoc {r : StoredRun} {rows : List StageStateRecord}
    {errors : Option (List MissionError)}
    (hb : s'.world.bus = s.world.bus ++ [r.stateEvent rows errors]) (runId : UUID) :
    s'.viewsOf runId = s.viewsOf runId ++ if r.runId = runId then [r.view rows errors] else [] := by
  rw [viewsOf, viewsOf, hb, List.filterMap_append, List.filter_append]
  congr 1
  change [r.view rows errors].filter _ = _
  split_ifs with hid
  · exact List.filter_cons_of_pos (decide_eq_true hid)
  · exact List.filter_cons_of_neg fun he => hid (of_decide_eq_true he)

/-- What every started run has and every input keeps, the frames the run has taken and the views
published of it being known, holds of every run ever stored. -/
theorem Reachable.run_trace {P : List MissionStateMessage → List RunStateView → StoredRun → Prop}
    (hfresh : ∀ views digests runId p, P [] (views ++ [(freshRun digests runId p).view
      (waitingStageStatuses p.mission.stages.stages p.now) none]) (freshRun digests runId p))
    (hrespond : ∀ frames views r input, P frames views r → P (frames ++ input.frame?.toList)
      (views ++ r.publishes input) (StoredRun.respond r input).row)
    (h : Reachable s) {r : StoredRun} (hr : r ∈ s.runs.rows) :
    P (s.framesOf r) (s.viewsOf r.runId) r := by
  have hall : Snapshots s ∧ ∀ k r, s.runs.find? k = some r →
      P (s.framesOf r) (s.viewsOf r.runId) r := by
    refine h.invariant (I := fun s => Snapshots s ∧ ∀ k r, s.runs.find? k = some r →
      P (s.framesOf r) (s.viewsOf r.runId) r) ?_ ?_
    · intro s hi
      refine ⟨Reachable.snapshots ⟨s, [], hi, rfl⟩, ?_⟩
      rw [hi.runs]
      simp
    · rintro s a s' ⟨hs, hp⟩ hstep
      refine ⟨hs.step hstep, fun k r' hr' => ?_⟩
      cases step_runs hs hstep with
      | idle events runs bus quiet recorded =>
        have hold := hp k r' (runs ▸ hr')
        rw [viewsOf_quiet bus fun e he => (quiet e he).view]
        simpa only [framesOf, recorded] using hold
      | responded r input found cause runs bus recorded =>
        have hframes := @framesOf_responded s s' a r r' input cause recorded
        rw [runs, Table.find?_replace] at hr'
        rw [viewsOf_responded bus]
        split_ifs at hr' with hk
        · rw [hk, r.runId_respond input, found] at hr'
          obtain rfl := Option.some.inj hr'
          have hfr := r.frozen_respond input
          have hb : (r.respond input).row.robotId = r.robotId := congrArg FrozenRun.robotId hfr
          rw [hframes, if_pos ⟨hb.symm, (r.runId_respond input).symm⟩, framesOf_congr hfr,
            if_pos (r.runId_respond input).symm, r.runId_respond input]
          exact hrespond _ _ r input (hp r.runId r found)
        · have hid := Table.key_of_find? hr'
          have hne : r.runId ≠ r'.runId := fun he => hk (by rw [r.runId_respond input, he, hid])
          rw [hframes, if_neg fun he => hne he.2, if_neg hne, List.append_nil, List.append_nil]
          exact hp k r' hr'
      | created p runId dispatch cause fresh absent free drawn runs bus recorded =>
        rw [runs, Table.find?_insert] at hr'
        split_ifs at hr' with hk
        · obtain rfl := Option.some.inj hr'
          have hnil : s'.framesOf (freshRun s.digests runId p) = [] := by
            simp only [framesOf, recorded, List.map_eq_nil_iff, List.filter_eq_nil_iff]
            intro frame hframe he
            have hid : frame.2.runId = runId := (of_decide_eq_true he).2
            exact fresh (hid ▸ hs.recorded frame hframe)
          rw [hnil, viewsOf_snoc bus, if_pos rfl]
          exact hfresh _ s.digests runId p
        · have hid := Table.key_of_find? hr'
          rw [viewsOf_snoc bus, if_neg fun he => hk (hid.symm.trans he.symm), List.append_nil]
          simpa only [framesOf, recorded] using hp k r' hr'
      | deleted r found cause ended runs bus recorded =>
        rw [runs, Table.find?_erase] at hr'
        split_ifs at hr' with hk
        have hold := hp k r' hr'
        rw [viewsOf_quiet bus (view_deletionEvents s.runs r)]
        simpa only [framesOf, recorded] using hold
  exact hall.2 r.runId r (Table.find?_of_mem hr)

/-- What every started run has and every input keeps, the frames the run has taken being known,
holds of every run ever stored. -/
theorem Reachable.run_history {P : List MissionStateMessage → StoredRun → Prop}
    (hfresh : ∀ digests runId p, P [] (freshRun digests runId p))
    (hrespond : ∀ frames r input, P frames r →
      P (frames ++ input.frame?.toList) (StoredRun.respond r input).row)
    (h : Reachable s) {r : StoredRun} (hr : r ∈ s.runs.rows) : P (s.framesOf r) r :=
  h.run_trace (P := fun frames _ r => P frames r) (fun _ => hfresh) (fun frames _ => hrespond frames)
    hr

/-- What every started run has and every input keeps holds of every run ever stored. -/
theorem Reachable.run_invariant {P : StoredRun → Prop}
    (hfresh : ∀ digests runId p, P (freshRun digests runId p))
    (hrespond : ∀ r input, P r → P (StoredRun.respond r input).row) (h : Reachable s)
    {r : StoredRun} (hr : r ∈ s.runs.rows) : P r :=
  h.run_history (P := fun _ r => P r) hfresh (fun _ => hrespond) hr

theorem Reachable.runStep (h : Reachable s) (hs : s.step a = some s') {r : StoredRun}
    (hr : s.runs.find? r.runId = some r) : RunStep s a s' r :=
  (h.runsStep hs).of_run hr

end System
end Leitstand
