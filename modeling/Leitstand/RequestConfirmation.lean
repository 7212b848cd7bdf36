import Leitstand.ClosedRuns
import Leitstand.FrameOrder
import Leitstand.TransitionLog

namespace Leitstand
open MissionStateService

/-- A request waits for the robot to report that it paused, or that it runs again. -/
def isWaiting (s : RunStatus) : Prop := s = .pausing ∨ s = .resuming

/-- The header of the last frame, zero before the first. -/
def lastHeaderOf (frames : List MissionStateMessage) : Nat := frames.getLast?.elim 0 (·.headerId)

theorem reportedStatus_of_allowed {s t : RunStatus} {exec : MissionExecStatus}
    (h : allowedTransitions s (triggerForReport s exec) = some t) : t = reportedStatus exec := by
  cases exec <;> cases s <;> cases h <;> rfl

theorem reportedStatus_not_waiting (exec : MissionExecStatus) :
    ¬ isWaiting (reportedStatus exec) := by
  cases exec <;> simp [isWaiting, reportedStatus]

namespace StoredRun
variable {r : StoredRun} {state : MissionStateMessage} {input : RunInput}

/-- The status change of a frame takes the run where the frame says. -/
theorem reportUpdate_reported {u : StatusUpdate} (h : reportUpdate r.toRun state = some u) :
    u.newStatus = reportedStatus state.execStatus ∧ r.predates state = false := by
  obtain ⟨hp, target, htarget, rfl⟩ := reportUpdate_eq_some.mp h
  exact ⟨reportedStatus_of_allowed htarget, hp⟩

/-- A live run stores the last frame it takes, whatever its header. -/
theorem lastReport_respond (ht : isTerminal r.status = false) :
    (r.respond input).row.run.lastReport.map (·.headerId) =
      (input.frame?.map (·.headerId)).or (r.run.lastReport.map (·.headerId)) := by
  cases input with
  | settled now command =>
    dsimp only [respond, settle]
    split <;> split_ifs <;> rfl
  | cancelled now mode offline reply =>
    dsimp only [respond]
    rw [cancel_row]
    split_ifs <;> rfl
  | closed now =>
    dsimp only [respond, close]
    split_ifs <;> rfl
  | paused now | resumed now =>
    dsimp only [respond, steer]
    split <;> rfl
  | reported now state =>
    have htouched : (r.touched now state).run.lastReport = some (lastReportOf now state) := by
      unfold touched
      rw [if_neg (by simp [ht])]
      rfl
    have hreport : (r.report now state).row.run.lastReport = some (lastReportOf now state) := by
      obtain ⟨-, h⟩ | ⟨u, -, ⟨-, h⟩ | ⟨-, h⟩⟩ := r.report_cases now state <;> rw [h]
      · rw [run_recordLive, htouched]
      · exact htouched
      · rw [run_recordLive]
        exact htouched
    exact congrArg (Option.map (·.headerId)) hreport
  | unclaimed now judged =>
    dsimp only [respond, unclaimed]
    split_ifs <;> rfl
  | annotated now notes => rfl

theorem status_ending {now : Datetime} {u : StatusUpdate} {overlay : List StageStateRecord}
    {reason : Option String} : (r.ending now u overlay reason).row.status = u.newStatus := (rfl)

/-- Only a request adds an entry that leaves the run waiting. -/
theorem waiting_respond (hw : isWaiting (r.respond input).row.status) :
    (r.respond input).row.transitions = r.transitions ∨
      ∃ now, input = .paused now ∨ input = .resumed now := by
  cases input with
  | paused now => exact .inr ⟨now, .inl rfl⟩
  | resumed now => exact .inr ⟨now, .inr rfl⟩
  | annotated now notes => exact .inl rfl
  | settled now command =>
    dsimp only [respond, settle, lateReply] at hw ⊢
    split at hw <;> split_ifs at hw ⊢ <;>
      first | exact .inl rfl | simp [isWaiting, acceptUpdate, unconfirmedUpdate] at hw
    simp only [status_ending, rejectUpdate] at hw
    split_ifs at hw <;> simp at hw
  | cancelled now mode offline reply =>
    dsimp only [respond] at hw ⊢
    rw [cancel_row] at hw ⊢
    split_ifs at hw ⊢
    · exact .inl rfl
    · simp [isWaiting, status_ending, refusedUpdate] at hw
    · simp [isWaiting, cancelRequested, cancelUpdate] at hw
  | closed now =>
    dsimp only [respond, close] at hw ⊢
    split_ifs at hw ⊢
    · exact .inl rfl
    · simp [isWaiting, status_ending, closeUpdate] at hw
  | reported now state =>
    have hst := r.status_report now state
    obtain ⟨-, h⟩ | ⟨u, hu, -⟩ := r.report_cases now state
    · left
      dsimp only [respond]
      rw [h, transitions_recordLive, transitions_touched]
    · rw [hu] at hst
      have hreported := (reportUpdate_reported hu).1
      change isWaiting (r.report now state).row.status at hw
      rw [hst, Option.elim_some, hreported] at hw
      exact absurd hw (reportedStatus_not_waiting _)
  | unclaimed now judged =>
    dsimp only [respond, unclaimed] at hw ⊢
    split_ifs at hw ⊢
    · simp only [status_ending, unclaimedUpdate] at hw
      split_ifs at hw <;> simp [isWaiting] at hw
    · exact .inl rfl

/-- The frame is the report the request waits for. -/
def Awaits (r : StoredRun) (state : MissionStateMessage) : Prop :=
  r.status = .pausing ∧ state.execStatus = .paused ∨
    r.status = .resuming ∧ state.execStatus = .running

/-- The request is taken for done. -/
def Confirmed (r r' : StoredRun) : Prop :=
  r.status = .pausing ∧ r'.status = .paused ∨ r.status = .resuming ∧ r'.status = .running

theorem confirmed_report_iff (now : Datetime) :
    r.Confirmed (r.report now state).row ↔ r.Awaits state ∧ r.predates state = false := by
  constructor
  · intro hc
    have hne : (r.report now state).row.status ≠ r.status := by
      obtain ⟨hs, hs'⟩ | ⟨hs, hs'⟩ := hc <;> rw [hs, hs'] <;> simp
    have hst := r.status_report now state
    cases hu : reportUpdate r.toRun state with
    | none =>
      rw [hu] at hst
      exact absurd hst hne
    | some u =>
      obtain ⟨hreported, hp⟩ := reportUpdate_reported hu
      rw [hu, Option.elim_some, hreported] at hst
      refine ⟨?_, hp⟩
      obtain ⟨hs, hs'⟩ | ⟨hs, hs'⟩ := hc
      · refine .inl ⟨hs, reportedStatus_inj.mp ?_⟩
        exact hst.symm.trans hs'
      · refine .inr ⟨hs, reportedStatus_inj.mp ?_⟩
        exact hst.symm.trans hs'
  · rintro ⟨⟨hs, he⟩ | ⟨hs, he⟩, hp⟩
    · refine .inl ⟨hs, ?_⟩
      rw [status_report_live (by rw [he]; rfl), hs, he, hp]
      rfl
    · refine .inr ⟨hs, ?_⟩
      rw [status_report_live (by rw [he]; rfl), hs, he, hp]
      rfl

/-- A frame is held off by the header its request was stored with. -/
theorem predates_awaited {request : RunTransition} {headerId : Nat} (ha : r.Awaits state)
    (hlast : r.transitions.getLast? = some request)
    (hheader : request.reportHeaderId = some headerId) :
    r.predates state = decide (state.headerId ≤ headerId) := by
  have hlast' : r.toRun.transitions.getLast? = some request := hlast
  unfold predates predatesRequest
  rw [toRun_status, hlast']
  obtain ⟨hs, he⟩ | ⟨hs, he⟩ := ha <;> simp [hs, he, triggerForReport, hheader]

end StoredRun

/-- The header stored with a live run's last report is that of the last frame it took. -/
theorem System.Reachable.lastHeader {s : System} (h : s.Reachable) {r : StoredRun}
    (hr : r ∈ s.runs.rows) (ht : isTerminal r.status = false) :
    lastHeaderId r.run = lastHeaderOf (s.framesOf r) := by
  have hall : isTerminal r.status = false →
      r.run.lastReport.map (·.headerId) = (s.framesOf r).getLast?.map (·.headerId) := by
    refine h.run_history (P := fun frames r => isTerminal r.status = false →
      r.run.lastReport.map (·.headerId) = frames.getLast?.map (·.headerId)) ?_ ?_ hr
    · exact fun _ _ _ _ => rfl
    · intro frames r input hp hlive
      have hlive' : isTerminal r.status = false := by
        by_contra hn
        have hend : isTerminal r.status = true := by simpa using hn
        have hsame := StoredRun.respond_terminal hend input
        rw [hsame.status, hend] at hlive
        cases hlive
      rw [StoredRun.lastReport_respond hlive', hp hlive']
      cases input.frame? <;> simp
  have hlast := hall ht
  unfold lastHeaderId lastHeaderOf
  cases hl : r.run.lastReport <;> cases hf : (s.framesOf r).getLast? <;>
    simp [hl, hf] at hlast ⊢
  exact hlast

def Action.isRequest : Action → Bool
  | .pause _ _ | .resume _ _ => true
  | _ => false

/-- The last entry of the run's log is a pause or resume request, made when the run had taken these
frames. -/
inductive Requested (s₀ : System) (past : List Action) (r : StoredRun)
    (frames : List MissionStateMessage) : Prop where
  | intro (pre mid : List Action) (request : Action) (m m' : System) (q q' : StoredRun)
      (run : past = pre ++ request :: mid) (before : StepSystem.exec System.step s₀ pre = some m)
      (step : m.step request = some m') (asks : request.isRequest = true)
      (found : m.runs.find? r.runId = some q) (found' : m'.runs.find? r.runId = some q')
      (wrote : q'.transitions ≠ q.transitions) (last : r.transitions = q'.transitions)
      (taken : frames = m.framesOf q)

namespace Requested
variable {s₀ : System} {past : List Action} {r : StoredRun} {frames : List MissionStateMessage}

theorem snoc (h : Requested s₀ past r frames) (a : Action) {r' : StoredRun}
    (hid : r'.runId = r.runId) (ht : r'.transitions = r.transitions) :
    Requested s₀ (past ++ [a]) r' frames := by
  obtain ⟨pre, mid, request, m, m', q, q', run, before, step, asks, found, found', wrote, last,
    taken⟩ := h
  exact ⟨pre, mid ++ [a], request, m, m', q, q', by simp [run], before, step, asks, hid ▸ found,
    hid ▸ found', wrote, ht.trans last, taken⟩

/-- A request is stored with the header of the last frame before it. -/
theorem header (h : Requested s₀ past r frames) (h₀ : s₀.Reachable) : ∃ request,
    r.transitions.getLast? = some request ∧
      request.reportHeaderId = some (lastHeaderOf frames) := by
  obtain ⟨pre, mid, request, m, m', q, q', -, before, step, asks, found, found', wrote, last, rfl⟩ :=
    h
  have hm : m.Reachable := StepSystem.exec_invariant (fun _ _ _ => System.Reachable.step) h₀ before
  obtain hid : q.runId = r.runId := Table.key_of_find? found
  rw [← hid] at found found'
  have hsteered : ∃ now trigger command, q' = (q.steer now trigger command).row := by
    cases hm.runStep step found with
    | same hfound =>
      obtain rfl := Option.some.inj (hfound.symm.trans found')
      exact absurd rfl wrote
    | gone cause =>
      rw [cause] at asks
      cases asks
    | took input cause hfound =>
      obtain rfl := Option.some.inj (hfound.symm.trans found')
      cases request with
      | pause command reply | resume command reply =>
        obtain ⟨now, rfl⟩ := cause.input
        exact ⟨now, _, _, rfl⟩
      | _ => cases asks
  obtain ⟨now, trigger, command, rfl⟩ := hsteered
  unfold StoredRun.steer at wrote last
  split at wrote
  · exact absurd rfl wrote
  · rename_i target htarget
    rw [htarget] at last
    have ht := not_isTerminal_of_allowed htarget
    refine ⟨(q.steerUpdate trigger target).transition now, ?_, ?_⟩
    · rw [last]
      exact List.getLast?_concat
    · rw [← hm.lastHeader (Table.mem_of_find? found) ht]
      rfl

end Requested

namespace System
variable {s₀ s s' m : System} {a : Action} {past : List Action} {runId : UUID}

/-- A frame that confirms the run's request, if this is one, is newer than every frame taken before
the request. -/
def NewerConfirms (s₀ : System) (runId : UUID) (past : List Action) (s : System) (a : Action) :
    Prop :=
  ∀ (r : StoredRun) (state : MissionStateMessage) (r' : StoredRun)
    (frames : List MissionStateMessage), a = .record r.robotId state → state.runId = runId →
    s.runs.find? runId = some r → Requested s₀ past r frames →
    (s.recordFrame r.robotId state).runs.find? runId = some r' → r.Confirmed r' →
    ∀ frame ∈ frames, frame.headerId < state.headerId

/-- No frame the run's request waits for falls between: above the last of the frames taken before
the request, and not above the highest of them. -/
def NoneBetween (s₀ : System) (runId : UUID) (past : List Action) (s : System) (a : Action) : Prop :=
  ∀ (r : StoredRun) (state : MissionStateMessage) (frames : List MissionStateMessage),
    a = .record r.robotId state → state.runId = runId → s.runs.find? runId = some r →
    Requested s₀ past r frames → r.Awaits state → r.refusesReport s.clock state = false →
    ¬ (lastHeaderOf frames < state.headerId ∧ ∃ frame ∈ frames, state.headerId ≤ frame.headerId)

theorem newerConfirms_iff (h₀ : s₀.Reachable) :
    NewerConfirms s₀ runId past s a ↔ NoneBetween s₀ runId past s a := by
  constructor
  · rintro h r state frames rfl rfl hr hreq hawaits haccepted ⟨hlast, frame, hframe, hle⟩
    obtain ⟨request, hrequest, hheader⟩ := hreq.header h₀
    have hp : r.predates state = false := by
      rw [StoredRun.predates_awaited hawaits hrequest hheader]
      simpa using hlast
    have hrun := recordFrame_run hr
    rw [if_neg (by simp [haccepted])] at hrun
    have hconfirmed := (StoredRun.confirmed_report_iff s.clock).mpr ⟨hawaits, hp⟩
    exact absurd (h r state _ frames rfl rfl hr hreq hrun hconfirmed frame hframe) (by omega)
  · rintro h r state r' frames rfl rfl hr hreq hr' hconfirmed frame hframe
    rw [recordFrame_run hr] at hr'
    obtain rfl := Option.some.inj hr'
    by_cases href : r.refusesReport s.clock state = true
    · rw [if_pos href] at hconfirmed
      obtain ⟨hs, hs'⟩ | ⟨hs, hs'⟩ := hconfirmed <;> rw [hs] at hs' <;> cases hs'
    · rw [if_neg href] at hconfirmed
      obtain ⟨hawaits, hp⟩ := (StoredRun.confirmed_report_iff s.clock).mp hconfirmed
      obtain ⟨request, hrequest, hheader⟩ := hreq.header h₀
      rw [StoredRun.predates_awaited hawaits hrequest hheader] at hp
      have hnone := h r state frames rfl rfl hr hreq hawaits (by simpa using href)
      by_contra hle
      exact hnone ⟨by simpa using hp, frame, hframe, by omega⟩

/-- Before a request was made no frame is awaited. -/
theorem noneBetween_of_unrequested (h : ∀ b ∈ past, b.isRequest = false) :
    NoneBetween s₀ runId past s a := by
  intro r state frames _ _ _ hreq
  obtain ⟨pre, mid, request, m, m', q, q', hpast, -, -, hasks, -⟩ := hreq
  have hnone := h request (hpast ▸ List.mem_append_right _ List.mem_cons_self)
  rw [hasks] at hnone
  cases hnone

/-- A waiting run was there before the step. -/
theorem waiting_old (h : s.Reachable) (hs : s.step a = some s') {r' : StoredRun}
    (hr' : s'.runs.find? r'.runId = some r') (hw : isWaiting r'.status) :
    ∃ r, s.runs.find? r'.runId = some r ∧ r.runId = r'.runId := by
  by_cases hk : r'.runId ∈ s.issued
  · obtain ⟨r, hr, hf⟩ := (h.runsStep hs).find?_old hk hr'
    exact ⟨r, hr, (congrArg FrozenRun.runId hf).symm⟩
  · have hissued := (h.step hs).snapshots.issued r' (Table.mem_of_find? hr')
    obtain he | ⟨i, runId, rfl, he⟩ := issued_step hs
    · exact absurd (he ▸ hissued) hk
    · rw [he] at hissued
      obtain hid | hold := List.mem_cons.mp hissued
      · obtain ⟨p, rfl⟩ := insert_fresh h hs (hid ▸ hr')
        obtain hw | hw := hw <;> cases hw
      · exact absurd hold hk

/-- Every waiting run waits on a request. -/
theorem waiting_requested {acts : List Action} (h₀ : s₀.Initial)
    (hx : StepSystem.exec step s₀ acts = some s) {r : StoredRun}
    (hr : s.runs.find? runId = some r) (hw : isWaiting r.status) :
    ∃ frames, Requested s₀ acts r frames := by
  have hall : ∀ r, s.runs.find? runId = some r → isWaiting r.status →
      ∃ frames, Requested s₀ acts r frames := by
    refine StepSystem.exec_history (I := fun past s => ∀ r, s.runs.find? runId = some r →
      isWaiting r.status → ∃ frames, Requested s₀ past r frames) ?_ ?_ hx
    · intro r hr
      rw [h₀.runs] at hr
      cases hr
    · intro past s a s' hpast hI ha r' hr' hw'
      have hs : s.Reachable := ⟨s₀, past, h₀, hpast⟩
      obtain rfl : r'.runId = runId := Table.key_of_find? hr'
      obtain ⟨r, hr, hid⟩ := waiting_old hs ha hr' hw'
      rw [← hid] at hr' hr
      have hframes : r'.transitions = r.transitions →
          ∃ frames, Requested s₀ (past ++ [a]) r' frames := by
        intro ht
        have hst : r.status = r'.status := by
          have hlog := (hs.legalLog (Table.mem_of_find? hr)).walk
          exact hlog.end_unique (ht ▸ ((hs.step ha).legalLog (Table.mem_of_find? hr')).walk)
        obtain ⟨frames, hreq⟩ := hI r (hid ▸ hr) (hst ▸ hw')
        exact ⟨frames, hreq.snoc a hid.symm ht⟩
      by_cases ht : r'.transitions = r.transitions
      · exact hframes ht
      · refine ⟨s.framesOf r, past, [], a, s, s', r, r', rfl, hpast, ha, ?_, hid ▸ hr, hid ▸ hr', ht,
          rfl, rfl⟩
        cases hs.runStep ha hr with
        | same found =>
          obtain rfl := Option.some.inj (found.symm.trans hr')
          exact absurd rfl ht
        | gone cause found hgone =>
          rw [hgone] at hr'
          cases hr'
        | took input cause found =>
          obtain rfl := Option.some.inj (found.symm.trans hr')
          obtain hsame | ⟨now, rfl | rfl⟩ := StoredRun.waiting_respond hw'
          · exact absurd hsame ht
          all_goals
            obtain ⟨command, reply, rfl⟩ := cause
            rfl
  exact hall r hr hw

end System

open StepSystem

/-- Requests are confirmed by newer reports only, as long as no awaited frame falls between the last
and the highest of the headers taken before the request; and a run waits on requests only. -/
theorem requests_confirmed_by_newer_iff {s₀ : System} {acts : List Action} {runId : UUID}
    (h₀ : s₀.Initial) : (Throughout System.step (System.NewerConfirms s₀ runId) [] s₀ acts ↔
        Throughout System.step (System.NoneBetween s₀ runId) [] s₀ acts) ∧
      ∀ s r, exec System.step s₀ acts = some s → s.runs.find? runId = some r →
        isWaiting r.status → ∃ frames, Requested s₀ acts r frames := by
  have h : s₀.Reachable := ⟨s₀, [], h₀, rfl⟩
  refine ⟨?_, fun s r hx hr hw => System.waiting_requested h₀ hx hr hw⟩
  exact throughout_congr (I := fun _ _ => True) (fun _ _ _ _ _ _ => trivial)
    (fun _ _ _ _ => System.newerConfirms_iff h) trivial

section Demo

def demoPause : Action := .pause { missionId := 1 } { applied := some true }

/-- The demo's run takes two frames, the older one last, before it is asked to pause. -/
def demoSwapped : List Action :=
  demoDispatch ++ [demoSettle .accepted, demoFrame 5 .running, demoFrame 3 .running]

/-- The frame with header 6 confirms the pause. -/
def demoConfirmed : List Action := demoSwapped ++ [demoPause] ++ [demoFrame 6 .paused]

theorem demoSwapped_unrequested : ∀ b ∈ demoSwapped, b.isRequest = false := by
  simp [demoSwapped, demoDispatch, demoSettle, demoFrame, Action.isRequest]

theorem demoConfirmed_noneBetween :
    Throughout System.step (System.NoneBetween demo 7) [] demo demoConfirmed := by
  have hruns : (exec System.step demo demoSwapped).any fun m =>
      (m.step demoPause).isSome && (m.runs.find? 7).any fun q =>
        (m.framesOf q).all fun frame => frame.headerId < 6 := by decide
  obtain ⟨m, hm, hp⟩ := (Option.any_eq_true _ _).mp hruns
  obtain ⟨hpause, hp⟩ := Bool.and_eq_true_iff.mp hp
  obtain ⟨q, hq, hframes⟩ := (Option.any_eq_true _ _).mp hp
  obtain ⟨m', hm'⟩ := Option.isSome_iff_exists.mp hpause
  have hx : exec System.step demo (demoSwapped ++ [demoPause]) = some m' :=
    exec_snoc_iff.mpr ⟨m, hm, hm'⟩
  rw [demoConfirmed, throughout_snoc hx, throughout_snoc hm]
  refine ⟨⟨throughout_iff.mpr fun pre a post _ he _ => ?_, ?_⟩, ?_⟩
  · apply System.noneBetween_of_unrequested
    intro b hb
    exact demoSwapped_unrequested b (he ▸ List.mem_append_left _ hb)
  · intro r state frames hpause
    cases hpause
  · rintro r state frames ha - hr hreq - - ⟨-, frame, hframe, hle⟩
    obtain ⟨-, rfl⟩ := Action.record.inj ha
    obtain ⟨pre, mid, request, m₁, m₁', q₁, q₁', hpast, hbefore, -, hasks, hq₁, -, -, -, rfl⟩ := hreq
    -- The pause is the only request there, so what was taken before it is known.
    rw [List.nil_append] at hpast
    have hpre : demoSwapped = pre := by
      cases mid.eq_nil_or_concat with
      | inl hmid =>
        rw [hmid] at hpast
        exact (List.append_inj' hpast rfl).1
      | inr hmid =>
        obtain ⟨mid', x, rfl⟩ := hmid
        rw [List.concat_eq_append, ← List.cons_append, ← List.append_assoc] at hpast
        have hswapped := (List.append_inj' hpast rfl).1
        have hnone := demoSwapped_unrequested request (by simp [hswapped])
        rw [hasks] at hnone
        cases hnone
    obtain rfl := Option.some.inj (hm.symm.trans (hpre ▸ hbefore))
    have hid : r.runId = 7 := Table.key_of_find? hr
    obtain rfl := Option.some.inj (hq.symm.trans (hid ▸ hq₁))
    have hlt := of_decide_eq_true (List.all_eq_true.mp hframes frame hframe)
    exact absurd hle (Nat.not_le.mpr hlt)

theorem requests_confirmed_by_newer_iff_swapped :
    (exec System.step demo demoConfirmed).any (fun s => (s.runs.find? 7).any (·.status = .paused)) ∧
    Throughout System.step (System.NewerConfirms demo 7) [] demo demoConfirmed ∧
    ∀ s r, exec System.step demo (demoSwapped ++ [demoPause]) = some s →
      s.runs.find? 7 = some r → isWaiting r.status →
        ∃ frames, Requested demo (demoSwapped ++ [demoPause]) r frames :=
  ⟨by decide,
    (requests_confirmed_by_newer_iff (System.boot_initial _ _ _)).1.mpr demoConfirmed_noneBetween,
    (requests_confirmed_by_newer_iff (System.boot_initial _ _ _)).2⟩

/-- The pause is stored with header 3, so the frame with header 4 confirms it, though the frame with
header 5 had come before. -/
theorem request_confirmed_by_older : ¬ ∀ (s₀ : System) (acts : List Action) (runId : UUID),
    s₀.Initial → (exec System.step s₀ acts).isSome = true →
    Throughout System.step (System.NewerConfirms s₀ runId) [] s₀ acts := by
  intro hall
  let paused : MissionStateMessage := demoMessage 4 .paused
  have hdemo : (exec System.step demo demoSwapped).any (fun m => (m.runs.find? 7).any fun q =>
      (m.step demoPause).any fun m' => (m'.runs.find? 7).any fun q' =>
        q'.transitions ≠ q.transitions && q'.robotId = "r1" && q'.status = .pausing &&
        (m.framesOf q).any (4 < ·.headerId) &&
        ((m'.recordFrame "r1" paused).runs.find? 7).any (·.status = .paused)) = true := by decide
  obtain ⟨m, hm, hp⟩ := (Option.any_eq_true _ _).mp hdemo
  obtain ⟨q, hq, hp⟩ := (Option.any_eq_true _ _).mp hp
  obtain ⟨m', hm', hp⟩ := (Option.any_eq_true _ _).mp hp
  obtain ⟨q', hq', hp⟩ := (Option.any_eq_true _ _).mp hp
  simp only [Bool.and_eq_true, decide_eq_true_eq] at hp
  obtain ⟨⟨⟨⟨hwrote, hb⟩, hpausing⟩, hframes⟩, hpaused⟩ := hp
  obtain ⟨frame, hframe, hnewer⟩ := List.any_eq_true.mp hframes
  obtain ⟨r', hr', hst⟩ := (Option.any_eq_true _ _).mp hpaused
  have hid : q'.runId = 7 := Table.key_of_find? hq'
  have hx : exec System.step demo (demoSwapped ++ [demoPause]) = some m' :=
    exec_snoc_iff.mpr ⟨m, hm, hm'⟩
  have hthrough := hall demo (demoSwapped ++ [demoPause] ++ [.record q'.robotId paused]) 7
    (System.boot_initial _ _ _) (by rw [exec_snoc, hx]; rfl)
  have hconfirms := throughout_iff.mp hthrough _ _ [] m' rfl hx
  have hreq : Requested demo ([] ++ (demoSwapped ++ [demoPause])) q' (m.framesOf q) :=
    ⟨demoSwapped, [], demoPause, m, m', q, q', rfl, hm, hm', rfl, hid ▸ hq, hid ▸ hq', hwrote, rfl,
      rfl⟩
  have hlt := hconfirms q' paused r' _ rfl rfl hq' hreq (hb ▸ hr')
    (.inl ⟨hpausing, of_decide_eq_true hst⟩) frame hframe
  have hgt : 4 < frame.headerId := of_decide_eq_true hnewer
  exact absurd hlt (Nat.not_lt.mpr hgt.le)

end Demo
end Leitstand
