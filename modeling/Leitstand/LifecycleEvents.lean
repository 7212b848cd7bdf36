import Leitstand.TransitionLog
import Leitstand.RunEvents

namespace Leitstand
open TxM

/-- The run, the target and the trigger of a status change that the event announces. -/
def Event.lifecycle : Event → Option (UUID × RunStatus × RunTrigger)
  | .publish (.missionLifecycle _) (.lifecycle _ runId _ status trigger _) _ =>
    some (runId, status, trigger)
  | _ => none

/-- The status changes of the run that the events announce, in their order. -/
def announced (runId : UUID) (events : List Event) : List (RunStatus × RunTrigger) :=
  events.filterMap fun e => e.lifecycle.bind fun c => if c.1 = runId then some c.2 else none

theorem announced_append (runId : UUID) (xs ys : List Event) :
    announced runId (xs ++ ys) = announced runId xs ++ announced runId ys :=
  List.filterMap_append

/-- A log entry that moves its run. -/
def RunTransition.change (e : RunTransition) : Option (RunStatus × RunTrigger) :=
  if e.fromStatus = e.toStatus then none else some (e.toStatus, e.trigger)

namespace StoredRun
variable (r : StoredRun) (now : Datetime)

/-- The status changes that the run's log holds, in their order. -/
def statusChanges : List (RunStatus × RunTrigger) := r.transitions.filterMap RunTransition.change

theorem announced_lifecycleEvent (status : RunStatus) (trigger : RunTrigger)
    (reason : Option String) :
    announced r.runId [r.lifecycleEvent status trigger reason] = [(status, trigger)] := by
  simp [announced, Event.lifecycle, lifecycleEvent]

theorem announced_of_ne {events : List Event} (h : ∀ e ∈ events, e.Of r) {runId : UUID}
    (hne : r.runId ≠ runId) : announced runId events = [] := by
  apply List.filterMap_eq_nil_iff.mpr
  intro e he
  obtain ⟨rows, errors, rfl⟩ | ⟨status, trigger, reason, rfl⟩ := h e he
  · rfl
  · exact if_neg hne

theorem statusChanges_withStatus (u : StatusUpdate) : (r.withStatus now u).statusChanges =
    r.statusChanges ++ (u.transition now).change.toList := by
  have hlog : (r.withStatus now u).transitions = r.transitions ++ [u.transition now] := rfl
  rw [statusChanges, hlog, List.filterMap_append]
  rfl

/-- The receipt of a request is noted in its log entry, which stays the change it was. -/
theorem statusChanges_withAcknowledged (acknowledged : Bool) (detail : Option Detail) :
    (r.withAcknowledged acknowledged detail).statusChanges = r.statusChanges := by
  have hlog : (r.withAcknowledged acknowledged detail).transitions =
      r.transitions.modifyLast (acknowledge acknowledged detail) := rfl
  rw [statusChanges, statusChanges, hlog]
  obtain hnil | ⟨ts, e, he⟩ := List.eq_nil_or_concat' r.transitions
  · rw [hnil]
    rfl
  · rw [he, List.modifyLast_concat, List.filterMap_append, List.filterMap_append]
    rfl

theorem statusChanges_touched (state : MissionStateMessage) :
    (r.touched now state).statusChanges = r.statusChanges := by
  unfold statusChanges
  rw [transitions_touched]

theorem statusChanges_recordLive (live : List StageStateRecord) :
    (r.recordLive live).row.statusChanges = r.statusChanges := by
  unfold statusChanges
  rw [transitions_recordLive]

theorem announced_recordLive (runId : UUID) (live : List StageStateRecord) :
    announced runId (r.recordLive live).events = [] := by
  unfold recordLive
  split_ifs <;> rfl

/-- An input logs the status changes that it announces, and no others. -/
def Announces (response : Response) : Prop :=
  response.row.statusChanges = r.statusChanges ++ announced r.runId response.events

theorem change_transition {u : StatusUpdate} (h : u.expected ≠ u.newStatus) :
    (u.transition now).change = some (u.newStatus, u.trigger) := if_neg h

theorem announces_ending {u : StatusUpdate} (h : u.expected ≠ u.newStatus)
    (overlay : List StageStateRecord) (reason : Option String) :
    r.Announces (r.ending now u overlay reason) := by
  change (r.withStatus now u).statusChanges = r.statusChanges ++
    announced r.runId [r.lifecycleEvent u.newStatus u.trigger reason]
  rw [statusChanges_withStatus, change_transition now h, announced_lifecycleEvent]
  rfl

theorem announces_withStatus {u : StatusUpdate} (h : u.expected ≠ u.newStatus)
    (commands : List Command) : r.Announces
      { row := r.withStatus now u, events := [r.lifecycleEvent u.newStatus u.trigger], commands } := by
  change (r.withStatus now u).statusChanges = _
  rw [statusChanges_withStatus, change_transition now h, announced_lifecycleEvent]
  rfl

theorem announces_nothing {response : Response}
    (hrow : response.row.statusChanges = r.statusChanges) (hevents : response.events = []) :
    r.Announces response := by
  unfold Announces
  rw [hrow, hevents]
  exact (List.append_nil _).symm

end StoredRun

/-- The table moves a run wherever it lets one go, save for a cancel asked for twice. -/
theorem allowedTransitions_ne {s s' : RunStatus} {t : RunTrigger} (ht : t ≠ .cancelRequest)
    (h : allowedTransitions s t = some s') : s ≠ s' := by
  rintro rfl
  cases s <;> cases t <;> first | exact ht rfl | cases h

namespace StoredRun
variable (r : StoredRun) (now : Datetime)

theorem announces_settle (command : SettleRunCommand) : r.Announces (r.settle now command) := by
  have hlate : r.Announces (r.lateReply command) := r.announces_nothing rfl rfl
  unfold settle
  split
  · split_ifs
    · exact r.announces_withStatus now (show RunStatus.pending ≠ .dispatched by decide) []
    · exact hlate
  · split_ifs with hs
    · apply r.announces_ending
      obtain hs | hs := hs <;> simp [rejectUpdate, hs]
    · exact r.announces_nothing rfl rfl
  all_goals
    split_ifs
    · refine r.announces_nothing ?_ rfl
      rw [statusChanges_withStatus]
      exact List.append_nil _
    · exact hlate

theorem announces_steer (trigger : RunTrigger) (command : Command) (ht : trigger ≠ .cancelRequest) :
    r.Announces (r.steer now trigger command) := by
  unfold steer
  split
  · exact r.announces_nothing rfl rfl
  · rename_i target htarget
    exact r.announces_withStatus now (u := r.steerUpdate trigger target)
      (allowedTransitions_ne ht htarget) _

theorem announces_cancel (mode : CancelMode) (offline : Bool) (reply : ControlReply) :
    r.Announces (r.cancel now mode offline reply) := by
  have hrequested : (r.cancelRequested now mode offline reply).statusChanges = r.statusChanges ++
      announced r.runId (if r.status = .cancelling then []
        else [r.lifecycleEvent .cancelling .cancelRequest]) := by
    rw [cancelRequested, statusChanges_withAcknowledged, statusChanges_withStatus]
    split_ifs with hs
    · have hnone : ((r.cancelUpdate mode).transition now).change = none := if_pos hs
      rw [hnone]
      rfl
    · rw [change_transition now (show (r.cancelUpdate mode).expected ≠ .cancelling from hs),
        announced_lifecycleEvent]
      rfl
  unfold cancel
  by_cases ht : isTerminal r.status = true
  · rw [if_pos ht]
    exact r.announces_nothing rfl rfl
  · rw [if_neg ht]
    dsimp only
    by_cases hr : r.cancelRefused offline reply = true
    · rw [if_pos hr]
      -- The refused run goes on from `CANCELLING`, whatever it was cancelled from.
      have hne : (refusedUpdate reply.reason).expected ≠ (refusedUpdate reply.reason).newStatus :=
        show RunStatus.cancelling ≠ .cancelled by decide
      have hended := (r.cancelRequested now mode offline reply).announces_ending now hne []
        reply.reason
      unfold Announces at hended ⊢
      dsimp only
      rw [hended, hrequested, announced_append, List.append_assoc]
      rfl
    · rw [if_neg hr]
      exact hrequested

theorem announces_close : r.Announces (r.close now) := by
  unfold close
  split_ifs with ht
  · exact r.announces_nothing rfl rfl
  · apply r.announces_ending
    intro hs
    have hc : r.status = .cancelled := hs
    rw [hc] at ht
    exact ht rfl

theorem announces_unclaimed (judged : RunStatus) : r.Announces (r.unclaimed now judged) := by
  unfold unclaimed
  split_ifs with hs
  · apply r.announces_ending
    intro he
    have hended := r.isTerminal_unclaimedUpdate
    rw [← he] at hended
    have hlive : isTerminal r.unclaimedUpdate.expected = false := hs.2
    rw [hlive] at hended
    cases hended
  · exact r.announces_nothing rfl rfl

theorem triggerForReport_ne (s : RunStatus) (exec : MissionExecStatus) :
    triggerForReport s exec ≠ .cancelRequest := by
  cases exec <;> simp only [triggerForReport, ne_eq, reduceCtorEq, not_false_eq_true]
  split_ifs <;> simp

theorem reportUpdate_ne {run : MissionRun} {state : MissionStateMessage} {u : StatusUpdate}
    (h : MissionStateService.reportUpdate run state = some u) : u.expected ≠ u.newStatus := by
  obtain ⟨-, target, htarget, rfl⟩ := MissionStateService.reportUpdate_eq_some.mp h
  exact allowedTransitions_ne (triggerForReport_ne _ _) htarget

theorem announces_report (state : MissionStateMessage) : r.Announces (r.report now state) := by
  have hid : (r.touched now state).runId = r.runId :=
    congrArg FrozenRun.runId (r.frozen_touched now state)
  have htouched := r.statusChanges_touched now state
  obtain ⟨-, h⟩ | ⟨u, hu, ⟨-, h⟩ | ⟨-, h⟩⟩ := r.report_cases now state <;> rw [h]
  · unfold Announces
    rw [statusChanges_recordLive, announced_recordLive, htouched, List.append_nil]
  · have hended := (r.touched now state).announces_ending now (reportUpdate_ne hu)
      (MissionStateService.liveRecords state r.plan) none
    unfold Announces at hended ⊢
    rwa [hid, htouched] at hended
  · unfold Announces
    dsimp only
    rw [statusChanges_recordLive, statusChanges_withStatus, htouched, announced_append,
      announced_recordLive, change_transition now (reportUpdate_ne hu), ← hid,
      announced_lifecycleEvent]
    rfl

/-- Whatever happens to a run, it announces the status changes that it logs and no others. -/
theorem announces_respond (input : RunInput) : r.Announces (r.respond input) := by
  cases input with
  | settled now command => exact r.announces_settle now command
  | cancelled now mode offline reply => exact r.announces_cancel now mode offline reply
  | closed now => exact r.announces_close now
  | paused now => exact r.announces_steer now _ _ (by decide)
  | resumed now => exact r.announces_steer now _ _ (by decide)
  | reported now state => exact r.announces_report now state
  | unclaimed now judged => exact r.announces_unclaimed now judged
  | annotated now notes => exact r.announces_nothing rfl rfl

end StoredRun

/-- What happens next in the backend: an action, or an operation that fails after `part` of it and
has its transaction rolled back. -/
inductive Attempt where
  | completed (a : Action)
  | interrupted (part : ServiceM Unit) (e : ServiceError)

def failAfter (part : ServiceM Unit) (e : ServiceError) : ServiceM Unit := do
  part
  throw e

namespace System
variable {s s' : System} {a : Action}

def attempt (s : System) : Attempt → Option System
  | .completed a => s.step a
  | .interrupted part e => some (s.perform (failAfter part e))

/-- Wherever an operation fails, only what it sent is left of it. -/
theorem attempt_interrupted {part : ServiceM Unit} {e : ServiceError}
    (h : s.attempt (.interrupted part e) = some s') :
    ∃ sent, s' = { s with world := { s.world with sent := s.world.sent ++ sent } } := by
  obtain rfl := Option.some.inj h
  have hfails : ∃ e' tx, (failAfter part e).exec { store := s.store } = (.error e', tx) := by
    unfold failAfter
    rw [exec_bind]
    rcases part.exec { store := s.store } with ⟨e' | u, tx⟩ <;> exact ⟨_, _, rfl⟩
  obtain ⟨e', tx, hx⟩ := hfails
  exact ⟨tx.sent, perform_error hx⟩

/-- The bus announces what the stored runs have logged, and nothing of runs not yet drawn. -/
structure Announced (s : System) : Prop where
  snapshots : Snapshots s
  unknown : ∀ runId, runId ∉ s.issued → announced runId s.world.bus = []
  stored : ∀ r ∈ s.runs.rows, announced r.runId s.world.bus = r.statusChanges

theorem announced_aboutRobot {events : List Event} (h : ∀ e ∈ events, e.AboutRobot)
    (runId : UUID) : announced runId events = [] := by
  apply List.filterMap_eq_nil_iff.mpr
  intro e he
  have hrobot := h e he
  unfold Event.AboutRobot at hrobot
  split at hrobot <;> first | rfl | cases hrobot

theorem announced_deletionEvents (runs : Table StoredRun.runId) (r : StoredRun) (runId : UUID) :
    announced runId (deletionEvents runs r) = [] := by
  unfold deletionEvents
  split_ifs <;> rfl

theorem Announced.step (hs : Announced s) (h : s.step a = some s') : Announced s' := by
  have hissued : ∀ runId, runId ∉ s'.issued → runId ∉ s.issued := fun _ hn hk =>
    hn (issued_mono h hk)
  have hquiet : ∀ events, s'.world.bus = s.world.bus ++ events →
      (∀ runId, announced runId events = []) → ∀ runId,
      announced runId s'.world.bus = announced runId s.world.bus := by
    intro events hb hnone runId
    rw [hb, announced_append, hnone, List.append_nil]
  cases step_runs hs.snapshots h with
  | idle events runs bus quiet =>
    have hbus := hquiet _ bus (announced_aboutRobot quiet)
    refine ⟨hs.snapshots.step h, fun runId hn => ?_, fun r hr => ?_⟩
    · rw [hbus, hs.unknown runId (hissued runId hn)]
    · rw [hbus, hs.stored r (runs ▸ hr)]
  | deleted r found cause ended runs bus =>
    have hbus := hquiet _ bus (announced_deletionEvents s.runs r)
    refine ⟨hs.snapshots.step h, fun runId hn => ?_, fun r' hr' => ?_⟩
    · rw [hbus, hs.unknown runId (hissued runId hn)]
    · rw [runs] at hr'
      rw [hbus, hs.stored r' (List.mem_filter.mp hr').1]
  | created p runId dispatch cause fresh absent free drawn runs bus =>
    have hbus := hquiet _ bus fun _ => rfl
    refine ⟨hs.snapshots.step h, fun runId' hn => ?_, fun r hr => ?_⟩
    · rw [hbus, hs.unknown runId' (hissued runId' hn)]
    · have hr' := Table.find?_of_mem hr
      rw [runs, Table.find?_insert] at hr'
      split_ifs at hr' with hid
      · -- A fresh run has logged nothing, and its id is new to the bus.
        obtain rfl := Option.some.inj hr'
        exact (hbus _).trans (hs.unknown runId fresh)
      · rw [hbus, hs.stored r (Table.mem_of_find? hr')]
  | responded r input found cause runs bus =>
    have hother : ∀ runId, r.runId ≠ runId →
        announced runId s'.world.bus = announced runId s.world.bus := by
      intro runId hne
      rw [bus, announced_append, r.announced_of_ne (r.of_respond input) hne,
        List.append_nil]
    refine ⟨hs.snapshots.step h, fun runId hn => ?_, fun q hq => ?_⟩
    · have hold := hissued runId hn
      rw [hother runId, hs.unknown runId hold]
      rintro rfl
      exact hold (hs.snapshots.issued r (Table.mem_of_find? found))
    · have hq' := Table.find?_of_mem hq
      have hid := r.runId_respond input
      rw [runs, Table.find?_replace, hid] at hq'
      split_ifs at hq' with hk
      · rw [hk, found] at hq'
        obtain rfl := Option.some.inj hq'
        rw [r.announces_respond input, hid, bus, announced_append,
          hs.stored r (Table.mem_of_find? found)]
      · rw [hother q.runId fun he => hk he.symm, hs.stored q (Table.mem_of_find? hq')]

theorem Announced.attempt (hs : Announced s) {x : Attempt} (h : s.attempt x = some s') :
    Announced s' := by
  cases x with
  | completed a => exact hs.step h
  | interrupted part e =>
    obtain ⟨sent, rfl⟩ := attempt_interrupted h
    obtain ⟨⟨issued, recorded, judged⟩, unknown, stored⟩ := hs
    exact ⟨⟨issued, recorded, judged⟩, unknown, stored⟩

theorem Initial.announced (h : s.Initial) : Announced s where
  snapshots := Reachable.snapshots ⟨s, [], h, rfl⟩
  unknown := by
    intro runId _
    rw [h.bus]
    rfl
  stored := by
    rw [h.runs]
    exact fun r hr => by cases hr

end System

/-- However operations succeed, are refused or fail midway, the status changes that the bus has seen
of a run are those that its log holds, and a rolled back operation leaves bus and store alone. -/
theorem lifecycle_events_are_status_changes {s₀ s : System} {acts : List Attempt}
    (h₀ : s₀.Initial) (h : StepSystem.exec System.attempt s₀ acts = some s) :
    (∀ r ∈ s.runs.rows, announced r.runId s.world.bus = r.statusChanges) ∧
      ∀ part e s', s.attempt (.interrupted part e) = some s' →
        s'.world.bus = s.world.bus ∧ s'.store = s.store := by
  have hs : s.Announced :=
    StepSystem.exec_invariant (fun _ _ _ hs hstep => hs.attempt hstep) h₀.announced h
  refine ⟨hs.stored, fun part e s' hstep => ?_⟩
  obtain ⟨sent, rfl⟩ := System.attempt_interrupted hstep
  exact ⟨rfl, rfl⟩

section Demo

def demoCancel : Attempt :=
  .completed (.cancel { missionId := 1, mode := .graceful } { applied := none })

/-- The operator closes the run, which is rolled back, and cancels it twice. -/
def demoAttempts : List Attempt :=
  (demoDispatch ++ [demoSettle .accepted]).map .completed ++
    [.interrupted (discard (RunService.close 0 { missionId := 1 })) (.missionNotFound 1),
      demoCancel, demoCancel]

/-- The second cancel is logged and not announced. -/
theorem lifecycle_events_are_status_changes_cancelled_twice : ∃ (s : System) (r : StoredRun),
    StepSystem.exec System.attempt demo demoAttempts = some s ∧ r ∈ s.runs.rows ∧
      r.transitions.length = 3 ∧ announced r.runId s.world.bus =
        [(.dispatched, .accept), (.cancelling, .cancelRequest)] := by
  have hrun : ((StepSystem.exec System.attempt demo demoAttempts).any fun s =>
      s.runs.rows.any fun r => r.transitions.length = 3 && r.statusChanges =
        [(.dispatched, .accept), (.cancelling, .cancelRequest)]) = true := by
    decide +kernel
  obtain ⟨s, hs, hp⟩ := (Option.any_eq_true _ _).mp hrun
  obtain ⟨r, hr, hp⟩ := List.any_eq_true.mp hp
  obtain ⟨hlength, hchanges⟩ := Bool.and_eq_true_iff.mp hp
  have hannounced := (lifecycle_events_are_status_changes (System.boot_initial _ _ _) hs).1 r hr
  exact ⟨s, r, hs, hr, of_decide_eq_true hlength, hannounced.trans (of_decide_eq_true hchanges)⟩

end Demo

end Leitstand
