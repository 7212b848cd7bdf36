import Leitstand.RunHistory
import Leitstand.Walk

namespace Leitstand

/-- The table allows the entry, or it is the loop an unanswered dispatch leaves on `PENDING`. -/
def RunTransition.Legal (e : RunTransition) : Prop :=
  allowedTransitions e.fromStatus e.trigger = some e.toStatus ∨
    (e.fromStatus = .pending ∧ e.trigger = .dispatchUnconfirmed ∧ e.toStatus = .pending)

theorem RunTransition.Legal.not_terminal {e : RunTransition} (h : e.Legal) :
    isTerminal e.fromStatus = false := by
  obtain h | ⟨h, -, -⟩ := h
  · exact not_isTerminal_of_allowed h
  · rw [h]; rfl

theorem legal_of_allowed {u : StatusUpdate} {now : Datetime}
    (h : allowedTransitions u.expected u.trigger = some u.newStatus) : (u.transition now).Legal :=
  .inl h

/-- The log leads legally from `PENDING` to the run's status, and the run's instants follow it. -/
structure LegalLog (r : StoredRun) : Prop where
  walk : IsWalk RunTransition.fromStatus RunTransition.toStatus .pending r.transitions r.status
  legal : ∀ e ∈ r.transitions, e.Legal
  ended : r.run.endedAt.isSome ↔ isTerminal r.status = true
  started : r.run.startedAt.isSome ↔ ∃ e ∈ r.transitions, e.toStatus = .running

namespace LegalLog
open StoredRun
variable {r r' : StoredRun} {now : Datetime} {u : StatusUpdate}

theorem fresh (digests : Digests) (runId : UUID) (p : Prepared) :
    LegalLog (freshRun digests runId p) where
  walk := rfl
  legal := by rintro e ⟨⟩
  ended := by simp [freshRun, StoredRun.status]
  started := by simp [freshRun, transitions]

theorem of_same (h : LegalLog r) (ht : r'.transitions = r.transitions) (hs : r'.status = r.status)
    (hb : r'.run.startedAt = r.run.startedAt) (he : r'.run.endedAt = r.run.endedAt) :
    LegalLog r' where
  walk := by rw [ht, hs]; exact h.walk
  legal := by rw [ht]; exact h.legal
  ended := by rw [he, hs]; exact h.ended
  started := by rw [hb, ht]; exact h.started

/-- A legal status change keeps the log legal. -/
theorem withStatus (h : LegalLog r) (hu : r.status = u.expected) (hl : (u.transition now).Legal) :
    LegalLog (r.withStatus now u) where
  walk := h.walk.snoc hu.symm
  legal := by
    intro e he
    obtain he | he := List.mem_append.mp he
    · exact h.legal e he
    · exact List.mem_singleton.mp he ▸ hl
  ended := by
    have hr : r.run.endedAt.isSome = false := by
      have ht : isTerminal r.status = false := hu ▸ hl.not_terminal
      simpa [ht] using h.ended
    change (if isTerminal u.newStatus = true then some now else r.run.endedAt).isSome ↔
      isTerminal u.newStatus = true
    split_ifs with ht <;> simp [ht, hr]
  started := by
    change (if u.newStatus = .running then r.run.startedAt.or (some now)
      else r.run.startedAt).isSome ↔ ∃ e ∈ r.transitions ++ [u.transition now], e.toStatus = .running
    simp only [List.mem_append, List.mem_singleton, or_and_right, exists_or, exists_eq_left]
    rw [← h.started]
    have ht : (u.transition now).toStatus = u.newStatus := rfl
    split_ifs with hn <;> simp [ht, hn]

theorem withAcknowledged (h : LegalLog r) (acknowledged : Bool) (detail : Option Detail) :
    LegalLog (r.withAcknowledged acknowledged detail) := by
  have hlog : (r.withAcknowledged acknowledged detail).transitions =
      r.transitions.modifyLast (acknowledge acknowledged detail) := rfl
  obtain he | ⟨ts, e, he⟩ := List.eq_nil_or_concat' r.transitions
  · exact h.of_same (by rw [hlog, he]; rfl) rfl rfl rfl
  · rw [he, List.modifyLast_concat] at hlog
    obtain ⟨walk, legal, ended, started⟩ := h
    rw [he] at walk legal started
    refine ⟨?_, ?_, ended, ?_⟩
    · rw [hlog]
      exact isWalk_snoc.mpr ((isWalk_snoc (e := e)).mp walk)
    · rw [hlog]
      simp only [List.mem_append, List.mem_singleton] at legal ⊢
      rintro e' (he' | rfl)
      · exact legal e' (.inl he')
      · exact legal e (.inr rfl)
    · rw [hlog]
      simp only [List.mem_append, List.mem_singleton, or_and_right, exists_or,
        exists_eq_left] at started ⊢
      exact started

theorem touched (h : LegalLog r) (state : MissionStateMessage) :
    LegalLog (r.touched now state) := by
  unfold StoredRun.touched
  split_ifs
  · exact h
  · exact h.of_same rfl rfl rfl rfl

theorem recordLive (h : LegalLog r) (live : List StageStateRecord) :
    LegalLog (r.recordLive live).row := by
  unfold StoredRun.recordLive
  split_ifs
  · exact h.of_same rfl rfl rfl rfl
  · exact h

theorem ending (h : LegalLog r) (hu : r.status = u.expected) (hl : (u.transition now).Legal)
    (overlay : List StageStateRecord) (reason : Option String) :
    LegalLog (r.ending now u overlay reason).row :=
  (h.withStatus hu hl).of_same rfl rfl rfl rfl

end LegalLog

theorem allowedTransitions_reconcile {s : RunStatus} (h : isTerminal s = false) :
    allowedTransitions s .reconcile = some (if s = .cancelling then .cancelled else .failed) := by
  cases s <;> first | rfl | cases h

theorem reportUpdate_legal {run : MissionRun} {state : MissionStateMessage} {u : StatusUpdate}
    (h : MissionStateService.reportUpdate run state = some u) (now : Datetime) :
    (u.transition now).Legal := by
  obtain ⟨-, target, htarget, rfl⟩ := MissionStateService.reportUpdate_eq_some.mp h
  exact .inl htarget

namespace LegalLog
variable {r : StoredRun}

theorem settle (h : LegalLog r) (now : Datetime) (command : SettleRunCommand) :
    LegalLog (r.settle now command).row := by
  unfold StoredRun.settle
  split
  · split_ifs with hp
    · exact h.withStatus hp (.inl rfl)
    · exact h.of_same rfl rfl rfl rfl
  · split_ifs with hp
    · refine h.ending rfl (.inl ?_) [] _
      obtain hp | hp := hp <;> simp only [StatusUpdate.transition, StoredRun.rejectUpdate, hp] <;> rfl
    · exact h
  all_goals
    split_ifs with hp
    · exact h.withStatus hp (.inr ⟨rfl, rfl, rfl⟩)
    · exact h.of_same rfl rfl rfl rfl

theorem cancel (h : LegalLog r) (now : Datetime) (mode : CancelMode) (offline : Bool)
    (reply : ControlReply) : LegalLog (r.cancel now mode offline reply).row := by
  rw [StoredRun.cancel_row]
  split_ifs with ht hr
  · exact h
  all_goals
    have hl := allowedTransitions_cancelRequest (s := r.status) (by simpa using ht)
    have hq : LegalLog (r.cancelRequested now mode offline reply) :=
      (h.withStatus rfl (legal_of_allowed (u := r.cancelUpdate mode) hl)).withAcknowledged _ _
  · exact hq.ending rfl (.inl rfl) [] _
  · exact hq

theorem steer (h : LegalLog r) (now : Datetime) (trigger : RunTrigger) (command : Command) :
    LegalLog (r.steer now trigger command).row := by
  unfold StoredRun.steer
  split
  · exact h
  · rename_i ht
    exact h.withStatus rfl (.inl ht)

theorem report (h : LegalLog r) (now : Datetime) (state : MissionStateMessage) :
    LegalLog (r.report now state).row := by
  obtain ⟨-, hs, -⟩ := @touched_same r now state
  obtain ⟨-, hr⟩ | ⟨u, hu, hu'⟩ := r.report_cases now state
  · rw [hr]
    exact (h.touched state).recordLive _
  · have he := hs.trans (reportUpdate_expected hu).1
    have hl := reportUpdate_legal hu now
    obtain ⟨-, hr⟩ | ⟨-, hr⟩ := hu' <;> rw [hr]
    · exact (h.touched state).ending he hl _ _
    · exact ((h.touched state).withStatus he hl).recordLive _

theorem respond (h : LegalLog r) (input : RunInput) : LegalLog (r.respond input).row := by
  cases input with
  | settled now command => exact h.settle now command
  | cancelled now mode offline reply => exact h.cancel now mode offline reply
  | closed now =>
    dsimp only [StoredRun.respond, StoredRun.close]
    split_ifs with ht
    · exact h
    · have hl := allowedTransitions_close (s := r.status) (by simpa using ht)
      exact h.ending rfl (legal_of_allowed (u := r.closeUpdate) hl) _ _
  | paused now => exact h.steer now _ _
  | resumed now => exact h.steer now _ _
  | reported now state => exact h.report now state
  | unclaimed now judged =>
    dsimp only [StoredRun.respond, StoredRun.unclaimed]
    split_ifs with hs
    · have hl := allowedTransitions_reconcile hs.2
      exact h.ending rfl (legal_of_allowed (u := r.unclaimedUpdate) hl) _ _
    · exact h
  | annotated now notes => exact h.of_same rfl rfl rfl rfl

end LegalLog

theorem System.Reachable.legalLog {s : System} (h : s.Reachable) {r : StoredRun}
    (hr : r ∈ s.runs.rows) : LegalLog r :=
  h.run_invariant LegalLog.fresh (fun _ input hl => hl.respond input) hr

/-- No entry follows one that enters a terminal state. -/
theorem LegalLog.last {r : StoredRun} (h : LegalLog r) {pre post : List RunTransition}
    {e : RunTransition} (he : r.transitions = pre ++ e :: post) (ht : isTerminal e.toStatus = true) :
    post = [] := by
  have hw := h.walk
  rw [he] at hw
  refine hw.last_of_stop (fun s => isTerminal s = true) (fun e' he' => ?_) ht
  simp [(h.legal e' (he ▸ he')).not_terminal]

theorem LegalLog.terminal_once {r : StoredRun} (h : LegalLog r) :
    (r.transitions.filter fun e => isTerminal e.toStatus).length ≤ 1 := by
  obtain hnil | ⟨ts, e, he⟩ := List.eq_nil_or_concat' r.transitions
  · simp [hnil]
  · have hts : ts.filter (fun e => isTerminal e.toStatus) = [] := by
      rw [List.filter_eq_nil_iff]
      intro e' he' ht
      obtain ⟨pre, post, rfl⟩ := List.append_of_mem he'
      have hlog : r.transitions = pre ++ e' :: (post ++ [e]) := by simp [he]
      simpa using h.last hlog ht
    rw [he, List.filter_append, hts, List.nil_append]
    exact (List.length_filter_le _ _).trans (by simp)

/-- Every run's log is a legal walk from `PENDING` to its status that ends where the run does. -/
theorem transition_log_is_legal_walk {s : System} (h : s.Reachable) {r : StoredRun}
    (hr : r ∈ s.runs.rows) : LegalLog r ∧
      (∀ pre e post, r.transitions = pre ++ e :: post → isTerminal e.toStatus = true → post = []) ∧
      (r.transitions.filter fun e => isTerminal e.toStatus).length ≤ 1 := by
  have hl := h.legalLog hr
  exact ⟨hl, fun pre e post he ht => hl.last he ht, hl.terminal_once⟩

theorem transition_log_is_legal_walk_finished : ∃ s : System, s.Reachable ∧
    ∃ r ∈ s.runs.rows, r.status = .succeeded ∧ LegalLog r ∧
      (∀ pre e post, r.transitions = pre ++ e :: post → isTerminal e.toStatus = true → post = []) ∧
      (r.transitions.filter fun e => isTerminal e.toStatus).length ≤ 1 := by
  obtain ⟨s, hs, hp⟩ := demo_reaches (fun s => s.runs.rows.any (·.status = .succeeded))
    (demoDispatch ++ [demoSettle .accepted, demoFrame 1 .running, demoFrame 2 .succeeded])
    (by decide)
  obtain ⟨r, hr, ht⟩ := List.any_eq_true.mp hp
  exact ⟨s, hs, r, hr, by simpa using ht, transition_log_is_legal_walk hs hr⟩

end Leitstand
