import Leitstand.CancelInFlight
import Leitstand.LatchedView

namespace Leitstand
open TxM RunService RunReconciliation MissionStateService

/-- The errors an input brings of its own to a run that it fails. -/
def RunInput.ownErrors : RunInput → List MissionError
  | .reported _ state => state.errors
  | .unclaimed _ _ => [unclaimedError]
  | _ => []

namespace StoredRun

/-- The stored errors begin with the warning of the run's unanswered dispatch. -/
structure Caused (r : StoredRun) (w : MissionError) (more : List MissionError) : Prop where
  errors : r.errors = some (w :: more)
  warning : ∃ type description, w = dispatchWarning type description

/-- What becomes of a recorded cause: it is kept as it is, or, by a failure, with the errors of that
failure after it, or cleared by a change to another status. -/
inductive Retains (own : List MissionError) (r r' : StoredRun) : Prop
  | kept (he : r'.errors = r.errors) (hs : r'.status = .failed → r.status = .failed)
  | failed (hn : r.status ≠ .failed) (hs : r'.status = .failed)
    (he : r'.errors = some (r.errors.getD [] ++ own))
  | cleared (hn : r'.status ≠ r.status) (hs : r'.status ≠ .failed) (he : r'.errors = none)

/-- The input does not put an error of its own in the place of the stored ones. -/
def SparesCause (r : StoredRun) : RunInput → Prop
  | .settled _ command => match command.outcome with
    | .accepted => True
    | .rejected => r.status ≠ .pending ∧ r.status ≠ .cancelling
    | .timeout | .error => r.status = .pending → r.errors = (unconfirmedUpdate command).errors
  | .unclaimed _ judged => ¬ (r.status = judged ∧ isTerminal r.status = false)
  | _ => True

variable {r : StoredRun} {now : Datetime} {u : StatusUpdate} {w : MissionError}
  {more own : List MissionError}

theorem errors_withStatus (h : u.errors = none) : (r.withStatus now u).errors = r.errors := by
  change orNone (u.errors.or r.run.failureErrors) = orNone r.run.failureErrors
  rw [h, Option.none_or]

theorem errors_withStatus_some {es : List MissionError} (h : u.errors = some es) :
    (r.withStatus now u).errors = orNone (some es) := by
  change orNone (u.errors.or r.run.failureErrors) = orNone (some es)
  rw [h, Option.some_or]

theorem errors_withStatus_one {e : MissionError} (h : u.errors = some [e]) :
    (r.withStatus now u).errors = some [e] := errors_withStatus_some h

/-- A status change that brings no errors keeps the cause. -/
theorem Retains.withStatus (h : u.errors = none) (hs : u.newStatus ≠ .failed) :
    r.Retains own (r.withStatus now u) :=
  .kept (errors_withStatus h) fun hf => absurd hf hs

/-- An error of its own in the place of the cause does not retain it. -/
theorem Caused.not_retains (hc : r.Caused w more) {r' : StoredRun} {e : MissionError}
    (he : r'.errors = some [e]) (hfatal : e.severity = .fatal) : ¬ r.Retains own r' := by
  obtain ⟨type, description, rfl⟩ := hc.warning
  have hne : e ≠ dispatchWarning type description := by
    rintro rfl
    cases hfatal
  rintro (⟨hsame, -⟩ | ⟨-, -, happended⟩ | ⟨-, -, hnone⟩)
  · rw [he, hc.errors] at hsame
    exact hne (List.cons.inj (Option.some.inj hsame)).1
  · rw [he, hc.errors] at happended
    exact hne (List.cons.inj (Option.some.inj happended)).1
  · rw [he] at hnone
    cases hnone

theorem retains_settle_iff (hc : r.Caused w more) (command : SettleRunCommand) :
    r.Retains own (r.settle now command).row ↔ r.SparesCause (.settled now command) := by
  have hkept : ∀ r' : StoredRun, r'.errors = r.errors → r'.status = r.status → r.Retains own r' :=
    fun r' he hs => .kept he fun hf => hs.symm.trans hf
  dsimp only [settle, SparesCause]
  cases command.outcome with
  | accepted =>
    refine iff_of_true ?_ trivial
    dsimp only
    split_ifs
    · exact .withStatus rfl (by simp [acceptUpdate])
    · exact hkept _ rfl rfl
  | rejected =>
    dsimp only
    by_cases hp : r.status = .pending ∨ r.status = .cancelling
    · rw [if_pos hp]
      have herrors : (r.withStatus now (r.rejectUpdate command)).errors =
          some [dispatchRejection (rejectionText command)] :=
        errors_withStatus_one rfl
      refine iff_of_false (hc.not_retains herrors rfl) fun h => ?_
      exact hp.elim h.1 h.2
    · rw [if_neg hp]
      exact iff_of_true (hkept r rfl rfl) (not_or.mp hp)
  | timeout | error =>
    dsimp only
    by_cases hp : r.status = .pending
    · have herrors : (r.withStatus now (unconfirmedUpdate command)).errors =
          (unconfirmedUpdate command).errors := errors_withStatus_one rfl
      rw [if_pos hp]
      constructor
      · rintro (⟨hsame, -⟩ | ⟨-, hfailed, -⟩ | ⟨hmoved, -, -⟩) _
        · exact hsame.symm.trans herrors
        · cases hfailed
        · exact absurd hp.symm hmoved
      · exact fun h => hkept _ (herrors.trans (h hp).symm) hp.symm
    · rw [if_neg hp]
      exact iff_of_true (hkept _ rfl rfl) fun hp' => absurd hp' hp

theorem retains_unclaimed_iff (hc : r.Caused w more) (judged : RunStatus) :
    r.Retains own (r.unclaimed now judged).row ↔ r.SparesCause (.unclaimed now judged) := by
  dsimp only [unclaimed, SparesCause]
  by_cases hs : r.status = judged ∧ isTerminal r.status = false
  · rw [if_pos hs]
    have herrors : (r.withStatus now r.unclaimedUpdate).errors = some [unclaimedError] :=
      errors_withStatus_one rfl
    exact iff_of_false (hc.not_retains herrors rfl) (not_not.mpr hs)
  · rw [if_neg hs]
    exact iff_of_true (.kept rfl id) hs

end StoredRun

/-- A report that moves a run moves it to another status. -/
theorem reportUpdate_moves {run : MissionRun} {state : MissionStateMessage} {u : StatusUpdate}
    (h : reportUpdate run state = some u) : u.newStatus ≠ run.status := by
  obtain ⟨-, target, htarget, rfl⟩ := reportUpdate_eq_some.mp h
  intro hsame
  dsimp only at hsame
  subst hsame
  rcases hs : run.status with _ | _ <;> rcases hx : state.execStatus with _ | _ <;>
    simp [hs, hx, triggerForReport] at htarget <;> cases htarget

namespace StoredRun
variable {r : StoredRun} {now : Datetime} {w : MissionError} {more own : List MissionError}

theorem retains_report (state : MissionStateMessage) (hc : r.Caused w more) :
    r.Retains state.errors (r.report now state).row := by
  obtain ⟨-, hs, -⟩ := @touched_same r now state
  have he := r.errors_touched now state
  have hstatus := status_report r now state
  obtain ⟨hu, h⟩ | ⟨u, hu, hu'⟩ := r.report_cases now state <;> rw [hu] at hstatus
  · refine .kept ?_ fun hf => hstatus.symm.trans hf
    rw [h, errors_recordLive, he]
  · have herrors : (r.report now state).row.errors =
        ((r.touched now state).withStatus now u).errors := by
      obtain ⟨-, h⟩ | ⟨-, h⟩ := hu' <;> rw [h]
      · rfl
      · rw [errors_recordLive]
    have hfailure : r.toRun.failureErrors = some (w :: more) := hc.errors
    have hmoves : u.newStatus ≠ r.toRun.status := reportUpdate_moves hu
    obtain ⟨-, target, -, rfl⟩ := reportUpdate_eq_some.mp hu
    by_cases hf : target = .failed
    · refine .failed (fun hr => hmoves (hf.trans hr.symm)) (hstatus.trans hf) (herrors.trans ?_)
      rw [errors_withStatus_some (if_pos hf), hfailure, hc.errors]
      rfl
    · refine .cleared (fun hr => hmoves (hstatus.symm.trans hr)) (fun hr => hf (hstatus.symm.trans hr))
        (herrors.trans ?_)
      rw [errors_withStatus_some ((if_neg hf).trans (congrArg _ hfailure))]
      rfl

/-- An input keeps the recorded cause exactly if it does not put its own error in its place. -/
theorem retains_respond_iff (hc : r.Caused w more) (input : RunInput) :
    r.Retains input.ownErrors (r.respond input).row ↔ r.SparesCause input := by
  cases input with
  | settled now command => exact retains_settle_iff hc command
  | unclaimed now judged => exact retains_unclaimed_iff hc judged
  | reported now state => exact iff_of_true (retains_report state hc) trivial
  | cancelled now mode offline reply =>
    refine iff_of_true ?_ trivial
    have herrors : (r.cancelRequested now mode offline reply).errors = r.errors :=
      @errors_withStatus r now (r.cancelUpdate mode) rfl
    dsimp only [respond]
    rw [cancel_row]
    split_ifs with ht hrefused
    · exact .kept rfl id
    · exact .kept ((errors_withStatus rfl).trans herrors) (by rintro ⟨⟩)
    · exact .kept herrors (by rintro ⟨⟩)
  | closed now =>
    refine iff_of_true ?_ trivial
    dsimp only [respond, close]
    split_ifs with ht
    · exact .kept rfl id
    · exact .kept (errors_withStatus rfl) (by rintro ⟨⟩)
  | paused now | resumed now =>
    refine iff_of_true ?_ trivial
    dsimp only [respond, steer]
    split
    · exact .kept rfl id
    · rename_i target htarget
      refine .withStatus rfl fun hf => ?_
      have hlive := not_isTerminal_of_request (by simp) htarget
      rw [show target = .failed from hf] at hlive
      cases hlive
  | annotated now notes => exact iff_of_true (.kept rfl id) trivial

end StoredRun
end Leitstand
