import Leitstand.FailureCause
import Leitstand.ReconcileEvidence
import Mathlib.Data.List.Infix

namespace Leitstand
open TxM RunService RunReconciliation

section Services
variable {tx : Tx Store Event Command} {r : StoredRun} {now : Datetime}

/-- A rejection is recorded of any run there is whose rows it can write. -/
theorem settle_rejected_succeeds {command : SettleRunCommand}
    (hr : tx.store.runs.find? command.runId = some r) (ho : command.outcome = .rejected)
    (hd : rewritesRow false r.stageRuns []
      (r.finalRows now (r.rejectUpdate command).newStatus []) = false) :
    ∃ run tx', (settle now command).exec tx = (.ok run, tx') := by
  have hid := Table.key_of_find? hr
  have hr' : tx.store.runs.find? r.runId = some r := hid ▸ hr
  have h : Holds tx r.runId := Option.isSome_iff_exists.mpr ⟨r, hr'⟩
  unfold settle
  simp only [Runs.getForUpdate, exec_bind, exec_get, hr, Option.map_some, ho]
  rw [← saving_self hr']
  unfold settleRejected
  by_cases hp : r.status = .pending ∨ r.status = .cancelling
  · have ht : isTerminal r.status = false := by obtain hp | hp := hp <;> rw [hp] <;> rfl
    simp [StoredRun.rejectUpdate] at hd
    simp [h, hp, ht, finalize, hd]
  · simp [h, hp]

end Services

/-- The errors a step brings of its own to a run that it fails. -/
def Action.ownErrors : Action → List MissionError
  | .record _ state => state.errors
  | .closeJudged _ => [unclaimedError]
  | _ => []

theorem Action.Causes.ownErrors {a : Action} {r : StoredRun} {input : RunInput}
    (h : a.Causes r input) : a.ownErrors = input.ownErrors := by
  cases input with
  | reported now state =>
    obtain ⟨rfl, -⟩ := h
    rfl
  | unclaimed now judged =>
    obtain ⟨i, rfl⟩ := h
    rfl
  | settled now command =>
    obtain ⟨rfl, -⟩ := h
    rfl
  | cancelled now mode offline reply =>
    obtain ⟨command, rfl, -⟩ := h
    rfl
  | closed now =>
    obtain ⟨command, rfl⟩ := h
    rfl
  | paused now | resumed now =>
    obtain ⟨command, reply, rfl⟩ := h
    rfl
  | annotated now notes =>
    obtain rfl : a = .annotate r.runId notes := h
    rfl

namespace System
variable {s s' : System} {a : Action} {r : StoredRun}

/-- The step retains the cause of every run that has one recorded. -/
def KeepsCause (s : System) (a : Action) : Prop :=
  ∀ s' r r' w more, s.step a = some s' → s.runs.find? r.runId = some r → r.Caused w more →
    s'.runs.find? r.runId = some r' → r.Retains a.ownErrors r'

/-- The reply to a dispatch, or the close of a judged run, does not come to a run with a recorded
cause that it would overwrite. -/
def SparesCause (s : System) : Action → Prop
  | .settle command => ∀ r w more, s.runs.find? command.runId = some r → r.Caused w more →
    r.SparesCause (.settled s.clock command)
  | .closeJudged i => ∀ c run judged r w more, s.reconciliations[i]? = some c →
    c.judged = run :: judged → s.runs.find? run.runId = some r → r.Caused w more →
      r.SparesCause (.unclaimed s.clock run.status)
  | _ => True

/-- The reply to a dispatch reaches its run. -/
theorem settle_takes (h : s.Reachable) {command : SettleRunCommand}
    (hr : s.runs.find? command.runId = some r) :
    (s.perform (settle s.clock command)).runs.find? r.runId =
      some (r.settle s.clock command).row := by
  refine (settle_taken hr ?_).1
  by_cases ho : command.outcome = .rejected
  · exact settle_rejected_succeeds hr ho (h.ends_cleanly (Table.mem_of_find? hr) s.clock _)
  · exact settle_succeeds hr ho

/-- The close of a judged run reaches it. -/
theorem closeUnclaimed_takes (h : s.Reachable) {c : Reconciliation} (hc : c ∈ s.reconciliations)
    {run : MissionRun} (hrun : run ∈ c.judged) (hr : s.runs.find? run.runId = some r) :
    (s.perform (closeUnclaimed s.clock run)).runs.find? r.runId =
      some (r.unclaimed s.clock run.status).row := by
  obtain ⟨hst, hm, hb⟩ := (h.snapshots.judged c hc run hrun).2 r hr
  have hid : r.runId = run.runId := Table.key_of_find? hr
  have hclean := h.ends_cleanly (Table.mem_of_find? hr) s.clock r.unclaimedUpdate.newStatus
  obtain ⟨ended, tx, hx⟩ : ∃ ended tx,
      (closeUnclaimed s.clock run).exec { store := s.store } = (.ok ended, tx) := by
    rw [@closeUnclaimed_eq { store := s.store } s.clock run r hr hst hm hb]
    by_cases hs : r.status = run.status ∧ isTerminal r.status = false
    · rw [if_pos hs, if_neg (by simp [hclean])]
      exact ⟨_, _, rfl⟩
    · rw [if_neg hs]
      exact ⟨_, _, rfl⟩
  exact (perform_answers (.unclaimed s.clock run.status) (hid ▸ hr) hx
    (closeUnclaimed_answers hr hst hm hb hx)).1

theorem settle_keepsCause_iff (h : s.Reachable) {command : SettleRunCommand} :
    s.KeepsCause (.settle command) ↔ s.SparesCause (.settle command) := by
  constructor
  · intro hkeeps r w more hr hc
    have hid : r.runId = command.runId := Table.key_of_find? hr
    exact (StoredRun.retains_respond_iff hc (.settled s.clock command)).mp
      (hkeeps _ r _ w more rfl (hid ▸ hr) hc (settle_takes h hr))
  · intro hspares s' r r' w more hs hr hc hr'
    cases h.runStep hs hr with
    | same found =>
      obtain rfl := Option.some.inj (found.symm.trans hr')
      exact .kept rfl id
    | gone cause => cases cause
    | took input cause =>
      obtain rfl := Option.some.inj hs
      have hid : command.runId = r.runId := by
        obtain ⟨now, rfl⟩ := cause.input
        exact cause.2
      have hrow := settle_takes h (hid ▸ hr)
      obtain rfl := Option.some.inj (hrow.symm.trans hr')
      exact (StoredRun.retains_respond_iff hc (.settled s.clock command)).mpr
        (hspares r w more (hid ▸ hr) hc)

theorem close_keepsCause_iff (h : s.Reachable) {i : Nat} :
    s.KeepsCause (.closeJudged i) ↔ s.SparesCause (.closeJudged i) := by
  constructor
  · intro hkeeps c run judged r w more hi hj hr hc
    have hid : r.runId = run.runId := Table.key_of_find? hr
    have hrow := closeUnclaimed_takes h (List.mem_of_getElem? hi) (hj ▸ List.mem_cons_self) hr
    have hstep := closeJudged_eq_some.mpr ⟨c, run, judged, hi, hj, rfl⟩
    exact (StoredRun.retains_respond_iff hc (.unclaimed s.clock run.status)).mp
      (hkeeps _ r _ w more hstep (hid ▸ hr) hc hrow)
  · intro hspares s' r r' w more hs hr hc hr'
    obtain ⟨c, run, judged, hi, hj, rfl⟩ := closeJudged_eq_some.mp hs
    have hmem : c ∈ s.reconciliations := List.mem_of_getElem? hi
    have hrun : run ∈ c.judged := hj ▸ List.mem_cons_self
    by_cases hid : r.runId = run.runId
    · have hrow := closeUnclaimed_takes h hmem hrun (hid ▸ hr)
      obtain rfl := Option.some.inj (hrow.symm.trans hr')
      exact (StoredRun.retains_respond_iff hc (.unclaimed s.clock run.status)).mpr
        (hspares c run judged r w more hi hj (hid ▸ hr) hc)
    · have hsame := (closeUnclaimed_spares h.snapshots hmem hrun hid).run
      obtain rfl := Option.some.inj ((hsame.trans hr).symm.trans hr')
      exact .kept rfl id

/-- No other step touches a recorded cause but to add to it or to clear it. -/
theorem keepsCause_of_other (h : s.Reachable) (hsettle : ∀ command, a ≠ .settle command)
    (hclose : ∀ i, a ≠ .closeJudged i) : s.KeepsCause a := by
  intro s' r r' w more hs hr hc hr'
  cases h.runStep hs hr with
  | same found =>
    obtain rfl := Option.some.inj (found.symm.trans hr')
    exact .kept rfl id
  | gone cause ended found =>
    rw [found] at hr'
    cases hr'
  | took input cause found =>
    obtain rfl := Option.some.inj (found.symm.trans hr')
    rw [cause.ownErrors]
    refine (StoredRun.retains_respond_iff hc input).mpr ?_
    cases input with
    | settled now command => exact absurd cause.1 (hsettle command)
    | unclaimed now judged =>
      obtain ⟨i, rfl⟩ := cause
      exact absurd rfl (hclose i)
    | _ => trivial

/-- The run as it is stored after the actions. -/
def runAfter (s : System) (acts : List Action) (runId : UUID) : Option StoredRun :=
  (StepSystem.exec System.step s acts).bind fun t => t.runs.find? runId

/-- After one of the actions the run has no stored errors. -/
def ClearedIn (s : System) (runId : UUID) (acts : List Action) : Prop :=
  ∃ pre post u, acts = pre ++ post ∧ s.runAfter pre runId = some u ∧ u.errors = none

/-- One of the actions failed the run, and what is stored is the cause with the errors of that
action after it. -/
def FailedWith (s : System) (runId : UUID) (w : MissionError) (acts : List Action)
    (r : StoredRun) : Prop :=
  ∃ pre a post q q', acts = pre ++ a :: post ∧ s.runAfter pre runId = some q ∧
    q.status ≠ .failed ∧ s.runAfter (pre ++ [a]) runId = some q' ∧ q'.status = .failed ∧
      r.errors = some (w :: a.ownErrors)

/-- How a run with a recorded cause stands after the actions taken since. -/
inductive CauseAfter (s : System) (runId : UUID) (w : MissionError) (acts : List Action)
    (r : StoredRun) : Prop
  | waits (hs : r.status ≠ .failed) (he : r.errors = some [w])
  | cleared (h : s.ClearedIn runId acts)
  | failed (hs : r.status = .failed) (h : s.FailedWith runId w acts r)

theorem runAfter_eq {acts : List Action} {t : System} {runId : UUID}
    (h : StepSystem.exec System.step s acts = some t) :
    s.runAfter acts runId = t.runs.find? runId := by
  unfold runAfter
  rw [h, Option.bind_some]

variable {runId : UUID} {w : MissionError} {acts : List Action}

theorem ClearedIn.snoc (h : s.ClearedIn runId acts) : s.ClearedIn runId (acts ++ [a]) := by
  obtain ⟨pre, post, u, rfl, hu, he⟩ := h
  exact ⟨pre, post ++ [a], u, List.append_assoc .., hu, he⟩

/-- A run that failed stays failed. -/
theorem failed_stays (h : s.Reachable) (hs : s.step a = some s') (hr : s.runs.find? r.runId = some r)
    (hf : r.status = .failed) {r' : StoredRun} (hr' : s'.runs.find? r.runId = some r') :
    r'.status = .failed := by
  have ht : isTerminal r.status = true := by rw [hf]; rfl
  by_cases ha : a = .deleteRun r.runId
  · cases h.runStep hs hr with
    | same found =>
      obtain rfl := Option.some.inj (found.symm.trans hr')
      exact hf
    | took input cause found =>
      obtain rfl := Option.some.inj (found.symm.trans hr')
      exact (StoredRun.respond_terminal ht input).status.trans hf
    | gone cause ended found =>
      rw [found] at hr'
      cases hr'
  · obtain ⟨q, hq, hstatus, -⟩ := (h.runsStep hs).ended_stays hr ht ha
    obtain rfl := Option.some.inj (hq.symm.trans hr')
    exact hstatus.trans hf

/-- One step that keeps the causes takes a run with a recorded cause on. -/
theorem CauseAfter.step {m m' : System} (h : m.Reachable) (hk : m.KeepsCause a)
    (hw : ∃ type description, w = dispatchWarning type description)
    (hm : StepSystem.exec System.step s acts = some m) (hs : m.step a = some m') {q : StoredRun}
    (hq : m.runs.find? q.runId = some q) (hc : s.CauseAfter q.runId w acts q)
    (hr : m'.runs.find? q.runId = some r) : s.CauseAfter q.runId w (acts ++ [a]) r := by
  have hm' : StepSystem.exec System.step s (acts ++ [a]) = some m' :=
    StepSystem.exec_snoc_iff.mpr ⟨m, hm, hs⟩
  have hbefore : s.runAfter acts q.runId = some q := (runAfter_eq hm).trans hq
  have hafter : s.runAfter (acts ++ [a]) q.runId = some r := (runAfter_eq hm').trans hr
  cases hc with
  | cleared hcleared => exact .cleared hcleared.snoc
  | waits hn he =>
    cases hk m' q r w [] hs hq ⟨he, hw⟩ hr with
    | kept hsame hstays => exact .waits (fun hf => hn (hstays hf)) (hsame.trans he)
    | failed _ hf happended =>
      rw [he] at happended
      exact .failed hf ⟨acts, a, [], q, r, rfl, hbefore, hn, hafter, hf, happended⟩
    | cleared _ _ hnone => exact .cleared ⟨acts ++ [a], [], r, by simp, hafter, hnone⟩
  | failed hf hfailed =>
    have hstays := failed_stays h hs hq hf hr
    obtain ⟨pre, b, post, u, u', rfl, hu, hn, hu', hf', he⟩ := hfailed
    have hsame : r.errors = q.errors := by
      cases hk m' q r w b.ownErrors hs hq ⟨he, hw⟩ hr with
      | kept hsame _ => exact hsame
      | failed hnot _ _ => exact absurd hf hnot
      | cleared _ hnot _ => exact absurd hstays hnot
    exact .failed hstays ⟨pre, b, post ++ [a], u, u', by simp, hu, hn, hu', hf', hsame.trans he⟩

/-- Steps that keep the causes lead a run from its recorded cause on. -/
theorem causeAfter {past : List Action} (h : s.Reachable)
    (hw : ∃ type description, w = dispatchWarning type description)
    (hstart : s.runs.find? r.runId = some r) (hn : r.status ≠ .failed) (he : r.errors = some [w])
    (hk : StepSystem.Throughout System.step (fun _ m a => m.KeepsCause a) past s acts)
    {t : System} (ht : StepSystem.exec System.step s acts = some t) {r' : StoredRun}
    (hr' : t.runs.find? r.runId = some r') : s.CauseAfter r.runId w acts r' := by
  induction acts using List.reverseRecOn generalizing t r' with
  | nil =>
    cases ht
    obtain rfl := Option.some.inj (hstart.symm.trans hr')
    exact .waits hn he
  | append_singleton acts a ih =>
    obtain ⟨m, hm, hs⟩ := StepSystem.exec_snoc_iff.mp ht
    obtain ⟨hbefore, hlast⟩ := (StepSystem.throughout_snoc hm).mp hk
    have hreach : m.Reachable :=
      StepSystem.exec_invariant (fun _ _ _ hreach hs => hreach.step hs) h hm
    have hissued : r.runId ∈ m.issued :=
      StepSystem.exec_invariant (I := fun m => r.runId ∈ m.issued)
        (fun _ _ _ hmem hs => issued_mono hs hmem)
        (h.snapshots.issued r (Table.mem_of_find? hstart)) hm
    obtain ⟨q, hq, -⟩ := (hreach.runsStep hs).find?_old hissued hr'
    have hid : q.runId = r.runId := Table.key_of_find? hq
    have hc := ih hbefore hm hq
    rw [← hid] at hq hc hr' ⊢
    exact hc.step hreach hlast hw hm hs hq hr'

/-- A reply that leaves the dispatch of a pending run open records its cause. -/
theorem settle_records (h : s.Reachable) {command : SettleRunCommand}
    (hr : s.runs.find? command.runId = some r) (hp : r.status = .pending)
    (ho : command.outcome = .timeout ∨ command.outcome = .error) :
    ∃ r', (s.perform (settle s.clock command)).runs.find? command.runId = some r' ∧
      r'.runId = command.runId ∧ r'.status = .pending ∧
      r'.errors = (StoredRun.unconfirmedUpdate command).errors := by
  have hid : r.runId = command.runId := Table.key_of_find? hr
  have hrow := settle_takes h hr
  have hsettle : (r.settle s.clock command).row =
      r.withStatus s.clock (StoredRun.unconfirmedUpdate command) := by
    unfold StoredRun.settle
    obtain ho | ho := ho
    all_goals
      rw [ho]
      dsimp only
      rw [if_pos hp]
  rw [hsettle, hid] at hrow
  exact ⟨_, hrow, hid, rfl, StoredRun.errors_withStatus_one rfl⟩

/-- The reply leaves the dispatch of a pending run open. -/
def LeavesOpen (s : System) (command : SettleRunCommand) : Prop :=
  (command.outcome = .timeout ∨ command.outcome = .error) ∧
    ∃ r, s.runs.find? command.runId = some r ∧ r.status = .pending

/-- Whenever the run is failed after a reply that left its dispatch open, and nothing cleared its
errors in between, the warning of that reply stands before the errors of the failure. -/
def FailsWithCause (s : System) (command : SettleRunCommand) (acts : List Action) : Prop :=
  ∀ mid post t r, acts = mid ++ post → StepSystem.exec System.step s mid = some t →
    t.runs.find? command.runId = some r → r.status = .failed → ¬ s.ClearedIn command.runId mid →
      ∃ w, (StoredRun.unconfirmedUpdate command).errors = some [w] ∧
        s.FailedWith command.runId w mid r

theorem settle_failsWithCause {past post : List Action} {command : SettleRunCommand}
    (h : s.Reachable) (ho : s.LeavesOpen command) (hs : s.step (.settle command) = some s')
    (hk : StepSystem.Throughout System.step (fun _ m a => m.KeepsCause a) past s' post) :
    s'.FailsWithCause command post := by
  intro mid rest t r' hpost ht hr' hf hclear
  obtain ⟨houtcome, q, hq, hp⟩ := ho
  obtain ⟨r, hr, hid, hpending, herrors⟩ := settle_records h hq hp houtcome
  have hreach : s'.Reachable := h.step hs
  obtain rfl := Option.some.inj hs
  rw [← hid] at hr hr' hclear
  rw [hpost] at hk
  have hlive : r.status ≠ .failed := by simp [hpending]
  refine ⟨_, rfl, ?_⟩
  cases causeAfter hreach ⟨_, _, rfl⟩ hr hlive herrors hk.of_append ht hr' with
  | waits hn _ => exact absurd hf hn
  | cleared hcleared => exact absurd hcleared hclear
  | failed _ hfailed => exact hid ▸ hfailed

end System

open StepSystem

theorem keepsCause_iff {s₀ : System} {acts : List Action} (h₀ : s₀.Initial) :
    Throughout System.step (fun _ m a => m.KeepsCause a) [] s₀ acts ↔
      Throughout System.step (fun _ m a => m.SparesCause a) [] s₀ acts := by
  refine throughout_congr (I := fun _ s => s.Reachable) (fun _ _ _ _ => System.Reachable.step) ?_
    ⟨s₀, [], h₀, rfl⟩
  intro past s a h
  cases a with
  | settle command => exact System.settle_keepsCause_iff h
  | closeJudged i => exact System.close_keepsCause_iff h
  | _ => exact iff_of_true (System.keepsCause_of_other h (by simp) (by simp)) trivial

/-- The causes recorded in a run of the backend are retained: no step replaces one, and a run that
fails after its dispatch was left open is stored with that warning and the errors of the failure. -/
structure CausesRetained (s₀ : System) (acts : List Action) : Prop where
  steps : Throughout System.step (fun _ m a => m.KeepsCause a) [] s₀ acts
  failures : ∀ pre command post m s, acts = pre ++ .settle command :: post →
    exec System.step s₀ pre = some m → m.LeavesOpen command →
      m.step (.settle command) = some s → s.FailsWithCause command post

/-- The causes are retained in just the runs of the backend that spare them: no reconciliation
closes, no rejection fails and no second open reply takes a run that stores one. -/
theorem causes_retained_iff {s₀ : System} {acts : List Action} (h₀ : s₀.Initial) :
    CausesRetained s₀ acts ↔ Throughout System.step (fun _ m a => m.SparesCause a) [] s₀ acts := by
  refine Iff.trans ⟨CausesRetained.steps, fun hsteps => ⟨hsteps, ?_⟩⟩ (keepsCause_iff h₀)
  rintro pre command post m s rfl hm ho hs
  have hreach : m.Reachable := ⟨s₀, pre, h₀, hm⟩
  have hrest := ((throughout_append hm).mp hsteps).2
  exact System.settle_failsWithCause hreach ho hs (hrest.2 s hs)

section Demo

/-- The dispatch is left unanswered, and the robot comes back without the run. -/
def demoUnanswered : List Action :=
  demoDispatch ++ [demoSettle .timeout, .tick 20000000, .livelinessPut "r1",
    .answerMetadata 0 [.object (some "r1") .null], .metadataArrives 0, .startReconciliation 0,
    .judgeRun 0]

theorem causes_retained_iff_unanswered :
    (exec System.step demo (demoUnanswered ++ [.closeJudged 0])).isSome = true ∧
    (CausesRetained demo (demoUnanswered ++ [.closeJudged 0]) ↔
      Throughout System.step (fun _ m a => m.SparesCause a) [] demo
        (demoUnanswered ++ [.closeJudged 0])) :=
  ⟨by decide, causes_retained_iff (System.boot_initial _ _ _)⟩

/-- The reconciliation fails the run with its own error in the place of the warning. -/
theorem reconciliation_replaces_cause : ¬ ∀ (s₀ : System) (acts : List Action), s₀.Initial →
    (exec System.step s₀ acts).isSome = true → CausesRetained s₀ acts := by
  intro hall
  let command : SettleRunCommand := { runId := 7, outcome := .timeout, repliedAt := 0 }
  let post : List Action := demoUnanswered.drop 3 ++ [.closeJudged 0]
  have hretained := hall demo (demoUnanswered ++ [.closeJudged 0]) (System.boot_initial _ _ _)
    (by decide)
  have hdemo : (exec System.step demo demoDispatch).any (fun m =>
      ((m.runs.find? 7).any fun r : StoredRun => r.status = .pending) &&
      (m.step (.settle command)).any fun s =>
        (post.inits.all fun pre => (s.runAfter pre 7).all fun u : StoredRun => u.errors ≠ none) &&
        (exec System.step s post).any fun t => (t.runs.find? 7).any fun r : StoredRun =>
          r.status = .failed ∧ r.errors = some [unclaimedError]) = true := by decide
  obtain ⟨m, hm, hp⟩ := (Option.any_eq_true _ _).mp hdemo
  obtain ⟨hpending, hp⟩ := (Bool.and_eq_true _ _).mp hp
  obtain ⟨q, hq, hpending⟩ := (Option.any_eq_true _ _).mp hpending
  obtain ⟨s, hs, hp⟩ := (Option.any_eq_true _ _).mp hp
  obtain ⟨hinits, hp⟩ := (Bool.and_eq_true _ _).mp hp
  obtain ⟨t, ht, hp⟩ := (Option.any_eq_true _ _).mp hp
  obtain ⟨r, hr, hp⟩ := (Option.any_eq_true _ _).mp hp
  obtain ⟨hf, herrors⟩ := of_decide_eq_true hp
  have hclear : ¬ s.ClearedIn 7 post := by
    rintro ⟨pre, rest, u, hpost, hu, hnone⟩
    have hpre : pre ∈ post.inits := (List.mem_inits pre post).mpr ⟨rest, hpost.symm⟩
    have hall := List.all_eq_true.mp hinits pre hpre
    rw [hu] at hall
    exact of_decide_eq_true hall hnone
  obtain ⟨w, hw, hfailed⟩ := hretained.failures demoDispatch command post m s rfl hm
    ⟨.inl rfl, q, hq, of_decide_eq_true hpending⟩ hs post [] t r (by simp) ht hr hf hclear
  obtain ⟨pre, a, rest, u, u', -, -, -, -, -, hcause⟩ := hfailed
  rw [herrors] at hcause
  have hkept : (StoredRun.unconfirmedUpdate command).errors = some [unclaimedError] := by
    rw [hw, (List.cons.inj (Option.some.inj hcause)).1]
  exact absurd hkept (by decide)

end Demo
end Leitstand
