import Leitstand.HttpRoutes
import Leitstand.PlannedFit
import Leitstand.ReconcileStore
import Leitstand.Triples

namespace Leitstand
open TxM

theorem raiseIf_eq_error {c : Prop} [Decidable c] {e e' : ServiceError} :
    raiseIf c e = .error e' ↔ c ∧ e' = e := by
  unfold raiseIf
  split_ifs with h <;> simp [h, eq_comm]

theorem orRaise_eq_error {β : Type} {e e' : ServiceError} {o : Option β} :
    orRaise e o = .error e' ↔ o = none ∧ e' = e := by
  cases o <;> simp [orRaise, eq_comm]

/-- The error is answered, with 404 exactly where what the request names is missing. -/
def Handled (handler : ErrorHandler) (missing : Prop) (e : ServiceError) : Prop :=
  ∃ http, handler e = some http ∧ (http.statusCode = 404 ↔ missing)

theorem Handled.notFound {handler : ErrorHandler} {missing : Prop} {e : ServiceError}
    {http : HTTPException} (h : handler e = some http) (hcode : http.statusCode = 404)
    (hm : missing) : Handled handler missing e :=
  ⟨http, h, iff_of_true hcode hm⟩

theorem Handled.other {handler : ErrorHandler} {missing : Prop} {e : ServiceError}
    {http : HTTPException} (h : handler e = some http) (hcode : (http.statusCode == 404) = false)
    (hm : ¬ missing) : Handled handler missing e :=
  ⟨http, h, iff_of_false (by simpa using hcode) hm⟩

/-- The run is stored with the plan it was read with, and its stage rows are in their places. -/
def Ends (run : MissionRun) (store : Store) : Prop :=
  ∃ r, store.runs.find? run.runId = some r ∧ r.run.stages = run.stages ∧ r.Placed

theorem ends_toRun {store : Store} {r : StoredRun} (h : store.StagesPlaced)
    (hr : store.runs.find? r.runId = some r) : Ends r.toRun store :=
  ⟨r, hr, rfl, h r (Table.mem_of_find? hr)⟩

/-- An update that leaves the run's id, its plan and its stage rows alone. -/
structure KeepsPlan (f : StoredRun → StoredRun) : Prop where
  runId : ∀ r, (f r).runId = r.runId
  stages : ∀ r, (f r).run.stages = r.run.stages
  stageRuns : ∀ r, (f r).stageRuns = r.stageRuns

theorem Ends.saveRun {run : MissionRun} {store : Store} {f : StoredRun → StoredRun}
    {r : StoredRun} (h : Ends run store) (hf : KeepsPlan f)
    (hr : store.runs.find? run.runId = some r) : Ends run (Runs.saveRun (f r) store) := by
  obtain ⟨q, hq, hplan, hplaced⟩ := h
  obtain rfl := Option.some.inj (hr.symm.trans hq)
  have hid : (f r).runId = run.runId := (hf.runId r).trans (Table.key_of_find? hr)
  refine ⟨f r, ?_, (hf.stages r).trans hplan, ?_⟩
  · show (store.runs.replace (f r)).find? run.runId = some (f r)
    rw [← hid] at hr ⊢
    exact Table.find?_replace_self hr
  · intro row hrow
    rw [hf.stageRuns r] at hrow
    have hstages : (f r).plan = r.plan := congrArg Plan.stages (hf.stages r)
    rw [hstages]
    exact hplaced row hrow

namespace RunService
variable {E : ServiceError → Prop} {run : MissionRun} {now : Datetime}

theorem updateRow_triple {f : StoredRun → StoredRun} (hf : KeepsPlan f) :
    Triple (Ends run) (Runs.updateRow run.runId f) (fun _ => Ends run) E := by
  refine .of_store fun s₀ h => ?_
  obtain ⟨r, hr, -⟩ := id h
  refine .read_bind (fun s => s.runs.find? run.runId) (fun _ => rfl) ?_
  rw [hr]
  refine .setStore _ ?_
  rintro s rfl
  exact h.saveRun hf hr

theorem keepsPlan_withStatus (now : Datetime) (u : StatusUpdate) :
    KeepsPlan fun r => r.withStatus now u := ⟨fun _ => rfl, fun _ => rfl, fun _ => rfl⟩

/-- The compare-and-set keeps the run, and what it returns is the same run. -/
theorem updateStatus_triple (u : StatusUpdate) :
    Triple (Ends run) (Runs.updateStatus now run.runId u)
      (fun updated s => Ends run s ∧ ∀ q ∈ updated, Ends q s) E := by
  refine .of_store fun s₀ h => ?_
  obtain ⟨r, hr, hplan, -⟩ := id h
  refine .read_bind (fun s => s.runs.find? run.runId) (fun _ => rfl) ?_
  rw [hr]
  dsimp only
  split_ifs
  · refine Triple.bind (Q := fun _ s => s = Runs.saveRun (r.withStatus now u) s₀)
      (.setStore _ fun s hs => by rw [hs]) fun _ => .pure _ ?_
    rintro s rfl
    have hkept := h.saveRun (keepsPlan_withStatus now u) hr
    refine ⟨hkept, ?_⟩
    rintro updated ⟨⟩
    obtain ⟨q, hq, hplan', hplaced'⟩ := hkept
    have hid : r.runId = run.runId := Table.key_of_find? hr
    exact ⟨q, (congrArg _ hid).trans hq, hplan'.trans hplan.symm, hplaced'⟩
  · refine .pure none ?_
    rintro s rfl
    exact ⟨h, by simp⟩

theorem updateStatus_keeps (u : StatusUpdate) :
    Triple (Ends run) (Runs.updateStatus now run.runId u) (fun _ => Ends run) E :=
  (updateStatus_triple u).post fun _ _ h => h.1

theorem publish_triple {P : Store → Prop} (topic : Topic) (payload : Payload) (latch : Bool) :
    Triple P (publish topic payload latch) (fun _ => P) E := .enqueue _ fun _ => id

theorem audit_triple {P : Store → Prop} (entry : AuditEntry)
    (h : ∀ s : Store, P s → P { s with audit := s.audit ++ [entry] }) :
    Triple P (audit entry) (fun _ => P) E := .setStore _ h

/-- The final stage rows of a run go in without an error. -/
theorem settleStageState_triple (status : RunStatus) (errors : Option (List MissionError)) :
    Triple (Ends run) (settleStageState now run status errors []) (fun _ _ => True) E := by
  refine .of_store fun s₀ h => ?_
  obtain ⟨r, hr, hplan, hplaced⟩ := h
  refine .read_bind (fun s => (s.runs.find? run.runId).elim [] StoredRun.stageRows)
    (fun _ => rfl) ?_
  rw [hr]
  refine Triple.bind (Q := fun _ _ => True) ?_ fun _ =>
    Triple.bind (Q := fun _ _ => True) (publish_triple _ _ _) fun _ => .pure _ fun _ _ => trivial
  have hrows : finalStageStatuses run.stages.stages
      ((Table.ofRows r.stageRows).upsertAll [] fun _ _ => true) status now =
        r.finalRows now status [] := by
    rw [← hplan]
    rfl
  have hne : r.finalRows now status [] ≠ [] :=
    finalStageStatuses_ne_nil r.run.stages.nonempty _ _ _
  dsimp only [Option.elim]
  rw [hrows]
  unfold Runs.overwriteStageRuns
  rw [if_neg hne]
  refine .read_bind (fun s => s.runs.find? run.runId) (fun _ => rfl) ?_
  rw [hr]
  dsimp only
  rw [StoredRun.ends_cleanly hplaced (by simp) now status r.stageRuns]
  exact .setStore _ fun _ _ => trivial

theorem finalize_triple (errors : Option (List MissionError)) :
    Triple (Ends run) (finalize now run errors) (fun _ _ => True) E :=
  (settleStageState_triple run.status errors).bind fun _ => .pure _ fun _ _ => trivial

theorem closeRefused_triple (reason : Option String) :
    Triple (Ends run) (closeRefused now run reason) (fun _ _ => True) E := by
  unfold closeRefused
  refine (updateStatus_triple _).bind fun updated => ?_
  cases updated with
  | none => exact .pure _ fun _ _ => trivial
  | some closed =>
    refine Triple.bind (Q := fun _ _ => True) ?_ fun _ => publish_triple _ _ _
    exact (finalize_triple none).pre fun s hs => hs.2 closed rfl

theorem setAcknowledged_triple (acknowledged : Bool) (detail : Option Detail) :
    Triple (Ends run) (Runs.setAcknowledged run.runId acknowledged detail) (fun _ => Ends run) E :=
  updateRow_triple ⟨fun _ => rfl, fun _ => rfl, fun _ => rfl⟩

theorem forwardCancel_triple (mode : CancelMode) (reply : ControlReply) :
    Triple (Ends run) (forwardCancel now run mode reply) (fun _ _ => True) E := by
  refine Triple.bind (Q := fun _ => Ends run) (.send _ fun _ => id) fun _ => ?_
  split
  · exact (setAcknowledged_triple _ _).post fun _ _ _ => trivial
  · exact (setAcknowledged_triple _ _).post fun _ _ _ => trivial
  · refine (setAcknowledged_triple _ _).bind fun _ => ?_
    split_ifs
    · exact closeRefused_triple reply.reason
    · exact .pure () fun _ _ => trivial

theorem announceCancel_triple {P : Store → Prop} :
    Triple P (announceCancel run) (fun _ => P) E := by
  unfold announceCancel
  split_ifs
  · exact publish_triple _ _ _
  · exact .pure () fun _ => id

/-- The run as it is in the end, which is read back. -/
theorem reread_triple {P : Store → Prop} (updated : MissionRun) :
    Triple P (do return (← Runs.get run.runId).getD updated) (fun _ _ => True) E :=
  Triple.bind (Q := fun _ _ => True)
    (.read (fun s => (s.runs.find? run.runId).map StoredRun.toRun) (fun _ => rfl)
      fun _ _ => trivial)
    fun _ => .pure _ fun _ _ => trivial

/-- The mission of a command is not there, or the run it means. -/
def TargetMissing (store : Store) (missionId : UUID) (runId : Option UUID) : Prop :=
  store.missions.find? missionId = none ∨ ∀ r ∈ store.runs.rows,
    r.missionId = missionId → runId.any (· ≠ r.runId) = true

section Steer
variable {s₀ : Store} {missionId : UUID} {runId : Option UUID} {handler : ErrorHandler}

theorem mem_listActive {p : StoredRun → Bool} {summary : MissionRunSummary}
    (h : summary ∈ Runs.listActive p s₀) :
    ∃ r ∈ s₀.runs.rows, p r = true ∧ isActive r.status = true ∧
      r.run.toMissionRunSummary = summary := by
  obtain ⟨r, hr, rfl⟩ := List.mem_map.mp ((List.mem_insertionSort _).mp h)
  obtain ⟨hmem, hp⟩ := List.mem_filter.mp hr
  obtain ⟨hp, hactive⟩ := Bool.and_eq_true_iff.mp hp
  exact ⟨r, hmem, hp, hactive, rfl⟩

/-- The newest of these runs. -/
def latestOf (runs : List StoredRun) : Option MissionRunSummary :=
  ((runs.map (·.run.toMissionRunSummary)).insertionSort
    fun a b => b.createdAt ≤ a.createdAt).head?

theorem latestOf_eq_none {runs : List StoredRun} : latestOf runs = none ↔ runs = [] := by
  unfold latestOf
  rw [List.head?_eq_none_iff, ← List.length_eq_zero_iff, List.length_insertionSort,
    List.length_map, List.length_eq_zero_iff]

/-- What the commands share: the run they mean is found, or the error is answered. -/
theorem target_triple (hplaced : s₀.StagesPlaced)
    (hsteer : ∀ e, Routes.isSteerError e = true → handler e = some (Routes.steerErrors e)) :
    Triple (fun s => s = s₀) (target missionId runId)
      (fun run s => s = s₀ ∧ Ends run s₀ ∧ ¬ TargetMissing s₀ missionId runId)
      (Handled handler (TargetMissing s₀ missionId runId)) := by
  unfold target
  refine .read_bind (fun s => s.missions.find? missionId) (fun _ => rfl) ?_
  cases hm : s₀.missions.find? missionId with
  | none => exact .throw _ fun _ _ => .notFound (hsteer _ rfl) rfl (.inl hm)
  | some mission =>
    have hthere : ∀ r ∈ s₀.runs.rows, r.missionId = missionId →
        runId.any (· ≠ r.runId) = false → ¬ TargetMissing s₀ missionId runId := by
      rintro r hr hmission hmeant (hnone | hall)
      · rw [hm] at hnone
        cases hnone
      · rw [hall r hr hmission] at hmeant
        cases hmeant
    cases runId with
    | some runId =>
      refine .read_bind (fun s => (s.runs.find? runId).map StoredRun.toRun) (fun _ => rfl) ?_
      cases hr : s₀.runs.find? runId with
      | none =>
        refine .throw _ fun _ _ => .notFound (hsteer _ rfl) rfl (.inr fun r hmem _ => ?_)
        have hne : runId ≠ r.runId := by
          rintro rfl
          rw [Table.find?_of_mem hmem] at hr
          cases hr
        simpa using hne
      | some r =>
        have hid : r.runId = runId := Table.key_of_find? hr
        have hmem : r ∈ s₀.runs.rows := Table.mem_of_find? hr
        refine .check_bind (fun e he => ?_) fun u hmission => ?_
        · obtain ⟨hne, rfl⟩ := raiseIf_eq_error.mp he
          refine .notFound (hsteer _ rfl) rfl (.inr fun q hq hqm => ?_)
          have hne' : runId ≠ q.runId := by
            rintro rfl
            rw [Table.find?_of_mem hq] at hr
            obtain rfl := Option.some.inj hr
            exact hne hqm
          simpa using hne'
        · have hthere : ¬ TargetMissing s₀ missionId (some runId) :=
            hthere r hmem (not_not.mp (raiseIf_eq_ok.mp hmission)) (by simp [hid])
          refine .check_bind (fun e he => ?_) fun u hactive => ?_
          · obtain ⟨-, rfl⟩ := raiseIf_eq_error.mp he
            exact .other (hsteer _ rfl) rfl hthere
          · refine .pure _ fun s hs => ⟨hs, ends_toRun hplaced (hid ▸ hr), hthere⟩
    | none =>
      refine .read_bind (fun s => Runs.listActive (fun r => r.missionId = missionId) s)
        (fun _ => rfl) ?_
      cases hactive : Runs.listActive (fun r => r.missionId = missionId) s₀ with
      | nil =>
        refine .read_bind (fun s => latestOf (s.runs.rows.filter fun r => r.missionId = missionId))
          (fun _ => rfl) ?_
        cases hlatest : latestOf (s₀.runs.rows.filter fun r => r.missionId = missionId) with
        | none =>
          refine .throw _ fun _ _ => .notFound (hsteer _ rfl) rfl (.inr fun r hr hmission => ?_)
          have hmem : r ∈ s₀.runs.rows.filter fun r => r.missionId = missionId :=
            List.mem_filter.mpr ⟨hr, decide_eq_true hmission⟩
          rw [latestOf_eq_none.mp hlatest] at hmem
          cases hmem
        | some summary =>
          refine .throw _ fun _ _ => .other (hsteer _ rfl) rfl ?_
          have hsome :
              latestOf (s₀.runs.rows.filter fun r => r.missionId = missionId) ≠ none := by
            rw [hlatest]
            exact nofun
          obtain ⟨r, hr⟩ := List.exists_mem_of_ne_nil _ (mt latestOf_eq_none.mpr hsome)
          obtain ⟨hmem, hmission⟩ := List.mem_filter.mp hr
          exact hthere r hmem (of_decide_eq_true hmission) rfl
      | cons summary rest =>
        obtain ⟨r, hr, hmission, -, rfl⟩ := mem_listActive (hactive ▸ List.mem_cons_self)
        have hthere := hthere r hr (of_decide_eq_true hmission) rfl
        cases rest with
        | nil =>
          refine .read_bind (fun s => (s.runs.find? r.runId).map StoredRun.toRun)
            (fun _ => rfl) ?_
          rw [Table.find?_of_mem hr]
          exact .pure _ fun s hs => ⟨hs, ends_toRun hplaced (Table.find?_of_mem hr), hthere⟩
        | cons summary' rest =>
          exact .throw _ fun _ _ => .other (hsteer _ rfl) rfl hthere

/-- What steering does once its run is found: the next status is looked up, then the rest runs. -/
theorem nextState_bind {run : MissionRun} {trigger : RunTrigger} {missing : Prop}
    {k : RunStatus → ServiceM MissionRun}
    (hsteer : ∀ e, Routes.isSteerError e = true → handler e = some (Routes.steerErrors e))
    (hthere : ¬ missing)
    (h : ∀ status, Triple (fun s => s = s₀) (k status) (fun _ _ => True)
      (Handled handler missing)) :
    Triple (fun s => s = s₀) (nextState run.status trigger >>= k) (fun _ _ => True)
      (Handled handler missing) := by
  refine .check_bind (fun e he => ?_) fun status _ => h status
  obtain ⟨-, rfl⟩ := orRaise_eq_error.mp he
  exact .other (hsteer _ rfl) rfl hthere

theorem cancel_triple (hplaced : s₀.StagesPlaced) (command : CancelRunCommand)
    (reply : ControlReply) :
    Triple (fun s => s = s₀) (cancel now command reply) (fun _ _ => True)
      (Handled Routes.cancelMission (TargetMissing s₀ command.missionId command.runId)) := by
  have hsteer : ∀ e, Routes.isSteerError e = true →
      Routes.cancelMission e = some (Routes.steerErrors e) := fun e he => if_pos he
  unfold cancel
  refine (target_triple hplaced hsteer).bind fun run => .of_store ?_
  rintro s ⟨rfl, hends, hthere⟩
  refine nextState_bind hsteer hthere fun status => ?_
  refine ((updateStatus_keeps _).pre fun s' hs => hs ▸ hends).bind fun updated => ?_
  cases updated with
  | none => exact .pure _ fun _ _ => trivial
  | some updated =>
    refine announceCancel_triple.bind fun _ => (audit_triple _ fun _ => id).bind fun _ => ?_
    refine .of_store fun s' hs => .read_bind (fun s => isOffline s run.robotId)
      (fun _ => exec_offline run.robotId) ?_
    split_ifs
    · exact ((setAcknowledged_triple _ _).pre fun s hs' => hs' ▸ hs).bind fun _ =>
        reread_triple updated
    · exact ((forwardCancel_triple _ _).pre fun s hs' => hs' ▸ hs).bind fun _ =>
        reread_triple updated

theorem close_triple (hplaced : s₀.StagesPlaced) (command : ControlRunCommand) :
    Triple (fun s => s = s₀) (close now command) (fun _ _ => True)
      (Handled Routes.closeMissionRun (TargetMissing s₀ command.missionId command.runId)) := by
  have hsteer : ∀ e, Routes.isSteerError e = true →
      Routes.closeMissionRun e = some (Routes.steerErrors e) :=
    fun e he => if_pos (Bool.or_eq_true_iff.mpr (.inl he))
  unfold close
  refine (target_triple hplaced hsteer).bind fun run => .of_store ?_
  rintro s ⟨rfl, hends, hthere⟩
  refine nextState_bind hsteer hthere fun status => ?_
  refine .read_bind (fun s => isOffline s run.robotId) (fun _ => exec_offline run.robotId) ?_
  refine .check_bind (fun e he => ?_) fun _ _ => ?_
  · obtain ⟨-, rfl⟩ := raiseIf_eq_error.mp he
    exact .other rfl rfl hthere
  refine ((updateStatus_triple _).pre fun s' hs => hs ▸ hends).bind fun updated => ?_
  cases updated with
  | none => exact .pure _ fun _ _ => trivial
  | some closed =>
    refine ((finalize_triple none).pre fun s hs => hs.2 closed rfl).bind fun _ => ?_
    refine (publish_triple _ _ _).bind fun _ => (audit_triple _ fun _ => id).bind fun _ => ?_
    exact .pure _ fun _ _ => trivial

theorem steer_triple (hplaced : s₀.StagesPlaced) (command : ControlRunCommand)
    (trigger : RunTrigger) (action : String) (request : UUID → RobotId → Command)
    (entry : UUID → UUID → AuditEntry) (reply : ControlReply) :
    Triple (fun s => s = s₀) (steer now command trigger action request entry reply)
      (fun _ _ => True)
      (Handled Routes.pauseMission (TargetMissing s₀ command.missionId command.runId)) := by
  have hsteer : ∀ e, Routes.isSteerError e = true →
      Routes.pauseMission e = some (Routes.steerErrors e) := fun e he => if_pos he
  unfold steer
  refine (target_triple hplaced hsteer).bind fun run => .of_store ?_
  rintro s ⟨rfl, hends, hthere⟩
  refine nextState_bind hsteer hthere fun status => ?_
  refine .read_bind (fun s => isOffline s run.robotId) (fun _ => exec_offline run.robotId) ?_
  have hraised : ∀ {c : Prop} [Decidable c] {raised e : ServiceError},
      Routes.isSteerError raised = true →
      ((Routes.steerErrors raised).statusCode == 404) = false → raiseIf c raised = .error e →
      Handled Routes.pauseMission (TargetMissing s command.missionId command.runId) e := by
    intro c _ raised e hs hcode he
    obtain ⟨-, rfl⟩ := raiseIf_eq_error.mp he
    exact .other (hsteer _ hs) hcode hthere
  refine .check_bind (fun e he => hraised rfl rfl he) fun _ _ => ?_
  refine Triple.bind (Q := fun _ s' => s' = s) (.send _ fun _ => id) fun _ => ?_
  refine .check_bind (fun e he => hraised rfl rfl he) fun _ _ => ?_
  refine .check_bind (fun e he => hraised rfl rfl he) fun _ _ => ?_
  refine ((updateStatus_triple _).pre fun s' hs => hs ▸ hends).bind fun updated => ?_
  cases updated with
  | none => exact .pure _ fun _ _ => trivial
  | some updated =>
    refine .forget ?_
    refine (publish_triple _ _ _).bind fun _ => (audit_triple _ fun _ => id).bind fun _ => ?_
    exact .pure _ fun _ => id

theorem setNotes_triple (hplaced : s₀.StagesPlaced) (runId : UUID) (notes : Option String) :
    Triple (fun s => s = s₀) (Runs.setNotes now runId notes)
      (fun updated _ => updated = none ↔ s₀.runs.find? runId = none) E := by
  unfold Runs.setNotes
  cases hr : s₀.runs.find? runId with
  | none =>
    refine Triple.bind (Q := fun _ s => s = s₀) ?_ fun _ => ?_
    · refine .read_bind (fun s => s.runs.find? runId) (fun _ => rfl) ?_
      rw [hr]
      exact .pure _ fun _ => id
    · refine .read_bind (fun s => s.runs.find? runId) (fun _ => rfl) ?_
      rw [hr]
      exact .pure _ fun _ _ => iff_of_true rfl rfl
  | some r =>
    obtain rfl : r.runId = runId := Table.key_of_find? hr
    have hrow : Triple (Ends r.toRun) (Runs.updateRow r.runId fun r => r.withNotes now notes)
        (fun _ => Ends r.toRun) E :=
      updateRow_triple ⟨fun _ => rfl, fun _ => rfl, fun _ => rfl⟩
    refine (hrow.pre (P := fun s => s = s₀) fun s hs => hs ▸ ends_toRun hplaced hr).bind
      fun _ => .of_store ?_
    rintro s ⟨q, hq, -⟩
    refine .read_bind (fun s => s.runs.find? r.runId) (fun _ => rfl) ?_
    rw [show s.runs.find? r.runId = some q from hq]
    exact .pure _ fun _ _ => iff_of_false nofun nofun

theorem annotate_triple (hplaced : s₀.StagesPlaced) (runId : UUID) (notes : Option String) :
    Triple (fun s => s = s₀) (annotate now runId notes) (fun _ _ => True)
      (Handled Routes.annotateRun (s₀.runs.find? runId = none)) := by
  refine (setNotes_triple hplaced runId notes).bind fun updated => ?_
  cases updated with
  | none => exact .throw _ fun _ hnone => .notFound rfl rfl (hnone.mp rfl)
  | some updated =>
    refine .forget ?_
    exact (audit_triple _ fun _ => id).bind fun _ => .pure _ fun _ => id

theorem delete_triple (runId : UUID) :
    Triple (fun s => s = s₀) (delete runId) (fun _ _ => True)
      (Handled Routes.deleteRun (s₀.runs.find? runId = none)) := by
  unfold delete
  refine .read_bind (fun s => (s.runs.find? runId).map StoredRun.toRun) (fun _ => rfl) ?_
  cases hr : s₀.runs.find? runId with
  | none => exact .throw _ fun _ _ => .notFound rfl rfl rfl
  | some r =>
    refine .check_bind (fun e he => ?_) fun _ _ => ?_
    · obtain ⟨-, rfl⟩ := raiseIf_eq_error.mp he
      exact .other rfl rfl nofun
    · refine Triple.bind (Q := fun _ _ => True) (.setStore _ fun _ _ => trivial) fun _ => ?_
      refine .of_store fun s _ => .read_bind (fun s => (s.runs.rows.filter fun q =>
        q.missionId = r.toRun.missionId).length) (fun _ => rfl) ?_
      refine .forget ?_
      split_ifs
      · exact Triple.bind (Q := fun _ _ => True) (.enqueue _ fun _ => id) fun _ =>
          audit_triple _ fun _ => id
      · exact audit_triple _ fun _ => id

end Steer
end RunService

namespace MissionManagement
open RunService
variable {s₀ : Store} {now : Datetime} {missionId : UUID}

theorem deleteRead_triple :
    Triple (fun s => s = s₀) (deleteRead missionId) (fun _ _ => True)
      (Handled Routes.deleteMission (s₀.missions.find? missionId = none)) := by
  unfold deleteRead
  refine .read_bind (fun s => s.missions.find? missionId) (fun _ => rfl) ?_
  cases hm : s₀.missions.find? missionId with
  | none => exact .throw _ fun _ _ => .notFound rfl rfl rfl
  | some mission =>
    refine .read_bind (fun s => Runs.listActive (fun r => r.missionId = missionId) s)
      (fun _ => rfl) ?_
    refine .check _ (fun _ _ _ _ => trivial) fun _ e _ he => ?_
    obtain ⟨-, rfl⟩ := raiseIf_eq_error.mp he
    exact .other rfl rfl nofun

/-- The lock is held, so that no run has come since they were counted. -/
theorem deleteFinish_triple {E : ServiceError → Prop} {hasRuns : Bool}
    (hnone : hasRuns = false → ∀ r ∈ s₀.runs.rows, r.missionId ≠ missionId) :
    Triple (fun s => s = s₀) (deleteFinish now missionId hasRuns) (fun _ _ => True) E := by
  cases hasRuns with
  | true =>
    refine Triple.bind (Q := fun _ _ => True) ?_ fun _ => audit_triple _ fun _ => id
    refine .read_bind id (fun _ => rfl) ?_
    dsimp only [id]
    cases s₀.missions.find? missionId with
    | none => exact .pure _ fun _ _ => trivial
    | some mission =>
      exact Triple.bind (Q := fun _ _ => True) (.setStore _ fun _ _ => trivial) fun _ =>
        .pure _ fun _ _ => trivial
  | false =>
    refine Triple.bind (Q := fun _ _ => True) ?_ fun _ => audit_triple _ fun _ => id
    refine .read_bind id (fun _ => rfl) ?_
    have hany : ¬ (s₀.runs.rows.any fun r => r.missionId = missionId) = true := by
      simpa using hnone rfl
    dsimp only [id]
    rw [if_neg hany]
    exact .setStore _ fun _ _ => trivial

theorem restore_triple :
    Triple (fun s => s = s₀) (restore now missionId) (fun _ _ => True)
      (Handled Routes.restoreMission (s₀.missions.find? missionId = none)) := by
  unfold restore
  refine .read_bind (fun s => s.missions.find? missionId) (fun _ => rfl) ?_
  cases hm : s₀.missions.find? missionId with
  | none => exact .throw _ fun _ _ => .notFound rfl rfl rfl
  | some mission =>
    refine .check_bind (fun e he => ?_) fun _ _ => ?_
    · obtain ⟨-, rfl⟩ := raiseIf_eq_error.mp he
      exact .other rfl rfl nofun
    · refine Triple.bind (Q := fun restored _ => restored.isSome = true) ?_ fun restored => ?_
      · refine .read_bind id (fun _ => rfl) ?_
        dsimp only [id]
        rw [hm]
        exact Triple.bind (Q := fun _ _ => True) (.setStore _ fun _ _ => trivial) fun _ =>
          .pure _ fun _ _ => rfl
      · cases restored with
        | none => exact .throw _ fun _ hsome => nomatch hsome
        | some restored =>
          exact Triple.bind (Q := fun _ _ => True) (.setStore _ fun _ _ => trivial) fun _ =>
            .pure _ fun _ _ => trivial

theorem unassign_triple :
    Triple (fun s => s = s₀) (unassign now missionId) (fun _ _ => True)
      (Handled Routes.unassignMission (s₀.missions.find? missionId = none)) := by
  unfold unassign
  refine .read_bind (fun s => s.missions.find? missionId) (fun _ => rfl) ?_
  cases hm : s₀.missions.find? missionId with
  | none => exact .throw _ fun _ _ => .notFound rfl rfl rfl
  | some mission =>
    refine .check_bind (fun e he => ?_) fun _ _ => ?_
    · obtain ⟨-, rfl⟩ := raiseIf_eq_error.mp he
      exact .other rfl rfl nofun
    · refine Triple.bind (Q := fun _ _ => True) (.setStore _ fun _ _ => trivial) fun _ => ?_
      refine (audit_triple _ fun _ => id).bind fun _ => .of_store fun s _ => ?_
      refine .read_bind (fun s => s.missions.find? missionId) (fun _ => rfl) ?_
      exact .pure _ fun _ _ => trivial

end MissionManagement
end Leitstand
