import Leitstand.RunHistory

namespace Leitstand

/-- The event is a state view or a status change of the run. -/
def Event.Of (r : StoredRun) (e : Event) : Prop :=
  (∃ rows errors, e = r.stateEvent rows errors) ∨
    ∃ status trigger reason, e = r.lifecycleEvent status trigger reason

namespace StoredRun
variable (r : StoredRun)

theorem of_ending (now : Datetime) (u : StatusUpdate) (overlay : List StageStateRecord)
    (reason : Option String) : ∀ e ∈ (r.ending now u overlay reason).events, e.Of r :=
  List.forall_mem_cons.mpr
    ⟨.inl ⟨_, _, rfl⟩, List.forall_mem_singleton.mpr (.inr ⟨_, _, _, rfl⟩)⟩

theorem of_recordLive (live : List StageStateRecord) :
    ∀ e ∈ (r.recordLive live).events, e.Of r := by
  unfold recordLive
  split_ifs
  · exact List.forall_mem_singleton.mpr (.inl ⟨_, _, rfl⟩)
  · exact fun e he => by cases he

theorem of_congr {r q : StoredRun} (h : q.frozen = r.frozen) {e : Event} (he : e.Of q) :
    e.Of r := by
  have hid : q.runId = r.runId := congrArg FrozenRun.runId h
  have hm : q.missionId = r.missionId := congrArg FrozenRun.missionId h
  have hb : q.robotId = r.robotId := congrArg FrozenRun.robotId h
  obtain ⟨rows, errors, rfl⟩ | ⟨status, trigger, reason, rfl⟩ := he
  · exact .inl ⟨rows, errors, by rw [stateEvent, stateEvent, hid, hm]⟩
  · exact .inr ⟨status, trigger, reason, by rw [lifecycleEvent, lifecycleEvent, hid, hm, hb]⟩

theorem of_report (now : Datetime) (state : MissionStateMessage) :
    ∀ e ∈ (r.report now state).events, e.Of r := by
  have hf := r.frozen_touched now state
  intro e he
  obtain ⟨-, h⟩ | ⟨u, -, ⟨-, h⟩ | ⟨-, h⟩⟩ := r.report_cases now state <;> rw [h] at he
  · exact of_congr hf (of_recordLive _ _ e he)
  · exact of_congr hf (of_ending _ _ _ _ _ e he)
  · obtain he | he := List.mem_append.mp he
    · refine of_congr ?_ (of_recordLive _ _ e he)
      rw [frozen_withStatus, hf]
    · obtain rfl := List.mem_singleton.mp he
      exact of_congr hf (.inr ⟨_, _, _, rfl⟩)

/-- A run announces itself only. -/
theorem of_respond (input : RunInput) : ∀ e ∈ (r.respond input).events, e.Of r := by
  cases input with
  | settled now command =>
    dsimp only [respond, settle]
    split <;> split_ifs
    · exact List.forall_mem_singleton.mpr (.inr ⟨_, _, _, rfl⟩)
    · exact fun e he => by cases he
    · exact r.of_ending _ _ _ _
    all_goals exact fun e he => by cases he
  | cancelled now mode offline reply =>
    have hannounced : ∀ e ∈ (if r.status = .cancelling then []
        else [r.lifecycleEvent .cancelling .cancelRequest]), e.Of r := by
      split_ifs
      · exact fun e he => by cases he
      · exact List.forall_mem_singleton.mpr (.inr ⟨_, _, _, rfl⟩)
    dsimp only [respond, cancel]
    by_cases ht : isTerminal r.status = true
    · rw [if_pos ht]
      exact fun e he => by cases he
    · rw [if_neg ht]
      by_cases hr : r.cancelRefused offline reply = true
      · rw [if_pos hr]
        refine List.forall_mem_append.mpr ⟨hannounced, fun e he => ?_⟩
        exact of_congr rfl (of_ending _ _ _ _ _ e he)
      · rw [if_neg hr]
        exact hannounced
  | closed now =>
    dsimp only [respond, close]
    split_ifs
    · exact fun e he => by cases he
    · exact r.of_ending _ _ _ _
  | paused now | resumed now =>
    dsimp only [respond, steer]
    split
    · exact fun e he => by cases he
    · exact List.forall_mem_singleton.mpr (.inr ⟨_, _, _, rfl⟩)
  | reported now state => exact r.of_report now state
  | unclaimed now judged =>
    dsimp only [respond, unclaimed]
    split_ifs
    · exact r.of_ending _ _ _ _
    · exact fun e he => by cases he
  | annotated now notes => exact fun e he => by cases he

end StoredRun

end Leitstand
