import Leitstand.ProjectedStatus

namespace Leitstand

open StepSystem

namespace StatusProjector
variable {s s' : StatusProjector} {a : ProjectorAction} {robotId : RobotId} {i j q : Nat}
  {C : Bool → Prop} {J : Nat → Prop}

/-- What a recompute has read is what is so: of the robot's charging it is enough that `C` holds. -/
def Agrees (facts : Option (Bool × Bool)) (C : Bool → Prop) : Reading → Prop
  | .nothing => True
  | .robot online => ∃ hasActive, facts = some (online, hasActive)
  | .runs online hasActive => facts = some (online, hasActive)
  | .status status => ∃ online hasActive charging, facts = some (online, hasActive) ∧ C charging ∧
      status = some (deriveRobotStatus online hasActive charging)

/-- The status shown is the one that the facts and a reading of the battery make. -/
def Right (s : StatusProjector) (robotId : RobotId) (C : Bool → Prop) : Prop :=
  ∃ online hasActive charging, s.sys.facts robotId = some (online, hasActive) ∧ C charging ∧
    s.shown robotId = some (deriveRobotStatus online hasActive charging)

/-- One of the tasks is still to start a recompute of the robot. -/
def Due (s : StatusProjector) (J : Nat → Prop) (robotId : RobotId) : Prop :=
  ∃ i, J i ∧ (s.workers.call i = some { key := robotId } ∨
    ∃ left, s.workers.task i = some (.sweep left false) ∧ robotId ∈ left)

/-- No recompute of the robot has read what is no longer so, and one of the tasks is in such a
recompute or the status shown is right. -/
structure UpToDate (s : StatusProjector) (J : Nat → Prop) (robotId : RobotId) (C : Bool → Prop) :
    Prop where
  held : s.workers.HeldFor robotId (Agrees (s.sys.facts robotId) C)
  shown : (∃ i, J i ∧ ∃ reading, s.workers.Holds i robotId reading) ∨ s.Right robotId C

def Tended (s : StatusProjector) (J : Nat → Prop) (robotId : RobotId) (C : Bool → Prop) : Prop :=
  s.Due J robotId ∨ s.UpToDate J robotId C

/-- The recompute or the sweep of task `i` has nothing to do with the robot. -/
def Spares (s : StatusProjector) (i : Nat) (robotId : RobotId) : Prop :=
  (∀ key reading, s.workers.Holds i key reading → key ≠ robotId) ∧
    ∀ left, s.workers.task i = some (.sweep left false) → robotId ∉ left

theorem Right.congr (h : s.Right robotId C) (hfacts : s'.sys.facts robotId = s.sys.facts robotId)
    (hshown : s'.shown robotId = s.shown robotId) : s'.Right robotId C := by
  obtain ⟨online, hasActive, charging, hf, hc, hs⟩ := h
  exact ⟨online, hasActive, charging, hfacts.trans hf, hc, hshown.trans hs⟩

/-- A read of what is so agrees with it. -/
theorem agrees_readNext {reading reading' : Reading} (hknown : (s.sys.facts robotId).isSome = true)
    (h : Agrees (s.sys.facts robotId) C reading)
    (hnext : s.readNext robotId reading = some reading')
    (hC : ∀ online hasActive, reading = .runs online hasActive → C (s.charging robotId)) :
    Agrees (s.sys.facts robotId) C reading' := by
  cases reading with
  | nothing =>
    unfold System.facts at hknown ⊢
    unfold readNext at hnext
    cases hrow : s.sys.store.robots.find? robotId with
    | none =>
      rw [hrow] at hknown
      cases hknown
    | some row =>
      rw [hrow] at hnext
      obtain rfl := Option.some.inj hnext
      exact ⟨_, rfl⟩
  | robot online =>
    obtain rfl := Option.some.inj hnext
    obtain ⟨hasActive, hf⟩ := h
    have hexec : hasActive = hasExecutingRun s.sys.store robotId := by
      unfold System.facts at hf
      obtain ⟨row, -, heq⟩ := Option.map_eq_some_iff.mp hf
      exact (Prod.mk.inj heq).2.symm
    exact hexec ▸ hf
  | runs online hasActive =>
    obtain rfl := Option.some.inj hnext
    exact ⟨online, hasActive, s.charging robotId, h, hC online hasActive rfl, rfl⟩
  | status status => cases hnext

theorem Tended.congr (h : s.Tended J robotId C) (hworkers : s'.workers = s.workers)
    (hfacts : s'.sys.facts robotId = s.sys.facts robotId)
    (hshown : s'.shown robotId = s.shown robotId) : s'.Tended J robotId C := by
  obtain ⟨i, hJ, h⟩ | ⟨hheld, h⟩ := h
  · exact .inl ⟨i, hJ, by rwa [hworkers]⟩
  · refine .inr ⟨?_, ?_⟩
    · rw [hworkers, hfacts]
      exact hheld
    · obtain ⟨i, hJ, hi⟩ | h := h
      · exact .inl ⟨i, hJ, by rwa [hworkers]⟩
      · exact .inr (h.congr hfacts hshown)

section Steps

/-- A task that was in no call has none that is due or holds the lock. -/
theorem call_ne_of_idle {c : LockedCall RobotId Reading} (h : s.workers.call i = none)
    (hj : s.workers.call j = some c) : i ≠ j := by
  rintro rfl
  rw [h] at hj
  cases hj

/-- A task that begins to wait for the lock leaves the others as they are. -/
theorem Tended.wait {c : Option (LockedCall RobotId Reading)} (h : s.Tended J robotId C)
    (hidle : s.workers.call i = none) (hc : c.all (·.held.isNone) = true)
    (hworkers : s'.workers = s.workers.setCall i c) (hsys : s'.sys = s.sys)
    (hshown : s'.shown robotId = s.shown robotId) : s'.Tended J robotId C := by
  have hcall : ∀ j c', s.workers.call j = some c' → s'.workers.call j = some c' := by
    intro j c' hj
    rw [hworkers, Workers.call_setCall_ne (call_ne_of_idle hidle hj)]
    exact hj
  obtain ⟨j, hJ, h⟩ | ⟨hheld, h⟩ := h
  · refine .inl ⟨j, hJ, ?_⟩
    obtain h | ⟨left, hleft, hmem⟩ := h
    · exact .inl (hcall j _ h)
    · refine .inr ⟨left, ?_, hmem⟩
      rw [hworkers, Workers.task_setCall]
      exact hleft
  · refine .inr ⟨?_, ?_⟩
    · rw [hworkers, hsys]
      exact hheld.setCall_waiting hc
    · obtain ⟨j, hJ, reading, hj⟩ | h := h
      · exact .inl ⟨j, hJ, reading, hcall j _ hj⟩
      · exact .inr (h.congr (hsys ▸ rfl) hshown)

theorem Tended.take (h : s.Tended J robotId C) (hs : s.take i = some s')
    (hshown : s'.shown robotId = s.shown robotId) : s'.Tended J robotId C := by
  obtain ⟨p, q, inbox, event, bus, -, hcall, -, -, -, rfl⟩ := take_eq_some hs
  refine h.wait hcall ?_ rfl rfl hshown
  cases affectedRobot event.topic event.payload <;> rfl

/-- The robot that a sweep comes to is no longer among those left, but waits for the lock. -/
theorem Tended.next (h : s.Tended J robotId C) (hs : s.next i = some s') :
    s'.Tended J robotId C := by
  obtain ⟨key, left, htask, hcall, rfl⟩ := next_eq_some hs
  have hlt : i < (s.workers.setTask i (.sweep left false)).length := by
    unfold Workers.setTask
    rw [List.length_modify]
    exact Workers.lt_of_task htask
  by_cases hdue : ∃ l, s.workers.task i = some (.sweep l false) ∧ robotId ∈ l ∧ J i
  · obtain ⟨l, hl, hmem, hJ⟩ := hdue
    rw [htask] at hl
    obtain rfl := (ProjectorTask.sweep.inj (Option.some.inj hl)).1
    refine .inl ⟨i, hJ, ?_⟩
    obtain rfl | hmem := List.mem_cons.mp hmem
    · refine .inl ?_
      dsimp only
      rw [Workers.call_setCall, if_pos ⟨rfl, hlt⟩]
    · refine .inr ⟨left, ?_, hmem⟩
      dsimp only
      rw [Workers.task_setCall, Workers.task_setTask, if_pos ⟨rfl, Workers.lt_of_task htask⟩]
  · -- Of task `i` nothing was due, so that another task or what is shown carries on.
    have hrest : ({ s with workers := s.workers.setTask i (.sweep left false) } :
        StatusProjector).Tended J robotId C := by
      obtain ⟨j, hJ, h⟩ | ⟨hheld, h⟩ := h
      · refine .inl ⟨j, hJ, ?_⟩
        obtain h | ⟨l, hl, hmem⟩ := h
        · exact .inl ((Workers.call_setTask _).trans h)
        · refine .inr ⟨l, ?_, hmem⟩
          dsimp only
          rw [Workers.task_setTask]
          split_ifs with hij
          · obtain ⟨rfl, -⟩ := hij
            exact absurd ⟨l, hl, hmem, hJ⟩ hdue
          · exact hl
      · refine .inr ⟨fun j b hj => hheld j b (Workers.holds_setTask.mp hj), ?_⟩
        obtain ⟨j, hJ, reading, hj⟩ | h := h
        · exact .inl ⟨j, hJ, reading, Workers.holds_setTask.mpr hj⟩
        · exact .inr (h.congr rfl rfl)
    refine hrest.wait (i := i) (c := some { key }) ?_ rfl rfl rfl rfl
    exact (Workers.call_setTask _).trans hcall

theorem Tended.list (h : s.Tended J robotId C) (robotIds : List RobotId) :
    ({ s with workers := s.workers ++ [{ task := .sweep robotIds false }] } :
      StatusProjector).Tended J robotId C := by
  obtain ⟨j, hJ, h⟩ | ⟨hheld, h⟩ := h
  · refine .inl ⟨j, hJ, ?_⟩
    obtain h | ⟨left, hleft, hmem⟩ := h
    · exact .inl ((Workers.call_append _).trans h)
    · exact .inr ⟨left, Workers.task_append hleft _, hmem⟩
  · refine .inr ⟨fun j b hj => hheld j b ((Workers.call_append _).symm.trans hj), ?_⟩
    obtain ⟨j, hJ, reading, hj⟩ | h := h
    · exact .inl ⟨j, hJ, reading, (Workers.call_append _).trans hj⟩
    · exact .inr (h.congr rfl rfl)

/-- Where the lock is free no recompute has read anything, and the one that takes it reads what is
so. -/
theorem Tended.acquire (h : s.Tended J robotId C) (hs : s.acquire i = some s') :
    s'.Tended J robotId C := by
  obtain ⟨key, hcall, hfree, rfl⟩ := acquire_eq_some hs
  have hlt := Workers.lt_of_call hcall
  have hheld : (s.workers.setCall i (some { key, held := some .nothing })).HeldFor robotId
      (Agrees (s.sys.facts robotId) C) := by
    intro j b hj
    obtain ⟨-, hc⟩ | ⟨-, hj⟩ | ⟨-, hj⟩ := Workers.holds_setCall hj
    · cases hc
      trivial
    · exact absurd hj (Workers.not_holds_of_free hfree)
    · exact absurd hj (Workers.not_holds_of_free hfree)
  obtain ⟨j, hJ, h⟩ | ⟨-, h⟩ := h
  · obtain h | ⟨left, hleft, hmem⟩ := h
    · by_cases hij : i = j
      · subst hij
        rw [hcall] at h
        obtain rfl : key = robotId := congrArg LockedCall.key (Option.some.inj h)
        refine .inr ⟨hheld, .inl ⟨i, hJ, .nothing, ?_⟩⟩
        exact (Workers.call_setCall _).trans (if_pos ⟨rfl, hlt⟩)
      · exact .inl ⟨j, hJ, .inl ((Workers.call_setCall_ne hij).trans h)⟩
    · exact .inl ⟨j, hJ, .inr ⟨left, (Workers.task_setCall _).trans hleft, hmem⟩⟩
  · refine .inr ⟨hheld, .inr ?_⟩
    obtain ⟨j, -, reading, hj⟩ | h := h
    · exact absurd hj (Workers.not_holds_of_free hfree)
    · exact h.congr rfl rfl

/-- A call that holds the lock is not one that is due. -/
theorem Due.setCall {key : RobotId} {reading : Reading} {c : Option (LockedCall RobotId Reading)}
    (h : s.Due J robotId) (hi : s.workers.Holds i key reading)
    (hworkers : s'.workers = s.workers.setCall i c) : s'.Due J robotId := by
  obtain ⟨j, hJ, h⟩ := h
  refine ⟨j, hJ, ?_⟩
  rw [hworkers, Workers.task_setCall]
  refine h.imp_left fun h => ?_
  rw [Workers.call_setCall_ne]
  · exact h
  · rintro rfl
    unfold Workers.Holds at hi
    rw [hi] at h
    cases h

theorem Tended.read (h : s.Tended J robotId C) (hs : s.read i = some s')
    (hknown : (s.sys.facts robotId).isSome = true)
    (hC : ∀ online hasActive, s.workers.Holds i robotId (.runs online hasActive) →
      C (s.charging robotId)) : s'.Tended J robotId C := by
  obtain ⟨key, reading, reading', hi, hnext, rfl⟩ := read_eq_some hs
  obtain hdue | ⟨hheld, h⟩ := h
  · exact .inl (hdue.setCall hi rfl)
  · refine .inr ⟨?_, ?_⟩
    · refine hheld.advance fun hk => ?_
      subst hk
      exact agrees_readNext hknown (hheld i reading hi) hnext fun online hasActive hr =>
        hC online hasActive (hr ▸ hi)
    · obtain ⟨j, hJ, b, hj⟩ | h := h
      · by_cases hij : i = j
        · subst hij
          obtain rfl : key = robotId :=
            congrArg LockedCall.key (Option.some.inj (hi.symm.trans hj))
          refine .inl ⟨i, hJ, reading', ?_⟩
          exact (Workers.call_setCall _).trans (if_pos ⟨rfl, Workers.lt_of_call hi⟩)
        · exact .inl ⟨j, hJ, b, (Workers.call_setCall_ne hij).trans hj⟩
      · exact .inr (h.congr rfl rfl)

/-- A recompute that read what is so leaves it shown. -/
theorem Tended.finish (ho : s.Output) (h : s.Tended J robotId C) (hs : s.finish i = some s') :
    s'.Tended J robotId C := by
  obtain ⟨key, status, hi, rfl⟩ := finish_eq_some hs
  have hsys := s.sys_conclude key status
  obtain hdue | ⟨hheld, h⟩ := h
  · exact .inl (hdue.setCall hi rfl)
  · refine .inr ⟨?_, ?_⟩
    · dsimp only
      rw [hsys]
      exact hheld.setCall_waiting rfl
    · by_cases hk : key = robotId
      · subst hk
        obtain ⟨online, hasActive, charging, hf, hc, rfl⟩ := hheld i _ hi
        refine .inr ⟨online, hasActive, charging, ?_, hc, ?_⟩
        · dsimp only
          rw [hsys]
          exact hf
        · exact (shown_conclude ho).trans (if_pos rfl)
      · obtain ⟨j, hJ, b, hj⟩ | h := h
        · refine .inl ⟨j, hJ, b, (Workers.call_setCall_ne ?_).trans hj⟩
          rintro rfl
          exact hk (congrArg LockedCall.key (Option.some.inj (hi.symm.trans hj)))
        · refine .inr (h.congr ?_ ?_)
          · dsimp only
            rw [hsys]
          · change (s.conclude key status).shown robotId = _
            cases status with
            | none => rfl
            | some status => exact (shown_conclude ho).trans (if_neg fun he => hk he.symm)

theorem Tended.fail (h : s.Tended J robotId C) (hs : s.fail i = some s')
    (hspares : J i → s.Spares i robotId) : s'.Tended J robotId C := by
  obtain ⟨task, key, reading, htask, hi, rfl⟩ := fail_eq_some hs
  obtain ⟨j, hJ, h⟩ | ⟨hheld, h⟩ := h
  · refine .inl ⟨j, hJ, ?_⟩
    have hij : i = j → False := by
      rintro rfl
      obtain h | ⟨left, hleft, hmem⟩ := h
      · unfold Workers.Holds at hi
        rw [hi] at h
        cases h
      · exact (hspares hJ).2 left hleft hmem
    dsimp only
    rw [Workers.call_setCall_ne hij, Workers.call_setTask, Workers.task_setCall,
      Workers.task_setTask, if_neg fun he => hij he.1]
    exact h
  · refine .inr ⟨?_, ?_⟩
    · refine Workers.HeldFor.setCall_waiting (fun j b hj => ?_) rfl
      exact hheld j b (Workers.holds_setTask.mp hj)
    · obtain ⟨j, hJ, b, hj⟩ | h := h
      · refine .inl ⟨j, hJ, b, (Workers.call_setCall_ne ?_).trans (Workers.holds_setTask.mpr hj)⟩
        rintro rfl
        exact (hspares hJ).1 robotId b hj rfl
      · exact .inr (h.congr rfl rfl)

/-- As long as nothing about the robot changes, it stays tended unless a recompute of it fails. -/
theorem Tended.step (ho : s.Output) (h : s.Tended J robotId C) (hs : s.step a = some s')
    (hknown : (s.sys.facts robotId).isSome = true)
    (hfacts : s'.sys.facts robotId = s.sys.facts robotId)
    (hspares : ∀ i, a = .fail i → J i → s.Spares i robotId)
    (hC : ∀ i online hasActive, a = .read i → s.workers.Holds i robotId (.runs online hasActive) →
      C (s.charging robotId)) : s'.Tended J robotId C := by
  have hshown : (∀ i, a ≠ .finish i) → s'.shown robotId = s.shown robotId := fun hne =>
    (sameOutput_step hs hne).shown robotId
  cases a with
  | backend b =>
    obtain ⟨sys, -, rfl⟩ := Option.map_eq_some_iff.mp hs
    exact h.congr rfl hfacts rfl
  | publish k =>
    obtain ⟨e, -, rfl⟩ := Option.map_eq_some_iff.mp hs
    exact h.congr rfl rfl (hshown fun _ he => by cases he)
  | telemetry | factsheet | created =>
    obtain rfl := Option.some.inj hs
    exact h.congr rfl rfl (hshown fun _ he => by cases he)
  | bus b =>
    have hsame := hshown fun _ he => by cases he
    dsimp only [StatusProjector.step] at hs
    split_ifs at hs
    obtain ⟨bus, -, rfl⟩ := Option.map_eq_some_iff.mp hs
    exact h.congr rfl rfl hsame
  | take k => exact h.take hs (hshown fun _ he => by cases he)
  | list robotIds =>
    obtain ⟨-, rfl⟩ := list_eq_some hs
    exact h.list robotIds
  | next k => exact h.next hs
  | acquire k => exact h.acquire hs
  | read k => exact h.read hs hknown fun online hasActive => hC k online hasActive rfl
  | finish k => exact h.finish ho hs
  | fail k => exact h.fail hs (hspares k rfl)

end Steps

end StatusProjector
end Leitstand
