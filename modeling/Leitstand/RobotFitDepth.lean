import Leitstand.MissionLocks
import Leitstand.StageTree

namespace Leitstand
open TxM

theorem forM_eq_ok {α ε : Type} {xs : List α} {f : α → Except ε Unit} {u : Unit} :
    xs.forM f = .ok u ↔ ∀ x ∈ xs, f x = .ok () := by
  induction xs with
  | nil => simp [pure, Except.pure]
  | cons x xs ih =>
    rw [List.forall_mem_cons]
    change (f x >>= fun _ => xs.forM f) = .ok u ↔ _
    cases hf : f x with
    | error e => simp [bind, Except.bind]
    | ok v =>
      cases v
      exact ih.trans (by simp)

theorem bind_raiseIf {c : Prop} [Decidable c] {e : ServiceError} {x : Except ServiceError Unit}
    {u : Unit} : (raiseIf c e >>= fun _ => x) = .ok u ↔ ¬ c ∧ x = .ok u := by
  rw [raiseIf_bind]
  split_ifs with h
  · exact iff_of_false nofun fun hx => hx.1 h
  · exact ⟨fun hx => ⟨h, hx⟩, And.right⟩

/-- The factsheet declares the stage's kind, and every waypoint is in a frame it supports for it. -/
def Stage.Declared (factsheet : RobotFactsheet) (s : Stage) : Prop :=
  ∃ frames, factsheet.capability s.kind = some frames ∧ ∀ w ∈ stageWaypoints s, w.kind ∈ frames

/-- A coverage stage was planned with a radius that is not below the robot's own and for a width that
is not below the robot's track. -/
def Stage.PlannedFor (factsheet : RobotFactsheet) (s : Stage) : Prop :=
  ∀ segments provenance, s.detail = .coverage segments provenance →
    ∃ machine, factsheet.physicalParameters = some machine ∧
      ¬ (provenance.params.turningRadiusM : PyFloat) < machine.minTurningRadiusM ∧
      ¬ (provenance.params.operationWidthM : PyFloat) < machine.trackWidthM

/-- The plan fits the robot at every depth. -/
def FitsRobot (factsheet : RobotFactsheet) (stages : List Stage) : Prop :=
  ∀ s ∈ allStages stages, s.Declared factsheet ∧ s.PlannedFor factsheet

variable {stages : List Stage} {robotId : RobotId} {factsheet : RobotFactsheet} {u : Unit}

theorem validateAgainstFactsheet_eq_ok :
    validateAgainstFactsheet stages robotId factsheet = .ok u ↔
      ∀ s ∈ stages, s.Declared factsheet := by
  unfold validateAgainstFactsheet
  rw [forM_eq_ok]
  refine forall₂_congr fun s _ => ?_
  unfold Stage.Declared
  cases factsheet.capability s.kind with
  | none => simp [orRaise, bind, Except.bind]
  | some frames =>
    change (stageWaypoints s).forM _ = Except.ok () ↔ _
    rw [forM_eq_ok]
    simp

theorem forall_plannedFor_iff : (∀ s ∈ allStages stages, s.PlannedFor factsheet) ↔
    ∀ c ∈ coverageStages stages, ∃ machine, factsheet.physicalParameters = some machine ∧
      ¬ (c.provenance.params.turningRadiusM : PyFloat) < machine.minTurningRadiusM ∧
      ¬ (c.provenance.params.operationWidthM : PyFloat) < machine.trackWidthM := by
  rw [coverageStages_eq_filterMap]
  simp only [List.mem_filterMap]
  constructor
  · rintro h c ⟨⟨i, cs, _ | ⟨segments, provenance⟩⟩, hs, hc⟩
    · cases hc
    · cases hc
      exact h _ hs segments provenance rfl
  · rintro h ⟨i, cs, d⟩ hs segments provenance rfl
    exact h _ ⟨_, hs, rfl⟩

theorem validatePlanFitsRobot_eq_ok :
    validatePlanFitsRobot robotId stages factsheet = .ok u ↔
      ∀ s ∈ allStages stages, s.PlannedFor factsheet := by
  rw [forall_plannedFor_iff]
  unfold validatePlanFitsRobot
  split
  · rename_i hnil
    simp [hnil]
  · rename_i planned hne
    cases hp : factsheet.physicalParameters with
    | none =>
      obtain ⟨c, hc⟩ := List.exists_mem_of_ne_nil _ hne
      refine iff_of_false (by simp [orRaise, bind, Except.bind]) fun h => ?_
      obtain ⟨machine, hm, -⟩ := h c hc
      cases hm
    | some machine =>
      change (coverageStages stages).forM _ = Except.ok u ↔ _
      rw [forM_eq_ok]
      refine forall₂_congr fun c _ => ?_
      simp only [Option.some.injEq, exists_eq_left', gt_iff_lt, bind_raiseIf, raiseIf_eq_ok]

/-- The robot is accepted for the stages: a run is prepared on it, or it becomes the default. -/
inductive Accepted (digests : Digests) (factsheets : Factsheets) : RobotId → List Stage → Prop
  | prepared {now : Datetime} {runId : UUID} {command : StartRunCommand} {w w' : Backend}
      {run : MissionRun}
      (h : (RunService.prepare digests factsheets now runId command).atomically w = (.ok run, w')) :
      Accepted digests factsheets run.robotId run.stages.stages
  | assigned {now : Datetime} {missionId : UUID} {robotId : RobotId} {w w' : Backend}
      {mission : Mission}
      (h : (MissionManagement.assign digests factsheets now missionId robotId).atomically w =
        (.ok mission, w')) :
      Accepted digests factsheets robotId mission.stages.stages

theorem exec_of_atomically {β : Type} {m : ServiceM β} {w w' : Backend} {b : β}
    (h : m.atomically w = (.ok b, w')) : ∃ tx, m.exec { store := w.store } = (.ok b, tx) := by
  unfold atomically at h
  rcases hx : m.exec { store := w.store } with ⟨e | c, tx⟩
  · rw [hx] at h
    cases (Prod.mk.inj h).1
  · rw [hx] at h
    obtain rfl := Except.ok.inj (Prod.mk.inj h).1
    exact ⟨tx, rfl⟩

theorem assign_ok {digests : Digests} {factsheets : Factsheets} {now : Datetime} {missionId : UUID}
    {mission : Mission} {tx tx' : Tx Store Event Command}
    (hx : (MissionManagement.assign digests factsheets now missionId robotId).exec tx =
      (.ok mission, tx')) :
    ∃ factsheet, factsheets.find? robotId = some factsheet ∧
      validateAgainstFactsheet mission.stages.stages robotId factsheet = .ok () ∧
      validatePlanFitsRobot robotId mission.stages.stages factsheet = .ok () := by
  unfold MissionManagement.assign at hx
  simp only [Missions.getForUpdate, exec_bind, exec_store, exec_pure] at hx
  cases hm : tx.store.missions.find? missionId with
  | none => simp [hm] at hx
  | some before =>
    simp only [hm, Runs.listActiveByRobot, exec_bind_ok, exec_store, exec_pure, exec_check,
      Prod.mk.injEq, Except.ok.injEq] at hx
    obtain ⟨_, _, ⟨-, rfl⟩, _, _, ⟨_, _, ⟨rfl, rfl⟩, rfl, rfl⟩, _, _, ⟨-, rfl⟩, hx⟩ := hx
    cases hf : factsheets.find? robotId with
    | none =>
      simp only [hf, exec_throw, Prod.mk.injEq] at hx
      cases hx.1
    | some factsheet =>
      simp only [hf, Missions.get, Missions.setAssignedRobot, audit, exec_bind_ok, exec_store,
        exec_setStore, exec_pure, exec_check, Prod.mk.injEq, Except.ok.injEq] at hx
      obtain ⟨_, _, ⟨hkinds, rfl⟩, _, _, ⟨hmachine, rfl⟩, _, _, ⟨rfl, rfl⟩, _, _, ⟨-, rfl⟩, _, _,
        ⟨-, rfl⟩, _, _, ⟨-, rfl⟩, _, _, ⟨_, _, ⟨rfl, rfl⟩, rfl, rfl⟩, rfl, rfl⟩ := hx
      obtain rfl := Table.key_of_find? hm
      refine ⟨factsheet, rfl, ?_⟩
      rw [hm]
      dsimp only
      -- The mission is read again after the update, which leaves its stages alone.
      rw [Table.find?_replace, if_pos rfl, hm, Option.map_some, Option.getD_some]
      exact ⟨hkinds, hmachine⟩

/-- What has been accepted has passed both checks on its stages. -/
theorem Accepted.checked {digests : Digests} {factsheets : Factsheets}
    (h : Accepted digests factsheets robotId stages) :
    ∃ factsheet, factsheets.find? robotId = some factsheet ∧
      validateAgainstFactsheet stages robotId factsheet = .ok () ∧
      validatePlanFitsRobot robotId stages factsheet = .ok () := by
  cases h with
  | prepared h =>
    obtain ⟨tx, hx⟩ := exec_of_atomically h
    obtain ⟨p, tx', hread, hinsert⟩ := exec_bind_ok.mp hx
    obtain ⟨-, rfl, -⟩ := prepareInsert_ok hinsert
    exact (prepareRead_ok hread).fits
  | assigned h =>
    obtain ⟨tx, hx⟩ := exec_of_atomically h
    exact assign_ok hx

/-- What is accepted for a robot fits it at every depth exactly where the factsheet declares every
cleanup stage, which the check of kinds and frames does not read. -/
theorem accepted_fits_iff {digests : Digests} {factsheets : Factsheets}
    (h : Accepted digests factsheets robotId stages) :
    ∃ factsheet, factsheets.find? robotId = some factsheet ∧
      (FitsRobot factsheet stages ↔ ∀ s ∈ cleanupStages stages, s.Declared factsheet) := by
  obtain ⟨factsheet, hf, hkinds, hmachine⟩ := h.checked
  have htop := validateAgainstFactsheet_eq_ok.mp hkinds
  have hplanned := validatePlanFitsRobot_eq_ok.mp hmachine
  refine ⟨factsheet, hf, ?_⟩
  constructor
  · intro hfits s hs
    exact (hfits s (mem_allStages_iff.mpr (.inr hs))).1
  · intro hcleanup s hs
    refine ⟨?_, hplanned s hs⟩
    obtain hs | hs := mem_allStages_iff.mp hs
    · exact htop s hs
    · exact hcleanup s hs

/-- A mission whose cleanup drives at a site, for a robot that drives in WGS84 only. -/
def demoCleanup : Mission :=
  { demoMission with
    stages :=
      { stages := [.mk 10 (some [.mk 11 none (.navigation [.siteLocal 5 1 2 none])])
          (.navigation [.wgs84 52 8 none])]
        nonempty := by simp
        nodup := by decide } }

def demoYard : Site :=
  { siteId := 5, name := "yard", anchorLat := 52, anchorLon := 8, anchorHeadingDeg := 0 }

theorem demoCleanup_accepted : Accepted demo.digests demo.factsheets "r1" demoCleanup.stages.stages := by
  have hprepared : ∃ run w', (RunService.prepare demo.digests demo.factsheets 0 7
      { missionId := 1, origin := { kind := .manual, actor := "operator" } }).atomically
        { store := { missions := ⟨[demoCleanup], by simp⟩, sites := ⟨[demoYard], by simp⟩ } } =
          (.ok run, w') ∧ run.robotId = "r1" ∧ run.stages.stages = demoCleanup.stages.stages :=
    ⟨_, _, rfl, rfl, rfl⟩
  obtain ⟨run, w', hx, hrobot, hstages⟩ := hprepared
  exact hrobot ▸ hstages ▸ .prepared hx

theorem accepted_fits_iff_cleanup : ∃ factsheet, demo.factsheets.find? "r1" = some factsheet ∧
    (FitsRobot factsheet demoCleanup.stages.stages ↔
      ∀ s ∈ cleanupStages demoCleanup.stages.stages, s.Declared factsheet) :=
  accepted_fits_iff demoCleanup_accepted

theorem accepted_does_not_fit : ∃ digests factsheets robotId stages,
    Accepted digests factsheets robotId stages ∧
      ∀ factsheet, factsheets.find? robotId = some factsheet → ¬ FitsRobot factsheet stages := by
  refine ⟨_, _, _, _, demoCleanup_accepted, ?_⟩
  intro factsheet hf hfits
  cases hf
  obtain ⟨frames, hframes, hin⟩ := (hfits (.mk 11 none (.navigation [.siteLocal 5 1 2 none]))
    (mem_allStages_iff.mpr (.inr (by simp [cleanupStages, demoCleanup, Stage.children,
      Stage.onCancel])))).1
  cases hframes
  have hw := hin (.siteLocal 5 1 2 none) (by simp [stageWaypoints, Stage.detail])
  simp [Waypoint.kind] at hw

end Leitstand
