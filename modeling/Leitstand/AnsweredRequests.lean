import Leitstand.CommandErrors
import Leitstand.MissionSerialisation
import Leitstand.StartedRuns

namespace Leitstand
open TxM RunService

theorem bind_eq_error {β γ ε : Type} {x : Except ε β} {f : β → Except ε γ} {e : ε} :
    x >>= f = .error e ↔ x = .error e ∨ ∃ b, x = .ok b ∧ f b = .error e := by
  cases x <;> simp [bind, Except.bind]

namespace Routes
variable {e : ServiceError}

theorem dispatchMission_fit (h : isRobotFitError e = true) :
    dispatchMission (.service e) = some (answered 422 e) := by
  cases e <;> first | rfl | cases h

theorem assignMission_fit (h : isRobotFitError e = true) :
    assignMission e = some (answered 422 e) := by
  cases e <;> first | rfl | cases h

end Routes

section Checks
variable {stages : List Stage} {robotId : RobotId} {factsheet : RobotFactsheet} {e : ServiceError}

theorem validateAgainstFactsheet_fit (h : validateAgainstFactsheet stages robotId factsheet =
    .error e) : Routes.isRobotFitError e = true := by
  obtain ⟨stage, -, he⟩ := forM_eq_error h
  obtain he | ⟨frames, -, he⟩ := bind_eq_error.mp he
  · obtain ⟨-, rfl⟩ := orRaise_eq_error.mp he
    rfl
  · obtain ⟨waypoint, -, he⟩ := forM_eq_error he
    obtain ⟨-, rfl⟩ := raiseIf_eq_error.mp he
    rfl

theorem validatePlanFitsRobot_fit (h : validatePlanFitsRobot robotId stages factsheet =
    .error e) : Routes.isRobotFitError e = true := by
  unfold validatePlanFitsRobot at h
  split at h
  · cases h
  · obtain he | ⟨machine, -, he⟩ := bind_eq_error.mp h
    · obtain ⟨-, rfl⟩ := orRaise_eq_error.mp he
      rfl
    · obtain ⟨stage, -, he⟩ := forM_eq_error he
      obtain he | ⟨u, -, he⟩ := bind_eq_error.mp he
      · obtain ⟨-, rfl⟩ := raiseIf_eq_error.mp he
        rfl
      · obtain ⟨-, rfl⟩ := raiseIf_eq_error.mp he
        rfl

theorem requireCurrentBoundary_fit {digests : Digests} {fields : Table Field.id}
    (h : requireCurrentBoundary digests fields stages = .error e) :
    Routes.isRobotFitError e = true := by
  obtain ⟨stage, -, he⟩ := forM_eq_error h
  obtain he | ⟨field, -, he⟩ := bind_eq_error.mp he
  · obtain ⟨-, rfl⟩ := orRaise_eq_error.mp he
    rfl
  · obtain ⟨-, rfl⟩ := raiseIf_eq_error.mp he
    rfl

theorem anchor_validate_error {anchor : RunSiteAnchor} (h : anchor.validate = .error e) :
    ∃ field, e = .validationError field := by
  obtain he | ⟨u, -, he⟩ := bind_eq_error.mp h
  · exact ⟨_, (raiseIf_eq_error.mp he).2⟩
  obtain he | ⟨u, -, he⟩ := bind_eq_error.mp he
  · exact ⟨_, (raiseIf_eq_error.mp he).2⟩
  · exact ⟨_, (raiseIf_eq_error.mp he).2⟩

theorem freezeSiteAnchors_error {sites : Table Site.siteId}
    (h : freezeSiteAnchors sites stages = .error e) :
    (∃ siteId, e = .unknownSite siteId) ∨ ∃ siteId ∈ referencedSiteIds stages, ∃ site field,
      sites.find? siteId = some site ∧ e = .validationError field ∧
        site.anchor.validate = .error (.validationError field) := by
  obtain he | ⟨anchors, -, he⟩ := bind_eq_error.mp h
  swap
  · cases he
  obtain ⟨siteId, hdriven, he⟩ := mapM_error he
  obtain he | ⟨site, hsite, he⟩ := bind_eq_error.mp he
  · exact .inl ⟨siteId, (orRaise_eq_error.mp he).2⟩
  obtain he | ⟨u, -, he⟩ := bind_eq_error.mp he
  · obtain ⟨field, rfl⟩ := anchor_validate_error he
    exact .inr ⟨siteId, hdriven, site, field, orRaise_eq_ok.mp hsite, rfl, he⟩
  · cases he

/-- The bounds of a site's own columns. -/
structure Site.InBounds (site : Site) : Prop where
  lat : -90 ≤ site.anchorLat ∧ site.anchorLat ≤ 90
  lon : -180 ≤ site.anchorLon ∧ site.anchorLon ≤ 180
  heading : -180 ≤ site.anchorHeadingDeg ∧ site.anchorHeadingDeg ≤ 180

/-- A site within its own bounds is refused as a frozen frame exactly where its heading is given
as a negative angle. -/
theorem Site.InBounds.validate_iff {site : Site} (h : site.InBounds) :
    site.anchor.validate = .error e ↔
      site.anchorHeadingDeg < 0 ∧ e = .validationError "anchor_heading_deg" := by
  have hlat : -90 ≤ site.anchor.anchorLat ∧ site.anchor.anchorLat ≤ 90 := h.lat
  have hlon : -180 ≤ site.anchor.anchorLon ∧ site.anchor.anchorLon ≤ 180 := h.lon
  unfold RunSiteAnchor.validate
  rw [raiseIf_bind, if_neg (not_not.mpr hlat), raiseIf_bind, if_neg (not_not.mpr hlon),
    raiseIf_eq_error]
  refine and_congr_left' ?_
  show ¬ (0 ≤ site.anchorHeadingDeg ∧ site.anchorHeadingDeg < 360) ↔ site.anchorHeadingDeg < 0
  constructor
  · intro hout
    by_contra hnonneg
    exact hout ⟨not_lt.mp hnonneg, h.heading.2.trans_lt (by norm_num)⟩
  · intro hneg hin
    exact absurd hin.1 (not_le.mpr hneg)

end Checks

section Dispatch
variable {s₀ : Store} {digests : Digests} {factsheets : Factsheets} {now : Datetime}
  {missionId : UUID}

theorem assign_triple (robotId : RobotId) :
    Triple (fun s => s = s₀) (MissionManagement.assign digests factsheets now missionId robotId)
      (fun _ _ => True) (Handled Routes.assignMission (s₀.missions.find? missionId = none)) := by
  unfold MissionManagement.assign
  refine .read_bind (fun s => s.missions.find? missionId) (fun _ => rfl) ?_
  cases hm : s₀.missions.find? missionId with
  | none => exact .throw _ fun _ _ => .notFound rfl rfl rfl
  | some mission =>
    have hfit : ∀ e, Routes.isRobotFitError e = true →
        Handled Routes.assignMission (some mission = none) e :=
      fun e he => .other (Routes.assignMission_fit he) rfl nofun
    refine .check_bind (fun e he => ?_) fun _ _ => ?_
    · obtain ⟨-, rfl⟩ := raiseIf_eq_error.mp he
      exact .other rfl rfl nofun
    refine .read_bind (fun s => Runs.listActive (fun r => r.robotId = robotId) s)
      (fun _ => rfl) ?_
    refine .check_bind (fun e he => ?_) fun _ _ => ?_
    · cases ho : (Runs.listActive (fun r => r.robotId = robotId) s₀).find?
        fun other => other.missionId ≠ missionId with
      | none =>
        rw [ho] at he
        cases he
      | some other =>
        rw [ho] at he
        obtain rfl := Except.error.inj he
        exact .other rfl rfl nofun
    cases factsheets.find? robotId with
    | none => exact .throw _ fun _ _ => .other rfl rfl nofun
    | some factsheet =>
      refine .check_bind (fun e he => hfit e (validateAgainstFactsheet_fit he)) fun _ _ => ?_
      refine .check_bind (fun e he => hfit e (validatePlanFitsRobot_fit he)) fun _ _ => ?_
      refine .read_bind id (fun _ => rfl) ?_
      refine .check_bind (fun e he => hfit e (requireCurrentBoundary_fit he)) fun _ _ => ?_
      refine Triple.bind (Q := fun _ _ => True) (.setStore _ fun _ _ => trivial) fun _ => ?_
      refine (audit_triple _ fun _ => id).bind fun _ => .of_store fun s _ => ?_
      refine .read_bind (fun s => s.missions.find? missionId) (fun _ => rfl) ?_
      exact .pure _ fun _ _ => trivial

/-- The dispatch is of a plan that drives in a site whose frame cannot be frozen. -/
structure BadFrame (store : Store) (missionId : UUID) (mission : Mission) (siteId : UUID)
    (site : Site) (field : String) : Prop where
  stored : store.missions.find? missionId = some mission
  driven : siteId ∈ referencedSiteIds mission.stages.stages
  found : store.sites.find? siteId = some site
  refused : site.anchor.validate = .error (.validationError field)

theorem prepareRead_triple (command : StartRunCommand) :
    Triple (fun s => s = s₀) (prepareRead digests factsheets now command) (fun _ _ => True)
      fun e => (∃ mission siteId site field,
          BadFrame s₀ command.missionId mission siteId site field ∧ e = .validationError field) ∨
        Handled (fun exc => Routes.dispatchMission (.service exc))
          (s₀.missions.find? command.missionId = none) e := by
  unfold prepareRead
  refine .read_bind (fun s => s.missions.find? command.missionId) (fun _ => rfl) ?_
  cases hm : s₀.missions.find? command.missionId with
  | none => exact .throw _ fun _ _ => .inr (.notFound rfl rfl rfl)
  | some mission =>
    have hfit : ∀ e, Routes.isRobotFitError e = true →
        Handled (fun exc => Routes.dispatchMission (.service exc)) (some mission = none) e :=
      fun e he => .other (Routes.dispatchMission_fit he) rfl nofun
    refine .check_bind (fun e he => ?_) fun _ _ => ?_
    · obtain ⟨-, rfl⟩ := raiseIf_eq_error.mp he
      exact .inr (.other rfl rfl nofun)
    cases (command.robotId.filter (· ≠ "")).or mission.assignedRobotId with
    | none => exact .throw _ fun _ _ => .inr (.other rfl rfl nofun)
    | some robotId =>
      refine .read_bind (fun s => Runs.listActive (fun r => r.robotId = robotId) s)
        (fun _ => rfl) ?_
      refine .check_bind (fun e he => ?_) fun _ _ => ?_
      · cases ho : (Runs.listActive (fun r => r.robotId = robotId) s₀).head? with
        | none =>
          rw [ho] at he
          cases he
        | some holder =>
          rw [ho] at he
          obtain rfl := Except.error.inj he
          exact .inr (.other rfl rfl nofun)
      refine .read_bind (fun s => Runs.listActive (fun r => r.missionId = command.missionId) s)
        (fun _ => rfl) ?_
      refine .check_bind (fun e he => ?_) fun _ _ => ?_
      · obtain ⟨-, rfl⟩ := raiseIf_eq_error.mp he
        exact .inr (.other rfl rfl nofun)
      refine .read_bind (fun s => isOffline s robotId) (fun _ => exec_offline robotId) ?_
      refine .check_bind (fun e he => ?_) fun _ _ => ?_
      · obtain ⟨-, rfl⟩ := raiseIf_eq_error.mp he
        exact .inr (.other rfl rfl nofun)
      cases factsheets.find? robotId with
      | none => exact .throw _ fun _ _ => .inr (.other rfl rfl nofun)
      | some factsheet =>
        refine .check_bind (fun e he => .inr (hfit e (validateAgainstFactsheet_fit he)))
          fun _ _ => ?_
        refine .check_bind (fun e he => .inr (hfit e (validatePlanFitsRobot_fit he))) fun _ _ => ?_
        refine .read_bind id (fun _ => rfl) ?_
        refine .check_bind (fun e he => .inr (hfit e (requireCurrentBoundary_fit he)))
          fun _ _ => ?_
        refine .check_bind (fun e he => ?_) fun _ _ => .pure _ fun _ _ => trivial
        obtain ⟨siteId, rfl⟩ | ⟨siteId, hdriven, site, field, hsite, rfl, hrefused⟩ :=
          freezeSiteAnchors_error he
        · exact .inr (.other rfl rfl nofun)
        · exact .inl ⟨mission, siteId, site, field, ⟨hm, hdriven, hsite, hrefused⟩, rfl⟩

/-- Under the mission's lock, with a run id never drawn, only the robot can be in the way. -/
theorem prepareInsert_triple {runId : UUID} {p : Prepared}
    (hfresh : s₀.runs.find? runId = none)
    (hstored : (s₀.missions.find? p.mission.missionId).isSome = true) :
    Triple (fun s => s = s₀) (prepareInsert digests runId p) (fun _ _ => True)
      (Handled (fun exc => Routes.dispatchMission (.service exc)) False) := by
  unfold prepareInsert
  refine Triple.bind (Q := fun _ _ => True) ?_ fun run => (publish_triple _ _ _).bind fun _ =>
    (audit_triple _ fun _ => id).bind fun _ => .pure _ fun _ => id
  refine .read_bind id (fun _ => rfl) ?_
  dsimp only [id]
  split
  · rename_i r hr
    rw [hfresh] at hr
    cases hr
  · split_ifs with hbusy hgone
    · refine .read_bind (fun s => Runs.listActive (fun r => r.robotId = p.robotId) s)
        (fun _ => rfl) ?_
      exact .throw _ fun _ _ => .other rfl rfl id
    · rw [Option.isNone_iff_eq_none] at hgone
      rw [show s₀.missions.find? p.mission.missionId = none from hgone] at hstored
      cases hstored
    · exact Triple.bind (Q := fun _ _ => True) (.setStore _ fun _ _ => trivial) fun _ =>
        .pure _ fun _ _ => trivial

/-- The dispatch's answer is recorded wherever its run is stored. -/
theorem settle_triple (hplaced : s₀.StagesPlaced) (command : SettleRunCommand) :
    Triple (fun s => s = s₀) (settle now command) (fun _ _ => True)
      fun e => s₀.runs.find? command.runId = none ∧ e = .runNotFound command.runId false where
  ok _ _ := trivial
  error {tx tx' e} hs hx := by
    subst hs
    cases hr : tx.store.runs.find? command.runId with
    | none =>
      obtain ⟨he, -⟩ := Prod.mk.inj ((settle_absent hr).symm.trans hx)
      exact ⟨rfl, (Except.error.inj he).symm⟩
    | some r =>
      have hclean : ∀ status,
          rewritesRow false r.stageRuns [] (r.finalRows now status []) = false := fun status =>
        StoredRun.ends_cleanly (hplaced r (Table.mem_of_find? hr)) (by simp) now status r.stageRuns
      have hreturns : Returns (settle now command) tx _ := settle_returns hr hclean
      obtain ⟨run, tx₁, hok, -⟩ := hreturns
      rw [hok] at hx
      cases (Prod.mk.inj hx).1

end Dispatch
namespace System
variable {s : System} {q : Request} {e : ServiceError}

/-- What the request names is not there. -/
def Missing (s : System) : Request → Prop
  | .step (.cancel command _) => TargetMissing s.store command.missionId command.runId
  | .step (.close command) | .step (.pause command _) | .step (.resume command _) =>
    TargetMissing s.store command.missionId command.runId
  | .step (.annotate runId _) | .step (.deleteRun runId) => s.runs.find? runId = none
  | .step (.dispatch command) => s.store.missions.find? command.missionId = none
  | .step (.deleteMission missionId) | .step (.restoreMission missionId)
  | .assign missionId _ | .unassign missionId => s.store.missions.find? missionId = none
  | .step _ => False

/-- A dispatch of a plan that drives in a site whose frame cannot be frozen, and the answer to a
dispatch whose run is gone. -/
inductive Unhandled (s : System) : Request → ServiceError → Prop
  | frame (command : StartRunCommand) {mission : Mission} {siteId : UUID} {site : Site}
      {field : String} (bad : BadFrame s.store command.missionId mission siteId site field) :
      Unhandled s (.step (.dispatch command)) (.validationError field)
  | gone (command : SettleRunCommand) (absent : s.runs.find? command.runId = none) :
      Unhandled s (.step (.settle command)) (.runNotFound command.runId false)

theorem Unhandled.answer (h : s.Unhandled q e) : q.answer e = none := by
  cases h <;> rfl

theorem Unhandled.heading (h : s.Unhandled q e)
    (hsites : ∀ site ∈ s.store.sites.rows, site.InBounds) {command : StartRunCommand}
    (hq : q = .step (.dispatch command)) : e = .validationError "anchor_heading_deg" ∧
      ∃ site ∈ s.store.sites.rows, site.anchorHeadingDeg < 0 := by
  cases h with
  | frame command' bad =>
    have hsite := Table.mem_of_find? bad.found
    obtain ⟨hneg, he⟩ := (hsites _ hsite).validate_iff.mp bad.refused
    exact ⟨he, _, hsite, hneg⟩
  | gone command' absent => cases hq

theorem raised_by {β : Type} {m : ServiceM β} {Q : β → Store → Prop} {E : ServiceError → Prop}
    (ht : Triple (fun store => store = s.store) m Q E) (hr : raisedBy (s.outcome m) = some e) :
    E e := by
  rw [outcome_eq] at hr
  rcases hx : m.exec { store := s.store } with ⟨e' | b, tx'⟩
  · rw [hx] at hr
    obtain rfl := Option.some.inj hr
    exact ht.error rfl hx
  · rw [hx] at hr
    cases hr

/-- One request: its error is answered by its route, or is one of the two that no route catches. -/
theorem Reachable.raised (h : s.Reachable) (ha : s.accepts q = true) (hr : s.raises q = some e) :
    s.Unhandled q e ∨ Handled q.answer (s.Missing q) e := by
  have hplaced := h.stagesPlaced
  cases q with
  | assign missionId robotId => exact .inr (raised_by (assign_triple robotId) hr)
  | unassign missionId => exact .inr (raised_by MissionManagement.unassign_triple hr)
  | step a =>
    cases a with
    | dispatch command =>
      obtain ⟨mission, siteId, site, field, hbad, rfl⟩ | hhandled :=
        raised_by (prepareRead_triple command) hr
      · exact .inl (.frame command hbad)
      · exact .inr hhandled
    | insert i runId =>
      obtain ⟨s', hs'⟩ := Option.isSome_iff_exists.mp ha
      obtain ⟨p, hp, hfresh, -⟩ := insertRun_eq_some.mp hs'
      obtain ⟨hm, ⟨mission, hfound, -⟩, -⟩ :=
        h.serialised.dispatching p (List.mem_of_getElem? hp)
      have habsent : s.store.runs.find? runId = none := by
        by_contra hne
        obtain ⟨r, hr⟩ := Option.ne_none_iff_exists'.mp hne
        have hissued := h.snapshots.issued r (Table.mem_of_find? hr)
        rw [show r.runId = runId from Table.key_of_find? hr] at hissued
        exact hfresh hissued
      have hstored : (s.store.missions.find? p.mission.missionId).isSome = true := by
        rw [hm, hfound]
        rfl
      obtain ⟨p', hp', hr⟩ := Option.bind_eq_some_iff.mp hr
      obtain rfl := Option.some.inj (hp.symm.trans hp')
      exact .inr (raised_by (prepareInsert_triple habsent hstored) hr)
    | settle command =>
      obtain ⟨habsent, rfl⟩ := raised_by (settle_triple hplaced command) hr
      exact .inl (.gone command habsent)
    | cancel command reply => exact .inr (raised_by (cancel_triple hplaced command reply) hr)
    | close command => exact .inr (raised_by (close_triple hplaced command) hr)
    | pause command reply =>
      exact .inr (raised_by (steer_triple hplaced command _ _ _ _ reply) hr)
    | resume command reply =>
      exact .inr (raised_by (steer_triple hplaced command _ _ _ _ reply) hr)
    | annotate runId notes => exact .inr (raised_by (annotate_triple hplaced runId notes) hr)
    | deleteRun runId => exact .inr (raised_by (delete_triple runId) hr)
    | deleteMission missionId => exact .inr (raised_by MissionManagement.deleteRead_triple hr)
    | countRuns i =>
      obtain ⟨d, -, hr⟩ := Option.bind_eq_some_iff.mp hr
      cases hr
    | finishDeletion i =>
      obtain ⟨d, hd, hr⟩ := Option.bind_eq_some_iff.mp hr
      obtain ⟨hasRuns, hcounted, hr⟩ := Option.bind_eq_some_iff.mp hr
      obtain ⟨-, hall⟩ := h.serialised.deleting d (List.mem_of_getElem? hd)
      refine .inr (raised_by (MissionManagement.deleteFinish_triple ?_) hr)
      rintro rfl r hmem hmission
      exact (hall r hmem hmission).2 hcounted
    | restoreMission missionId => exact .inr (raised_by MissionManagement.restore_triple hr)
    | _ => cases hr

end System

/-- A yard laid out to the west, which a site may be. -/
def demoWestYard : Site :=
  { siteId := 5, name := "yard", anchorLat := 52, anchorLon := 8, anchorHeadingDeg := -90 }

/-- The mission ends at the yard. -/
def demoWest : System :=
  { demo with world := { store :=
      { missions := ⟨[demoCleanup], by simp⟩, sites := ⟨[demoWestYard], by simp⟩ } } }

theorem demoWest_initial : demoWest.Initial := by
  constructor <;> first | rfl | simp [demoWest, System.store, Table.empty]

def demoWestDispatch : Request :=
  .step (.dispatch { missionId := 1, origin := { kind := .manual, actor := "operator" } })

end Leitstand
