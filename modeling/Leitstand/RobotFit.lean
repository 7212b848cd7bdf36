import Leitstand.MissionRun
import Leitstand.PyFloat

namespace Leitstand

/-- Why a coverage plan is refused: what it reports against what it is held to. -/
inductive PlanRejection where
  | swathCount (reported carried : Nat)
  | coversTooLittle (coveredM2 mainlandM2 headlandWidthM fieldAreaM2 : Rat)
  | coversTooMuch (coveredM2 fieldAreaM2 : Rat)
  | sweepDisagrees (trackLengthM operationWidthM sweptM2 coveredM2 : Rat)
  | stated (reason : String)
  deriving DecidableEq

/-- What a rule or the database refuses an operation with. -/
inductive ServiceError where
  | missionNotFound (missionId : UUID)
  | missionArchived (missionId : UUID)
  | missionNotArchived (missionId : UUID)
  | noRobotAssigned (missionId : UUID)
  | robotBusy (robotId : RobotId) (activeMissionId : UUID)
  | missionRunInProgress (missionId : UUID) (activeRunIds : List UUID)
  | robotOffline (robotId : RobotId)
  | robotOnline (robotId : RobotId)
  | robotFactsheetMissing (robotId : RobotId)
  | unsupportedStageKind (robotId : RobotId) (stageId : UUID) (kind : StageKind)
  | unsupportedWaypointFrame (robotId : RobotId) (stageId : UUID) (frame : WaypointKind)
  | robotPhysicalParametersMissing (robotId : RobotId)
  | incompatibleTurningRadius (robotId : RobotId) (robotRadiusM : PyFloat) (planRadiusM : Rat)
  | implementNarrowerThanRobot (robotId : RobotId) (trackWidthM : PyFloat) (operationWidthM : Rat)
  | staleCoverageBoundary (fieldId : UUID) (reason : String)
  | unknownSite (siteId : UUID)
  | siteNotFound (siteId : UUID)
  | siteInUse (siteId : UUID) (missionIds : List UUID)
  | stageNotHomogeneous (index : Nat) (kinds : List WaypointKind)
  | stageSpansSites (index : Nat) (siteIds : List UUID)
  | duplicateStageId (stageId : UUID)
  | stageNotInMission (missionId stageId : Option UUID)
  | fieldNotFound (fieldId : UUID)
  | fieldNotPlannable (fieldId : UUID)
  | turningRadiusBelowRobot (robotId : RobotId) (turningRadiusM minTurningRadiusM : PyFloat)
  | coveragePlanRejected (reason : PlanRejection)
  | coveragePlannerUnavailable (reason : String)
  | valueError (reason : String)
  | validationError (field : String)
  | attributeError (name : String)
  | runNotFound (id : UUID) (missionHasNone : Bool)
  | invalidMissionTransition (current : RunStatus) (trigger : String)
  | ambiguousRun (missionId : UUID) (activeRunIds : List UUID)
  | robotUnreachable (robotId : RobotId) (command : String)
  | robotRefusedControl (robotId : RobotId) (command : String) (reason : Option String)
  | uniqueViolation (constraint : String)
  | foreignKeyViolation (constraint : String)
  | cardinalityViolation
  | dataError
  deriving DecidableEq

def raiseIf (c : Prop) [Decidable c] (e : ServiceError) : Except ServiceError Unit :=
  if c then .error e else .ok ()

def orRaise {β : Type} (e : ServiceError) : Option β → Except ServiceError β
  | some b => .ok b
  | none => .error e

@[simp] theorem raiseIf_eq_ok {c : Prop} [Decidable c] {e : ServiceError} {u : Unit} :
    raiseIf c e = .ok u ↔ ¬ c := by
  unfold raiseIf
  split_ifs with h <;> simp [h]

theorem raiseIf_bind {β : Type} {c : Prop} [Decidable c] {e : ServiceError}
    {f : Unit → Except ServiceError β} : raiseIf c e >>= f = if c then .error e else f () := by
  unfold raiseIf
  split_ifs <;> rfl

@[simp] theorem orRaise_eq_ok {β : Type} {e : ServiceError} {o : Option β} {b : β} :
    orRaise e o = .ok b ↔ o = some b := by
  cases o <;> simp [orRaise]

theorem ok_bind {α β ε : Type} (a : α) (f : α → Except ε β) : Except.ok a >>= f = f a := rfl

theorem bind_eq_ok {α β ε : Type} {x : Except ε α} {f : α → Except ε β} {b : β} :
    x >>= f = .ok b ↔ ∃ a, x = .ok a ∧ f a = .ok b := by
  cases x <;> simp [bind, Except.bind]

theorem mapM_forall₂ {α β ε : Type} {f : α → Except ε β} {xs : List α} {ys : List β}
    (h : xs.mapM f = .ok ys) : List.Forall₂ (fun x y => f x = .ok y) xs ys := by
  induction xs generalizing ys with
  | nil =>
    obtain rfl := Except.ok.inj h
    exact .nil
  | cons x xs ih =>
    rw [List.mapM_cons] at h
    obtain ⟨y, hy, h⟩ := bind_eq_ok.mp h
    obtain ⟨ys, hys, h⟩ := bind_eq_ok.mp h
    obtain rfl := Except.ok.inj h
    exact .cons hy (ih hys)

theorem mapM_error {α β ε : Type} {f : α → Except ε β} {xs : List α} {e : ε}
    (h : xs.mapM f = .error e) : ∃ x ∈ xs, f x = .error e := by
  induction xs with
  | nil => cases h
  | cons x xs ih =>
    rw [List.mapM_cons] at h
    cases hx : f x with
    | error e' =>
      rw [hx] at h
      obtain rfl := Except.error.inj h
      exact ⟨x, List.mem_cons_self, hx⟩
    | ok y =>
      cases hxs : xs.mapM f with
      | error e' =>
        rw [hx, hxs] at h
        obtain rfl := Except.error.inj h
        obtain ⟨z, hz, he⟩ := ih hxs
        exact ⟨z, List.mem_cons_of_mem _ hz, he⟩
      | ok ys =>
        rw [hx, hxs] at h
        cases h

theorem forall₂_mem {α β : Type} {R : α → β → Prop} {xs : List α} {ys : List β}
    (h : List.Forall₂ R xs ys) :
    (∀ x ∈ xs, ∃ y ∈ ys, R x y) ∧ ∀ y ∈ ys, ∃ x ∈ xs, R x y := by
  induction h with
  | nil => exact ⟨fun _ hx => (by cases hx), fun _ hy => (by cases hy)⟩
  | cons hr _ ih =>
    refine ⟨List.forall_mem_cons.mpr ⟨⟨_, List.mem_cons_self, hr⟩, fun x hx => ?_⟩,
      List.forall_mem_cons.mpr ⟨⟨_, List.mem_cons_self, hr⟩, fun y hy => ?_⟩⟩
    · obtain ⟨y, hy, hr⟩ := ih.1 x hx
      exact ⟨y, List.mem_cons_of_mem _ hy, hr⟩
    · obtain ⟨x, hx, hr⟩ := ih.2 y hy
      exact ⟨x, List.mem_cons_of_mem _ hx, hr⟩

theorem exists_eq_ok {β ε : Type} {x : Except ε β} (h : x.toOption.isSome) : ∃ b, x = .ok b := by
  cases x with
  | ok b => exact ⟨b, rfl⟩
  | error => cases h

/-- A factsheet may declare any numbers. -/
structure PhysicalParameters where
  trackWidthM : PyFloat
  minTurningRadiusM : PyFloat
  deriving DecidableEq

/-- A declared capability supports its stage kind in the listed frames. -/
structure RobotFactsheet where
  robotId : RobotId
  navigation : Option (List WaypointKind)
  coverage : Option (List WaypointKind)
  physicalParameters : Option PhysicalParameters
  deriving DecidableEq

/-- The frames the factsheet supports for a stage kind, or `none` where it declares no capability. -/
def RobotFactsheet.capability (factsheet : RobotFactsheet) : StageKind → Option (List WaypointKind)
  | .navigation => factsheet.navigation
  | .coverage => factsheet.coverage

/-- Only the top-level stages are read; a cleanup stage is not gated here. -/
def validateAgainstFactsheet (stages : List Stage) (robotId : RobotId) (factsheet : RobotFactsheet) :
    Except ServiceError Unit :=
  stages.forM fun stage => do
    let supportedFrames ← orRaise (.unsupportedStageKind robotId stage.stageId stage.kind)
      (factsheet.capability stage.kind)
    (stageWaypoints stage).forM fun waypoint =>
      raiseIf (waypoint.kind ∉ supportedFrames)
        (.unsupportedWaypointFrame robotId stage.stageId waypoint.kind)

def validatePlanFitsRobot (robotId : RobotId) (stages : List Stage) (factsheet : RobotFactsheet) :
    Except ServiceError Unit :=
  match coverageStages stages with
  | [] => .ok ()
  | planned => do
    let machine ← orRaise (.robotPhysicalParametersMissing robotId) factsheet.physicalParameters
    planned.forM fun stage => do
      let params := stage.provenance.params
      raiseIf (machine.minTurningRadiusM > params.turningRadiusM)
        (.incompatibleTurningRadius robotId machine.minTurningRadiusM params.turningRadiusM)
      raiseIf (machine.trackWidthM > params.operationWidthM)
        (.implementNarrowerThanRobot robotId machine.trackWidthM params.operationWidthM)

/-- The digests the backend takes with SHA-256: of a plan's content and of a field's boundary. -/
structure Digests where
  stagesDigest : List Stage → String
  boundaryDigest : Polygon → String

def requireCurrentBoundary (digests : Digests) (fields : Table Field.id) (stages : List Stage) :
    Except ServiceError Unit :=
  (coverageStages stages).forM fun stage => do
    let provenance := stage.provenance
    let field ← orRaise (.staleCoverageBoundary provenance.fieldId "has been deleted")
      (fields.find? provenance.fieldId)
    raiseIf (digests.boundaryDigest field.geometry ≠ provenance.boundaryDigest)
      (.staleCoverageBoundary provenance.fieldId "has been edited")

def Site.anchor (site : Site) : RunSiteAnchor :=
  { name := site.name, anchorLat := site.anchorLat, anchorLon := site.anchorLon,
    anchorHeadingDeg := site.anchorHeadingDeg }

/-- The bounds of a frozen frame. A site itself may also head between -180 and 0 degrees. -/
def RunSiteAnchor.validate (anchor : RunSiteAnchor) : Except ServiceError Unit := do
  raiseIf (¬ (-90 ≤ anchor.anchorLat ∧ anchor.anchorLat ≤ 90)) (.validationError "anchor_lat")
  raiseIf (¬ (-180 ≤ anchor.anchorLon ∧ anchor.anchorLon ≤ 180)) (.validationError "anchor_lon")
  raiseIf (¬ (0 ≤ anchor.anchorHeadingDeg ∧ anchor.anchorHeadingDeg < 360))
    (.validationError "anchor_heading_deg")

/-- The frame of every site the plan drives in, or `none` when it drives in none. -/
def freezeSiteAnchors (sites : Table Site.siteId) (stages : List Stage) :
    Except ServiceError (Option (List (String × RunSiteAnchor))) := do
  let anchors ← (referencedSiteIds stages).mapM fun siteId => do
    let site ← orRaise (.unknownSite siteId) (sites.find? siteId)
    let anchor := site.anchor
    anchor.validate
    pure (siteId.str, anchor)
  pure (if anchors = [] then none else some anchors)

end Leitstand
