import Leitstand.PlanningFailures

namespace Leitstand

section Map
variable {ν μ : Type}

def Waypoint.map (f : ν → μ) : Waypoint ν → Waypoint μ
  | .wgs84 lat lon headingDeg => .wgs84 (f lat) (f lon) (headingDeg.map f)
  | .siteLocal siteId x y theta => .siteLocal siteId (f x) (f y) (theta.map f)

def InputDetail.map (f : ν → μ) : InputDetail ν → InputDetail μ
  | .navigation waypoints => .navigation (waypoints.map (Waypoint.map f))
  | .coverage fields => .coverage fields

mutual
def StageInput.map (f : ν → μ) : StageInput ν → StageInput μ
  | .mk i cs d => .mk i (mapCleanup f cs) (d.map f)

def mapCleanup (f : ν → μ) : Option (List (StageInput ν)) → Option (List (StageInput μ))
  | none => none
  | some cs => some (mapInputs f cs)

def mapInputs (f : ν → μ) : List (StageInput ν) → List (StageInput μ)
  | [] => []
  | s :: rest => s.map f :: mapInputs f rest
end

@[simp] theorem getD_mapCleanup (f : ν → μ) (cs : Option (List (StageInput ν))) :
    (mapCleanup f cs).getD [] = mapInputs f (cs.getD []) := by
  cases cs <;> rfl

/-- The numbers of a request do not matter to how it is walked. -/
theorem walkFrom_mapInputs (f : ν → μ) (path : InputPath) (n : Nat) (inputs : List (StageInput ν)) :
    walkFrom path n (mapInputs f inputs) = (walkFrom path n inputs).map fun x => (x.1, x.2.map f) := by
  induction inputs using inputsInduction generalizing path n with
  | nil => rfl
  | cons i cs d rest ihs ih =>
    change walkFrom path n (.mk i (mapCleanup f cs) (d.map f) :: mapInputs f rest) = _
    rw [walkFrom_cons, walkFrom_cons, getD_mapCleanup, ihs, ih, List.map_cons, List.map_append]
    rfl

theorem walkInputs_mapInputs (f : ν → μ) (inputs : List (StageInput ν)) :
    walkInputs (mapInputs f inputs) = (walkInputs inputs).map fun x => (x.1, x.2.map f) :=
  walkFrom_mapInputs f [] 0 inputs

def Waypoint.numbers : Waypoint ν → List ν
  | .wgs84 lat lon headingDeg => lat :: lon :: headingDeg.toList
  | .siteLocal _ x y theta => x :: y :: theta.toList

def InputDetail.waypoints : InputDetail ν → List (Waypoint ν)
  | .navigation waypoints => waypoints
  | .coverage _ => []

def InputDetail.paramsRobotId? : InputDetail ν → Option RobotId
  | .navigation _ => none
  | .coverage fields => fields.paramsRobotId

def StageInput.detail : StageInput ν → InputDetail ν
  | .mk _ _ d => d

end Map

section Values

/-- The command by the values of its numbers. No check ahead of the write reads a waypoint's numbers,
only its frame and its site. -/
def UpdateMissionCommand.values (command : UpdateMissionCommand PyFloat) : UpdateMissionCommand :=
  { missionId := command.missionId, name := command.name, description := command.description
    stages := command.stages.map (mapInputs PyFloat.value) }

/-- A text column holds no NUL, nor does text in a document. -/
def HoldsText (text : String) : Prop := Char.ofNat 0 ∉ text.toList

instance : DecidablePred HoldsText := fun text => inferInstanceAs (Decidable (_ ∉ text.toList))

/-- What the columns hold of a request's stages: documents with finite numbers. -/
def StageInput.Storable (input : StageInput PyFloat) : Prop :=
  (∀ w ∈ input.detail.waypoints, ∀ x ∈ w.numbers, x.toRat? ≠ none) ∧
    ∀ robotId ∈ input.detail.paramsRobotId?, HoldsText robotId

instance : DecidablePred StageInput.Storable := fun _ => inferInstanceAs (Decidable (_ ∧ _))

/-- The columns hold what the command brings. -/
structure UpdateMissionCommand.Storable (command : UpdateMissionCommand PyFloat) : Prop where
  name : ∀ name ∈ command.name, HoldsText name
  description : ∀ description ∈ command.description, HoldsText description
  stages : ∀ x ∈ walkInputs command.inputs, x.2.Storable

instance : DecidablePred UpdateMissionCommand.Storable := fun command =>
  decidable_of_iff ((∀ name ∈ command.name, HoldsText name) ∧
    (∀ description ∈ command.description, HoldsText description) ∧
    ∀ x ∈ walkInputs command.inputs, x.2.Storable)
    ⟨fun h => ⟨h.1, h.2.1, h.2.2⟩, fun h => ⟨h.name, h.description, h.stages⟩⟩

variable {command : UpdateMissionCommand PyFloat} {round : PlanningRound}

theorem UpdateMissionCommand.inputs_values :
    command.values.inputs = mapInputs PyFloat.value command.inputs := by
  obtain ⟨missionId, name, description, stages⟩ := command
  cases stages <;> rfl

theorem drawsFor_values : drawsFor round command.values.inputs = drawsFor round command.inputs := by
  unfold drawsFor
  rw [UpdateMissionCommand.inputs_values, walkInputs_mapInputs, List.map_map]
  rfl

theorem Waypoint.Admitted.values {w : Waypoint PyFloat} (h : w.Admitted) :
    (w.map PyFloat.value).Admitted := by
  have h₉₀ : (-90 : PyFloat) = .finite (-90) := by decide
  have h₁₈₀ : (-180 : PyFloat) = .finite (-180) := by decide
  cases w with
  | siteLocal siteId x y theta => trivial
  | wgs84 lat lon headingDeg =>
    obtain ⟨hsouth, hnorth, hwest, heast, hheading⟩ := h
    rw [h₉₀] at hsouth
    rw [h₁₈₀] at hwest
    refine ⟨?_, ?_, ?_, ?_, ?_⟩
    · rw [h₉₀]
      exact PyFloat.finite_lt_finite.not.mpr (Rat.not_lt.mpr (PyFloat.le_value hsouth (by decide)))
    · exact PyFloat.finite_lt_finite.not.mpr (Rat.not_lt.mpr (PyFloat.value_le hnorth (by decide)))
    · rw [h₁₈₀]
      exact PyFloat.finite_lt_finite.not.mpr (Rat.not_lt.mpr (PyFloat.le_value hwest (by decide)))
    · exact PyFloat.finite_lt_finite.not.mpr (Rat.not_lt.mpr (PyFloat.value_le heast (by decide)))
    · intro heading hmem
      obtain ⟨x, hx, rfl⟩ := Option.map_eq_some_iff.mp hmem
      obtain ⟨hge, hlt⟩ := hheading x hx
      have hpos := PyFloat.le_value hge le_rfl
      have hturn := PyFloat.value_lt hlt (by decide)
      exact ⟨PyFloat.finite_lt_finite.not.mpr (Rat.not_lt.mpr hpos),
        PyFloat.finite_le_finite.not.mpr (Rat.not_le.mpr hturn)⟩

theorem InputsAdmitted.values (h : InputsAdmitted command.inputs) :
    InputsAdmitted command.values.inputs := by
  rw [UpdateMissionCommand.inputs_values]
  intro x hx
  rw [walkInputs_mapInputs] at hx
  obtain ⟨⟨path, ⟨i, cs, d⟩⟩, hmem, rfl⟩ := List.mem_map.mp hx
  have hinput := h _ hmem
  cases d with
  | coverage fields => exact hinput
  | navigation waypoints =>
    obtain ⟨hne, hadmitted⟩ := hinput
    refine ⟨List.map_eq_nil_iff.not.mpr hne, fun w hw => ?_⟩
    obtain ⟨w', hw', rfl⟩ := List.mem_map.mp hw
    exact (hadmitted w' hw').values

end Values

end Leitstand
