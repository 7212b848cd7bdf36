import Leitstand.EditRuns
import Leitstand.PlannedBounds

namespace Leitstand
open Except

/-- Every stored mission can be read, and as one that the models accept. -/
def Definitions.Valid (d : Definitions) : Prop :=
  ∀ missionId, (d.get missionId).Ensures
    (fun found => ∀ mission, found = some mission → mission.Valid) fun _ => False

/-- The saved mission differs from the stored one in the time of the edit and in what the command
names. -/
structure EditedBy (command : UpdateMissionCommand) (now : Datetime)
    (stored saved : MissionDefinition) : Prop where
  missionId : saved.missionId = stored.missionId
  assignedRobotId : saved.assignedRobotId = stored.assignedRobotId
  archivedAt : saved.archivedAt = stored.archivedAt
  createdAt : saved.createdAt = stored.createdAt
  updatedAt : saved.updatedAt = now
  name : saved.name = command.name.getD stored.name
  description : saved.description = command.description.or stored.description
  stages : command.stages = none → saved.stages = stored.stages

section Save
variable {d : Definitions} {trees : UUID → List Stage} {mission saved : MissionDefinition}
  {after : Definitions}

/-- A mission with ids of its own is saved exactly when its name fits, it has a stage and the sites
that its stages drive at are there. -/
theorem Definitions.save_eq_ok (hd : d.Holds trees) (hn : (stageIds mission.stages).Nodup)
    (ho : Owns trees mission.missionId mission.stages) : d.save mission = .ok (saved, after) ↔
      saved = { toMissionRow := d.savedRow mission, stages := mission.stages } ∧
      after = (d.withMission (d.savedRow mission)).replaced mission.missionId mission.stages ∧
      NameFits mission.name ∧ mission.stages ≠ [] ∧
      ∀ s ∈ allStages mission.stages, ∀ siteId, siteOf s = some siteId →
        (d.sites.find? siteId).isSome := by
  have hrow : (d.withMission (d.savedRow mission)).Holds trees := hd
  have hthere : ((d.withMission (d.savedRow mission)).missions.find? mission.missionId).isSome := by
    rw [isSome_withMission, missionId_savedRow]
    exact .inl rfl
  constructor
  · intro h
    obtain ⟨hreplace, hdomain, -⟩ := save_steps.mp h
    obtain ⟨rfl, hname, hne⟩ := toDomain_eq_ok.mp hdomain
    obtain ⟨rfl, hsites⟩ := (hrow.replaceStages_eq_ok hn ho).mp hreplace
    rw [name_savedRow] at hname
    exact ⟨rfl, rfl, hname, hne, (hsites.resolve_left hne).2⟩
  · rintro ⟨rfl, rfl, hname, hne, hsites⟩
    rw [← d.name_savedRow mission] at hname
    exact save_steps.mpr ⟨(hrow.replaceStages_eq_ok hn ho).mpr ⟨rfl, .inr ⟨hthere, hsites⟩⟩,
      toDomain_eq_ok.mpr ⟨rfl, hname, hne⟩, (hrow.replaced hn ho).stageOrder⟩

end Save

section Requests
variable {d : Definitions} {round : PlanningRound} {now : Datetime} {missionId : UUID}
  {command : UpdateMissionCommand} {planned : PlannedStages} {mission : MissionDefinition}

theorem PlanningRound.Admitted.redrawn (h : round.Admitted) (fresh : InputPath → UUID) :
    ({ round with fresh } : PlanningRound).Admitted :=
  ⟨h.boundaryDigest, h.physical, h.linearCurvChange, h.turnSampleM, h.planner⟩

theorem MissionEditing.requireOpen_responds (hd : d.Valid) (missionId : UUID) :
    Responds (MissionEditing.requireOpen d missionId) fun mission =>
      d.get missionId = .ok (some mission) ∧ mission.Valid := by
  have hget := (hd missionId).returned.mono (fun _ h => h) fun e he => he.elim (C := e.isDomain)
  refine hget.bind fun found ⟨hfound, hvalid⟩ => ?_
  refine (responds_orRaise rfl).bind fun mission hmission => ?_
  subst hmission
  exact (responds_raiseIf rfl).bind fun _ _ => .ok ⟨hfound, hvalid mission rfl⟩

theorem MissionEditing.updatePlan_returns (hd : d.Valid) (hround : round.Admitted)
    (hcmd : InputsAdmitted command.inputs) :
    ReturnsOnly (MissionEditing.updatePlan d round command) PlansValid := by
  unfold MissionEditing.updatePlan
  unfold UpdateMissionCommand.inputs at hcmd
  cases hstages : command.stages with
  | none => exact .ok fun _ h => nomatch h
  | some inputs =>
    rw [hstages] at hcmd
    exact (requireOpen_responds hd _).toReturnsOnly.bind fun _ _ => planInputs_returns hround hcmd _ _

/-- What the stages of a mission are after a request, in view of those it has. -/
structure StagesFor (sites : Table Site.siteId) (before : List Stage)
    (requested : Option (List StageInput)) (stages : List Stage) : Prop where
  valid : AllValid stages
  kept : requested = none → stages = before
  driven : requested ≠ none → SitesKnown sites stages
  empty : before ≠ [] → (stages = [] ↔ requested = some [])

theorem withIds_eq_nil {ctx : IdContext} {inputs : List StageInput} {stages : List Stage}
    (h : withIds ctx inputs = .ok stages) : stages = [] ↔ inputs = [] := by
  obtain ⟨seen, hbuild⟩ := withIds_eq_ok.mp h
  cases inputs with
  | nil =>
    obtain ⟨rfl, -⟩ := Prod.mk.inj (Except.ok.inj hbuild)
    exact iff_of_true rfl rfl
  | cons x rest =>
    obtain ⟨i, cs, t⟩ := x
    obtain ⟨seen₁, children, seen₂, stage, seen₃, others, -, -, -, -, rfl⟩ := buildFrom_cons hbuild
    exact iff_of_false (List.cons_ne_nil _ _) (List.cons_ne_nil _ _)

theorem MissionEditing.updatedStages_returns {before : MissionDefinition}
    {requested : Option (List StageInput)} (hbefore : AllValid before.stages)
    (hround : round.Admitted) (hrequested : InputsAdmitted (requested.getD []))
    (hplanned : PlansValid planned) :
    ReturnsOnly (MissionEditing.updatedStages d round before planned requested)
      (StagesFor d.sites before.stages requested) := by
  cases requested with
  | none => exact .ok ⟨hbefore, fun _ => rfl, fun h => absurd rfl h, fun h => iff_of_false h nofun⟩
  | some inputs =>
    refine (replanChangedMeanwhile_returns hround hrequested _ hplanned).bind fun planned' hp => ?_
    refine (withIds_valid ⟨hp, fun _ _ hk => hbefore.storedCoverage hk⟩
      hrequested).toReturnsOnly.returned.bind fun stages ⟨hreturned, hstages⟩ => ?_
    refine (validateShape_responds _ _).toReturnsOnly.bind fun _ hsites => ?_
    refine .ok ⟨hstages, nofun, fun _ => hsites, ?_⟩
    intro _
    rw [withIds_eq_nil hreturned, Option.some.injEq]
    exact Iff.rfl

/-- An update that is not refused makes a mission with valid stages from the stored one. -/
theorem MissionEditing.update_returns (hd : d.Valid) (hround : round.Admitted)
    (hcmd : InputsAdmitted command.inputs) (hplanned : PlansValid planned) :
    ReturnsOnly (MissionEditing.update d round now command planned) fun mission =>
      ∃ stored, d.get command.missionId = .ok (some stored) ∧ stored.Valid ∧
        EditedBy command now stored mission ∧
        StagesFor d.sites stored.stages command.stages mission.stages := by
  refine (requireOpen_responds hd _).toReturnsOnly.bind fun stored ⟨hstored, hvalid⟩ => ?_
  refine (updatedStages_returns hvalid.stages hround hcmd hplanned).bind fun stages hstages => ?_
  exact .ok ⟨stored, hstored, hvalid, ⟨rfl, rfl, rfl, rfl, rfl, rfl, rfl, hstages.kept⟩, hstages⟩

theorem MissionEditing.create_valid {command : CreateMissionCommand} (hround : round.Admitted)
    (hcmd : InputsAdmitted command.stages)
    (h : MissionEditing.create d round now missionId command = .ok mission) :
    AllValid mission.stages := by
  obtain ⟨planned, hplan, h⟩ := bind_eq_ok.mp h
  obtain ⟨stages, hids, h⟩ := bind_eq_ok.mp h
  obtain ⟨u, -, h⟩ := bind_eq_ok.mp h
  obtain ⟨rfl, -, -⟩ := Definitions.toDomain_eq_ok.mp h
  have hplanned := (planInputs_returns hround hcmd _ _).returns planned hplan
  refine (withIds_valid ⟨hplanned, ?_⟩ hcmd).returns stages hids
  intro i kept hk
  cases hk

theorem generateStages_valid (hround : round.Admitted) {n : Nat} {inputs : List CoverageInputs}
    (hinputs : ∀ i ∈ inputs, i.Admitted) : ReturnsOnly (generateStages round n inputs) AllValid := by
  induction inputs generalizing n with
  | nil => exact .ok allValid_nil
  | cons input rest ih =>
    rw [List.forall_mem_cons] at hinputs
    refine (planCoverageStage_returns hround hinputs.1 none).bind fun stage hstage => ?_
    refine (ih hinputs.2).bind fun stages hstages => .ok ?_
    obtain ⟨hown, hbelow, -⟩ := allValid_cons.mp hstage
    exact allValid_cons.mpr ⟨hown, hbelow, hstages⟩

theorem AllValid.replaceStage {r : Stage} {stages : List Stage} (hr : AllValid [r])
    (h : AllValid stages) : AllValid (replaceStage r stages).1 := by
  induction stages using stagesInduction with
  | nil => exact allValid_nil
  | cons i cs d rest ihs ih =>
    obtain ⟨hown, hbelow, hrest⟩ := allValid_cons.mp h
    obtain ⟨j, cs', d'⟩ := r
    obtain ⟨hnew, hkids, -⟩ := allValid_cons.mp hr
    rw [replaceStage_cons]
    dsimp only
    split_ifs
    · exact allValid_cons.mpr ⟨hnew, hkids, ih hrest⟩
    · refine allValid_cons.mpr ⟨hown.relabelled, ?_, ih hrest⟩
      cases cs with
      | none => exact allValid_nil
      | some c => exact ihs hbelow
    · exact allValid_cons.mpr ⟨hown, hbelow, ih hrest⟩

theorem MissionEditing.replaceGeneratedStage_valid {stage : Stage} (hd : d.Valid)
    (hstage : AllValid [stage])
    (h : MissionEditing.replaceGeneratedStage d now missionId stage = .ok mission) :
    AllValid mission.stages := by
  obtain ⟨before, hopen, h⟩ := bind_eq_ok.mp h
  obtain ⟨u, -, h⟩ := bind_eq_ok.mp h
  obtain ⟨u', -, h⟩ := bind_eq_ok.mp h
  obtain rfl := Except.ok.inj h
  obtain ⟨-, hvalid⟩ := (requireOpen_responds hd missionId).returns before hopen
  exact hstage.replaceStage hvalid.stages

end Requests

/-- A request that the command models accept, planned with data that their models accept. -/
def EditAction.Admitted : EditAction → Prop
  | .create round _ _ command => round.Admitted ∧ InputsAdmitted command.stages
  | .planUpdate round command => round.Admitted ∧ InputsAdmitted command.inputs
  | .update _ round _ => round.Admitted
  | .createGenerated round _ _ _ _ inputs => round.Admitted ∧ ∀ i ∈ inputs, i.Admitted
  | .replaceGeneratedStage round _ _ inputs _ => round.Admitted ∧ inputs.Admitted
  | _ => True

namespace Editing

/-- What is stored and what is under way is within the bounds of the models. -/
structure Bounded (s : Editing) : Prop where
  names : ∀ missionId row, s.store.missions.find? missionId = some row → NameFits row.name
  stages : ∀ missionId stages, s.store.getStages missionId = some stages → AllValid stages
  saves : ∀ p ∈ s.saves, AllValid p.mission.stages
  updates : ∀ u ∈ s.updates, PlansValid u.planned ∧ InputsAdmitted u.command.inputs

section Steps
variable {s s' : Editing} {trees : UUID → List Stage} {round : PlanningRound} {now : Datetime}
  {missionId : UUID} {i : Nat}

/-- A sound store within the bounds is one of valid missions. -/
theorem Bounded.valid (hb : s.Bounded) (hs : s.Sound trees) : s.store.Valid := by
  intro missionId
  unfold Definitions.get
  cases hrow : s.store.missions.find? missionId with
  | none => exact .ok nofun
  | some row =>
    have hread := hs.holds.getStages missionId
    have hname := hb.names missionId row hrow
    have hne : tidied (trees missionId) ≠ [] := by
      rw [Ne, tidied_eq_nil]
      exact (hs.stored missionId).mpr (by rw [hrow]; rfl)
    have hdomain : Definitions.toDomain row (tidied (trees missionId)) =
        .ok { toMissionRow := row, stages := tidied (trees missionId) } := by
      refine Definitions.toDomain_eq_ok.mpr ⟨rfl, hname, hne⟩
    dsimp only
    rw [hread]
    change (Definitions.toDomain row (tidied (trees missionId)) >>= _).Ensures _ _
    rw [hdomain]
    refine .ok fun mission hm => ?_
    obtain rfl := Option.some.inj hm
    exact ⟨hname, hne, hb.stages missionId _ hread⟩

theorem Bounded.draws (hb : s.Bounded) {ids : List UUID} (h : s.draws ids = some s') :
    s'.Bounded := by
  unfold Editing.draws at h
  split_ifs at h
  obtain rfl := Option.some.inj h
  exact { hb with }

theorem Bounded.namesMission (hb : s.Bounded) (h : s.namesMission missionId = some s') :
    s'.Bounded := by
  unfold Editing.namesMission at h
  split_ifs at h
  obtain rfl := Option.some.inj h
  exact { hb with }

theorem Bounded.queueSave (hb : s.Bounded) {holdsLock : Bool} {ids : List UUID}
    {result : Except ServiceError MissionDefinition}
    (h : ∀ mission, result = .ok mission → AllValid mission.stages) :
    (s.queueSave holdsLock ids result).Bounded := by
  cases result with
  | error => exact hb
  | ok mission =>
    refine { hb with saves := List.forall_mem_append.mpr ⟨hb.saves, ?_⟩ }
    exact List.forall_mem_singleton.mpr (h mission rfl)

theorem Bounded.giveUp (hb : s.Bounded) {saves : List PendingSave} {updates : List PlannedUpdate}
    (hsaves : saves.Sublist s.saves) (hupdates : updates.Sublist s.updates) :
    ({ s with saves, updates } : Editing).Bounded :=
  { hb with
    saves := fun p hp => hb.saves p (hsaves.subset hp)
    updates := fun u hu => hb.updates u (hupdates.subset hu) }

theorem Bounded.addMission (hb : s.Bounded) {ids : List UUID}
    (result : Editing → Except ServiceError MissionDefinition)
    (hvalid : ∀ s mission, result s = .ok mission → AllValid mission.stages)
    (h : (s.draws ids).bind (fun s₁ => (s₁.namesMission missionId).bind fun s₂ =>
      some (s₂.queueSave false ids (result s₂))) = some s') : s'.Bounded := by
  obtain ⟨s₁, hdraws, h⟩ := Option.bind_eq_some_iff.mp h
  obtain ⟨s₂, hnames, h⟩ := Option.bind_eq_some_iff.mp h
  obtain rfl := Option.some.inj h
  exact ((hb.draws hdraws).namesMission hnames).queueSave (hvalid s₂)

theorem Bounded.planUpdate (hb : s.Bounded) (hs : s.Sound trees) {command : UpdateMissionCommand}
    (hround : round.Admitted) (hcmd : InputsAdmitted command.inputs)
    (h : s.planUpdate round command = some s') : s'.Bounded := by
  obtain ⟨s₁, hdraws, h⟩ := Option.bind_eq_some_iff.mp h
  have hb₁ := hb.draws hdraws
  have hvalid := hb₁.valid (hs.draws hdraws).1
  cases hplan : MissionEditing.updatePlan s₁.store round command with
  | error e =>
    simp only [hplan] at h
    obtain rfl := Option.some.inj h
    exact hb₁
  | ok planned =>
    simp only [hplan] at h
    obtain rfl := Option.some.inj h
    refine { hb₁ with updates := List.forall_mem_append.mpr ⟨hb₁.updates, ?_⟩ }
    refine List.forall_mem_singleton.mpr ⟨?_, hcmd⟩
    exact (MissionEditing.updatePlan_returns hvalid hround hcmd).returns planned hplan

theorem Bounded.update (hb : s.Bounded) (hs : s.Sound trees) (hround : round.Admitted)
    (h : s.update i round now = some s') : s'.Bounded := by
  obtain ⟨u, hu, h⟩ := Option.bind_eq_some_iff.mp h
  split_ifs at h
  obtain rfl := Option.some.inj h
  obtain ⟨hplanned, hcmd⟩ := hb.updates u (List.mem_of_getElem? hu)
  refine (hb.giveUp (.refl _) (s.updates.eraseIdx_sublist i)).queueSave fun mission hmission => ?_
  obtain ⟨stored, -, -, -, hstages⟩ := (MissionEditing.update_returns (hb.valid hs)
    (hround.redrawn _) hcmd hplanned).returns mission hmission
  exact hstages.valid

theorem Bounded.replaceGeneratedStage (hb : s.Bounded) (hs : s.Sound trees)
    {inputs : CoverageInputs} {stageId : Option UUID} (hround : round.Admitted)
    (hinputs : inputs.Admitted)
    (h : s.replaceGeneratedStage round now missionId inputs stageId = some s') : s'.Bounded := by
  unfold Editing.replaceGeneratedStage at h
  split_ifs at h
  obtain rfl := Option.some.inj h
  refine hb.queueSave fun mission hmission => ?_
  obtain ⟨stage, hstage, hmission⟩ := bind_eq_ok.mp hmission
  have hvalid := (planCoverageStage_returns hround hinputs stageId).returns stage hstage
  exact MissionEditing.replaceGeneratedStage_valid (hb.valid hs) hvalid hmission

/-- Another store, within the bounds, in place of the one there is. -/
theorem Bounded.commit (hb : s.Bounded) {after : Definitions}
    (hnames : ∀ missionId row, after.missions.find? missionId = some row → NameFits row.name)
    (hstages : ∀ missionId stages, after.getStages missionId = some stages → AllValid stages) :
    ({ s with store := after } : Editing).Bounded :=
  { hb with names := hnames, stages := hstages }

theorem Bounded.allValid (hb : s.Bounded) (hs : s.Sound trees) (m : UUID) : AllValid (trees m) :=
  allValid_tidied.mp (hb.stages m _ (hs.holds.getStages m))

/-- One mission's tree is replaced by a valid one. -/
theorem Bounded.replaceTree (hb : s.Bounded) (hs : s.Sound trees) {after : Definitions}
    {stages : List Stage} (hholds : after.Holds (Function.update trees missionId stages))
    (hstages : AllValid stages) (m : UUID) (read : List Stage)
    (h : after.getStages m = some read) : AllValid read := by
  obtain rfl := Option.some.inj ((hholds.getStages m).symm.trans h)
  have hall : ∀ m, AllValid (Function.update trees missionId stages m) :=
    (Function.forall_update_iff trees fun _ tree => AllValid tree).mpr
      ⟨hstages, fun m _ => hb.allValid hs m⟩
  exact allValid_tidied.mpr (hall m)

theorem names_withMission {d : Definitions} {row : MissionRow} (hrow : NameFits row.name)
    (hd : ∀ m row, d.missions.find? m = some row → NameFits row.name) (m : UUID) (row' : MissionRow)
    (h : (d.withMission row).missions.find? m = some row') : NameFits row'.name := by
  rw [Definitions.find?_withMission] at h
  split_ifs at h
  · obtain rfl := Option.some.inj h
    exact hrow
  · exact hd m row' h

theorem Bounded.save (hb : s.Bounded) (hs : s.Sound trees) {p : PendingSave}
    (h : s.saves[i]? = some p) {saved : MissionDefinition} {after : Definitions}
    (hsave : s.store.save p.mission = .ok (saved, after)) :
    ({ s with saves := s.saves.eraseIdx i, store := after } : Editing).Bounded := by
  have hp : p ∈ s.saves := List.mem_of_getElem? h
  have hn := (hs.ready p hp).nodup
  obtain ⟨-, rfl, hname, -, -⟩ := (Definitions.save_eq_ok hs.holds hn (hs.owns hp)).mp hsave
  have hrest := hb.giveUp (s.saves.eraseIdx_sublist i) (.refl s.updates)
  have hrow : (s.store.withMission (s.store.savedRow p.mission)).Holds trees := hs.holds
  refine hrest.commit ?_ (hb.replaceTree hs (hrow.replaced hn (hs.owns hp)) (hb.saves p hp))
  refine names_withMission ?_ hb.names
  rwa [Definitions.name_savedRow]

theorem Bounded.setArchived (hb : s.Bounded) (now : Datetime) (missionId : UUID)
    (when_ : Option Datetime) :
    ({ s with store := s.store.setArchived now missionId when_ } : Editing).Bounded := by
  unfold Definitions.setArchived
  cases hrow : s.store.missions.find? missionId with
  | none => exact { hb with }
  | some row => exact hb.commit (names_withMission (hb.names missionId row hrow) hb.names) hb.stages

theorem Bounded.deleteMission (hb : s.Bounded) (hs : s.Sound trees) {after : Definitions}
    (h : s.store.deleteMission missionId = .ok after) :
    ({ s with store := after } : Editing).Bounded := by
  obtain ⟨hholds, -, -⟩ := Definitions.deleteMission_ok hs.holds h
  obtain ⟨u, -, h⟩ := bind_eq_ok.mp h
  obtain rfl := Except.ok.inj h
  refine hb.commit ?_ (hb.replaceTree hs hholds allValid_nil)
  intro m row hrow
  change (s.store.missions.erase missionId).find? m = some row at hrow
  rw [Table.find?_erase] at hrow
  split_ifs at hrow
  exact hb.names m row hrow

theorem Bounded.command (hb : s.Bounded) {result : Except ServiceError Definitions}
    (hresult : ∀ after, result = .ok after → ({ s with store := after } : Editing).Bounded)
    (h : s.command missionId result = some s') : s'.Bounded := by
  unfold Editing.command at h
  split_ifs at h
  obtain rfl := Option.some.inj h
  cases result with
  | error e => exact hb
  | ok after => exact hresult after rfl

theorem Bounded.delete (hb : s.Bounded) (hs : s.Sound trees)
    (h : s.command missionId (MissionEditing.delete s.store now missionId) = some s') :
    s'.Bounded := by
  refine hb.command (fun after hafter => ?_) h
  obtain ⟨found, -, hafter⟩ := bind_eq_ok.mp hafter
  obtain ⟨mission, -, hafter⟩ := bind_eq_ok.mp hafter
  obtain ⟨u, -, hafter⟩ := bind_eq_ok.mp hafter
  split_ifs at hafter
  · obtain rfl := Except.ok.inj hafter
    exact hb.setArchived now missionId (some now)
  · exact hb.deleteMission hs hafter

theorem Bounded.restore (hb : s.Bounded)
    (h : s.command missionId (MissionEditing.restore s.store now missionId) = some s') :
    s'.Bounded := by
  refine hb.command (fun after hafter => ?_) h
  obtain ⟨found, -, hafter⟩ := bind_eq_ok.mp hafter
  obtain ⟨mission, -, hafter⟩ := bind_eq_ok.mp hafter
  obtain ⟨u, -, hafter⟩ := bind_eq_ok.mp hafter
  obtain rfl := Except.ok.inj hafter
  exact hb.setArchived now missionId none

theorem Bounded.finishSiteDeletion (hb : s.Bounded) (h : s.finishSiteDeletion i = some s') :
    s'.Bounded := by
  obtain ⟨siteId, -, h⟩ := Option.bind_eq_some_iff.mp h
  obtain rfl := Option.some.inj h
  cases hfinish : SiteManagement.deleteFinish s.store siteId with
  | error e => exact { hb with }
  | ok after =>
    obtain ⟨after', hdelete, hfinish⟩ := bind_eq_ok.mp hfinish
    obtain ⟨u, -, hfinish⟩ := bind_eq_ok.mp hfinish
    obtain rfl := Except.ok.inj hfinish
    obtain ⟨u', -, hdelete⟩ := bind_eq_ok.mp hdelete
    obtain rfl := Except.ok.inj hdelete
    exact { hb with }

theorem Bounded.step (hb : s.Bounded) (hs : s.Sound trees) {a : EditAction} (ha : a.Admitted)
    (h : s.step a = some s') : s'.Bounded := by
  cases a with
  | createSite site =>
    change s.createSite site = some s' at h
    unfold Editing.createSite at h
    split at h
    · cases h
    · obtain rfl := Option.some.inj h
      exact { hb with }
  | deleteSite siteId =>
    obtain rfl := Option.some.inj h
    unfold Editing.startSiteDeletion
    cases SiteManagement.deleteRead s.store siteId with
    | error e => exact hb
    | ok u => exact { hb with }
  | finishSiteDeletion i => exact hb.finishSiteDeletion h
  | create round now missionId command =>
    obtain ⟨hround, hcmd⟩ := ha
    exact hb.addMission (fun s => MissionEditing.create s.store round now missionId command)
      (fun _ _ hmission => MissionEditing.create_valid hround hcmd hmission) h
  | planUpdate round command => exact hb.planUpdate hs ha.1 ha.2 h
  | update i round now => exact hb.update hs ha h
  | createGenerated round now missionId name description inputs =>
    obtain ⟨hround, hinputs⟩ := ha
    refine hb.addMission (fun s => do
      let stages ← generateStages round 0 inputs
      MissionEditing.createGenerated s.store now missionId name description stages) ?_ h
    intro s mission hmission
    obtain ⟨stages, hstages, hmission⟩ := bind_eq_ok.mp hmission
    obtain ⟨u, -, hmission⟩ := bind_eq_ok.mp hmission
    rw [(Definitions.toDomain_eq_ok.mp hmission).1]
    exact (generateStages_valid hround hinputs).returns stages hstages
  | replaceGeneratedStage round now missionId inputs stageId =>
    exact hb.replaceGeneratedStage hs ha.1 ha.2 h
  | save i =>
    obtain ⟨p, hp, h⟩ := Option.bind_eq_some_iff.mp h
    obtain rfl := Option.some.inj h
    cases hsave : s.store.save p.mission with
    | error e => exact hb.giveUp (s.saves.eraseIdx_sublist i) (.refl _)
    | ok result => exact hb.save hs hp hsave
  | abandonUpdate i =>
    obtain rfl := Option.some.inj h
    exact hb.giveUp (.refl _) (s.updates.eraseIdx_sublist i)
  | abandonSave i =>
    obtain rfl := Option.some.inj h
    exact hb.giveUp (s.saves.eraseIdx_sublist i) (.refl _)
  | abandonSiteDeletion i =>
    obtain rfl := Option.some.inj h
    exact { hb with }
  | delete now missionId => exact hb.delete hs h
  | restore now missionId => exact hb.restore h
  | runsChange runs =>
    obtain rfl := Option.some.inj h
    exact { hb with }

end Steps

theorem Initial.bounded {s : Editing} (h : s.Initial) : s.Bounded where
  names := by
    rw [h.missions]
    exact fun _ _ hrow => nomatch hrow
  stages := by
    intro m stages hread
    obtain rfl := Option.some.inj ((h.sound.holds.getStages m).symm.trans hread)
    exact allValid_nil
  saves := by
    rw [h.saves]
    exact fun _ hp => nomatch hp
  updates := by
    rw [h.updates]
    exact fun _ hu => nomatch hu

/-- Reached by requests and data that their models accept. -/
def ReachableAdmitted (s : Editing) : Prop :=
  ∃ s₀ acts, Initial s₀ ∧ (∀ a ∈ acts, EditAction.Admitted a) ∧
    StepSystem.exec step s₀ acts = some s

theorem ReachableAdmitted.sound {s : Editing} (h : s.ReachableAdmitted) :
    ∃ trees, s.Sound trees ∧ s.Bounded := by
  obtain ⟨s₀, acts, hinitial, hacts, hrun⟩ := h
  refine StepSystem.exec_history (I := fun past s => (∀ a ∈ past, EditAction.Admitted a) →
    ∃ trees, s.Sound trees ∧ s.Bounded) (fun _ => ⟨_, hinitial.sound, hinitial.bounded⟩) ?_ hrun hacts
  intro past s a s' _ hpast hstep hadmitted
  rw [List.forall_mem_append, List.forall_mem_singleton] at hadmitted
  obtain ⟨trees, hs, hb⟩ := hpast hadmitted.1
  obtain ⟨trees', hs'⟩ := hs.step hstep
  exact ⟨trees', hs', hb.step hs hadmitted.2 hstep⟩

/-- Whatever edits ran side by side, every stored mission meets the constraints of its model. -/
theorem ReachableAdmitted.valid {s : Editing} (h : s.ReachableAdmitted) : s.store.Valid := by
  obtain ⟨trees, hs, hb⟩ := h.sound
  exact hb.valid hs

end Editing

end Leitstand
