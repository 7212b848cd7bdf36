import Leitstand.EditInvariant

namespace Leitstand
namespace Editing

section Steps
variable {s s' : Editing} {trees : UUID → List Stage} {round : PlanningRound} {now : Datetime}
  {missionId : UUID} {i : Nat}

/-- A new mission waits to be saved under the id it was given. -/
theorem Sound.addMission (hs : s.Sound trees) {ids : List UUID}
    (result : Editing → Except ServiceError MissionDefinition)
    (hready : ∀ s mission, ids.Nodup → result s = .ok mission →
      mission.missionId = missionId ∧ Ready [] ids mission.stages)
    (h : (s.draws ids).bind (fun s₁ => (s₁.namesMission missionId).bind fun s₂ =>
      some (s₂.queueSave false ids (result s₂))) = some s') : s'.Sound trees := by
  obtain ⟨s₁, hdraws, h⟩ := Option.bind_eq_some_iff.mp h
  obtain ⟨s₂, hnames, h⟩ := Option.bind_eq_some_iff.mp h
  obtain rfl := Option.some.inj h
  obtain ⟨hs₁, hd, -⟩ := hs.draws hdraws
  obtain ⟨hs₂, hnamed, hnone, hapart, -, hkeep⟩ := hs₁.namesMission hnames
  apply hs₂.queueSave (hkeep _ hd)
  intro mission hmission
  obtain ⟨rfl, hfits⟩ := hready s₂ mission hd.nodup hmission
  rw [hnone]
  exact ⟨hfits, by simp, hnamed, hapart⟩

theorem Sound.create (hs : s.Sound trees) {command : CreateMissionCommand}
    (h : s.create round now missionId command = some s') : s'.Sound trees :=
  hs.addMission (fun s => MissionEditing.create s.store round now missionId command)
    (fun _ _ hn hmission => MissionEditing.create_ready hn hmission) h

theorem Sound.createGenerated (hs : s.Sound trees) {name : String} {description : Option String}
    {inputs : List CoverageInputs}
    (h : s.createGenerated round now missionId name description inputs = some s') :
    s'.Sound trees :=
  hs.addMission (fun s => do
      let stages ← generateStages round 0 inputs
      MissionEditing.createGenerated s.store now missionId name description stages)
    (fun _ _ hn hmission => MissionEditing.createGenerated_ready hn hmission) h

theorem Sound.replaceGeneratedStage (hs : s.Sound trees) {inputs : CoverageInputs}
    {stageId : Option UUID}
    (h : s.replaceGeneratedStage round now missionId inputs stageId = some s') :
    s'.Sound trees := by
  unfold Editing.replaceGeneratedStage at h
  split_ifs at h with hlocked
  obtain rfl := Option.some.inj h
  apply hs.queueSave (Draws.nil s trees)
  intro mission hmission
  obtain ⟨rfl, hne, hready⟩ := MissionEditing.replaceGeneratedStage_ready hs.holds hmission
  have hapart := hs.not_saving (Bool.eq_false_iff.mpr hlocked) hne
  exact ⟨hready, by simp [hne], hs.named _ hne, hapart⟩

/-- An update that is planned holds on to the ids it drew. -/
theorem Sound.addUpdate (hs : s.Sound trees) {u : PlannedUpdate} (hd : Draws s trees u.drawn)
    (hentries : ∀ entry ∈ u.planned, ∃ item ∈ coverageInputsToPlan u.command.inputs,
      PlansFor (fun _ _ => True) u.round.fresh item entry) :
    ({ s with updates := s.updates ++ [u] } : Editing).Sound trees := by
  have hdrawn : ({ s with updates := s.updates ++ [u] } : Editing).drawn.Perm
      (u.drawn ++ s.drawn) := by
    unfold Editing.drawn
    simp only [List.flatMap_append, List.flatMap_cons, List.flatMap_nil, List.append_nil,
      ← List.append_assoc]
    rw [List.append_assoc u.drawn]
    exact List.perm_append_comm
  obtain ⟨hnodup, hissued, hnew⟩ := hs.hold hd hdrawn
  exact { hs with
    drawnOnce := hnodup
    drawnIssued := hissued
    drawnNew := hnew
    planned := List.forall_mem_append.mpr ⟨hs.planned, List.forall_mem_singleton.mpr hentries⟩ }

theorem MissionEditing.updatePlan_entries {d : Definitions} {command : UpdateMissionCommand}
    {planned : PlannedStages} (h : MissionEditing.updatePlan d round command = .ok planned) :
    ∀ entry ∈ planned, ∃ item ∈ coverageInputsToPlan command.inputs,
      PlansFor (fun _ _ => True) round.fresh item entry := by
  unfold MissionEditing.updatePlan at h
  unfold UpdateMissionCommand.inputs
  cases hc : command.stages with
  | none =>
    rw [hc] at h
    obtain rfl := Except.ok.inj h
    exact fun _ he => by cases he
  | some inputs =>
    rw [hc] at h
    obtain ⟨unlocked, -, h⟩ := bind_eq_ok.mp h
    exact (planInputs_entries (fitting_any round) h).1

theorem Sound.planUpdate (hs : s.Sound trees) {command : UpdateMissionCommand}
    (h : s.planUpdate round command = some s') : s'.Sound trees := by
  obtain ⟨s₁, hdraws, h⟩ := Option.bind_eq_some_iff.mp h
  obtain ⟨hs₁, hd, -⟩ := hs.draws hdraws
  cases hplan : MissionEditing.updatePlan s₁.store round command with
  | error e =>
    simp only [hplan] at h
    obtain rfl := Option.some.inj h
    exact hs₁
  | ok planned =>
    simp only [hplan] at h
    obtain rfl := Option.some.inj h
    exact hs₁.addUpdate hd (MissionEditing.updatePlan_entries hplan)

theorem Sound.update (hs : s.Sound trees) (h : s.update i round now = some s') :
    s'.Sound trees := by
  obtain ⟨u, hu, h⟩ := Option.bind_eq_some_iff.mp h
  split_ifs at h with hlocked
  obtain rfl := Option.some.inj h
  have hd := hs.draws_update hu
  apply (hs.eraseUpdate i).queueSave hd
  intro mission hmission
  have hdraws : (drawsFor { round with fresh := u.round.fresh } u.command.inputs).Nodup := hd.nodup
  obtain ⟨hid, hne, hready⟩ := MissionEditing.update_ready hs.holds (hs.shaped _) hdraws
    (fun j hj => hd.new j hj _) (hs.planned u (List.mem_of_getElem? hu)) hmission
  rw [hid]
  have hapart := hs.not_saving (Bool.eq_false_iff.mpr hlocked) hne
  exact ⟨hready, by simp [hne], hs.named _ hne, hapart⟩

theorem Sound.finishSave (hs : s.Sound trees) (h : s.save i = some s') :
    ∃ trees', s'.Sound trees' := by
  obtain ⟨p, hp, h⟩ := Option.bind_eq_some_iff.mp h
  obtain rfl := Option.some.inj h
  cases hsave : s.store.save p.mission with
  | error e => exact ⟨trees, hs.eraseSave i⟩
  | ok result => exact ⟨_, hs.save hp hsave⟩

theorem Sound.createSite (hs : s.Sound trees) {site : Site} (h : s.createSite site = some s') :
    s'.Sound trees := by
  unfold Editing.createSite at h
  split at h
  · cases h
  · rename_i hnew
    obtain rfl := Option.some.inj h
    refine hs.store_change hs.holds (fun _ => Iff.rfl) ?_
    intro m siteId hsite
    have hold := hs.sites m siteId hsite
    rw [Table.find?_insert]
    split_ifs
    · rfl
    · exact hold

theorem Sound.startSiteDeletion (hs : s.Sound trees) (siteId : UUID) :
    (s.startSiteDeletion siteId).Sound trees := by
  unfold Editing.startSiteDeletion
  cases SiteManagement.deleteRead s.store siteId with
  | error e => exact hs
  | ok u => exact { hs with }

theorem Sound.finishSiteDeletion (hs : s.Sound trees) (h : s.finishSiteDeletion i = some s') :
    s'.Sound trees := by
  obtain ⟨siteId, -, h⟩ := Option.bind_eq_some_iff.mp h
  obtain rfl := Option.some.inj h
  have hrest : ({ s with siteDeletions := s.siteDeletions.eraseIdx i } : Editing).Sound trees :=
    { hs with }
  cases hfinish : SiteManagement.deleteFinish s.store siteId with
  | error e => exact hrest
  | ok after =>
    obtain ⟨after', hdelete, hfinish⟩ := bind_eq_ok.mp hfinish
    obtain ⟨u, -, hfinish⟩ := bind_eq_ok.mp hfinish
    obtain rfl := Except.ok.inj hfinish
    obtain ⟨hholds, hmissions, hsites⟩ :=
      Definitions.deleteSite_ok hs.holds hs.shaped hs.sites hdelete
    exact hrest.store_change hholds (fun m => by rw [hmissions]) hsites

theorem Sound.delete (hs : s.Sound trees)
    (h : s.command missionId (MissionEditing.delete s.store now missionId) = some s') :
    ∃ trees', s'.Sound trees' := by
  unfold command at h
  split_ifs at h with hlocked
  obtain rfl := Option.some.inj h
  cases hdelete : MissionEditing.delete s.store now missionId with
  | error e => exact ⟨trees, hs⟩
  | ok after =>
    obtain ⟨found, hget, hdelete⟩ := bind_eq_ok.mp hdelete
    obtain ⟨mission, hfound, hdelete⟩ := bind_eq_ok.mp hdelete
    obtain ⟨u, -, hdelete⟩ := bind_eq_ok.mp hdelete
    rw [orRaise_eq_ok.mp hfound] at hget
    have hstored := Option.isSome_of_eq_some (Definitions.get_eq_some.mp hget).1
    have hapart := hs.not_saving (Bool.eq_false_iff.mpr hlocked) ((hs.stored missionId).mpr hstored)
    split_ifs at hdelete with hruns
    · obtain rfl := Except.ok.inj hdelete
      exact ⟨trees, hs.setArchived now missionId (some now)⟩
    · exact ⟨_, hs.deleteMission hapart hdelete⟩

theorem Sound.restore (hs : s.Sound trees)
    (h : s.command missionId (MissionEditing.restore s.store now missionId) = some s') :
    s'.Sound trees := by
  unfold command at h
  split_ifs at h with hlocked
  obtain rfl := Option.some.inj h
  cases hrestore : MissionEditing.restore s.store now missionId with
  | error e => exact hs
  | ok after =>
    obtain ⟨found, -, hrestore⟩ := bind_eq_ok.mp hrestore
    obtain ⟨mission, -, hrestore⟩ := bind_eq_ok.mp hrestore
    obtain ⟨u, -, hrestore⟩ := bind_eq_ok.mp hrestore
    obtain rfl := Except.ok.inj hrestore
    exact hs.setArchived now missionId none

/-- Every operation, from its reads to its commit, keeps a sound store sound. -/
theorem Sound.step (hs : s.Sound trees) {a : EditAction} (h : s.step a = some s') :
    ∃ trees', s'.Sound trees' := by
  cases a with
  | createSite site => exact ⟨trees, hs.createSite h⟩
  | deleteSite siteId =>
    obtain rfl := Option.some.inj h
    exact ⟨trees, hs.startSiteDeletion siteId⟩
  | finishSiteDeletion i => exact ⟨trees, hs.finishSiteDeletion h⟩
  | create round now missionId command => exact ⟨trees, hs.create h⟩
  | planUpdate round command => exact ⟨trees, hs.planUpdate h⟩
  | update i round now => exact ⟨trees, hs.update h⟩
  | createGenerated round now missionId name description inputs =>
    exact ⟨trees, hs.createGenerated h⟩
  | replaceGeneratedStage round now missionId inputs stageId =>
    exact ⟨trees, hs.replaceGeneratedStage h⟩
  | save i => exact hs.finishSave h
  | abandonUpdate i =>
    obtain rfl := Option.some.inj h
    exact ⟨trees, hs.eraseUpdate i⟩
  | abandonSave i =>
    obtain rfl := Option.some.inj h
    exact ⟨trees, hs.eraseSave i⟩
  | abandonSiteDeletion i =>
    obtain rfl := Option.some.inj h
    exact ⟨trees, { hs with }⟩
  | delete now missionId => exact hs.delete h
  | restore now missionId => exact ⟨trees, hs.restore h⟩
  | runsChange runs =>
    obtain rfl := Option.some.inj h
    exact ⟨trees, hs.store_change hs.holds (fun _ => Iff.rfl) hs.sites⟩

end Steps

theorem Initial.sound {s : Editing} (h : s.Initial) : s.Sound fun _ => [] where
  holds := by
    intro m
    change (s.store.stages.rows.filter _).Perm []
    rw [h.stages]
    exact List.Perm.nil
  stored := by
    intro m
    rw [h.missions]
    simp
  shaped := fun _ => Shaped.nil
  sites := fun _ => SitesKnown.nil _
  issued := fun _ _ hi => by cases hi
  named := fun _ hm => absurd rfl hm
  drawnOnce := by
    unfold drawn
    rw [h.saves, h.updates]
    exact List.nodup_nil
  drawnIssued := by
    unfold drawn
    rw [h.saves, h.updates]
    exact fun _ hi => by cases hi
  drawnNew := fun _ _ _ hi => by cases hi
  ready := by
    rw [h.saves]
    exact fun _ hp => by cases hp
  locks := by
    rw [h.saves]
    exact fun _ hp => by cases hp
  savesNamed := by
    rw [h.saves]
    exact fun _ hp => by cases hp
  apart := by
    rw [h.saves]
    exact List.nodup_nil
  planned := by
    rw [h.updates]
    exact fun _ hu => by cases hu

theorem Reachable.sound {s : Editing} (h : s.Reachable) : ∃ trees, s.Sound trees :=
  h.invariant (I := fun s => ∃ trees, s.Sound trees) (fun _ hi => ⟨_, hi.sound⟩)
    fun _ _ _ hs hstep => hs.elim fun _ hs => hs.step hstep

/-- Whatever edits of missions and sites ran side by side, a stored mission reads back well formed:
its stage ids are distinct and its own, a stage stays in one frame and at one site, and that site is
in the catalog. -/
theorem Reachable.wellFormed {s : Editing} (h : s.Reachable) {missionId : UUID}
    (hstored : (s.store.missions.find? missionId).isSome) :
    ∃ stages, s.store.getStages missionId = some stages ∧ stages ≠ [] ∧ (stageIds stages).Nodup ∧
      (∀ other stages', other ≠ missionId → s.store.getStages other = some stages' →
        ∀ i ∈ stageIds stages, i ∉ stageIds stages') ∧
      (∀ stage ∈ allStages stages, stage.OneFrame ∧ stage.OneSite) ∧
      ∀ siteId ∈ referencedSiteIds stages, (s.store.sites.find? siteId).isSome := by
  obtain ⟨trees, hs⟩ := h.sound
  have hshaped := (hs.shaped missionId).tidied
  refine ⟨_, hs.holds.getStages missionId, ?_, ?_, ?_, ?_, ?_⟩
  · rw [Ne, tidied_eq_nil]
    exact (hs.stored missionId).mpr hstored
  · rw [stageIds_tidied]
    exact hs.holds.nodup missionId
  · intro other stages' hother hread i hi hi'
    rw [hs.holds.getStages] at hread
    obtain rfl := Option.some.inj hread
    rw [stageIds_tidied] at hi hi'
    exact hother (hs.holds.missionId_unique hi' hi)
  · intro stage hmem
    exact ⟨hshaped.oneFrame stage hmem, hshaped.oneSite stage hmem⟩
  · intro siteId hsite
    rw [referencedSiteIds, List.mem_eraseDups, siteIds_tidied] at hsite
    exact hs.sites missionId siteId hsite

section Demo

/-- A site and a mission that drives there, with a stage that cleans up at the site. -/
def demoEdits : List EditAction :=
  [.createSite (Definitions.demoSite 5),
    .create { demoRound with fresh := fun path => BitVec.ofNat 128 (100 + path.length) } 0 1
      { name := "field", description := none
        stages := [.mk none (some [.mk none none (.navigation [.siteLocal 5 0 0 none])])
          (.navigation [.siteLocal 5 1 1 none])] },
    .save 0]

theorem Reachable.wellFormed_demoEdits : ∃ s stages, StepSystem.exec step ⟨{}, [], [], [], [], []⟩
      demoEdits = some s ∧ s.store.getStages 1 = some stages ∧ (stageIds stages).Nodup ∧
      ∀ siteId ∈ referencedSiteIds stages, (s.store.sites.find? siteId).isSome := by
  have hrun : (StepSystem.exec step ⟨{}, [], [], [], [], []⟩ demoEdits).any
      fun s => (s.store.missions.find? 1).isSome := by
    decide +kernel
  obtain ⟨s, hs, hstored⟩ := (Option.any_eq_true _ _).mp hrun
  have hreach : s.Reachable := ⟨_, demoEdits, ⟨rfl, rfl, rfl, rfl, rfl, rfl, rfl⟩, hs⟩
  obtain ⟨stages, hread, -, hnodup, -, -, hsites⟩ := hreach.wellFormed hstored
  exact ⟨s, stages, hs, hread, hnodup, hsites⟩

end Demo

end Editing

end Leitstand
