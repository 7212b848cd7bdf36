import Leitstand.Editing
import Leitstand.StageIdentity

namespace Leitstand

/-- Every stage at every depth is driven in one frame and at one site at most. -/
structure Shaped (stages : List Stage) : Prop where
  oneFrame : ∀ s ∈ allStages stages, s.OneFrame
  oneSite : ∀ s ∈ allStages stages, s.OneSite

def SitesKnown (sites : Table Site.siteId) (stages : List Stage) : Prop :=
  ∀ siteId ∈ siteIds stages, (sites.find? siteId).isSome

theorem Shaped.nil : Shaped [] := ⟨fun _ h => (by cases h), fun _ h => (by cases h)⟩

theorem SitesKnown.nil (sites : Table Site.siteId) : SitesKnown sites [] :=
  fun _ h => (by cases h)

theorem Shaped.tidied {stages : List Stage} (h : Shaped stages) : Shaped (tidied stages) := by
  constructor
  · intro s hs w hw w' hw'
    rw [allStages_tidied] at hs
    obtain ⟨t, ht, rfl⟩ := List.mem_map.mp hs
    rw [stageWaypoints_tidied] at hw hw'
    exact h.oneFrame t ht w hw w' hw'
  · intro s hs w hw w' hw'
    rw [allStages_tidied] at hs
    obtain ⟨t, ht, rfl⟩ := List.mem_map.mp hs
    rw [stageWaypoints_tidied] at hw hw'
    exact h.oneSite t ht w hw w' hw'

theorem MissionEditing.validateShape_ok {sites : Table Site.siteId} {stages : List Stage} {u : Unit}
    (h : MissionEditing.validateShape sites stages = .ok u) : Shaped stages := by
  obtain ⟨u₁, hframes, h⟩ := bind_eq_ok.mp h
  obtain ⟨u₂, -, hsites⟩ := bind_eq_ok.mp h
  exact ⟨validateHomogeneousFrames_eq_ok.mp hframes, validateSingleSite_eq_ok.mp hsites⟩

section ReplaceStage
variable {r : Stage}

theorem replaceStage_cons (i : UUID) (cs : Option (List Stage)) (d : StageDetail)
    (rest : List Stage) : replaceStage r (.mk i cs d :: rest) =
      ((if i = r.stageId then r
        else if (replaceStage r (cs.getD [])).2 then .mk i (cs.map fun c => (replaceStage r c).1) d
        else .mk i cs d) :: (replaceStage r rest).1,
        decide (i = r.stageId) || (replaceStage r (cs.getD [])).2 || (replaceStage r rest).2) := by
  rw [replaceStage, Stage.swapped]
  by_cases hi : i = r.stageId
  · simp [hi]
  · cases cs with
    | none => simp [hi, swappedCleanup, replaceStage]
    | some c =>
      cases hf : (replaceStage r c).2 <;> simp [hi, swappedCleanup, hf]

/-- A stage without children, swapped in place, brings no id that was not there. -/
theorem stageIds_replaceStage_sublist (hr : r.children = []) (stages : List Stage) :
    (stageIds (replaceStage r stages).1).Sublist (stageIds stages) := by
  induction stages using stagesInduction with
  | nil => exact .slnil
  | cons i cs d rest ihs ih =>
    rw [replaceStage_cons, stageIds, stageIds]
    refine List.Sublist.append ?_ ih
    rw [Stage.ids_eq (.mk i cs d)]
    by_cases hi : i = r.stageId
    · rw [if_pos hi, Stage.ids_eq, hr, ← hi]
      exact List.Sublist.cons_cons _ (List.nil_sublist _)
    · rw [if_neg hi]
      split_ifs with hf
      · rw [Stage.ids_eq]
        refine List.Sublist.cons_cons _ ?_
        cases cs with
        | none => exact .refl _
        | some c => exact ihs
      · rw [Stage.ids_eq]

end ReplaceStage

/-- A mission about to be saved, in view of the tree it has: each stage has an id of its own, from
that tree or from `drawn`. -/
structure Ready (tree : List Stage) (drawn : List UUID) (stages : List Stage) : Prop where
  nodup : (stageIds stages).Nodup
  known : ∀ i ∈ stageIds stages, i ∈ stageIds tree ∨ i ∈ drawn
  shaped : Shaped stages

/-- Ids drawn anew belong to no mission, so all are the mission's own. -/
theorem Ready.owns {d : Definitions} {trees : UUID → List Stage} {missionId : UUID}
    {drawn : List UUID} {stages : List Stage} (hd : d.Holds trees)
    (h : Ready (trees missionId) drawn stages)
    (hnew : ∀ i ∈ drawn, ∀ m, i ∉ stageIds (trees m)) :
    Definitions.Owns trees missionId stages := by
  intro i hi m hm
  obtain hown | hdrawn := h.known i hi
  · exact hd.missionId_unique hm hown
  · exact absurd hm (hnew i hdrawn m)

section Operations
variable {d : Definitions} {trees : UUID → List Stage} {round : PlanningRound} {now : Datetime}
  {missionId : UUID} {mission : MissionDefinition}

/-- A mission that can be edited is a stored one, read as it is held. -/
theorem MissionEditing.requireOpen_ok (hd : d.Holds trees)
    (h : MissionEditing.requireOpen d missionId = .ok mission) :
    (d.missions.find? missionId).isSome ∧ mission.missionId = missionId ∧
      mission.stages = tidied (trees missionId) ∧ trees missionId ≠ [] := by
  obtain ⟨found, hget, h⟩ := bind_eq_ok.mp h
  obtain ⟨mission', hfound, h⟩ := bind_eq_ok.mp h
  obtain ⟨u, -, h⟩ := bind_eq_ok.mp h
  obtain rfl := Except.ok.inj h
  obtain rfl := orRaise_eq_ok.mp hfound
  obtain ⟨hrow, hread, -, hne⟩ := Definitions.get_eq_some.mp hget
  rw [hd.getStages] at hread
  have hstages := Option.some.inj hread
  refine ⟨Option.isSome_of_eq_some hrow, Table.key_of_find? hrow, hstages.symm, ?_⟩
  intro hnil
  rw [← hstages, hnil] at hne
  exact hne rfl

/-- Distinct new ids and the ids of the stages read make a mission's ids distinct. -/
theorem ready_of_build {ctx : IdContext} {inputs : List StageInput} {stages tree : List Stage}
    (hknown : ChildrenKnown ctx) (hctx : ∀ i ∈ ctx.existing, i ∈ stageIds tree)
    (hfresh : ctx.fresh = round.fresh) (hdraws : (drawsFor round inputs).Nodup)
    (hnew : ∀ i ∈ drawsFor round inputs, i ∉ stageIds tree)
    (hsettled : ∀ x ∈ walkInputs inputs,
      Settled ctx.stored (fun _ _ => True) ctx.fresh ctx.planned x)
    (h : withIds ctx inputs = .ok stages) (hshaped : Shaped stages) :
    Ready tree (drawsFor round inputs) stages := by
  obtain ⟨seen, hbuild⟩ := withIds_eq_ok.mp h
  have hacc := buildFrom_accounts hknown (fun x hx => (hsettled x hx).plannedAt) hbuild
  rw [hfresh] at hacc
  refine ⟨hacc.nodup_ids hdraws fun i hi he => hnew i hi (hctx i he), ?_, hshaped⟩
  intro i hi
  exact (hacc.mem hi).imp_left (hctx i)

theorem MissionEditing.create_ready {command : CreateMissionCommand}
    (hdraws : (drawsFor round command.stages).Nodup)
    (h : MissionEditing.create d round now missionId command = .ok mission) :
    mission.missionId = missionId ∧ Ready [] (drawsFor round command.stages) mission.stages := by
  obtain ⟨planned, hplan, h⟩ := bind_eq_ok.mp h
  obtain ⟨stages, hids, h⟩ := bind_eq_ok.mp h
  obtain ⟨u, hshape, h⟩ := bind_eq_ok.mp h
  obtain ⟨rfl, -, -⟩ := Definitions.toDomain_eq_ok.mp h
  refine ⟨rfl, ?_⟩
  obtain ⟨hentries, hdone⟩ := planInputs_entries (fitting_any round) hplan
  refine ready_of_build ?_ (fun _ h => h) rfl hdraws (fun _ _ h => by cases h)
    (settled_of_done hentries hdone) hids (MissionEditing.validateShape_ok hshape)
  intro i kept hk
  cases hk

theorem MissionEditing.updatedStages_ready {before : MissionDefinition} {tree : List Stage}
    {inputs : List StageInput} {planned : PlannedStages} {stages : List Stage}
    (hbefore : before.stages = tidied tree) (hnodup : (stageIds tree).Nodup)
    (hdraws : (drawsFor round inputs).Nodup)
    (hnew : ∀ i ∈ drawsFor round inputs, i ∉ stageIds tree)
    (hentries : ∀ entry ∈ planned, ∃ item ∈ coverageInputsToPlan inputs,
      PlansFor (fun _ _ => True) round.fresh item entry)
    (h : MissionEditing.updatedStages d round before planned (some inputs) = .ok stages) :
    Ready tree (drawsFor round inputs) stages := by
  obtain ⟨planned', hreplan, h⟩ := bind_eq_ok.mp h
  obtain ⟨stages', hids, h⟩ := bind_eq_ok.mp h
  obtain ⟨u, hshape, h⟩ := bind_eq_ok.mp h
  obtain rfl := Except.ok.inj h
  obtain ⟨⟨entries, rfl, hmore⟩, hdone⟩ :=
    foldlM_grows (fun _ _ _ => replanStep_grows (fitting_any round)) hreplan
  have hstored : ∀ i, i ∈ stageIds before.stages ↔ i ∈ stageIds tree := fun i => by
    rw [hbefore, stageIds_tidied]
  have hkeys : ∀ i, i ∈ (byStageId before.stages).rows.map Stage.stageId ↔
      i ∈ stageIds before.stages := fun i => by
    rw [← byStageId_isSome, Option.isSome_iff_exists, List.mem_map]
    simp only [Table.find?_eq_some_iff]
  refine ready_of_build ?_ (fun i hi => (hstored i).mp ((hkeys i).mp hi)) rfl hdraws hnew
    (settled_of_done (List.forall_mem_append.mpr ⟨hentries, hmore⟩) hdone) hids
    (MissionEditing.validateShape_ok hshape)
  intro i kept hk
  have hsub := children_of_storedCoverage hk
  refine ⟨hsub.nodup ?_, fun j hj => (hkeys j).mpr (hsub.subset hj)⟩
  rw [hbefore, stageIds_tidied]
  exact hnodup

theorem MissionEditing.update_ready {command : UpdateMissionCommand} {planned : PlannedStages}
    (hd : d.Holds trees) (hshaped : Shaped (trees command.missionId))
    (hdraws : (drawsFor round command.inputs).Nodup)
    (hnew : ∀ i ∈ drawsFor round command.inputs, i ∉ stageIds (trees command.missionId))
    (hentries : ∀ entry ∈ planned, ∃ item ∈ coverageInputsToPlan command.inputs,
      PlansFor (fun _ _ => True) round.fresh item entry)
    (h : MissionEditing.update d round now command planned = .ok mission) :
    mission.missionId = command.missionId ∧ trees command.missionId ≠ [] ∧
      Ready (trees command.missionId) (drawsFor round command.inputs) mission.stages := by
  obtain ⟨before, hopen, h⟩ := bind_eq_ok.mp h
  obtain ⟨stages, hstages, h⟩ := bind_eq_ok.mp h
  obtain rfl := Except.ok.inj h
  obtain ⟨-, hid, hbefore, hne⟩ := MissionEditing.requireOpen_ok hd hopen
  refine ⟨hid, hne, ?_⟩
  cases hcmd : command.stages with
  | none =>
    rw [hcmd] at hstages
    obtain rfl := Except.ok.inj hstages
    change Ready _ _ before.stages
    rw [hbefore]
    refine ⟨?_, fun i hi => .inl ?_, hshaped.tidied⟩
    · rw [stageIds_tidied]
      exact hd.nodup _
    · rwa [stageIds_tidied] at hi
  | some inputs =>
    have hinputs : command.inputs = inputs := by
      unfold UpdateMissionCommand.inputs
      rw [hcmd]
      rfl
    rw [hcmd] at hstages
    rw [hinputs] at hdraws hnew hentries ⊢
    exact MissionEditing.updatedStages_ready hbefore (hd.nodup _) hdraws hnew hentries hstages

theorem generateStages_ids {k : Nat} {inputs : List CoverageInputs} {stages : List Stage}
    (h : generateStages round k inputs = .ok stages) :
    stageIds stages = (List.range' k inputs.length).map fun j => round.fresh [j] := by
  induction inputs generalizing k stages with
  | nil =>
    obtain rfl := Except.ok.inj h
    rfl
  | cons input rest ih =>
    obtain ⟨stage, hstage, h⟩ := bind_eq_ok.mp h
    obtain ⟨others, hothers, h⟩ := bind_eq_ok.mp h
    obtain rfl := Except.ok.inj h
    have hp := planCoverageStage_ok hstage
    rw [stageIds, Stage.ids_eq, ih hothers, List.length_cons, List.range'_succ, List.map_cons]
    have hkids : stageIds stage.toStage.children = [] := by
      change stageIds (stage.onCancel.getD []) = []
      rw [hp.onCancel]
      rfl
    have hown : stage.toStage.stageId = round.fresh [k] := hp.stageId
    rw [hkids, hown]
    rfl

theorem MissionEditing.createGenerated_ready {name : String} {description : Option String}
    {inputs : List CoverageInputs}
    (hdraws : ((List.range' 0 inputs.length).map fun k => round.fresh [k]).Nodup)
    (h : (do
      let stages ← generateStages round 0 inputs
      MissionEditing.createGenerated d now missionId name description stages) = .ok mission) :
    mission.missionId = missionId ∧
      Ready [] ((List.range' 0 inputs.length).map fun k => round.fresh [k]) mission.stages := by
  obtain ⟨stages, hstages, h⟩ := bind_eq_ok.mp h
  obtain ⟨u, hshape, h⟩ := bind_eq_ok.mp h
  obtain ⟨rfl, -, -⟩ := Definitions.toDomain_eq_ok.mp h
  have hids := generateStages_ids hstages
  refine ⟨rfl, ?_⟩
  refine ⟨hids ▸ hdraws, fun i hi => .inr (hids ▸ hi), MissionEditing.validateShape_ok hshape⟩

theorem MissionEditing.replaceGeneratedStage_ready {inputs : CoverageInputs}
    {stageId : Option UUID} (hd : d.Holds trees)
    (h : (do
      let stage ← planCoverageStage round.data round.settings (round.planner []) (round.fresh [])
        (round.now []) inputs stageId
      MissionEditing.replaceGeneratedStage d now missionId stage.toStage) = .ok mission) :
    mission.missionId = missionId ∧ trees missionId ≠ [] ∧
      Ready (trees missionId) [] mission.stages := by
  obtain ⟨stage, hstage, h⟩ := bind_eq_ok.mp h
  obtain ⟨before, hopen, h⟩ := bind_eq_ok.mp h
  obtain ⟨u, -, h⟩ := bind_eq_ok.mp h
  obtain ⟨u', hshape, h⟩ := bind_eq_ok.mp h
  obtain rfl := Except.ok.inj h
  obtain ⟨-, hid, hbefore, hne⟩ := MissionEditing.requireOpen_ok hd hopen
  have hkids : stage.toStage.children = [] := by
    change stage.onCancel.getD [] = []
    rw [(planCoverageStage_ok hstage).onCancel]
    rfl
  have hsub := stageIds_replaceStage_sublist hkids before.stages
  rw [hbefore, stageIds_tidied] at hsub
  refine ⟨hid, hne, ?_, fun i hi => .inl ?_, MissionEditing.validateShape_ok hshape⟩
  · change (stageIds (replaceStage stage.toStage before.stages).1).Nodup
    rw [hbefore]
    exact hsub.nodup (hd.nodup missionId)
  · change i ∈ stageIds (replaceStage stage.toStage before.stages).1 at hi
    rw [hbefore] at hi
    exact hsub.subset hi

end Operations

end Leitstand
