import Mathlib.Data.List.Flatten
import Leitstand.WellFormedMissions

namespace Leitstand

section Save
variable {d after : Definitions} {trees : UUID → List Stage} {mission saved : MissionDefinition}

theorem Definitions.isSome_withMission (d : Definitions) (row : MissionRow) (missionId : UUID) :
    ((d.withMission row).missions.find? missionId).isSome ↔
      missionId = row.missionId ∨ (d.missions.find? missionId).isSome := by
  unfold withMission
  dsimp only
  rw [Table.find?_upsert]
  by_cases h : missionId = row.missionId
  · rw [if_pos h]
    exact ⟨fun _ => .inl h, fun _ => rfl⟩
  · rw [if_neg h]
    exact ⟨.inr, fun hs => hs.resolve_left h⟩

theorem Definitions.missionId_savedRow (d : Definitions) (mission : MissionDefinition) :
    (d.savedRow mission).missionId = mission.missionId := by
  unfold savedRow
  cases h : d.missions.find? mission.missionId with
  | none => rfl
  | some row =>
    change row.missionId = mission.missionId
    exact Table.key_of_find? h

/-- What a save that is committed leaves behind. -/
theorem Definitions.save_ok (hd : d.Holds trees) (hn : (stageIds mission.stages).Nodup)
    (ho : Owns trees mission.missionId mission.stages)
    (h : d.save mission = .ok (saved, after)) :
    after.Holds (Function.update trees mission.missionId mission.stages) ∧
      (∀ m, (after.missions.find? m).isSome ↔
        m = mission.missionId ∨ (d.missions.find? m).isSome) ∧
      after.sites = d.sites ∧ mission.stages ≠ [] ∧
      ∀ s ∈ allStages mission.stages, ∀ siteId, siteOf s = some siteId →
        (d.sites.find? siteId).isSome := by
  obtain ⟨hreplace, hdomain, -⟩ := save_steps.mp h
  obtain ⟨-, -, hne⟩ := toDomain_eq_ok.mp hdomain
  have hrow : (d.withMission (d.savedRow mission)).Holds trees := hd
  obtain ⟨rfl, hthere⟩ := (hrow.replaceStages_eq_ok hn ho).mp hreplace
  refine ⟨hrow.replaced hn ho, ?_, rfl, hne, ?_⟩
  · intro m
    have hm := d.isSome_withMission (d.savedRow mission) m
    rwa [d.missionId_savedRow] at hm
  · exact (hthere.resolve_left hne).2

theorem Definitions.find?_withMission (d : Definitions) (row : MissionRow) (m : UUID) :
    (d.withMission row).missions.find? m =
      if m = row.missionId then some row else d.missions.find? m := by
  refine (Table.find?_upsert d.missions row (fun _ => true) m).trans ?_
  cases d.missions.find? m <;> rfl

theorem Definitions.name_savedRow (d : Definitions) (mission : MissionDefinition) :
    (d.savedRow mission).name = mission.name := by
  unfold savedRow
  cases d.missions.find? mission.missionId with
  | none => rfl
  | some row => rfl

/-- What is saved with ids of its own can be read back, empty lists of cleanup stages read as none. -/
theorem Definitions.get_of_save (hd : d.Holds trees) (hn : (stageIds mission.stages).Nodup)
    (ho : Owns trees mission.missionId mission.stages) (h : d.save mission = .ok (saved, after)) :
    after.get mission.missionId = .ok (some { saved with stages := tidied saved.stages }) := by
  obtain ⟨hreplace, hdomain, -⟩ := save_steps.mp h
  obtain ⟨rfl, hname, hne⟩ := toDomain_eq_ok.mp hdomain
  have hrow : (d.withMission (d.savedRow mission)).Holds trees := hd
  obtain ⟨rfl, -⟩ := (hrow.replaceStages_eq_ok hn ho).mp hreplace
  have hread := (hrow.replaced hn ho).getStages mission.missionId
  rw [Function.update_self] at hread
  have hfind : (d.withMission (d.savedRow mission)).missions.find? mission.missionId =
      some (d.savedRow mission) := by
    rw [find?_withMission, if_pos (missionId_savedRow d mission).symm]
  exact get_eq_some.mpr ⟨hfind, hread, hname, tidied_eq_nil.not.mpr hne⟩

/-- A mission deleted with its stages leaves those of the others. -/
theorem Definitions.deleteMission_ok {missionId : UUID} (hd : d.Holds trees)
    (h : d.deleteMission missionId = .ok after) :
    after.Holds (Function.update trees missionId []) ∧
      (∀ m, (after.missions.find? m).isSome ↔ m ≠ missionId ∧ (d.missions.find? m).isSome) ∧
      after.sites = d.sites := by
  obtain ⟨u, -, h⟩ := bind_eq_ok.mp h
  obtain rfl := Except.ok.inj h
  refine ⟨?_, ?_, rfl⟩
  · -- With no stage to keep, the rows are left as replacing the tree by an empty one leaves them.
    have hnil : (stageIds []).Nodup := List.nodup_nil
    exact hd.replaced hnil fun _ h => by cases h
  · intro m
    change ((d.missions.erase missionId).find? m).isSome ↔ _
    rw [Table.find?_erase]
    by_cases hm : m = missionId
    · simp [hm]
    · simp [hm]

/-- A site that no row refers to is one that no stored mission drives at. -/
theorem Definitions.deleteSite_ok {siteId : UUID} (hd : d.Holds trees)
    (hshaped : ∀ m, Shaped (trees m)) (hsites : ∀ m, SitesKnown d.sites (trees m))
    (h : d.deleteSite siteId = .ok after) :
    after.Holds trees ∧ after.missions = d.missions ∧ ∀ m, SitesKnown after.sites (trees m) := by
  obtain ⟨u, hfree, h⟩ := bind_eq_ok.mp h
  obtain rfl := Except.ok.inj h
  refine ⟨hd, rfl, ?_⟩
  intro m site hsite
  change ((d.sites.erase siteId).find? site).isSome
  rw [Table.find?_erase]
  by_cases he : site = siteId
  · subst he
    obtain ⟨row, hrow, hs⟩ := (mem_siteIds_iff_row m (hshaped m).oneSite).mpr hsite
    obtain ⟨hmem, -⟩ := mem_rowsOf.mp ((hd m).mem_iff.mpr hrow)
    refine absurd ?_ (raiseIf_eq_ok.mp hfree)
    exact List.any_eq_true.mpr ⟨row, hmem, by simpa using hs⟩
  · rw [if_neg he]
    exact hsites m site hsite

end Save

namespace Editing

/-- The ids drawn by the operations under way. -/
def drawn (s : Editing) : List UUID := s.saves.flatMap (·.drawn) ++ s.updates.flatMap (·.drawn)

/-- The store holds a well-formed tree for each mission, and what is under way keeps it so. -/
structure Sound (s : Editing) (trees : UUID → List Stage) : Prop where
  holds : s.store.Holds trees
  stored : ∀ m, trees m ≠ [] ↔ (s.store.missions.find? m).isSome
  shaped : ∀ m, Shaped (trees m)
  sites : ∀ m, SitesKnown s.store.sites (trees m)
  issued : ∀ m, ∀ i ∈ stageIds (trees m), i ∈ s.issued
  named : ∀ m, trees m ≠ [] → m ∈ s.missionIds
  drawnOnce : s.drawn.Nodup
  drawnIssued : ∀ i ∈ s.drawn, i ∈ s.issued
  drawnNew : ∀ i ∈ s.drawn, ∀ m, i ∉ stageIds (trees m)
  ready : ∀ p ∈ s.saves, Ready (trees p.mission.missionId) p.drawn p.mission.stages
  locks : ∀ p ∈ s.saves, p.holdsLock = true ↔ trees p.mission.missionId ≠ []
  savesNamed : ∀ p ∈ s.saves, p.mission.missionId ∈ s.missionIds
  apart : (s.saves.map (·.mission.missionId)).Nodup
  planned : ∀ u ∈ s.updates, ∀ entry ∈ u.planned, ∃ item ∈ coverageInputsToPlan u.command.inputs,
    PlansFor (fun _ _ => True) u.round.fresh item entry

section Steps
variable {s s' : Editing} {trees : UUID → List Stage} {i : Nat}

theorem mem_drawn_save {p : PendingSave} (hp : p ∈ s.saves) {j : UUID} (hj : j ∈ p.drawn) :
    j ∈ s.drawn :=
  List.mem_append_left _ (List.mem_flatMap.mpr ⟨p, hp, hj⟩)

theorem flatMap_eraseIdx_perm {α β : Type} {l : List α} {a : α} (f : α → List β)
    (h : l[i]? = some a) : (f a ++ (l.eraseIdx i).flatMap f).Perm (l.flatMap f) := by
  obtain ⟨hlt, rfl⟩ := List.getElem?_eq_some_iff.mp h
  exact (List.getElem_cons_eraseIdx_perm hlt).flatMap_right f

/-- Ids just drawn are issued, and no tree and no operation under way has them. -/
structure Draws (s : Editing) (trees : UUID → List Stage) (ids : List UUID) : Prop where
  nodup : ids.Nodup
  issued : ∀ i ∈ ids, i ∈ s.issued
  apart : ∀ i ∈ ids, i ∉ s.drawn
  new : ∀ i ∈ ids, ∀ m, i ∉ stageIds (trees m)

theorem Draws.nil (s : Editing) (trees : UUID → List Stage) : Draws s trees [] :=
  ⟨List.nodup_nil, fun _ h => (by cases h), fun _ h => (by cases h), fun _ h => (by cases h)⟩

theorem Sound.draws (hs : s.Sound trees) {ids : List UUID} (h : s.draws ids = some s') :
    s'.Sound trees ∧ Draws s' trees ids ∧ s'.store = s.store ∧ s'.missionIds = s.missionIds ∧
      s'.updates = s.updates ∧ s'.saves = s.saves := by
  unfold Editing.draws at h
  split_ifs at h with hnew
  obtain rfl := Option.some.inj h
  have hfresh : ∀ i ∈ ids, i ∉ s.issued := fun i hi => by
    simpa using List.all_eq_true.mp hnew.2 i hi
  refine ⟨?_, ?_, rfl, rfl, rfl, rfl⟩
  · exact { hs with
      issued := fun m i hi => List.mem_append_right _ (hs.issued m i hi)
      drawnIssued := fun i hi => List.mem_append_right _ (hs.drawnIssued i hi) }
  · exact
      { nodup := hnew.1
        issued := fun i hi => List.mem_append_left _ hi
        apart := fun i hi hd => hfresh i hi (hs.drawnIssued i hd)
        new := fun i hi m hm => hfresh i hi (hs.issued m i hm) }

theorem Sound.namesMission (hs : s.Sound trees) {missionId : UUID}
    (h : s.namesMission missionId = some s') :
    s'.Sound trees ∧ missionId ∈ s'.missionIds ∧ trees missionId = [] ∧
      (∀ p ∈ s'.saves, p.mission.missionId ≠ missionId) ∧ s'.store = s.store ∧
      ∀ ids, Draws s trees ids → Draws s' trees ids := by
  unfold Editing.namesMission at h
  split_ifs at h with hnew
  obtain rfl := Option.some.inj h
  refine ⟨?_, List.mem_cons_self, ?_, ?_, rfl, fun ids hd => ⟨hd.nodup, hd.issued, hd.apart, hd.new⟩⟩
  · exact { hs with
      named := fun m hm => List.mem_cons_of_mem _ (hs.named m hm)
      savesNamed := fun p hp => List.mem_cons_of_mem _ (hs.savesNamed p hp) }
  · by_contra hne
    exact hnew (hs.named missionId hne)
  · rintro p hp rfl
    exact hnew (hs.savesNamed p hp)

/-- Ids that an operation holds on to come next to those of the operations under way. -/
theorem Sound.hold (hs : s.Sound trees) {ids held : List UUID} (hd : Draws s trees ids)
    (hperm : held.Perm (ids ++ s.drawn)) :
    held.Nodup ∧ (∀ i ∈ held, i ∈ s.issued) ∧ ∀ i ∈ held, ∀ m, i ∉ stageIds (trees m) := by
  refine ⟨?_, ?_, ?_⟩
  · rw [hperm.nodup_iff, List.nodup_append]
    refine ⟨hd.nodup, hs.drawnOnce, ?_⟩
    rintro i hi j hj rfl
    exact hd.apart i hi hj
  · intro i hi
    obtain hi | hi := List.mem_append.mp (hperm.mem_iff.mp hi)
    · exact hd.issued i hi
    · exact hs.drawnIssued i hi
  · intro i hi
    obtain hi | hi := List.mem_append.mp (hperm.mem_iff.mp hi)
    · exact hd.new i hi
    · exact hs.drawnNew i hi

/-- What an operation drew is new to all that is left once it is taken out. -/
theorem Sound.draws_of_perm (hs : s.Sound trees) {rest : Editing} {ids : List UUID}
    (hissued : rest.issued = s.issued) (hperm : (ids ++ rest.drawn).Perm s.drawn) :
    Draws rest trees ids := by
  have hmem : ∀ j ∈ ids, j ∈ s.drawn := fun j hj =>
    hperm.mem_iff.mp (List.mem_append_left _ hj)
  have hnodup := hperm.nodup_iff.mpr hs.drawnOnce
  rw [List.nodup_append] at hnodup
  exact
    { nodup := hnodup.1
      issued := fun j hj => hissued ▸ hs.drawnIssued j (hmem j hj)
      apart := fun j hj hd => hnodup.2.2 j hj j hd rfl
      new := fun j hj => hs.drawnNew j (hmem j hj) }

/-- A mission that is ready may wait to be saved. -/
theorem Sound.queueSave (hs : s.Sound trees) {holdsLock : Bool} {ids : List UUID}
    (hd : Draws s trees ids) {result : Except ServiceError MissionDefinition}
    (hresult : ∀ mission, result = .ok mission →
      Ready (trees mission.missionId) ids mission.stages ∧
        (holdsLock = true ↔ trees mission.missionId ≠ []) ∧ mission.missionId ∈ s.missionIds ∧
        ∀ p ∈ s.saves, p.mission.missionId ≠ mission.missionId) :
    (s.queueSave holdsLock ids result).Sound trees := by
  cases result with
  | error => exact hs
  | ok mission =>
    obtain ⟨hready, hlock, hnamed, hapart⟩ := hresult mission rfl
    have hdrawn : (s.queueSave holdsLock ids (.ok mission)).drawn.Perm (ids ++ s.drawn) := by
      unfold Editing.queueSave Editing.drawn
      simp only [List.flatMap_append, List.flatMap_cons, List.flatMap_nil, List.append_nil,
        ← List.append_assoc]
      exact List.perm_append_comm.append_right _
    obtain ⟨hnodup, hissued, hnew⟩ := hs.hold hd hdrawn
    exact { hs with
      drawnOnce := hnodup
      drawnIssued := hissued
      drawnNew := hnew
      ready := List.forall_mem_append.mpr ⟨hs.ready, by simpa using hready⟩
      locks := List.forall_mem_append.mpr ⟨hs.locks, by simpa using hlock⟩
      savesNamed := List.forall_mem_append.mpr
        ⟨hs.savesNamed, List.forall_mem_singleton.mpr hnamed⟩
      apart := by
        change ((s.saves ++ [_]).map _).Nodup
        rw [List.map_append, List.nodup_append]
        refine ⟨hs.apart, List.nodup_singleton _, ?_⟩
        intro a ha b hb he
        obtain ⟨p, hp, rfl⟩ := List.mem_map.mp ha
        obtain rfl : b = mission.missionId := by simpa using hb
        exact hapart p hp he }

/-- Operations that are given up release what they held. -/
theorem Sound.giveUp (hs : s.Sound trees) {saves : List PendingSave} {updates : List PlannedUpdate}
    (hsaves : saves.Sublist s.saves) (hupdates : updates.Sublist s.updates) :
    ({ s with saves, updates } : Editing).Sound trees := by
  have hsub : ({ s with saves, updates } : Editing).drawn.Sublist s.drawn :=
    (hsaves.flatMap _).append (hupdates.flatMap _)
  exact { hs with
    drawnOnce := hsub.nodup hs.drawnOnce
    drawnIssued := fun j hj => hs.drawnIssued j (hsub.subset hj)
    drawnNew := fun j hj => hs.drawnNew j (hsub.subset hj)
    ready := fun p hp => hs.ready p (hsaves.subset hp)
    locks := fun p hp => hs.locks p (hsaves.subset hp)
    savesNamed := fun p hp => hs.savesNamed p (hsaves.subset hp)
    apart := (hsaves.map _).nodup hs.apart
    planned := fun u hu => hs.planned u (hupdates.subset hu) }

theorem Sound.eraseSave (hs : s.Sound trees) (i : Nat) :
    ({ s with saves := s.saves.eraseIdx i } : Editing).Sound trees :=
  hs.giveUp (s.saves.eraseIdx_sublist i) (.refl _)

theorem Sound.eraseUpdate (hs : s.Sound trees) (i : Nat) :
    ({ s with updates := s.updates.eraseIdx i } : Editing).Sound trees :=
  hs.giveUp (.refl _) (s.updates.eraseIdx_sublist i)

theorem Sound.draws_update (hs : s.Sound trees) {u : PlannedUpdate} (h : s.updates[i]? = some u) :
    Draws { s with updates := s.updates.eraseIdx i } trees u.drawn := by
  refine hs.draws_of_perm rfl ?_
  unfold Editing.drawn
  refine List.Perm.trans ?_ ((flatMap_eraseIdx_perm (·.drawn) h).append_left _)
  rw [← List.append_assoc, ← List.append_assoc]
  exact List.perm_append_comm.append_right _

theorem Sound.draws_save (hs : s.Sound trees) {p : PendingSave} (h : s.saves[i]? = some p) :
    Draws { s with saves := s.saves.eraseIdx i } trees p.drawn := by
  refine hs.draws_of_perm rfl ?_
  unfold Editing.drawn
  rw [← List.append_assoc]
  exact (flatMap_eraseIdx_perm (·.drawn) h).append_right _

/-- The ids that a save brings in are its mission's own or new to every mission. -/
theorem Sound.owns (hs : s.Sound trees) {p : PendingSave} (hp : p ∈ s.saves) :
    Definitions.Owns trees p.mission.missionId p.mission.stages :=
  (hs.ready p hp).owns hs.holds fun j hj m => hs.drawnNew j (mem_drawn_save hp hj) m

/-- No other save under way is one of the same mission. -/
theorem Sound.apart_of_mem (hs : s.Sound trees) {p q : PendingSave} (h : s.saves[i]? = some p)
    (hq : q ∈ s.saves.eraseIdx i) : q.mission.missionId ≠ p.mission.missionId := by
  obtain ⟨hlt, rfl⟩ := List.getElem?_eq_some_iff.mp h
  have hperm := (List.getElem_cons_eraseIdx_perm hlt).map (·.mission.missionId)
  have hnodup := hperm.nodup_iff.mpr hs.apart
  rw [List.map_cons, List.nodup_cons] at hnodup
  exact fun he => hnodup.1 (he ▸ List.mem_map_of_mem hq)

/-- A tree that a mission may be given by a change of the store. -/
structure Takes (s : Editing) (after : Definitions) (missionId : UUID) (stages : List Stage) :
    Prop where
  stored : stages ≠ [] ↔ (after.missions.find? missionId).isSome
  shaped : Shaped stages
  sites : SitesKnown after.sites stages
  issued : ∀ i ∈ stageIds stages, i ∈ s.issued
  named : stages ≠ [] → missionId ∈ s.missionIds
  drawnNew : ∀ i ∈ s.drawn, i ∉ stageIds stages

/-- One mission is given another tree while no save of it is under way. -/
theorem Sound.replaceTree (hs : s.Sound trees) {after : Definitions} {missionId : UUID}
    {stages : List Stage} (hholds : after.Holds (Function.update trees missionId stages))
    (hothers : ∀ m, m ≠ missionId →
      ((after.missions.find? m).isSome ↔ (s.store.missions.find? m).isSome))
    (hsites : after.sites = s.store.sites) (hapart : ∀ p ∈ s.saves, p.mission.missionId ≠ missionId)
    (ht : s.Takes after missionId stages) :
    ({ s with store := after } : Editing).Sound (Function.update trees missionId stages) := by
  have hkept : ∀ p ∈ s.saves, Function.update trees missionId stages p.mission.missionId =
      trees p.mission.missionId := fun p hp => Function.update_of_ne (hapart p hp) _ _
  constructor
  case holds => exact hholds
  case stored =>
    rw [Function.forall_update_iff trees fun m tree =>
      tree ≠ [] ↔ (after.missions.find? m).isSome]
    exact ⟨ht.stored, fun m hm => (hs.stored m).trans (hothers m hm).symm⟩
  case shaped =>
    rw [Function.forall_update_iff trees fun _ tree => Shaped tree]
    exact ⟨ht.shaped, fun m _ => hs.shaped m⟩
  case sites =>
    rw [Function.forall_update_iff trees fun _ tree => SitesKnown after.sites tree]
    exact ⟨ht.sites, fun m _ => hsites ▸ hs.sites m⟩
  case issued =>
    rw [Function.forall_update_iff trees fun _ tree => ∀ i ∈ stageIds tree, i ∈ s.issued]
    exact ⟨ht.issued, fun m _ => hs.issued m⟩
  case named =>
    rw [Function.forall_update_iff trees fun m tree => tree ≠ [] → m ∈ s.missionIds]
    exact ⟨ht.named, fun m _ => hs.named m⟩
  case drawnOnce => exact hs.drawnOnce
  case drawnIssued => exact hs.drawnIssued
  case drawnNew =>
    intro j hj
    rw [Function.forall_update_iff trees fun _ tree => j ∉ stageIds tree]
    exact ⟨ht.drawnNew j hj, fun m _ => hs.drawnNew j hj m⟩
  case ready =>
    intro p hp
    rw [hkept p hp]
    exact hs.ready p hp
  case locks =>
    intro p hp
    rw [hkept p hp]
    exact hs.locks p hp
  case savesNamed => exact hs.savesNamed
  case apart => exact hs.apart
  case planned => exact hs.planned

theorem Sound.save (hs : s.Sound trees) {p : PendingSave} (h : s.saves[i]? = some p)
    {saved : MissionDefinition} {after : Definitions}
    (hsave : s.store.save p.mission = .ok (saved, after)) :
    ({ s with saves := s.saves.eraseIdx i, store := after } : Editing).Sound
      (Function.update trees p.mission.missionId p.mission.stages) := by
  have hp : p ∈ s.saves := List.mem_of_getElem? h
  have hready := hs.ready p hp
  obtain ⟨hholds, hmissions, hsites, hne, hthere⟩ :=
    Definitions.save_ok hs.holds hready.nodup (hs.owns hp) hsave
  have hrest := hs.eraseSave i
  refine hrest.replaceTree hholds ?_ hsites (fun q hq => hs.apart_of_mem h hq) ?_
  · intro m hm
    rw [hmissions]
    exact ⟨fun h => h.resolve_left hm, .inr⟩
  · constructor
    case stored => exact ⟨fun _ => (hmissions _).mpr (.inl rfl), fun _ => hne⟩
    case shaped => exact hready.shaped
    case sites =>
      rw [hsites]
      exact (Definitions.forall_siteOf_iff hready.shaped.oneSite).mp hthere
    case issued =>
      intro j hj
      obtain hown | hdrawn := hready.known j hj
      · exact hs.issued _ j hown
      · exact hs.drawnIssued j (mem_drawn_save hp hdrawn)
    case named => exact fun _ => hs.savesNamed p hp
    case drawnNew =>
      intro j hj hmem
      obtain hown | hdrawn := hready.known j hmem
      · exact hrest.drawnNew j hj _ hown
      · exact (hs.draws_save h).apart j hdrawn hj

/-- A change of the store that leaves the stages alone, the sites they need and which missions there
are. -/
theorem Sound.store_change (hs : s.Sound trees) {after : Definitions} (hholds : after.Holds trees)
    (hstored : ∀ m, (after.missions.find? m).isSome ↔ (s.store.missions.find? m).isSome)
    (hsites : ∀ m, SitesKnown after.sites (trees m)) :
    ({ s with store := after } : Editing).Sound trees :=
  { hs with
    holds := hholds
    stored := fun m => (hs.stored m).trans (hstored m).symm
    sites := hsites }

theorem isSome_setArchived (d : Definitions) (now : Datetime) (missionId : UUID)
    (when_ : Option Datetime) (m : UUID) :
    ((d.setArchived now missionId when_).missions.find? m).isSome ↔
      (d.missions.find? m).isSome := by
  unfold Definitions.setArchived
  cases h : d.missions.find? missionId with
  | none => exact Iff.rfl
  | some row =>
    have hrow : row.missionId = missionId := Table.key_of_find? h
    dsimp only
    rw [Definitions.isSome_withMission]
    refine ⟨fun hm => hm.elim (fun he => ?_) id, .inr⟩
    rw [show m = missionId from he.trans hrow, h]
    rfl

theorem holds_setArchived {d : Definitions} (hd : d.Holds trees) (now : Datetime) (missionId : UUID)
    (when_ : Option Datetime) : (d.setArchived now missionId when_).Holds trees := by
  unfold Definitions.setArchived
  cases d.missions.find? missionId with
  | none => exact hd
  | some row => exact hd

theorem sites_setArchived (d : Definitions) (now : Datetime) (missionId : UUID)
    (when_ : Option Datetime) : (d.setArchived now missionId when_).sites = d.sites := by
  unfold Definitions.setArchived
  cases d.missions.find? missionId with
  | none => rfl
  | some row => rfl

theorem Sound.setArchived (hs : s.Sound trees) (now : Datetime) (missionId : UUID)
    (when_ : Option Datetime) :
    ({ s with store := s.store.setArchived now missionId when_ } : Editing).Sound trees :=
  hs.store_change (holds_setArchived hs.holds now missionId when_)
    (isSome_setArchived s.store now missionId when_)
    fun m => (sites_setArchived s.store now missionId when_) ▸ hs.sites m

/-- A mission whose lock is free is not about to be saved once it is stored. -/
theorem Sound.not_saving (hs : s.Sound trees) {missionId : UUID} (hfree : s.locked missionId = false)
    (hne : trees missionId ≠ []) : ∀ p ∈ s.saves, p.mission.missionId ≠ missionId := by
  rintro p hp rfl
  have hlock := (hs.locks p hp).mpr hne
  unfold locked at hfree
  rw [List.any_eq_false] at hfree
  exact hfree p hp (by simp [hlock])

theorem Sound.deleteMission (hs : s.Sound trees) {missionId : UUID} {after : Definitions}
    (hapart : ∀ p ∈ s.saves, p.mission.missionId ≠ missionId)
    (h : s.store.deleteMission missionId = .ok after) :
    ({ s with store := after } : Editing).Sound (Function.update trees missionId []) := by
  obtain ⟨hholds, hmissions, hsites⟩ := Definitions.deleteMission_ok hs.holds h
  refine hs.replaceTree hholds ?_ hsites hapart ?_
  · intro m hm
    rw [hmissions]
    exact ⟨And.right, fun h => ⟨hm, h⟩⟩
  · constructor
    case stored => exact ⟨fun h => absurd rfl h, fun h => absurd rfl ((hmissions _).mp h).1⟩
    case shaped => exact Shaped.nil
    case sites => exact SitesKnown.nil _
    case issued => exact fun j hj => by cases hj
    case named => exact fun h => absurd rfl h
    case drawnNew => exact fun j _ hj => by cases hj

end Steps
end Editing

end Leitstand
