import Leitstand.LiveSystem
import Leitstand.MissionSerialisation
import Leitstand.StagesDigest

namespace Leitstand

section Anchors
variable {sites : Table Site.siteId} {stages : List Stage}
  {anchors : Option (List (String × RunSiteAnchor))}

/-- The plan drives in the site, at whatever depth. -/
def DrivesIn (stages : List Stage) (siteId : UUID) : Prop :=
  ∃ s ∈ allStages stages, ∃ w ∈ stageWaypoints s, w.siteId? = some siteId

/-- There is one anchor for each site that the plan drives in, with the site's frame in it. -/
structure Anchored (sites : Table Site.siteId) (stages : List Stage)
    (anchors : Option (List (String × RunSiteAnchor))) : Prop where
  none_iff : anchors = none ↔ ∀ siteId, ¬ DrivesIn stages siteId
  once : ((anchors.getD []).map (·.1)).Nodup
  covers : ∀ siteId, DrivesIn stages siteId → siteId.str ∈ (anchors.getD []).map (·.1)
  frames : ∀ key anchor, (key, anchor) ∈ anchors.getD [] ↔ ∃ siteId site, key = siteId.str ∧
    DrivesIn stages siteId ∧ sites.find? siteId = some site ∧ anchor = site.anchor

theorem mem_referencedSiteIds {siteId : UUID} :
    siteId ∈ referencedSiteIds stages ↔ DrivesIn stages siteId := by
  rw [referencedSiteIds, List.mem_eraseDups, mem_siteIds]
  rfl

theorem nodup_eraseDups {α : Type} [DecidableEq α] (xs : List α) : xs.eraseDups.Nodup := by
  induction hn : xs.length using Nat.strong_induction_on generalizing xs with
  | h n ih =>
    cases xs with
    | nil => exact List.nodup_nil
    | cons a rest =>
      have hlength := List.length_filter_le (fun b => !b == a) rest
      rw [List.length_cons] at hn
      rw [List.eraseDups_cons, List.nodup_cons, List.mem_eraseDups]
      exact ⟨by simp, ih _ (by omega) _ rfl⟩

/-- The entry made for a site. -/
def AnchorOf (sites : Table Site.siteId) (siteId : UUID) (entry : String × RunSiteAnchor) : Prop :=
  ∃ site, sites.find? siteId = some site ∧ entry = (siteId.str, site.anchor)

theorem freezeSiteAnchors_ok (h : freezeSiteAnchors sites stages = .ok anchors) :
    ∃ entries, List.Forall₂ (AnchorOf sites) (referencedSiteIds stages) entries ∧
      anchors = if entries = [] then none else some entries := by
  obtain ⟨entries, hentries, h⟩ := bind_eq_ok.mp h
  obtain rfl := Except.ok.inj h
  refine ⟨entries, (mapM_forall₂ hentries).imp fun siteId entry he => ?_, rfl⟩
  obtain ⟨site, hsite, he⟩ := bind_eq_ok.mp he
  obtain ⟨u, -, he⟩ := bind_eq_ok.mp he
  obtain rfl := Except.ok.inj he
  exact ⟨site, orRaise_eq_ok.mp hsite, rfl⟩

theorem map_fst_of_anchorOf {siteIds : List UUID} {entries : List (String × RunSiteAnchor)}
    (h : List.Forall₂ (AnchorOf sites) siteIds entries) :
    entries.map (·.1) = siteIds.map UUID.str := by
  induction h with
  | nil => rfl
  | cons he _ ih =>
    obtain ⟨site, -, rfl⟩ := he
    rw [List.map_cons, List.map_cons, ih]

theorem freezeSiteAnchors_anchored (h : freezeSiteAnchors sites stages = .ok anchors) :
    Anchored sites stages anchors ∧ orNone anchors = anchors := by
  obtain ⟨entries, hentries, rfl⟩ := freezeSiteAnchors_ok h
  obtain ⟨hall, hmade⟩ := forall₂_mem hentries
  have hkeys := map_fst_of_anchorOf hentries
  have hget : (if entries = [] then none else some entries).getD [] = entries := by
    split_ifs with he
    · exact he.symm
    · rfl
  refine ⟨⟨?_, ?_, ?_, ?_⟩, ?_⟩
  · have hempty : entries = [] ↔ referencedSiteIds stages = [] := by
      rw [← List.length_eq_zero_iff, ← hentries.length_eq, List.length_eq_zero_iff]
    have hnone : (if entries = [] then none else some entries) = none ↔ entries = [] := by
      split_ifs with he <;> simp [he]
    rw [hnone, hempty, List.eq_nil_iff_forall_not_mem]
    exact forall_congr' fun siteId => not_congr mem_referencedSiteIds
  · rw [hget, hkeys]
    exact (nodup_eraseDups _).map fun u v he => UUID.str_injective he
  · intro siteId hdrives
    rw [hget, hkeys]
    exact List.mem_map.mpr ⟨siteId, mem_referencedSiteIds.mpr hdrives, rfl⟩
  · intro key anchor
    rw [hget]
    constructor
    · intro hmem
      obtain ⟨siteId, hsite, site, hfound, he⟩ := hmade _ hmem
      obtain ⟨rfl, rfl⟩ := Prod.mk.inj he
      exact ⟨siteId, site, rfl, mem_referencedSiteIds.mp hsite, hfound, rfl⟩
    · rintro ⟨siteId, site, rfl, hdrives, hfound, rfl⟩
      obtain ⟨entry, hmem, site', hfound', rfl⟩ := hall siteId (mem_referencedSiteIds.mpr hdrives)
      obtain rfl := Option.some.inj (hfound.symm.trans hfound')
      exact hmem
  · split_ifs with he
    · rfl
    · cases entries with
      | nil => exact absurd rfl he
      | cons => rfl

end Anchors

namespace System
variable {s s' : System} {a : Action}

/-- A dispatch comes under way where its checks let it. -/
theorem dispatches_step (h : s.step a = some s') {p : Prepared} (hp : p ∈ s'.dispatches) :
    p ∈ s.dispatches ∨ ∃ command, a = .dispatch command ∧
      s.outcome (RunService.prepareRead s.digests s.factsheets s.clock command) = .ok p := by
  cases ha : a.locks with
  | false => exact .inl ((step_frame h).dispatches ha ▸ hp)
  | true =>
    cases a with
    | dispatch command =>
      dsimp only [step, startDispatch] at h
      split_ifs at h
      split at h
      · cases h
        exact .inl hp
      · rename_i p' hx
        cases h
        obtain hp | hp := List.mem_append.mp hp
        · exact .inl hp
        · obtain rfl := List.mem_singleton.mp hp
          exact .inr ⟨command, rfl, hx⟩
    | insert i runId =>
      obtain ⟨p', -, hd, -⟩ := Serialised.insertRun_some h
      exact .inl (List.mem_of_mem_eraseIdx (hd ▸ hp))
    | abandonDispatch i =>
      cases h
      exact .inl (List.mem_of_mem_eraseIdx hp)
    | deleteMission _ | countRuns _ | finishDeletion _ | abandonDeletion _ =>
      dsimp only [step, startDeletion, countRuns, finishDeletion] at h
      repeat' split at h
      all_goals first | (cases h; done) | (cases h; exact .inl hp)
    | _ => cases ha

end System

namespace Live
variable {l₀ l l' : Live} {past : List LiveAction} {a : LiveAction} {p : Prepared}

/-- The dispatch was prepared by one of the actions so far, in the state they had led to. -/
def PreparedIn (l₀ : Live) (past : List LiveAction) (p : Prepared) : Prop :=
  ∃ pre command post l, past = pre ++ .run (.dispatch command) :: post ∧
    StepSystem.exec step l₀ pre = some l ∧
    l.system.outcome (RunService.prepareRead l.sys.digests l.sys.factsheets l.sys.clock command) =
      .ok p

theorem PreparedIn.snoc (h : PreparedIn l₀ past p) (a : LiveAction) :
    PreparedIn l₀ (past ++ [a]) p := by
  obtain ⟨pre, command, post, l, rfl, hx, hp⟩ := h
  exact ⟨pre, command, post ++ [a], l, by simp, hx, hp⟩

/-- Every dispatch under way was prepared in the past, and every stored run has what it was
prepared with. -/
structure Prepares (l₀ : Live) (past : List LiveAction) (l : Live) : Prop where
  snapshots : l.sys.Snapshots
  digests : l.sys.digests = l₀.sys.digests
  pending : ∀ p ∈ l.sys.dispatches, PreparedIn l₀ past p
  stored : ∀ r ∈ l.sys.runs.rows, ∃ p, PreparedIn l₀ past p ∧
    r.frozen = (freshRun l₀.sys.digests r.runId p).frozen

theorem Initial.prepares (h : l₀.Initial) : Prepares l₀ [] l₀ where
  snapshots := by
    constructor
    · simp [h.sys.runs, Table.empty]
    · simp [h.sys.recorded]
    · simp [h.sys.reconciliations]
  digests := rfl
  pending := by simp [h.sys.dispatches]
  stored := by simp [h.sys.runs, Table.empty]

theorem Prepares.run (h : Prepares l₀ past l) (hx : StepSystem.exec step l₀ past = some l)
    {a : Action} {sys : System} (hstep : l.system.step a = some sys) :
    Prepares l₀ (past ++ [.run a]) { l with sys } where
  snapshots := (snapshots_system h.snapshots).step hstep
  digests := (System.step_frame hstep).digests.trans h.digests
  pending := by
    intro p hp
    obtain hp | ⟨command, rfl, hprepared⟩ := System.dispatches_step hstep hp
    · exact (h.pending p hp).snoc _
    · exact ⟨past, command, [], l, rfl, hx, hprepared⟩
  stored := by
    have hkeep : ∀ r ∈ l.sys.runs.rows, ∃ p, PreparedIn l₀ (past ++ [.run a]) p ∧
        r.frozen = (freshRun l₀.sys.digests r.runId p).frozen := by
      intro r hr
      obtain ⟨p, hp, hf⟩ := h.stored r hr
      exact ⟨p, hp.snoc _, hf⟩
    intro r' hr'
    cases System.step_runs (snapshots_system h.snapshots) hstep with
    | idle events runs =>
      rw [runs] at hr'
      exact hkeep r' hr'
    | responded r input found cause runs =>
      rw [runs] at hr'
      obtain rfl | hr' := Table.mem_replace hr'
      · rw [r.runId_respond input, r.frozen_respond input]
        exact hkeep r (Table.mem_of_find? found)
      · exact hkeep r' hr'.1
    | created p runId dispatch cause fresh absent free drawn runs =>
      rw [runs] at hr'
      obtain hr' | rfl := Table.mem_insert.mp hr'
      · exact hkeep r' hr'
      · exact ⟨p, (h.pending p dispatch).snoc _, by rw [← h.digests]; rfl⟩
    | deleted r found cause ended runs =>
      rw [runs] at hr'
      exact hkeep r' (Table.mem_erase.mp hr').1

theorem Prepares.step (h : Prepares l₀ past l) (hx : StepSystem.exec step l₀ past = some l)
    (hstep : LiveStep l a l') : Prepares l₀ (past ++ [a]) l' := by
  have hkeep : Prepares l₀ (past ++ [a]) l :=
    { h with
      pending := fun p hp => (h.pending p hp).snoc a
      stored := fun r hr => (h.stored r hr).imp fun p hp => ⟨hp.1.snoc a, hp.2⟩ }
  have hsnapshots := hstep.snapshots h.snapshots
  cases hstep with
  | run a sys hrun => exact h.run hx hrun
  | edit | rewrites | reads => exact { hkeep with snapshots := hsnapshots }

theorem Initial.prepares_exec (h₀ : l₀.Initial) {acts : List LiveAction}
    (hx : StepSystem.exec step l₀ acts = some l) : Prepares l₀ acts l :=
  StepSystem.exec_history (I := Prepares l₀) h₀.prepares
    (fun _ _ _ _ hx h hstep => h.step hx (step_cases hstep)) hx

/-- Under a drawn id a step leaves the run that was there, with what it was started with, or none. -/
theorem find?_old (h : LiveStep l a l') (hs : l.sys.Snapshots) {k : UUID}
    (hk : k ∈ l.sys.issued) : k ∈ l'.sys.issued ∧
      ∀ r', l'.sys.runs.find? k = some r' → ∃ r, l.sys.runs.find? k = some r ∧ r'.frozen = r.frozen := by
  cases h with
  | run a sys step =>
    refine ⟨System.issued_mono step hk, fun r' hr' => ?_⟩
    exact (System.step_runs (snapshots_system hs) step).find?_old hk hr'
  | edit | rewrites | reads => exact ⟨hk, fun r' hr' => ⟨r', hr', rfl⟩⟩

theorem frozen_exec (hs : l.sys.Snapshots) {k : UUID} (hk : k ∈ l.sys.issued)
    {later : List LiveAction} (hx : StepSystem.exec step l later = some l') :
    ∀ r', l'.sys.runs.find? k = some r' → ∃ r, l.sys.runs.find? k = some r ∧ r'.frozen = r.frozen := by
  have hall := StepSystem.exec_invariant (I := fun l' => l'.sys.Snapshots ∧ k ∈ l'.sys.issued ∧
    ∀ r', l'.sys.runs.find? k = some r' → ∃ r, l.sys.runs.find? k = some r ∧ r'.frozen = r.frozen)
    ?_ ⟨hs, hk, fun r' hr' => ⟨r', hr', rfl⟩⟩ hx
  · exact hall.2.2
  · intro m a m' ⟨hs, hk, hold⟩ hstep
    obtain ⟨hk', hback⟩ := find?_old (step_cases hstep) hs hk
    refine ⟨(step_cases hstep).snapshots hs, hk', fun r' hr' => ?_⟩
    obtain ⟨r, hr, hf⟩ := hback r' hr'
    obtain ⟨r₀, hr₀, hf₀⟩ := hold r hr
    exact ⟨r₀, hr₀, hf.trans hf₀⟩

theorem getStages_of_find? {d : Definitions} {missionId : UUID} {mission : Mission}
    (h : d.missionsTable.find? missionId = some mission) :
    d.getStages missionId = some mission.stages.stages := by
  obtain ⟨row, -, hrow⟩ := List.mem_filterMap.mp (Table.mem_of_find? h)
  have hid : mission.missionId = missionId := Table.key_of_find? h
  rw [Definitions.missionId_toMission hrow] at hid
  obtain ⟨stages, hread, hrow⟩ := Option.bind_eq_some_iff.mp hrow
  split_ifs at hrow
  obtain rfl := Option.some.inj hrow
  rwa [hid] at hread

theorem foundBy_of_outcome {s : System} {command : StartRunCommand} {p : Prepared}
    (h : s.outcome (RunService.prepareRead s.digests s.factsheets s.clock command) = .ok p) :
    FoundBy s.digests s.factsheets s.clock command s.store p := by
  rw [System.outcome_eq] at h
  rcases hx : (RunService.prepareRead s.digests s.factsheets s.clock command).exec
    { store := s.store } with ⟨result, tx⟩
  rw [hx] at h
  obtain rfl : result = .ok p := h
  exact prepareRead_ok hx

end Live

/-- The `stages` column of the run as its insert writes it. -/
def StoredRun.stagesColumn (model : ProvenanceModel) (r : StoredRun) : List Json :=
  dumpStages model r.plan

namespace Live
variable {l₀ l : Live} {acts : List LiveAction} {r : StoredRun}

/-- Whatever happens to missions, sites and runs, a run keeps the plan it was dispatched with: its
stages as the mission had them, the digest of them as they are stored, and the frame of every site
they drive in as the dispatch read it. -/
theorem run_plan_frozen (model : ProvenanceModel) (hash : Hashing) (h₀ : l₀.Initial)
    (hdigest : ∀ stages, l₀.sys.digests.stagesDigest stages =
      stagesDigest model hash (stages.map .inl))
    (hx : StepSystem.exec step l₀ acts = some l) (hr : r ∈ l.sys.runs.rows) :
    (∀ later l' r', StepSystem.exec step l later = some l' →
      l'.sys.runs.find? r.runId = some r' → r'.frozen = r.frozen) ∧
    (r.run.stagesDigest = stagesDigest model hash (r.plan.map .inl) ∧
      r.run.stagesDigest = @stagesDigest Rat _ model hash ((r.stagesColumn model).map .inr) ∧
      (∀ stages : List Stage, validateStages model (r.stagesColumn model) = some stages →
        r.run.stagesDigest = stagesDigest model hash (stages.map .inl)) ∧
      ((∀ s ∈ allStages r.plan, s.Admitted ∧ s.detail.readBack model = some s.detail) →
        validateStages model (r.stagesColumn model) = some r.plan)) ∧
    ∃ pre command post m p, acts = pre ++ .run (.dispatch command) :: post ∧
      StepSystem.exec step l₀ pre = some m ∧
      m.system.outcome (RunService.prepareRead m.sys.digests m.sys.factsheets m.sys.clock command) =
        .ok p ∧
      r.frozen = (freshRun l₀.sys.digests r.runId p).frozen ∧
      m.edits.store.getStages r.missionId = some r.plan ∧
      Anchored m.edits.store.sites r.plan r.run.siteAnchors := by
  have hprepares := h₀.prepares_exec hx
  obtain ⟨p, ⟨pre, command, post, m, hpast, hm, houtcome⟩, hfrozen⟩ := hprepares.stored r hr
  have hstages : r.plan = p.mission.stages.stages :=
    congrArg (fun f : FrozenRun => f.stages.stages) hfrozen
  have hplan : r.run.stagesDigest = stagesDigest model hash (r.plan.map .inl) := by
    rw [hstages, ← hdigest]
    exact congrArg FrozenRun.stagesDigest hfrozen
  have hfound := foundBy_of_outcome (s := m.system) houtcome
  obtain ⟨hanchored, hnone⟩ := freezeSiteAnchors_anchored hfound.anchors
  have hanchors : r.run.siteAnchors = p.siteAnchors :=
    (congrArg FrozenRun.siteAnchors hfrozen).trans hnone
  refine ⟨?_, ⟨hplan, ?_, ?_, ?_⟩, pre, command, post, m, p, hpast, hm, houtcome, hfrozen, ?_, ?_⟩
  · intro later l' r' hlater hr'
    have hissued := hprepares.snapshots.issued r hr
    obtain ⟨q, hq, hf⟩ := frozen_exec hprepares.snapshots hissued hlater r' hr'
    obtain rfl := Option.some.inj ((Table.find?_of_mem hr).symm.trans hq)
    exact hf
  · rw [hplan]
    exact (stagesDigest_dumpStages model hash r.plan).symm
  · intro stages hread
    rw [hplan]
    exact (stagesDigest_of_validateStages model hash hread).symm
  · intro h
    exact validateStages_dumpStages (fun s hs => (h s hs).1) fun s hs => (h s hs).2
  · have hmission : r.missionId = p.mission.missionId := congrArg FrozenRun.missionId hfrozen
    have hid : p.mission.missionId = command.missionId := Table.key_of_find? hfound.mission
    rw [hmission, hid, hstages]
    exact getStages_of_find? hfound.mission
  · rw [hstages, hanchors]
    exact hanchored

section Demo

def demoProvenance : ProvenanceModel := { modelDump := fun _ => .null, validate := fun _ => none }

def demoHashing : Hashing := { number := fun _ => "0.0", sha256 := id }

def demoDigests : Digests :=
  { stagesDigest := fun stages => stagesDigest demoProvenance demoHashing (stages.map .inl)
    boundaryDigest := fun _ => "" }

def demoIndoor : RobotFactsheet :=
  { robotId := "r1", navigation := some [.siteLocal], coverage := none, physicalParameters := none }

def demoLive : Live :=
  { sys := .boot .empty ⟨[demoIndoor], by simp⟩ demoDigests, edits := ⟨{}, [], [], [], [], []⟩ }

def demoSiteDispatch : StartRunCommand :=
  { missionId := 1, robotId := some "r1", origin := { kind := .manual, actor := "operator" } }

/-- A mission that drives at a site is dispatched, then the site is moved. -/
def demoMove : List LiveAction :=
  Editing.demoEdits.map .edit ++ demoOnline.map .run ++
    [.run (.dispatch demoSiteDispatch), .run (.insert 0 7),
      .updateSite { siteId := 5, anchorLat := some 50 }]

theorem run_plan_frozen_demoMove : ∃ l r site, StepSystem.exec step demoLive demoMove = some l ∧
    r ∈ l.sys.runs.rows ∧ l.edits.store.sites.find? 5 = some site ∧
    r.run.siteAnchors = some [((5 : UUID).str, (Definitions.demoSite 5).anchor)] ∧
    site.anchor ≠ (Definitions.demoSite 5).anchor ∧
    (∀ later l' r', StepSystem.exec step l later = some l' →
      l'.sys.runs.find? r.runId = some r' → r'.frozen = r.frozen) ∧
    r.run.stagesDigest = @stagesDigest Rat _ demoProvenance demoHashing
      ((r.stagesColumn demoProvenance).map .inr) := by
  have hrun : (StepSystem.exec step demoLive demoMove).any fun l =>
      (l.sys.runs.find? 7).any fun r => (l.edits.store.sites.find? 5).any fun site =>
        r.run.siteAnchors = some [((5 : UUID).str, (Definitions.demoSite 5).anchor)] ∧
          site.anchor ≠ (Definitions.demoSite 5).anchor := by
    decide +kernel
  obtain ⟨l, hl, hrun⟩ := (Option.any_eq_true _ _).mp hrun
  obtain ⟨r, hr, hrun⟩ := (Option.any_eq_true _ _).mp hrun
  obtain ⟨site, hsite, hrun⟩ := (Option.any_eq_true _ _).mp hrun
  obtain ⟨hanchors, hmoved⟩ := of_decide_eq_true hrun
  have hinitial : demoLive.Initial :=
    ⟨System.boot_initial _ _ _, ⟨rfl, rfl, rfl, rfl, rfl, rfl, rfl⟩⟩
  obtain ⟨hkept, ⟨-, hdigest, -⟩, -⟩ := run_plan_frozen demoProvenance demoHashing hinitial
    (fun _ => rfl) hl (Table.mem_of_find? hr)
  exact ⟨l, r, site, hl, Table.mem_of_find? hr, hsite, hanchors, hmoved, hkept, hdigest⟩

end Demo

end Live
end Leitstand
