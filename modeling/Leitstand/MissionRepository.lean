import Leitstand.RowForest
import Leitstand.StageRules
import Leitstand.Store

namespace Leitstand

structure MissionRow where
  missionId : UUID
  name : String
  description : Option String
  assignedRobotId : Option RobotId
  archivedAt : Option Datetime
  createdAt : Datetime
  updatedAt : Datetime
  deriving DecidableEq

/-- One stage of a mission definition, flattened: a cleanup stage is a row under its parent. -/
structure MissionStageRow where
  stageId : UUID
  missionId : UUID
  sequence : Nat
  kind : StageKind
  siteId : Option UUID
  parentStageId : Option UUID
  spec : StageDetail
  deriving DecidableEq

/-- The tables that mission definitions are stored in and checked against. -/
structure Definitions where
  missions : Table MissionRow.missionId := .empty
  stages : Table MissionStageRow.stageId := .empty
  sites : Table Site.siteId := .empty
  runs : Table StoredRun.runId := .empty

/-- The site of the first site-local waypoint. -/
def siteOf (stage : Stage) : Option UUID := (stageWaypoints stage).findSome? Waypoint.siteId?

mutual
def Stage.rows (missionId : UUID) (parent : Option UUID) (sequence : Nat) :
    Stage → List MissionStageRow
  | .mk i cs d =>
    { stageId := i, missionId, sequence, kind := Stage.kind (.mk i none d)
      siteId := siteOf (.mk i none d), parentStageId := parent, spec := d } ::
      cleanupRows missionId i cs

def cleanupRows (missionId parent : UUID) : Option (List Stage) → List MissionStageRow
  | none => []
  | some cs => flattenFrom missionId (some parent) 0 cs

def flattenFrom (missionId : UUID) (parent : Option UUID) : Nat → List Stage → List MissionStageRow
  | _, [] => []
  | sequence, s :: rest =>
    s.rows missionId parent sequence ++ flattenFrom missionId parent (sequence + 1) rest
end

/-- One row per stage at every depth; a cleanup stage points at its parent. -/
def flatten (missionId : UUID) (stages : List Stage) : List MissionStageRow :=
  flattenFrom missionId none 0 stages

section Flatten
variable (missionId : UUID) (parent : Option UUID) (n : Nat) (stages : List Stage)

@[simp] theorem flattenFrom_nil : flattenFrom missionId parent n [] = [] := rfl

@[simp] theorem flattenFrom_cons (i : UUID) (cs : Option (List Stage)) (d : StageDetail) :
    flattenFrom missionId parent n (.mk i cs d :: stages) =
      { stageId := i, missionId, sequence := n, kind := Stage.kind (.mk i cs d)
        siteId := siteOf (.mk i cs d), parentStageId := parent, spec := d } ::
        (flattenFrom missionId (some i) 0 (cs.getD []) ++
          flattenFrom missionId parent (n + 1) stages) := by
  cases cs <;> rfl

theorem map_stageId_flattenFrom :
    (flattenFrom missionId parent n stages).map (·.stageId) = stageIds stages := by
  rw [stageIds_eq_map]
  induction stages using stagesInduction generalizing parent n with
  | nil => rfl
  | cons i cs d rest ihs ih =>
    rw [flattenFrom_cons, allStages_cons, List.map_cons, List.map_cons, List.map_append,
      List.map_append, ihs, ih]
    rfl

theorem map_siteId_flattenFrom :
    (flattenFrom missionId parent n stages).map (·.siteId) = (allStages stages).map siteOf := by
  induction stages using stagesInduction generalizing parent n with
  | nil => rfl
  | cons i cs d rest ihs ih =>
    rw [flattenFrom_cons, allStages_cons, List.map_cons, List.map_cons, List.map_append,
      List.map_append, ihs, ih]

variable {missionId parent n stages}

theorem missionId_of_mem_flattenFrom {row : MissionStageRow}
    (h : row ∈ flattenFrom missionId parent n stages) : row.missionId = missionId := by
  induction stages using stagesInduction generalizing parent n with
  | nil => cases h
  | cons i cs d rest ihs ih =>
    rw [flattenFrom_cons, List.mem_cons, List.mem_append] at h
    obtain rfl | h | h := h
    · rfl
    · exact ihs h
    · exact ih h

end Flatten

def stageForest : RowForest UUID MissionStageRow Stage where
  key := MissionStageRow.stageId
  parent := MissionStageRow.parentStageId
  sequence := MissionStageRow.sequence
  assemble row children := .mk row.stageId (cleanupOf children) row.spec

theorem lists_flattenFrom (missionId : UUID) (parent : Option UUID) (n : Nat) (stages : List Stage) :
    stageForest.Lists parent n (flattenFrom missionId parent n stages) (tidied stages) := by
  induction stages using stagesInduction generalizing parent n with
  | nil => exact .nil parent n
  | cons i cs d rest ihs ih =>
    rw [flattenFrom_cons, tidied_cons]
    exact .cons rfl rfl (ihs (some i) 0) (ih parent (n + 1))

/-- Rebuild the nested shape from flat rows. -/
def nest (rows : List MissionStageRow) : Option (List Stage) :=
  stageForest.build rows (rows.length + 1) none

namespace Definitions

def MissionOrder (a b : MissionStageRow) : Prop :=
  a.missionId < b.missionId ∨ a.missionId = b.missionId ∧ a.sequence ≤ b.sequence

instance : DecidableRel MissionOrder := fun a b =>
  inferInstanceAs (Decidable (a.missionId < b.missionId ∨
    a.missionId = b.missionId ∧ a.sequence ≤ b.sequence))

def stagesFor (d : Definitions) (missionIds : List UUID) (missionId : UUID) : Option (List Stage) :=
  let rows := (d.stages.rows.filter fun row => row.missionId ∈ missionIds).insertionSort MissionOrder
  nest (rows.filter fun row => row.missionId = missionId)

def getStages (d : Definitions) (missionId : UUID) : Option (List Stage) :=
  d.stagesFor [missionId] missionId

def missionsReferencingSite (d : Definitions) (siteId : UUID) : List UUID :=
  ((d.stages.rows.filter fun row => row.siteId = some siteId).map (·.missionId)).eraseDups

/-- What the foreign keys of a stage row refer to is there. -/
def refersTo (d : Definitions) (row : MissionStageRow) : Bool :=
  (d.missions.find? row.missionId).isSome &&
    row.siteId.all (fun siteId => (d.sites.find? siteId).isSome) &&
    row.parentStageId.all fun parent => (d.stages.find? parent).isSome

theorem refersTo_iff {d : Definitions} {row : MissionStageRow} : d.refersTo row = true ↔
    (d.missions.find? row.missionId).isSome ∧
      (∀ siteId, row.siteId = some siteId → (d.sites.find? siteId).isSome) ∧
      ∀ parent, row.parentStageId = some parent → (d.stages.find? parent).isSome := by
  simp only [refersTo, Bool.and_eq_true, Option.all_eq_true, and_assoc]

/-- The upsert of all rows in one statement; a conflict overwrites the row with the same id. -/
def upsertStages (d : Definitions) (values : List MissionStageRow) :
    Except ServiceError Definitions :=
  if ¬ (values.map (·.stageId)).Nodup then .error .cardinalityViolation
  else
    let after := { d with stages := d.stages.upsertAll values fun _ _ => true }
    if values.all after.refersTo then .ok after
    else .error (.foreignKeyViolation "mission_stages")

def deleteStages (d : Definitions) (stageIds : List UUID) : Definitions :=
  { d with stages := d.stages.deleteCascade MissionStageRow.parentStageId stageIds }

/-- The ids of the mission's rows that are not kept. -/
def dropped (d : Definitions) (missionId : UUID) (keep : List UUID) : List UUID :=
  (d.stages.rows.filter fun row => row.missionId = missionId ∧ row.stageId ∉ keep).map (·.stageId)

def replaceStages (d : Definitions) (missionId : UUID) (stages : List Stage) :
    Except ServiceError Definitions :=
  let values := flatten missionId stages
  let after := d.deleteStages (d.dropped missionId (values.map (·.stageId)))
  if values = [] then .ok after else after.upsertStages values

/-- The order of the stages as the deferred constraint asks for it at the commit. -/
def StageOrder (d : Definitions) : Prop :=
  (d.stages.rows.map fun row => (row.missionId, row.parentStageId, row.sequence)).Nodup

instance (d : Definitions) : Decidable d.StageOrder :=
  inferInstanceAs (Decidable (List.Nodup _))

end Definitions

end Leitstand
