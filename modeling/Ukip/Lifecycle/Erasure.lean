import Ukip.Lifecycle.Tables
import Ukip.Tenancy.Access

/-!
# Erasing an organization

`delete_subject_data` of `data_lifecycle.py`: the surfaces are deleted in their order, and
a violated key refuses the whole run.  The rows of one surface do not refer to each other
by keys, so that the order of their DELETEs makes no difference.
-/

namespace Ukip.Lifecycle.Erasure

open Foundation.References Tenancy.Access Tables

variable {Data : Type}

/-- `_DELETION_SURFACES` but the last one. -/
def childSurfaces : List (Table × String) :=
  [(.annotations, "annotations"), (.analysisContexts, "analysis_contexts"),
    (.userDashboards, "dashboards"), (.embedWidgets, "embed_widgets"),
    (.alertChannels, "alert_channels"), (.artifactTemplates, "artifact_templates"),
    (.authorityRecords, "authority_records"), (.normalizationRules, "normalization_rules"),
    (.harmonizationLogs, "harmonization_logs"), (.scheduledImports, "scheduled_imports"),
    (.scheduledReports, "scheduled_reports"), (.workflows, "workflows"),
    (.importBatches, "import_batches"), (.storeConnections, "store_connections")]

def deletionSurfaces : List (Table × String) := childSurfaces ++ [(.rawEntities, "entities")]

/-- `scope_query_to_org` over one table. -/
def scopedTo (scope : Option Int) (table : Table) (row : Row Table Column Data) : Bool :=
  decide (row.table = table) && inScope scope row.owner

def erasures (scope : Option Int) : List (String × (Row Table Column Data → Bool)) :=
  deletionSurfaces.map fun surface => (surface.2, scopedTo scope surface.1)

def deleteSubjectData (scope : Option Int) (rows : Rows Data) :
    Option (List (String × Nat) × Rows Data) :=
  (erasures scope).foldlM countedDelete ([], rows)

variable (owned : Table → Bool) (orgId : Nat)

/-- Nothing of the organization is left, and nothing else has changed.  Which tables are
tenant-owned is a parameter; the lifecycle events are kept by policy. -/
structure IsErased (rows after : Rows Data) : Prop where
  noneLeft : ∀ row ∈ after, owned row.table = true → row.table ≠ .dataLifecycleEvents →
    belongsTo rows orgId row = false
  noneNames : ∀ row ∈ after, owned row.table = true → ∀ column,
    namesEntity rows orgId row column = false
  othersKept : ∀ other : Nat, other ≠ orgId →
    after.filter (belongsTo rows other) = rows.filter (belongsTo rows other)

def Erases (rows : Rows Data) : Prop :=
  ∃ counts after, deleteSubjectData (some orgId) rows = some (counts, after) ∧
    IsErased owned orgId rows after

def isOwnEntity (row : Row Table Column Data) : Bool :=
  decide (row.table = .rawEntities) && row.owner == some (orgId : Int)

def isCovered (rows : Rows Data) (row : Row Table Column Data) : Bool :=
  (deletionSurfaces.any fun surface => scopedTo (some (orgId : Int)) surface.1 row) ||
    schema.goesWith rows (isOwnEntity orgId) row

structure IsErasable (rows : Rows Data) : Prop where
  /-- No plain key leads to a row of a surface. -/
  unreferenced : ∀ surface ∈ deletionSurfaces,
    schema.Unreferenced rows (scopedTo (some (orgId : Int)) surface.1)
  covered : ∀ row ∈ rows, owned row.table = true → row.table ≠ .dataLifecycleEvents →
    belongsTo rows orgId row = true → isCovered orgId rows row = true
  /-- A column that keeps its id names an entity in rows that go only. -/
  unnamed : ∀ row ∈ rows, owned row.table = true → ∀ column, schema.onDelete column ≠ .setNull →
    namesEntity rows orgId row column = true → isCovered orgId rows row = true
  /-- No other organization's row hangs on an entity. -/
  apart : ∀ row ∈ rows, ∀ other : Nat, other ≠ orgId → belongsTo rows other row = true →
    isCovered orgId rows row = false ∧ ∀ column, schema.onDelete column = .setNull →
      namesEntity rows orgId row column = false

theorem scopedTo_organization (table : Table) (row : Row Table Column Data) :
    scopedTo (some (orgId : Int)) table row =
      (decide (row.table = table) && row.owner == some (orgId : Int)) := by
  unfold scopedTo
  rw [inScope_organization]

theorem scopedTo_rawEntities :
    (scopedTo (some (orgId : Int)) .rawEntities : Row Table Column Data → Bool) = isOwnEntity orgId :=
  funext fun row => scopedTo_organization orgId .rawEntities row

variable (scope : Option Int)

theorem deleteSubjectData_iff (rows after : Rows Data) :
    (∃ counts, deleteSubjectData scope rows = some (counts, after)) ↔
      schema.deleteAll (deletionSurfaces.map fun surface => scopedTo scope surface.1) rows =
        some after := by
  unfold deleteSubjectData
  rw [countedDelete_eq_some_iff]
  unfold erasures
  rw [List.map_map]
  rfl

variable (column : Column) (surface : Table × String)

theorem plain_of_parent (member : surface ∈ childSurfaces)
    (parent : schema.parent column = surface.1) :
    schema.onDelete column ≠ .cascade ∧ schema.onDelete column ≠ .setNull := by
  revert column
  refine Column.forall_of_all _ ?_
  revert surface
  decide

theorem child_not_mem_childSurfaces (plain : schema.onDelete column = .noAction)
    (surface : Table × String) (member : surface ∈ childSurfaces) :
    schema.child column ≠ surface.1 := by
  revert column
  refine Column.forall_of_all _ ?_
  revert surface
  decide

theorem no_plain_key_to_rawEntities (parent : schema.parent column = .rawEntities) :
    schema.onDelete column ≠ .noAction := by
  revert column
  refine Column.forall_of_all _ ?_
  decide

theorem ownerColumn_keeps (table : Table) (column : Column) (own : ownerColumn table = some column) :
    schema.onDelete column ≠ .setNull := by
  cases table <;> cases own <;> decide

theorem table_of_scopedTo {scope : Option Int} {table : Table} {row : Row Table Column Data}
    (own : scopedTo scope table row = true) : row.table = table := by
  unfold scopedTo at own
  rw [Bool.and_eq_true] at own
  exact of_decide_eq_true own.1

theorem childSurfaces_plain (member : surface ∈ childSurfaces) :
    schema.Plain (scopedTo scope surface.1 : Row Table Column Data → Bool) :=
  fun _ own column parent => plain_of_parent column surface member
    (parent.trans (table_of_scopedTo own))

theorem nothingFreed (surfaces : List (Table × String)) (inside : surfaces ⊆ childSurfaces)
    (distinct : (surfaces.map Prod.fst).Nodup) :
    Schema.NothingFreed schema (surfaces.map fun surface =>
      (scopedTo scope surface.1 : Row Table Column Data → Bool)) := by
  induction surfaces with
  | nil => trivial
  | cons surface rest ih =>
    rw [List.map_cons, List.nodup_cons] at distinct
    refine ⟨?_, ?_, ih (fun later member => inside (List.mem_cons_of_mem surface member))
      distinct.2⟩
    · intro row column target plain points _
      refine Bool.eq_false_iff.mpr fun own => ?_
      exact child_not_mem_childSurfaces column plain surface (inside List.mem_cons_self)
        ((child_of_points points).1.trans (table_of_scopedTo own))
    · intro statement member row own
      obtain ⟨later, laterMember, rfl⟩ := List.mem_map.mp member
      refine Bool.eq_false_iff.mpr fun here => distinct.1 ?_
      rw [← table_of_scopedTo here, table_of_scopedTo own]
      exact List.mem_map_of_mem laterMember

theorem isOwnEntity_not_scoped (row : Row Table Column Data) (entity : isOwnEntity orgId row = true) :
    (childSurfaces.any fun surface => scopedTo scope surface.1 row) = false := by
  unfold isOwnEntity at entity
  rw [Bool.and_eq_true] at entity
  refine List.any_eq_false.mpr fun surface member own => ?_
  have none : ∀ surface ∈ childSurfaces, surface.1 ≠ .rawEntities := by decide
  exact none surface member ((table_of_scopedTo own).symm.trans (of_decide_eq_true entity.1))

variable (rows : Rows Data)

theorem unreferenced_rawEntities : schema.Unreferenced rows (isOwnEntity orgId) := by
  intro row _ column plain
  refine Bool.eq_false_iff.mpr fun into => ?_
  obtain ⟨target, _, own, parent, _⟩ := Schema.parent_of_pointsInto into
  unfold isOwnEntity at own
  rw [Bool.and_eq_true] at own
  exact no_plain_key_to_rawEntities column (parent.trans (of_decide_eq_true own.1)) plain

/-- What the run leaves: the rows that are not covered, without the references that are
set to NULL. -/
def leftover (rows : Rows Data) : Rows Data :=
  (rows.filter fun row => !isCovered orgId rows row).map (schema.detach rows (isOwnEntity orgId))

theorem delete_rawEntities :
    schema.delete rows (isOwnEntity orgId) =
      some ((rows.filter fun row => !schema.isGone rows (isOwnEntity orgId) row).map
        (schema.detach rows (isOwnEntity orgId))) := by
  unfold Schema.delete
  rw [if_neg]
  rw [schema.isBlocked_iff]
  rintro ⟨row, member, -, column, plain, into⟩
  rw [unreferenced_rawEntities orgId rows row member column plain] at into
  cases into

theorem leftover_of_children (rows : Rows Data) :
    let kept := rows.filter fun row =>
      !childSurfaces.any fun surface => scopedTo (some (orgId : Int)) surface.1 row
    ((kept.filter fun row => !schema.isGone kept (isOwnEntity orgId) row).map
      (schema.detach kept (isOwnEntity orgId))) = leftover orgId rows := by
  intro kept
  have sight : ∀ row column, schema.pointsInto kept (isOwnEntity orgId) row column =
      schema.pointsInto rows (isOwnEntity orgId) row column :=
    Schema.pointsInto_filter (fun target entity => by
      rw [isOwnEntity_not_scoped orgId _ target entity]
      rfl) rows
  have sameGone : ∀ row, schema.goesWith kept (isOwnEntity orgId) row =
      schema.goesWith rows (isOwnEntity orgId) row := by
    intro row
    unfold Schema.goesWith
    simp only [sight]
  have sameDetach : ∀ row, schema.detach kept (isOwnEntity orgId) row =
      schema.detach rows (isOwnEntity orgId) row := by
    intro row
    unfold Schema.detach
    simp only [sight]
  unfold leftover
  rw [List.filter_filter, List.map_congr_left fun row _ => sameDetach row]
  congr 1
  refine List.filter_congr fun row _ => ?_
  unfold Schema.isGone isCovered deletionSurfaces
  rw [sameGone, List.any_append, List.any_cons, List.any_nil, Bool.or_false, scopedTo_rawEntities,
    ← Bool.not_or, Bool.or_comm, Bool.or_assoc]

theorem deleteSubjectData_eq_some_iff (rows after : Rows Data) :
    (∃ counts, deleteSubjectData (some (orgId : Int)) rows = some (counts, after)) ↔
      (∀ surface ∈ deletionSurfaces,
        schema.Unreferenced rows (scopedTo (some (orgId : Int)) surface.1)) ∧
        after = leftover orgId rows := by
  rw [deleteSubjectData_iff]
  unfold deletionSurfaces
  rw [List.map_append, Schema.deleteAll_append, Option.bind_eq_some_iff]
  have children := Schema.deleteAll_eq_some_iff
    (childSurfaces.map fun surface =>
      (scopedTo (some (orgId : Int)) surface.1 : Row Table Column Data → Bool))
    (fun statement member => by
      obtain ⟨surface, surfaceMember, rfl⟩ := List.mem_map.mp member
      exact childSurfaces_plain _ surface surfaceMember)
    (nothingFreed _ childSurfaces (fun _ member => member) (by decide)) rows
  have last : ∀ kept : Rows Data, schema.deleteAll
      ([((.rawEntities, "entities") : Table × String)].map fun surface =>
        (scopedTo (some (orgId : Int)) surface.1 : Row Table Column Data → Bool)) kept =
        some ((kept.filter fun row => !schema.isGone kept (isOwnEntity orgId) row).map
          (schema.detach kept (isOwnEntity orgId))) := by
    intro kept
    rw [List.map_singleton, Schema.deleteAll, scopedTo_rawEntities, delete_rawEntities]
    rfl
  have inside : (fun row : Row Table Column Data => !(childSurfaces.map fun surface =>
      (scopedTo (some (orgId : Int)) surface.1 : Row Table Column Data → Bool)).any
        fun doomed => doomed row) = fun row =>
      !childSurfaces.any fun surface => scopedTo (some (orgId : Int)) surface.1 row := by
    funext row
    rw [List.any_map]
    rfl
  constructor
  · rintro ⟨kept, first, second⟩
    obtain ⟨free, rfl⟩ := (children kept).mp first
    rw [last, inside, Option.some.injEq, leftover_of_children] at second
    refine ⟨fun surface member => ?_, second.symm⟩
    rcases List.mem_append.mp member with child | entities
    · exact free _ (List.mem_map_of_mem child)
    · rw [List.mem_singleton.mp entities, scopedTo_rawEntities]
      exact unreferenced_rawEntities orgId rows
  · rintro ⟨free, rfl⟩
    refine ⟨_, (children _).mpr ⟨fun statement member => ?_, rfl⟩, ?_⟩
    · obtain ⟨surface, surfaceMember, rfl⟩ := List.mem_map.mp member
      exact free surface (List.mem_append_left _ surfaceMember)
    · rw [last, inside, leftover_of_children]

variable (row : Row Table Column Data)

theorem reference_detach (column : Column) (keeps : schema.onDelete column ≠ .setNull) :
    (schema.detach rows (isOwnEntity orgId) row).reference column = row.reference column := by
  unfold Schema.detach
  dsimp only
  rw [beq_false_of_ne keeps, Bool.false_and, if_neg Bool.false_ne_true]

theorem belongsTo_detach (other : Int) (row : Row Table Column Data) :
    belongsTo rows other (schema.detach rows (isOwnEntity orgId) row) = belongsTo rows other row := by
  have sameTable : (schema.detach rows (isOwnEntity orgId) row).table = row.table := rfl
  unfold belongsTo
  rw [sameTable]
  cases own : ownerColumn row.table with
  | none => rfl
  | some column =>
    have kept := reference_detach orgId rows row column (ownerColumn_keeps row.table column own)
    simp only [Schema.points, kept]
    rfl

theorem namesEntity_detach (column : Column) :
    namesEntity rows orgId (schema.detach rows (isOwnEntity orgId) row) column =
      (namesEntity rows orgId row column && !(schema.onDelete column == .setNull)) := by
  by_cases sets : schema.onDelete column = .setNull
  · rw [sets, BEq.rfl, Bool.not_true, Bool.and_false]
    refine Bool.eq_false_iff.mpr fun named => ?_
    obtain ⟨target, member, own, parent, reference⟩ := Schema.parent_of_pointsInto named
    unfold Schema.detach at reference
    dsimp only at reference
    split at reference
    · cases reference
    rename_i apart
    refine apart ?_
    rw [sets, BEq.rfl, Bool.true_and]
    refine (schema.pointsInto_iff rows (isOwnEntity orgId) row column).mpr
      ⟨target, member, own, ?_⟩
    obtain ⟨other, _, _, points⟩ := (schema.pointsInto_iff _ _ _ column).mp named
    have child := (child_of_points points).1
    unfold Schema.points
    rw [decide_eq_true parent, reference, BEq.rfl, Bool.and_true, Bool.and_true]
    exact decide_eq_true child
  · have kept := reference_detach orgId rows row column sets
    rw [beq_false_of_ne sets, Bool.not_false, Bool.and_true]
    unfold namesEntity Schema.pointsInto Schema.points
    rw [kept]
    rfl

theorem mem_leftover_iff :
    row ∈ leftover orgId rows ↔ ∃ old ∈ rows, isCovered orgId rows old = false ∧
      schema.detach rows (isOwnEntity orgId) old = row := by
  unfold leftover
  rw [List.mem_map]
  constructor
  · rintro ⟨old, kept, same⟩
    obtain ⟨member, stays⟩ := List.mem_filter.mp kept
    exact ⟨old, member, by simpa using stays, same⟩
  · rintro ⟨old, member, stays, same⟩
    exact ⟨old, List.mem_filter.mpr ⟨member, by simpa using stays⟩, same⟩

theorem othersKept_iff (other : Nat) :
    (leftover orgId rows).filter (belongsTo rows other) = rows.filter (belongsTo rows other) ↔
      ∀ row ∈ rows, belongsTo rows other row = true →
        isCovered orgId rows row = false ∧ ∀ column, schema.onDelete column = .setNull →
          namesEntity rows orgId row column = false := by
  unfold leftover
  rw [filter_map_filter_eq_iff rows _ _ _ fun row => belongsTo_detach orgId rows other row]
  simp only [Bool.not_eq_true', Schema.detach_eq_self_iff]
  rfl

/-- The run erases the organization exactly when all of it is in reach of the surfaces and
nothing else is. -/
theorem erases_iff_isErasable (rows : Rows Data) :
    Erases owned orgId rows ↔ IsErasable owned orgId rows := by
  constructor
  · rintro ⟨counts, after, done, erased⟩
    obtain ⟨free, rfl⟩ := (deleteSubjectData_eq_some_iff orgId rows after).mp ⟨counts, done⟩
    have stays : ∀ row ∈ rows, isCovered orgId rows row ≠ true →
        schema.detach rows (isOwnEntity orgId) row ∈ leftover orgId rows := fun row member out =>
      (mem_leftover_iff orgId rows _).mpr ⟨row, member, Bool.eq_false_iff.mpr out, rfl⟩
    refine ⟨free, ?_, ?_, ?_⟩
    · intro row member tenant notEvent belongs
      refine Classical.byContradiction fun out => ?_
      have left := erased.noneLeft _ (stays row member out) tenant notEvent
      rw [belongsTo_detach, belongs] at left
      cases left
    · intro row member tenant column keeps named
      refine Classical.byContradiction fun out => ?_
      have left := erased.noneNames _ (stays row member out) tenant column
      rw [namesEntity_detach, named, beq_false_of_ne keeps] at left
      cases left
    · intro row member other different belongs
      exact (othersKept_iff orgId rows other).mp (erased.othersKept other different) row member belongs
  · intro erasable
    obtain ⟨counts, done⟩ := (deleteSubjectData_eq_some_iff orgId rows _).mpr
      ⟨erasable.unreferenced, rfl⟩
    refine ⟨counts, leftover orgId rows, done, ?_, ?_, ?_⟩
    · intro row member tenant notEvent
      obtain ⟨old, oldMember, out, rfl⟩ := (mem_leftover_iff orgId rows row).mp member
      rw [belongsTo_detach]
      refine Bool.eq_false_iff.mpr fun belongs => ?_
      rw [erasable.covered old oldMember tenant notEvent belongs] at out
      cases out
    · intro row member tenant column
      obtain ⟨old, oldMember, out, rfl⟩ := (mem_leftover_iff orgId rows row).mp member
      rw [namesEntity_detach]
      refine Bool.eq_false_iff.mpr fun named => ?_
      rw [Bool.and_eq_true, Bool.not_eq_true', beq_eq_false_iff_ne] at named
      rw [erasable.unnamed old oldMember tenant column named.2 named.1] at out
      cases out
    · exact fun other different => (othersKept_iff orgId rows other).mpr
        fun row member => erasable.apart row member other different

/-- The tables that carry `org_id`. -/
def carriesOrgId : Table → Bool
  | .harmonizationChangeRecords => false
  | .storeSyncMappings => false
  | .syncLogs => false
  | .syncQueue => false
  | .linkDismissals => false
  | .authors => false
  | _ => true

def importedEntity : Rows Unit :=
  [⟨.importBatches, 1, some 7, fun _ => none, ()⟩,
    ⟨.rawEntities, 1, some 7, fun column =>
      if column = .rawEntitiesImportBatchId then some 1 else none, ()⟩]

/-- The batch goes before the entity that refers to it. -/
theorem imported_entity_not_erased :
    deleteSubjectData (some 7) importedEntity = none ∧ ¬ Erases carriesOrgId 7 importedEntity := by
  have refused : deleteSubjectData (some 7) importedEntity = none := by decide
  refine ⟨refused, ?_⟩
  rintro ⟨counts, after, done, -⟩
  change deleteSubjectData (some 7) importedEntity = some (counts, after) at done
  rw [refused] at done
  cases done

end Ukip.Lifecycle.Erasure
