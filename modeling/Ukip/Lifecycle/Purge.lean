import Mathlib.Data.List.Nodup
import Ukip.Foundation.SqlTruth
import Ukip.Lifecycle.Tables

/-!
# The retention purge

`purge_expired_entities` of `data_lifecycle.py`: the expired entities go after the rows
that refer to them by a key.  Co-authorship edges count contributions, and the purge does
not know them.
-/

namespace Ukip.Lifecycle.Purge

open Foundation.References Foundation.SqlTruth Tables

/-- The columns that a purge, or what it must keep, is about; a table reads its own.
`raw_entities` has no column for the time of creation: it is the fact that the age of an
entity without an update is measured by. -/
structure LifecycleColumns where
  updatedAt : Option Int
  createdAt : Int
  authorAId : Nat
  authorBId : Nat
  domainId : String
  weight : Nat

abbrev LifecycleRow := Row Table Column LifecycleColumns

def isEntity (row : LifecycleRow) : Bool := decide (row.table = .rawEntities)

structure LifecycleDb where
  rows : List LifecycleRow
  /-- The primary key of `raw_entities`. -/
  keys : ((rows.filter isEntity).map fun row => row.id).Nodup

variable (orgId : Nat) (cutoff : Int)

/-- `org_id == org_id` and `updated_at <= cutoff_dt`, which NULL does not satisfy. -/
def isExpired (row : LifecycleRow) : Bool :=
  isEntity row && row.owner == some (orgId : Int) &&
    selects (compare (fun stored limit => decide (stored ≤ limit)) row.data.updatedAt (some cutoff))

def expiredIds (rows : List LifecycleRow) : List Nat :=
  (rows.filter (isExpired orgId cutoff)).map fun row => row.id

/-- `_ENTITY_CHILD_SURFACES`, then both ends of the relationships. -/
def entityChildSurfaces : List (String × Table × List Column) :=
  [("CoauthorContribution", .coauthorContributions, [.coauthorContributionsEntityId]),
    ("AuthorPublication", .authorPublications, [.authorPublicationsEntityId]),
    ("HarmonizationChangeRecord", .harmonizationChangeRecords,
      [.harmonizationChangeRecordsRecordId]),
    ("EntityRelationship", .entityRelationships,
      [.entityRelationshipsSourceId, .entityRelationshipsTargetId])]

def namesOneOf (ids : List Nat) (table : Table) (columns : List Column) (row : LifecycleRow) : Bool :=
  decide (row.table = table) && columns.any fun column =>
    (row.reference column).any fun id => ids.contains id

def childDeletions (ids : List Nat) : List (String × (LifecycleRow → Bool)) :=
  entityChildSurfaces.map fun surface => (surface.1, namesOneOf ids surface.2.1 surface.2.2)

def entityDeletion (ids : List Nat) (row : LifecycleRow) : Bool :=
  isEntity row && ids.contains row.id

def purgeExpiredEntities (rows : List LifecycleRow) :
    Option (List (String × Nat) × List LifecycleRow) :=
  let ids := expiredIds orgId cutoff rows
  if ids = [] then some ([], rows)
  else (childDeletions ids ++ [("entities", entityDeletion ids)]).foldlM countedDelete ([], rows)

def isDue (row : LifecycleRow) : Bool :=
  isEntity row && row.owner == some (orgId : Int) &&
    decide (row.data.updatedAt.getD row.data.createdAt ≤ cutoff)

def contributes (edge row : LifecycleRow) : Bool :=
  decide (row.table = .coauthorContributions) && row.owner == edge.owner &&
    row.data.authorAId == edge.data.authorAId && row.data.authorBId == edge.data.authorBId &&
    row.data.domainId == edge.data.domainId

def isDirty (rows : List LifecycleRow) (edge : LifecycleRow) : Bool :=
  rows.any fun row => decide (row.table = .coauthorDirtyScopes) && row.owner == edge.owner &&
    row.data.domainId == edge.data.domainId

def WeightsCounted (rows : List LifecycleRow) : Prop :=
  ∀ edge ∈ rows, edge.table = .coauthorEdges →
    isDirty rows edge = true ∨ edge.data.weight = (rows.filter (contributes edge)).length

def isChangeRecord (row : LifecycleRow) : Bool := decide (row.table = .harmonizationChangeRecords)

structure IsPurged (rows after : List LifecycleRow) : Prop where
  /-- The due entities are gone, and no other. -/
  exactly : after.filter isEntity =
    rows.filter fun row => isEntity row && !isDue orgId cutoff row
  noneNames : ∀ row ∈ after, ∀ column,
    schema.pointsInto rows (isDue orgId cutoff) row column = false
  weights : WeightsCounted rows → WeightsCounted after
  /-- The audit rows stay, with NULL for the entities that are gone. -/
  audit : after.filter isChangeRecord =
    (rows.filter isChangeRecord).map (schema.detach rows (isDue orgId cutoff))

def Purges (rows : List LifecycleRow) : Prop :=
  ∃ counts after, purgeExpiredEntities orgId cutoff rows = some (counts, after) ∧
    IsPurged orgId cutoff rows after

structure IsPurgeable (rows : List LifecycleRow) : Prop where
  /-- What was never updated was created after the cutoff. -/
  dated : ∀ row ∈ rows, isEntity row = true → row.owner = some (orgId : Int) →
    row.data.updatedAt = none → cutoff < row.data.createdAt
  /-- No annotation, dismissal or sync mapping names an expired entity. -/
  unnamed : ∀ row ∈ rows, ∀ column, schema.onDelete column = .unenforced →
    schema.pointsInto rows (isExpired orgId cutoff) row column = false
  /-- No clean edge counts a contribution of an expired entity. -/
  counted : WeightsCounted rows → ∀ edge ∈ rows, edge.table = .coauthorEdges →
    isDirty rows edge = true ∨ ∀ row ∈ rows, contributes edge row = true →
      schema.pointsInto rows (isExpired orgId cutoff) row .coauthorContributionsEntityId = false
  unaudited : ∀ row ∈ rows, schema.pointsInto rows (isExpired orgId cutoff) row
    .harmonizationChangeRecordsRecordId = false

theorem surface_of_key (column : Column) (keyed : schema.onDelete column ≠ .unenforced)
    (parent : schema.parent column = .rawEntities) :
    ∃ surface ∈ entityChildSurfaces, schema.child column = surface.2.1 ∧ column ∈ surface.2.2 := by
  revert column
  refine Column.forall_of_all _ ?_
  decide

variable (surface : String × Table × List Column)

theorem key_of_surface (member : surface ∈ entityChildSurfaces) (column : Column)
    (own : column ∈ surface.2.2) :
    schema.onDelete column ≠ .unenforced ∧ schema.parent column = .rawEntities ∧
      schema.child column = surface.2.1 := by
  revert column
  refine Column.forall_of_all _ ?_
  revert surface
  decide

theorem parent_ne_surface (member : surface ∈ entityChildSurfaces) (column : Column) :
    schema.parent column ≠ surface.2.1 := by
  revert column
  refine Column.forall_of_all _ ?_
  revert surface
  decide

theorem child_of_unenforced (column key : Column) (free : schema.onDelete column = .unenforced)
    (keyed : schema.onDelete key ≠ .unenforced) (parent : schema.parent key = .rawEntities) :
    schema.child column ≠ schema.child key ∧ schema.child column ≠ .rawEntities := by
  revert column
  refine Column.forall_of_all _ ?_
  revert key
  refine Column.forall_of_all _ ?_
  decide

theorem child_ne_rawEntities (column : Column) (parent : schema.parent column = .rawEntities) :
    schema.child column ≠ .rawEntities := by
  revert column
  refine Column.forall_of_all _ ?_
  decide

theorem key_of_child (column : Column) (keyed : schema.onDelete column ≠ .unenforced)
    (parent : schema.parent column = .rawEntities) :
    (schema.child column = .coauthorContributions → column = .coauthorContributionsEntityId) ∧
      (schema.child column = .harmonizationChangeRecords →
        column = .harmonizationChangeRecordsRecordId) ∧
      schema.child column ≠ .coauthorEdges ∧ schema.child column ≠ .coauthorDirtyScopes := by
  revert column
  refine Column.forall_of_all _ ?_
  decide

/-- An expired entity, or a row that refers to one by a key. -/
def IsRemoved (rows : List LifecycleRow) (row : LifecycleRow) : Prop :=
  isExpired orgId cutoff row = true ∨ ∃ column, schema.onDelete column ≠ .unenforced ∧
    schema.pointsInto rows (isExpired orgId cutoff) row column = true

def isDoomed (ids : List Nat) (row : LifecycleRow) : Bool :=
  ((childDeletions ids).map Prod.snd).any (fun doomed => doomed row) || entityDeletion ids row

variable {row : LifecycleRow}

theorem entity_of_isExpired (expired : isExpired orgId cutoff row = true) :
    row.table = .rawEntities := by
  unfold isExpired at expired
  rw [Bool.and_eq_true, Bool.and_eq_true] at expired
  exact of_decide_eq_true expired.1.1

variable (rows : List LifecycleRow)

theorem mem_expiredIds (id : Nat) :
    id ∈ expiredIds orgId cutoff rows ↔
      ∃ target ∈ rows, isExpired orgId cutoff target = true ∧ target.id = id := by
  unfold expiredIds
  rw [List.mem_map]
  constructor
  · rintro ⟨target, kept, same⟩
    exact ⟨target, (List.mem_filter.mp kept).1, (List.mem_filter.mp kept).2, same⟩
  · rintro ⟨target, member, own, same⟩
    exact ⟨target, List.mem_filter.mpr ⟨member, own⟩, same⟩

theorem pointsInto_expired_iff (row : LifecycleRow) (column : Column)
    (parent : schema.parent column = .rawEntities) :
    schema.pointsInto rows (isExpired orgId cutoff) row column = true ↔
      schema.child column = row.table ∧ ∃ id ∈ expiredIds orgId cutoff rows,
        row.reference column = some id := by
  constructor
  · intro into
    obtain ⟨target, member, own, _, reference⟩ := Schema.parent_of_pointsInto into
    exact ⟨child_of_pointsInto into, target.id,
      (mem_expiredIds orgId cutoff rows target.id).mpr ⟨target, member, own, rfl⟩, reference⟩
  · rintro ⟨child, id, listed, reference⟩
    obtain ⟨target, member, own, rfl⟩ := (mem_expiredIds orgId cutoff rows id).mp listed
    refine (schema.pointsInto_iff rows _ row column).mpr ⟨target, member, own, ?_⟩
    have entity := entity_of_isExpired orgId cutoff own
    unfold Schema.points
    rw [decide_eq_true child, decide_eq_true (parent.trans entity.symm), reference, BEq.rfl]
    rfl

theorem namesOneOf_iff (ids : List Nat) (table : Table) (columns : List Column) (row : LifecycleRow) :
    namesOneOf ids table columns row = true ↔
      row.table = table ∧ ∃ column ∈ columns, ∃ id ∈ ids, row.reference column = some id := by
  unfold namesOneOf
  rw [Bool.and_eq_true, decide_eq_true_iff, List.any_eq_true]
  refine and_congr_right fun _ => exists_congr fun column => and_congr_right fun _ => ?_
  rw [Option.any_eq_true]
  constructor
  · rintro ⟨id, reference, listed⟩
    exact ⟨id, List.contains_iff_mem.mp listed, reference⟩
  · rintro ⟨id, listed, reference⟩
    exact ⟨id, reference, List.contains_iff_mem.mpr listed⟩

theorem childDeletions_iff (row : LifecycleRow) :
    (((childDeletions (expiredIds orgId cutoff rows)).map Prod.snd).any fun doomed => doomed row) = true ↔
      ∃ column, schema.onDelete column ≠ .unenforced ∧
        schema.pointsInto rows (isExpired orgId cutoff) row column = true := by
  unfold childDeletions
  rw [List.map_map, List.any_map, List.any_eq_true]
  constructor
  · rintro ⟨surface, member, names⟩
    obtain ⟨table, column, own, id, listed, reference⟩ := (namesOneOf_iff _ _ _ row).mp names
    obtain ⟨keyed, parent, child⟩ := key_of_surface surface member column own
    exact ⟨column, keyed, (pointsInto_expired_iff orgId cutoff rows row column parent).mpr
      ⟨child.trans table.symm, id, listed, reference⟩⟩
  · rintro ⟨column, keyed, into⟩
    obtain ⟨target, _, expired, parent, _⟩ := Schema.parent_of_pointsInto into
    have toEntities := parent.trans (entity_of_isExpired orgId cutoff expired)
    obtain ⟨child, id, listed, reference⟩ :=
      (pointsInto_expired_iff orgId cutoff rows row column toEntities).mp into
    obtain ⟨surface, member, surfaceChild, own⟩ := surface_of_key column keyed toEntities
    exact ⟨surface, member, (namesOneOf_iff _ _ _ row).mpr
      ⟨child.symm.trans surfaceChild, column, own, id, listed, reference⟩⟩

theorem entityDeletion_iff (db : LifecycleDb) (row : LifecycleRow) (member : row ∈ db.rows) :
    entityDeletion (expiredIds orgId cutoff db.rows) row = true ↔
      isExpired orgId cutoff row = true := by
  unfold entityDeletion
  rw [Bool.and_eq_true, List.contains_iff_mem, mem_expiredIds]
  constructor
  · rintro ⟨entity, target, targetMember, expired, sameId⟩
    have targetEntity : isEntity target = true :=
      decide_eq_true (entity_of_isExpired orgId cutoff expired)
    have same := List.inj_on_of_nodup_map db.keys
      (List.mem_filter.mpr ⟨targetMember, targetEntity⟩)
      (List.mem_filter.mpr ⟨member, entity⟩) sameId
    rwa [← same]
  · intro expired
    exact ⟨decide_eq_true (entity_of_isExpired orgId cutoff expired), row, member, expired, rfl⟩

theorem isDoomed_iff (db : LifecycleDb) (row : LifecycleRow) (member : row ∈ db.rows) :
    isDoomed (expiredIds orgId cutoff db.rows) row = true ↔ IsRemoved orgId cutoff db.rows row := by
  unfold isDoomed IsRemoved
  rw [Bool.or_eq_true, childDeletions_iff, entityDeletion_iff orgId cutoff db row member]
  exact or_comm

theorem isDoomed_nil (row : LifecycleRow) : isDoomed [] row = false := by
  refine Bool.eq_false_iff.mpr fun doomed => ?_
  unfold isDoomed at doomed
  rw [Bool.or_eq_true] at doomed
  rcases doomed with child | entity
  · obtain ⟨statement, member, names⟩ := List.any_eq_true.mp child
    unfold childDeletions at member
    rw [List.map_map] at member
    obtain ⟨surface, _, rfl⟩ := List.mem_map.mp member
    obtain ⟨_, _, _, id, listed, _⟩ := (namesOneOf_iff _ _ _ row).mp names
    cases listed
  · unfold entityDeletion at entity
    rw [Bool.and_eq_true] at entity
    cases entity.2

theorem deleteAll_purge :
    schema.deleteAll ((childDeletions (expiredIds orgId cutoff rows) ++
      [("entities", entityDeletion (expiredIds orgId cutoff rows))]).map Prod.snd) rows =
        some (rows.filter fun row => !isDoomed (expiredIds orgId cutoff rows) row) := by
  have unseen : ∀ doomed ∈ (childDeletions (expiredIds orgId cutoff rows)).map Prod.snd,
      ∀ target : LifecycleRow, doomed target = true → ∀ column,
        schema.parent column ≠ target.table := by
    intro doomed member target own column
    unfold childDeletions at member
    rw [List.map_map] at member
    obtain ⟨surface, surfaceMember, rfl⟩ := List.mem_map.mp member
    rw [((namesOneOf_iff _ _ _ target).mp own).1]
    exact parent_ne_surface surface surfaceMember column
  rw [List.map_append, Schema.deleteAll_append, Schema.deleteAll_of_unseen _ unseen,
    Option.bind_some]
  change (schema.delete _ (entityDeletion (expiredIds orgId cutoff rows))).bind some = _
  rw [Schema.delete_of_detached, Option.bind_some, List.filter_filter]
  · refine congrArg some (List.filter_congr fun row _ => ?_)
    unfold isDoomed
    rw [Bool.not_or, Bool.and_comm]
  · intro row kept _ column keyed
    refine Bool.eq_false_iff.mpr fun into => ?_
    obtain ⟨target, _, own, parent, reference⟩ := Schema.parent_of_pointsInto into
    unfold entityDeletion isEntity at own
    rw [Bool.and_eq_true, List.contains_iff_mem] at own
    have toEntities := parent.trans (of_decide_eq_true own.1)
    have named := (childDeletions_iff orgId cutoff rows row).mpr ⟨column, keyed,
      (pointsInto_expired_iff orgId cutoff rows row column toEntities).mpr
        ⟨child_of_pointsInto into, target.id, own.2, reference⟩⟩
    have stays := (List.mem_filter.mp kept).2
    rw [named] at stays
    cases stays

theorem purgeExpiredEntities_iff (rows after : List LifecycleRow) :
    (∃ counts, purgeExpiredEntities orgId cutoff rows = some (counts, after)) ↔
      after = rows.filter fun row => !isDoomed (expiredIds orgId cutoff rows) row := by
  unfold purgeExpiredEntities
  by_cases none : expiredIds orgId cutoff rows = []
  · have all : (rows.filter fun row => !isDoomed (expiredIds orgId cutoff rows) row) = rows := by
      rw [none]
      exact List.filter_eq_self.mpr fun row _ => by rw [isDoomed_nil]; rfl
    rw [all]
    simp only [none, if_true, Option.some.injEq, Prod.mk.injEq]
    constructor
    · rintro ⟨_, _, same⟩
      exact same.symm
    · exact fun same => ⟨[], rfl, same.symm⟩
  · simp only [none, if_false]
    rw [countedDelete_eq_some_iff, deleteAll_purge, Option.some.injEq]
    exact eq_comm

theorem due_of_expired (expired : isExpired orgId cutoff row = true) :
    isDue orgId cutoff row = true := by
  unfold isExpired at expired
  unfold isDue
  rw [Bool.and_eq_true] at expired ⊢
  refine ⟨expired.1, ?_⟩
  cases updated : row.data.updatedAt with
  | none =>
    rw [updated, selects_compare_null] at expired
    cases expired.2
  | some stored =>
    rw [updated, selects_compare_some] at expired
    exact expired.2

theorem isDue_cases (due : isDue orgId cutoff row = true) :
    isExpired orgId cutoff row = true ∨ (isEntity row = true ∧ row.owner = some (orgId : Int) ∧
      row.data.updatedAt = none ∧ row.data.createdAt ≤ cutoff) := by
  unfold isDue at due
  unfold isExpired
  rw [Bool.and_eq_true] at due ⊢
  cases updated : row.data.updatedAt with
  | none =>
    rw [updated] at due
    rw [Bool.and_eq_true, beq_iff_eq] at due
    exact .inr ⟨due.1.1, due.1.2, rfl, of_decide_eq_true due.2⟩
  | some stored =>
    rw [updated] at due
    rw [selects_compare_some]
    exact .inl due

theorem isDue_eq_isExpired {rows : List LifecycleRow}
    (dated : ∀ row ∈ rows, isEntity row = true → row.owner = some (orgId : Int) →
      row.data.updatedAt = none → cutoff < row.data.createdAt) :
    ∀ row ∈ rows, isDue orgId cutoff row = isExpired orgId cutoff row := by
  intro row member
  rw [Bool.eq_iff_iff]
  refine ⟨fun due => ?_, due_of_expired orgId cutoff⟩
  rcases isDue_cases orgId cutoff due with expired | ⟨entity, own, never, old⟩
  · exact expired
  · have new := dated row member entity own never
    omega

section Exact

variable (db : LifecycleDb)

def remaining : List LifecycleRow :=
  db.rows.filter fun row => !isDoomed (expiredIds orgId cutoff db.rows) row

theorem mem_remaining_iff (row : LifecycleRow) :
    row ∈ remaining orgId cutoff db ↔ row ∈ db.rows ∧ ¬ IsRemoved orgId cutoff db.rows row := by
  unfold remaining
  rw [List.mem_filter]
  refine and_congr_right fun member => ?_
  rw [← isDoomed_iff orgId cutoff db row member, Bool.not_eq_true', Bool.not_eq_true]

theorem isRemoved_entity (row : LifecycleRow) (entity : isEntity row = true) :
    IsRemoved orgId cutoff db.rows row ↔ isExpired orgId cutoff row = true := by
  constructor
  · rintro (expired | ⟨column, _, into⟩)
    · exact expired
    · obtain ⟨target, _, expired, parent, _⟩ := Schema.parent_of_pointsInto into
      exact absurd ((child_of_pointsInto into).trans (of_decide_eq_true entity))
        (child_ne_rawEntities column (parent.trans (entity_of_isExpired orgId cutoff expired)))
  · exact .inl

theorem isRemoved_of_column {column : Column} (keyed : schema.onDelete column ≠ .unenforced)
    (into : schema.pointsInto db.rows (isExpired orgId cutoff) row column = true) :
    IsRemoved orgId cutoff db.rows row := .inr ⟨column, keyed, into⟩

theorem not_isRemoved (row : LifecycleRow) (other : row.table ≠ .rawEntities)
    (keyless : ∀ column, schema.onDelete column ≠ .unenforced →
      schema.parent column = .rawEntities → schema.child column ≠ row.table) :
    ¬ IsRemoved orgId cutoff db.rows row := by
  rintro (expired | ⟨column, keyed, into⟩)
  · exact other (entity_of_isExpired orgId cutoff expired)
  · obtain ⟨target, _, expired, parent, _⟩ := Schema.parent_of_pointsInto into
    exact keyless column keyed (parent.trans (entity_of_isExpired orgId cutoff expired))
      (child_of_pointsInto into)

theorem exactly_iff :
    (remaining orgId cutoff db).filter isEntity =
        db.rows.filter (fun row => isEntity row && !isDue orgId cutoff row) ↔
      ∀ row ∈ db.rows, isEntity row = true → row.owner = some (orgId : Int) →
        row.data.updatedAt = none → cutoff < row.data.createdAt := by
  constructor
  · intro same row member entity own never
    refine Classical.byContradiction fun old => ?_
    have due : isDue orgId cutoff row = true := by
      unfold isDue
      rw [entity, own, never, BEq.rfl, Bool.true_and, Bool.true_and]
      exact decide_eq_true (by rw [Option.getD_none]; omega)
    have fresh : isExpired orgId cutoff row ≠ true := by
      unfold isExpired
      rw [never, selects_compare_null, Bool.and_false]
      exact Bool.false_ne_true
    have left : row ∈ (remaining orgId cutoff db).filter isEntity :=
      List.mem_filter.mpr ⟨(mem_remaining_iff orgId cutoff db row).mpr
        ⟨member, fun removed => fresh ((isRemoved_entity orgId cutoff db row entity).mp removed)⟩,
        entity⟩
    rw [same, List.mem_filter, due, Bool.not_true, Bool.and_false] at left
    cases left.2
  · intro dated
    unfold remaining
    rw [List.filter_filter]
    refine List.filter_congr fun row member => ?_
    cases entity : isEntity row with
    | false => rfl
    | true =>
      rw [Bool.true_and, Bool.true_and, isDue_eq_isExpired orgId cutoff dated row member,
        Bool.not_inj_iff, Bool.eq_iff_iff, isDoomed_iff orgId cutoff db row member]
      exact isRemoved_entity orgId cutoff db row entity

theorem isRemoved_iff_of_key (row : LifecycleRow) (key : Column) (other : row.table ≠ .rawEntities)
    (keyed : schema.onDelete key ≠ .unenforced)
    (only : ∀ column, schema.onDelete column ≠ .unenforced → schema.parent column = .rawEntities →
      schema.child column = row.table → column = key) :
    IsRemoved orgId cutoff db.rows row ↔
      schema.pointsInto db.rows (isExpired orgId cutoff) row key = true := by
  constructor
  · rintro (expired | ⟨column, enforced, into⟩)
    · exact absurd (entity_of_isExpired orgId cutoff expired) other
    · obtain ⟨target, _, expired, parent, _⟩ := Schema.parent_of_pointsInto into
      rw [← only column enforced (parent.trans (entity_of_isExpired orgId cutoff expired))
        (child_of_pointsInto into)]
      exact into
  · exact isRemoved_of_column orgId cutoff db keyed

theorem length_remaining_iff (kind : LifecycleRow → Bool) (table : Table) (key : Column)
    (inside : ∀ row, kind row = true → row.table = table) (other : table ≠ .rawEntities)
    (keyed : schema.onDelete key ≠ .unenforced)
    (only : ∀ column, schema.onDelete column ≠ .unenforced → schema.parent column = .rawEntities →
      schema.child column = table → column = key) :
    ((remaining orgId cutoff db).filter kind).length = (db.rows.filter kind).length ↔
      ∀ row ∈ db.rows, kind row = true →
        schema.pointsInto db.rows (isExpired orgId cutoff) row key = false := by
  have swapped : (remaining orgId cutoff db).filter kind =
      (db.rows.filter kind).filter fun row =>
        !isDoomed (expiredIds orgId cutoff db.rows) row := by
    unfold remaining
    rw [List.filter_filter, List.filter_filter]
    exact List.filter_congr fun row _ => Bool.and_comm _ _
  have each : ∀ row ∈ db.rows, kind row = true →
      ((!isDoomed (expiredIds orgId cutoff db.rows) row) = true ↔
        schema.pointsInto db.rows (isExpired orgId cutoff) row key = false) := by
    intro row member own
    have here := inside row own
    rw [Bool.not_eq_true', Bool.eq_false_iff, Bool.eq_false_iff]
    refine not_congr ((isDoomed_iff orgId cutoff db row member).trans
      (isRemoved_iff_of_key orgId cutoff db row key (here ▸ other) keyed ?_))
    intro column enforced parent child
    exact only column enforced parent (child.trans here)
  rw [swapped, List.length_filter_eq_length_iff]
  constructor
  · intro all row member own
    exact (each row member own).mp (all row (List.mem_filter.mpr ⟨member, own⟩))
  · intro free row kept
    obtain ⟨member, own⟩ := List.mem_filter.mp kept
    exact (each row member own).mpr (free row member own)

theorem table_of_contributes {edge row : LifecycleRow} (own : contributes edge row = true) :
    row.table = .coauthorContributions := by
  unfold contributes at own
  simp only [Bool.and_eq_true] at own
  exact of_decide_eq_true own.1.1.1.1

variable (edge : LifecycleRow)

theorem length_contributions_iff :
    ((remaining orgId cutoff db).filter (contributes edge)).length =
        (db.rows.filter (contributes edge)).length ↔
      ∀ row ∈ db.rows, contributes edge row = true →
        schema.pointsInto db.rows (isExpired orgId cutoff) row .coauthorContributionsEntityId =
          false := by
  exact length_remaining_iff orgId cutoff db (contributes edge) .coauthorContributions _
    (fun _ own => table_of_contributes own) (by decide) (by decide)
    fun column keyed parent child => (key_of_child column keyed parent).1 child

theorem isDirty_remaining :
    isDirty (remaining orgId cutoff db) edge = isDirty db.rows edge := by
  unfold isDirty
  rw [Bool.eq_iff_iff, List.any_eq_true, List.any_eq_true]
  refine exists_congr fun row => and_congr_left fun dirty => ?_
  rw [mem_remaining_iff]
  refine ⟨And.left, fun member => ⟨member, ?_⟩⟩
  rw [Bool.and_eq_true, Bool.and_eq_true] at dirty
  have table := of_decide_eq_true dirty.1.1
  refine not_isRemoved orgId cutoff db row (by rw [table]; decide) fun column keyed parent => ?_
  rw [table]
  exact (key_of_child column keyed parent).2.2.2

theorem edge_remaining (member : edge ∈ db.rows) (table : edge.table = .coauthorEdges) :
    edge ∈ remaining orgId cutoff db := by
  refine (mem_remaining_iff orgId cutoff db edge).mpr ⟨member, ?_⟩
  refine not_isRemoved orgId cutoff db edge (by rw [table]; decide) fun column keyed parent => ?_
  rw [table]
  exact (key_of_child column keyed parent).2.2.1

theorem weightsCounted_iff (counted : WeightsCounted db.rows) :
    WeightsCounted (remaining orgId cutoff db) ↔
      ∀ edge ∈ db.rows, edge.table = .coauthorEdges → isDirty db.rows edge = true ∨
        ∀ row ∈ db.rows, contributes edge row = true →
          schema.pointsInto db.rows (isExpired orgId cutoff) row .coauthorContributionsEntityId =
            false := by
  constructor
  · intro after edge member table
    rcases counted edge member table with dirty | weight
    · exact .inl dirty
    · rcases after edge (edge_remaining orgId cutoff db edge member table) table with dirty | left
      · rw [isDirty_remaining] at dirty
        exact .inl dirty
      · exact .inr ((length_contributions_iff orgId cutoff db edge).mp (left.symm.trans weight))
  · intro each edge kept table
    have member := ((mem_remaining_iff orgId cutoff db edge).mp kept).1
    rw [isDirty_remaining]
    rcases counted edge member table with dirty | weight
    · exact .inl dirty
    · refine (each edge member table).imp_right fun all => ?_
      exact weight.trans ((length_contributions_iff orgId cutoff db edge).mpr all).symm

theorem audit_iff (same : ∀ row ∈ db.rows, isDue orgId cutoff row = isExpired orgId cutoff row) :
    (remaining orgId cutoff db).filter isChangeRecord =
        (db.rows.filter isChangeRecord).map (schema.detach db.rows (isDue orgId cutoff)) ↔
      ∀ row ∈ db.rows, schema.pointsInto db.rows (isExpired orgId cutoff) row
        .harmonizationChangeRecordsRecordId = false := by
  have left := length_remaining_iff orgId cutoff db isChangeRecord .harmonizationChangeRecords
    .harmonizationChangeRecordsRecordId (fun _ record => of_decide_eq_true record) (by decide)
    (by decide) fun column keyed parent child => (key_of_child column keyed parent).2.1 child
  constructor
  · intro equal row member
    refine Bool.eq_false_iff.mpr fun into => ?_
    have record : isChangeRecord row = true := decide_eq_true (child_of_pointsInto into).symm
    have length := congrArg List.length equal
    rw [List.length_map] at length
    have stays := left.mp length row member record
    rw [into] at stays
    cases stays
  · intro free
    have length := left.mpr fun row member _ => free row member
    have all : (remaining orgId cutoff db).filter isChangeRecord = db.rows.filter isChangeRecord :=
      (List.filter_sublist.filter isChangeRecord).eq_of_length length
    rw [all]
    refine ((List.map_congr_left fun row kept => ?_).trans (List.map_id _)).symm
    refine (Schema.detach_eq_self_iff db.rows _ row).mpr fun column sets => ?_
    rw [schema.pointsInto_congr same]
    have only : column = .harmonizationChangeRecordsRecordId := by
      revert column
      refine Column.forall_of_all _ ?_
      decide
    rw [only]
    exact free row (List.mem_filter.mp kept).1

theorem noneNames_iff :
    (∀ row ∈ remaining orgId cutoff db, ∀ column,
        schema.pointsInto db.rows (isExpired orgId cutoff) row column = false) ↔
      ∀ row ∈ db.rows, ∀ column, schema.onDelete column = .unenforced →
        schema.pointsInto db.rows (isExpired orgId cutoff) row column = false := by
  constructor
  · intro none row member column free
    refine Bool.eq_false_iff.mpr fun into => ?_
    have child := child_of_pointsInto into
    have stays : ¬ IsRemoved orgId cutoff db.rows row := by
      refine not_isRemoved orgId cutoff db row ?_ fun key keyed parent => ?_
      · rw [← child]
        exact (child_of_unenforced column .entityRelationshipsSourceId free (by decide)
          (by decide)).2
      · rw [← child]
        exact (child_of_unenforced column key free keyed parent).1.symm
    rw [none row ((mem_remaining_iff orgId cutoff db row).mpr ⟨member, stays⟩) column] at into
    cases into
  · intro free row kept column
    obtain ⟨member, stays⟩ := (mem_remaining_iff orgId cutoff db row).mp kept
    by_cases keyed : schema.onDelete column = .unenforced
    · exact free row member column keyed
    · exact Bool.eq_false_iff.mpr fun into =>
        stays (isRemoved_of_column orgId cutoff db keyed into)

/-- A purge is exact, and leaves the store consistent, on these databases alone. -/
theorem purges_iff_isPurgeable :
    Purges orgId cutoff db.rows ↔ IsPurgeable orgId cutoff db.rows := by
  constructor
  · rintro ⟨counts, after, done, purged⟩
    have rows : after = remaining orgId cutoff db :=
      (purgeExpiredEntities_iff orgId cutoff db.rows after).mp ⟨counts, done⟩
    subst rows
    have dated := (exactly_iff orgId cutoff db).mp purged.exactly
    have same := isDue_eq_isExpired orgId cutoff dated
    refine ⟨dated, (noneNames_iff orgId cutoff db).mp fun row kept column => ?_,
      fun counted => (weightsCounted_iff orgId cutoff db counted).mp (purged.weights counted),
      (audit_iff orgId cutoff db same).mp purged.audit⟩
    rw [← schema.pointsInto_congr same]
    exact purged.noneNames row kept column
  · intro purgeable
    have same := isDue_eq_isExpired orgId cutoff purgeable.dated
    obtain ⟨counts, done⟩ := (purgeExpiredEntities_iff orgId cutoff db.rows _).mpr rfl
    refine ⟨counts, remaining orgId cutoff db, done,
      (exactly_iff orgId cutoff db).mpr purgeable.dated, fun row kept column => ?_,
      fun counted => (weightsCounted_iff orgId cutoff db counted).mpr (purgeable.counted counted),
      (audit_iff orgId cutoff db same).mpr purgeable.unaudited⟩
    rw [schema.pointsInto_congr same]
    exact (noneNames_iff orgId cutoff db).mpr purgeable.unnamed row kept column

end Exact

def harmonizedRows : List LifecycleRow :=
  [⟨.rawEntities, 1, some 7, fun _ => none, ⟨some 5, 0, 0, 0, "", 0⟩⟩,
    ⟨.harmonizationChangeRecords, 1, none, fun column =>
      if column = .harmonizationChangeRecordsRecordId then some 1 else none, ⟨none, 0, 0, 0, "", 0⟩⟩,
    ⟨.coauthorContributions, 0, some 7, fun column =>
      if column = .coauthorContributionsEntityId then some 1 else none,
      ⟨none, 0, 1, 2, "default", 0⟩⟩,
    ⟨.coauthorEdges, 0, some 7, fun _ => none, ⟨none, 0, 1, 2, "default", 1⟩⟩]

def harmonizedEntity : LifecycleDb := ⟨harmonizedRows, by decide⟩

/-- The audit row is deleted, and the edge keeps its weight without a contribution. -/
theorem harmonized_entity_not_purged : ¬ Purges 7 10 harmonizedEntity.rows := by
  rintro ⟨counts, after, done, purged⟩
  have none : (purgeExpiredEntities 7 10 harmonizedRows).map (fun result =>
      (result.2.filter isChangeRecord).length) = some 0 := by decide
  have here : purgeExpiredEntities 7 10 harmonizedRows = some (counts, after) := done
  rw [here, Option.map_some, Option.some.injEq, purged.audit, List.length_map] at none
  exact absurd none (by decide)

end Ukip.Lifecycle.Purge
