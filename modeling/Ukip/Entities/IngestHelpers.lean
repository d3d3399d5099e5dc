import Ukip.Entities.Table

/-!
# Duplicates in an import

`_dedup_before_insert` of `ingest_helpers.py` against the unique indexes of `raw_entities`.
The filter passes over rows whose canonical id or type is empty, as if they were NULL, and
without an organization it looks at the rows of all organizations.
-/

namespace Ukip.Entities.IngestHelpers

open Foundation.Relational Analytics.Corpus Table

abbrev Key := String × String × String

/-- `(row[0] or "", row[1], row[2])` of a row whose type and canonical id are not NULL. -/
def rowKey (row : RawEntity) : Option Key :=
  match row.entityType, row.canonicalId with
  | some entityType, some canonicalId => some (row.domain.getD "", entityType, canonicalId)
  | _, _ => none

/-- The key that the filter compares, where `cid and etype` holds. -/
def filterKey (row : RawEntity) : Option Key :=
  (rowKey row).filter fun key => key.2.1 ≠ "" && key.2.2 ≠ ""

def inQuery (orgId : Option Int) (row : RawEntity) : Bool := orgId == none || row.orgId == orgId

def existingKeys (table : EntityTable) (objects : List RawEntity) (orgId : Option Int) : List Key :=
  let candidateCids := objects.filterMap fun row => (filterKey row).map fun key => key.2.2
  ((table.rows.filter (inQuery orgId)).filterMap rowKey).filter fun key => key.2.2 ∈ candidateCids

structure Deduplication where
  seenInBatch : List Key
  kept : List RawEntity
  skipped : Nat

def dedupStep (existing : List Key) (state : Deduplication) (row : RawEntity) : Deduplication :=
  match filterKey row with
  | none => { state with kept := state.kept ++ [row] }
  | some key =>
    if key ∈ existing ∨ key ∈ state.seenInBatch then { state with skipped := state.skipped + 1 }
    else { state with seenInBatch := key :: state.seenInBatch, kept := state.kept ++ [row] }

def dedup (existing : List Key) (objects : List RawEntity) : Deduplication :=
  objects.foldl (dedupStep existing) ⟨[], [], 0⟩

def dedupBeforeInsert (table : EntityTable) (objects : List RawEntity) (orgId : Option Int) :
    List RawEntity × Nat :=
  if objects = [] then (objects, 0)
  else
    let state := dedup (existingKeys table objects orgId) objects
    (state.kept, state.skipped)

/-- The kept rows can be inserted, a row that adds nothing to them has the index key of a stored
row or of one kept before it, and no row without a canonical id is dropped. -/
structure ExactlyDeduplicated (table : EntityTable) (objects : List RawEntity)
    (orgId : Option Int) : Prop where
  insertable : (table.insertAll (dedupBeforeInsert table objects orgId).1).isSome
  duplicate : ∀ front row rest, objects = front ++ row :: rest →
    (dedup (existingKeys table objects orgId) (front ++ [row])).kept =
      (dedup (existingKeys table objects orgId) front).kept →
    (∃ stored ∈ table.rows, canonicalClash row stored = true) ∨
      ∃ earlier ∈ (dedup (existingKeys table objects orgId) front).kept,
        canonicalClash row earlier = true
  unidentified : ∀ row ∈ objects, row.canonicalId = none →
    row ∈ (dedupBeforeInsert table objects orgId).1

/-- Rows that the filter passes over do not violate the index by themselves, and a row that the
query finds elsewhere is also stored under the row's own organization and domain. -/
structure FilterFits (table : EntityTable) (objects : List RawEntity) (orgId : Option Int) : Prop where
  blankApart : (objects.filter fun row => filterKey row = none).Pairwise
    fun first second => canonicalClash first second = false
  blankFree : ∀ row ∈ objects, filterKey row = none → ∀ stored ∈ table.rows,
    canonicalClash row stored = false
  ownKeys : ∀ row ∈ objects, ∀ found ∈ table.rows, inQuery orgId found = true →
    (filterKey row).isSome → rowKey found = filterKey row →
    ∃ stored ∈ table.rows, canonicalClash row stored = true

variable {row other : RawEntity} {key : Key}

theorem dedupBeforeInsert_eq (table : EntityTable) (objects : List RawEntity) (orgId : Option Int) :
    (dedupBeforeInsert table objects orgId).1 =
      (dedup (existingKeys table objects orgId) objects).kept := by
  unfold dedupBeforeInsert
  split
  · next empty => rw [empty]; rfl
  · rfl

theorem canonicalKey_eq (named : row.domain.isSome) :
    canonicalKey row = (rowKey row).map fun key => (row.orgId, key) := by
  obtain ⟨domain, isDomain⟩ := Option.isSome_iff_exists.mp named
  unfold canonicalKey rowKey
  rw [isDomain]
  cases row.entityType <;> cases row.canonicalId <;> rfl

theorem named_of_clash (clash : canonicalClash row other = true) :
    row.domain.isSome ∧ other.domain.isSome := by
  rw [canonicalClash, Bool.and_eq_true, beq_iff_eq] at clash
  have named {row : RawEntity} (has : (canonicalKey row).isSome) : row.domain.isSome := by
    cases unnamed : row.domain with
    | none => simp [canonicalKey, unnamed] at has
    | some _ => rfl
  exact ⟨named clash.1, named (clash.2 ▸ clash.1)⟩

theorem clash_iff (named : row.domain.isSome) (otherNamed : other.domain.isSome) :
    canonicalClash row other = true ↔
      (rowKey row).isSome ∧ rowKey row = rowKey other ∧ row.orgId = other.orgId := by
  rw [canonicalClash, canonicalKey_eq named, canonicalKey_eq otherNamed, Bool.and_eq_true, beq_iff_eq]
  cases rowKey row <;> cases rowKey other <;> simp [and_comm]

theorem filterKey_eq_of_clash (clash : canonicalClash row other = true) :
    filterKey row = filterKey other := by
  obtain ⟨named, otherNamed⟩ := named_of_clash clash
  rw [filterKey, filterKey, ((clash_iff named otherNamed).mp clash).2.1]

theorem rowKey_of_filterKey (has : filterKey row = some key) : rowKey row = some key :=
  (Option.filter_eq_some_iff.mp has).1

theorem clash_of_filterKey (named : row.domain.isSome) (otherNamed : other.domain.isSome)
    (sameOrg : row.orgId = other.orgId) (has : filterKey row = some key)
    (otherHas : filterKey other = some key) : canonicalClash row other = true :=
  have here := rowKey_of_filterKey has
  (clash_iff named otherNamed).mpr
    ⟨by rw [here, Option.isSome_some], here.trans (rowKey_of_filterKey otherHas).symm, sameOrg⟩

theorem mem_existingKeys_iff (table : EntityTable) (orgId : Option Int) {objects : List RawEntity}
    (member : row ∈ objects) (has : filterKey row = some key) :
    key ∈ existingKeys table objects orgId ↔
      ∃ found ∈ table.rows, inQuery orgId found = true ∧ rowKey found = some key := by
  have candidate : key.2.2 ∈ objects.filterMap fun row => (filterKey row).map fun key => key.2.2 :=
    List.mem_filterMap.mpr ⟨row, member, by rw [has, Option.map_some]⟩
  rw [existingKeys, List.mem_filter, decide_eq_true candidate]
  simp only [and_true, List.mem_filterMap, List.mem_filter, and_assoc]

structure Sifted (existing : List Key) (objects : List RawEntity) (state : Deduplication) : Prop where
  seen : ∀ key, key ∈ state.seenInBatch ↔ ∃ row ∈ state.kept, filterKey row = some key
  fresh : ∀ row ∈ state.kept, ∀ key, filterKey row = some key → key ∉ existing
  apart : state.kept.Pairwise fun first second =>
    ∀ key, filterKey first = some key → filterKey second ≠ some key
  blank : (state.kept.filter fun row => filterKey row = none) =
    objects.filter fun row => filterKey row = none
  within : ∀ row ∈ state.kept, row ∈ objects

variable {existing : List Key} {objects : List RawEntity}

theorem dedup_concat (row : RawEntity) :
    dedup existing (objects ++ [row]) = dedupStep existing (dedup existing objects) row := by
  rw [dedup, List.foldl_append]
  rfl

theorem sifted (existing : List Key) (objects : List RawEntity) :
    Sifted existing objects (dedup existing objects) := by
  induction objects using List.reverseRecOn with
  | nil => exact ⟨by simp [dedup], by simp [dedup], by simp [dedup], rfl, by simp [dedup]⟩
  | append_singleton objects row ih =>
    have within : ∀ old ∈ (dedup existing objects).kept, old ∈ objects ++ [row] :=
      fun old member => List.mem_append_left _ (ih.within old member)
    rw [dedup_concat, dedupStep]
    cases has : filterKey row with
    | none =>
      refine ⟨fun key => ?_, ?_, ?_, ?_, ?_⟩
      · simp only [ih.seen key, List.mem_append, List.mem_singleton, or_and_right, exists_or,
          exists_eq_left, has, reduceCtorEq, or_false]
      · exact List.forall_mem_append.mpr ⟨ih.fresh, by simp [has]⟩
      · exact List.pairwise_append.mpr ⟨ih.apart, List.pairwise_singleton _ _, by simp [has]⟩
      · simp only [List.filter_append, ih.blank]
      · exact List.forall_mem_append.mpr ⟨within, by simp⟩
    | some key =>
      dsimp only
      split
      · exact ⟨ih.seen, ih.fresh, ih.apart, by simp [List.filter_append, ih.blank, has], within⟩
      · next new =>
          obtain ⟨notStored, notSeen⟩ := not_or.mp new
          refine ⟨fun other => ?_, ?_, ?_, ?_, ?_⟩
          · rw [List.mem_cons, ih.seen other, or_comm, eq_comm]
            simp only [List.mem_append, List.mem_singleton, or_and_right, exists_or,
              exists_eq_left, has, Option.some.injEq]
          · refine List.forall_mem_append.mpr ⟨ih.fresh, List.forall_mem_singleton.mpr ?_⟩
            rintro other isKey stored
            cases isKey.symm.trans has
            exact notStored stored
          · refine List.pairwise_append.mpr ⟨ih.apart, List.pairwise_singleton _ _, ?_⟩
            intro old oldIn last isLast other oldHas
            rw [List.mem_singleton.mp isLast, has]
            rintro ⟨⟩
            exact notSeen ((ih.seen key).mpr ⟨old, oldIn, oldHas⟩)
          · simp [List.filter_append, ih.blank, has]
          · exact List.forall_mem_append.mpr ⟨within, by simp⟩

theorem seen_of_skipped (skipped : (dedup existing (objects ++ [row])).kept =
    (dedup existing objects).kept) :
    ∃ key, filterKey row = some key ∧
      (key ∈ existing ∨ ∃ earlier ∈ (dedup existing objects).kept, filterKey earlier = some key) := by
  rw [dedup_concat, dedupStep] at skipped
  cases has : filterKey row with
  | none => simp [has] at skipped
  | some key =>
    simp only [has] at skipped
    split at skipped
    · next met => exact ⟨key, rfl, met.imp_right ((sifted existing objects).seen key).mp⟩
    · simp at skipped

theorem skipped_of_stored (has : filterKey row = some key) (stored : key ∈ existing) :
    (dedup existing (objects ++ [row])).kept = (dedup existing objects).kept := by
  rw [dedup_concat, dedupStep]
  simp [has, stored]

variable {table : EntityTable} {orgId : Option Int}

theorem insertable_iff (inScope : ∀ row ∈ objects, row.orgId = orgId) :
    (table.insertAll (dedup (existingKeys table objects orgId) objects).kept).isSome ↔
      (objects.filter fun row => filterKey row = none).Pairwise
        (fun first second => canonicalClash first second = false) ∧
      ∀ row ∈ objects, filterKey row = none → ∀ stored ∈ table.rows,
        canonicalClash row stored = false := by
  have state := sifted (existingKeys table objects orgId) objects
  rw [SerialTable.insertAll_isSome_iff, ← state.blank]
  have unlike {first second : RawEntity} {key : Key} (has : filterKey first = some key)
      (apart : filterKey second ≠ some key) : canonicalClash first second = false := by
    cases clash : canonicalClash first second with
    | false => rfl
    | true => exact absurd ((filterKey_eq_of_clash clash).symm.trans has) apart
  constructor
  · rintro ⟨apart, free⟩
    refine ⟨apart.sublist List.filter_sublist, fun row member blank => free row ?_⟩
    have inBlank : row ∈ objects.filter fun row => filterKey row = none :=
      List.mem_filter.mpr ⟨member, decide_eq_true blank⟩
    rw [← state.blank] at inBlank
    exact (List.mem_filter.mp inBlank).1
  · rintro ⟨blankApart, blankFree⟩
    constructor
    · refine ((List.pairwise_filter.mp blankApart).and state.apart).imp ?_
      rintro first second ⟨blank, checked⟩
      cases has : filterKey first with
      | some key => exact unlike has (checked key has)
      | none =>
        cases other : filterKey second with
        | none => exact blank (decide_eq_true has) (decide_eq_true other)
        | some key =>
          refine (canonicalClash_comm first second).trans ?_
          exact unlike other (by rw [has]; exact nofun)
    · intro row member stored storedIn
      cases has : filterKey row with
      | none => exact blankFree row (state.within row member) has stored storedIn
      | some key =>
        cases clash : canonicalClash row stored with
        | false => exact clash
        | true =>
          obtain ⟨rowNamed, storedNamed⟩ := named_of_clash clash
          obtain ⟨_, sameKey, sameOrg⟩ := (clash_iff rowNamed storedNamed).mp clash
          have inObjects := state.within row member
          refine absurd ((mem_existingKeys_iff table orgId inObjects has).mpr ⟨stored, storedIn, ?_, ?_⟩)
            (state.fresh row member key has)
          · simp [inQuery, ← sameOrg, inScope row inObjects]
          · exact sameKey.symm.trans (rowKey_of_filterKey has)

theorem exactly_deduplicated_iff (table : EntityTable) (objects : List RawEntity) (orgId : Option Int)
    (named : ∀ row ∈ objects, row.domain.isSome) (inScope : ∀ row ∈ objects, row.orgId = orgId) :
    ExactlyDeduplicated table objects orgId ↔ FilterFits table objects orgId := by
  have state := sifted (existingKeys table objects orgId) objects
  constructor
  · rintro ⟨insertable, duplicate, _⟩
    rw [dedupBeforeInsert_eq] at insertable
    obtain ⟨blankApart, blankFree⟩ := (insertable_iff inScope).mp insertable
    refine ⟨blankApart, blankFree, fun row member found foundIn queried identified sameKey => ?_⟩
    obtain ⟨key, has⟩ := Option.isSome_iff_exists.mp identified
    have stored := (mem_existingKeys_iff table orgId member has).mpr
      ⟨found, foundIn, queried, sameKey.trans has⟩
    obtain ⟨front, rest, rfl⟩ := List.append_of_mem member
    rcases duplicate front row rest rfl (skipped_of_stored has stored) with own | ⟨earlier, kept, clash⟩
    · exact own
    · exact absurd stored ((sifted _ front).fresh earlier kept key
        ((filterKey_eq_of_clash clash).symm.trans has))
  · rintro ⟨blankApart, blankFree, ownKeys⟩
    refine ⟨?_, ?_, ?_⟩
    · rw [dedupBeforeInsert_eq]
      exact (insertable_iff inScope).mpr ⟨blankApart, blankFree⟩
    · rintro front row rest rfl skipped
      have member : row ∈ front ++ row :: rest := List.mem_append_right _ List.mem_cons_self
      obtain ⟨key, has, stored | ⟨earlier, kept, earlierHas⟩⟩ := seen_of_skipped skipped
      · obtain ⟨found, foundIn, queried, sameKey⟩ :=
          (mem_existingKeys_iff table orgId member has).mp stored
        exact .inl (ownKeys row member found foundIn queried (by rw [has, Option.isSome_some])
          (sameKey.trans has.symm))
      · have earlierIn : earlier ∈ front ++ row :: rest :=
          List.mem_append_left _ ((sifted _ front).within earlier kept)
        exact .inr ⟨earlier, kept, clash_of_filterKey (named row member) (named earlier earlierIn)
          ((inScope row member).trans (inScope earlier earlierIn).symm) has earlierHas⟩
    · intro row member missing
      rw [dedupBeforeInsert_eq]
      have blank : filterKey row = none := by simp [filterKey, rowKey, missing]
      have inBlank : row ∈ objects.filter fun row => filterKey row = none :=
        List.mem_filter.mpr ⟨member, decide_eq_true blank⟩
      rw [← state.blank] at inBlank
      exact (List.mem_filter.mp inBlank).1

def importedPaper (id : Nat) (orgId : Option Int) : RawEntity where
  id := id
  orgId := orgId
  domain := some "science"
  entityType := some "publication"
  canonicalId := some "10.1000/1"
  attributesJson := none
  validationStatus := none
  enrichmentCitationCount := none
  enrichmentStatus := none
  source := none

def storedPaper : EntityTable where
  rows := [importedPaper 1 (some 7)]
  nextKey := 2
  key_lt := by decide
  distinct := by decide
  unclashing := by decide

theorem own_paper_fits : ExactlyDeduplicated storedPaper [importedPaper 0 (some 7)] (some 7) ↔
    FilterFits storedPaper [importedPaper 0 (some 7)] (some 7) :=
  exactly_deduplicated_iff _ _ _ (by decide) (by decide)

theorem foreign_paper_dropped : ¬ExactlyDeduplicated storedPaper [importedPaper 0 none] none := by
  intro exact_
  rcases exact_.duplicate [] _ [] rfl (by decide) with ⟨stored, member, clash⟩ | ⟨_, kept, _⟩
  · obtain rfl := List.mem_singleton.mp member
    exact absurd clash (by decide)
  · exact nomatch kept

end Ukip.Entities.IngestHelpers
