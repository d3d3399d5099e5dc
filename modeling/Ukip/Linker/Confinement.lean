import Ukip.Foundation.Separated
import Ukip.Linker.EntityLinker

/-!
# Tenant isolation of the entity linker

No operation of the linker looks at an organization.  A request stays within the
organization of its user exactly where its own checks stop it, or where all the rows
that it reaches happen to be that organization's.
-/

namespace Ukip.Linker.Confinement

open Foundation.Relational Foundation.Separated Foundation.Tally Analytics.Corpus Entities.Table
open EntityLinker Tenancy.Access

def isOwn (orgId : Nat) (row : RawEntity) : Bool := row.orgId == some (orgId : Int)

def ownEntity (orgId : Nat) (db : LinkerDb) (entityId : Int) : Bool :=
  db.entities.rows.any fun row => isOwn orgId row && (row.id : Int) == entityId

def ownRelationship (orgId : Nat) (relationship : EntityRelationship) : Bool :=
  relationship.orgId == some (orgId : Int)

/-- `link_dismissals` has no organization: a dismissal belongs to that of its two
entities. -/
def ownDismissal (orgId : Nat) (db : LinkerDb) (dismissal : LinkDismissal) : Bool :=
  ownEntity orgId db dismissal.entityAId && ownEntity orgId db dismissal.entityBId

/-- Two databases with the same rows of an organization, which give the next dismissal
the same id. -/
structure AgreeOn (orgId : Nat) (first second : LinkerDb) : Prop where
  entities : first.entities.rows.filter (isOwn orgId) = second.entities.rows.filter (isOwn orgId)
  relationships : first.relationships.filter (ownRelationship orgId) =
    second.relationships.filter (ownRelationship orgId)
  dismissals : first.dismissals.rows.filter (ownDismissal orgId first) =
    second.dismissals.rows.filter (ownDismissal orgId second)
  nextDismissal : first.dismissals.nextKey = second.dismissals.nextKey

/-- The rows outside the organization are the same before and after. -/
structure OthersUntouched (orgId : Nat) (before after : LinkerDb) : Prop where
  entities : (after.entities.rows.filter fun row => !isOwn orgId row) =
    before.entities.rows.filter fun row => !isOwn orgId row
  relationships : (after.relationships.filter fun row => !ownRelationship orgId row) =
    before.relationships.filter fun row => !ownRelationship orgId row
  dismissals : (after.dismissals.rows.filter fun row => !ownDismissal orgId before row) =
    before.dismissals.rows.filter fun row => !ownDismissal orgId before row

/-- The answer is the same over every database with the organization's rows, and no row
outside it changes. -/
def Isolated (fuzz : Fuzz) (orgId : Nat) (db : LinkerDb) (userId : Nat) (role : Role)
    (request : LinkerRequest) : Prop :=
  (∀ other, AgreeOn orgId db other →
    (respond fuzz other ⟨userId, role, some orgId⟩ request).1 =
      (respond fuzz db ⟨userId, role, some orgId⟩ request).1) ∧
  OthersUntouched orgId db (respond fuzz db ⟨userId, role, some orgId⟩ request).2

/-- The winner's new columns are taken by another row. -/
def MergeClashes (db : LinkerDb) (winnerId loserId : Int) : Prop :=
  ∃ winner loser, entityById db winnerId = some winner ∧ entityById db loserId = some loser ∧
    ∃ row ∈ db.entities.rows, row.id ≠ winner.id ∧ canonicalClash (absorb winner loser) row = true

/-- The request is refused by its own checks, whatever is stored, or it names entities of
the organization only; a merge must also fail, or leave every relationship outside the
organization its entities. -/
def Confined (orgId : Nat) (db : LinkerDb) (role : Role) : LinkerRequest → Prop
  | .candidates threshold limit => withinBounds threshold limit = false
  | .merge winnerId loserId =>
    mayEdit role = false ∨ winnerId = loserId ∨ winnerId < 0 ∨
      (ownEntity orgId db winnerId = true ∧
        (loserId < 0 ∨
          (ownEntity orgId db loserId = true ∧
            ((∀ row ∈ db.relationships, ownRelationship orgId row = false →
                row.touches loserId.toNat = false) ∨
              MergeClashes db winnerId loserId))))
  | .dismiss entityAId entityBId =>
    mayEdit role = false ∨
      (ownEntity orgId db entityAId = true ∧ ownEntity orgId db entityBId = true)

theorem entityById_eq_some_iff (db : LinkerDb) (entityId : Int) (row : RawEntity) :
    entityById db entityId = some row ↔ row ∈ db.entities.rows ∧ (row.id : Int) = entityId := by
  constructor
  · intro found
    exact ⟨List.mem_of_find?_eq_some found, by simpa using List.find?_some found⟩
  · rintro ⟨member, rfl⟩
    cases found : entityById db row.id with
    | none =>
      have absent := List.find?_eq_none.mp found row member
      simp at absent
    | some other =>
      have matching := List.find?_some found
      have sameId : other.id = row.id := Int.ofNat_inj.mp (beq_iff_eq.mp matching)
      rw [db.entities.eq_of_key_eq (List.mem_of_find?_eq_some found) member sameId]

theorem ownEntity_iff (orgId : Nat) (db : LinkerDb) (entityId : Int) :
    ownEntity orgId db entityId = true ↔
      ∃ row ∈ db.entities.rows.filter (isOwn orgId), (row.id : Int) = entityId := by
  simp [ownEntity, List.any_eq_true, and_assoc]

variable {orgId : Nat} {first second : LinkerDb}

theorem ownEntity_of_agree (agree : AgreeOn orgId first second) :
    ownEntity orgId first = ownEntity orgId second := by
  funext entityId
  rw [Bool.eq_iff_iff, ownEntity_iff, ownEntity_iff, agree.entities]

variable {db : LinkerDb}

theorem entityById_own {entityId : Int} (own : ownEntity orgId db entityId = true) :
    ∃ row, isOwn orgId row = true ∧ entityById db entityId = some row ∧
      ∀ other, AgreeOn orgId db other → entityById other entityId = some row := by
  obtain ⟨row, member, rfl⟩ := (ownEntity_iff orgId db entityId).mp own
  refine ⟨row, (List.mem_filter.mp member).2,
    (entityById_eq_some_iff db _ row).mpr ⟨(List.mem_filter.mp member).1, rfl⟩, ?_⟩
  intro other agree
  rw [agree.entities] at member
  exact (entityById_eq_some_iff other _ row).mpr ⟨(List.mem_filter.mp member).1, rfl⟩

theorem entityById_negative (db : LinkerDb) (entityId : Int) (negative : entityId < 0) :
    entityById db entityId = none := by
  cases found : entityById db entityId with
  | none => rfl
  | some row =>
    have := ((entityById_eq_some_iff db entityId row).mp found).2
    omega

theorem untouched_refl (orgId : Nat) (db : LinkerDb) : OthersUntouched orgId db db := ⟨rfl, rfl, rfl⟩

theorem flushMerge_eq_none_iff (db : LinkerDb) (userId : Nat) (winner loser : RawEntity)
    (member : winner ∈ db.entities.rows) :
    flushMerge db userId winner loser = none ↔
      ∃ row ∈ db.entities.rows, row.id ≠ winner.id ∧
        canonicalClash (absorb winner loser) row = true := by
  rw [flushMerge, Option.map_eq_none_iff]
  exact db.entities.updateChecked_eq_none_iff (absorbing loser) winner member

theorem flushMerge_none_of_agree (agree : AgreeOn orgId first second) (userId : Nat)
    {winner : RawEntity} (loser : RawEntity) (own : isOwn orgId winner = true)
    (member : winner ∈ first.entities.rows) (otherMember : winner ∈ second.entities.rows) :
    flushMerge first userId winner loser = none → flushMerge second userId winner loser = none := by
  rw [flushMerge_eq_none_iff first userId winner loser member,
    flushMerge_eq_none_iff second userId winner loser otherMember]
  rintro ⟨row, rowMember, different, clashes⟩
  have rowOwn : isOwn orgId row = true := by
    have same : (absorb winner loser).orgId = row.orgId := orgId_of_clash clashes
    rw [isOwn, ← same]
    exact own
  have inSecond : row ∈ second.entities.rows.filter (isOwn orgId) := by
    rw [← agree.entities]
    exact List.mem_filter.mpr ⟨rowMember, rowOwn⟩
  exact ⟨row, (List.mem_filter.mp inSecond).1, different, clashes⟩

theorem AgreeOn.symm (agree : AgreeOn orgId first second) : AgreeOn orgId second first :=
  ⟨agree.entities.symm, agree.relationships.symm, agree.dismissals.symm, agree.nextDismissal.symm⟩

theorem untouched_of_flush (orgId : Nat) (db after : LinkerDb) (userId : Nat)
    (winner loser : RawEntity) (winnerOwn : isOwn orgId winner = true)
    (loserOwn : isOwn orgId loser = true) (winnerMember : winner ∈ db.entities.rows)
    (loserMember : loser ∈ db.entities.rows)
    (noRelationship : ∀ row ∈ db.relationships, ownRelationship orgId row = false →
      row.touches loser.id = false)
    (flushed : flushMerge db userId winner loser = some after) : OthersUntouched orgId db after := by
  obtain ⟨updated, updates, rfl⟩ := Option.map_eq_some_iff.mp flushed
  refine ⟨?_, ?_, rfl⟩
  · change ((updated.rows.filter _).filter _) = _
    rw [SerialTable.rows_updateChecked updates]
    apply SerialTable.filter_outside
    · intro row member outside
      have notWinner : row.id ≠ winner.id := by
        intro same
        rw [db.entities.eq_of_key_eq member winnerMember same, winnerOwn] at outside
        cases outside
      have notLoser : row.id ≠ loser.id := by
        intro same
        rw [db.entities.eq_of_key_eq member loserMember same, loserOwn] at outside
        cases outside
      exact ⟨if_neg (by simpa [entitySchema] using notWinner), by simpa using notLoser⟩
    · intro row member inside
      unfold Assignment.onRow
      split
      · exact inside
      · exact inside
  · change ((db.relationships.filter _).filter _) = _
    rw [List.filter_filter]
    apply List.filter_congr
    intro row member
    cases out : ownRelationship orgId row with
    | true => rfl
    | false => rw [noRelationship row member out]; rfl

theorem AgreeOn.refl (orgId : Nat) (db : LinkerDb) : AgreeOn orgId db db := ⟨rfl, rfl, rfl, rfl⟩

variable (fuzz : Fuzz)

theorem isolated_of_stopped (orgId : Nat) (db : LinkerDb) (userId : Nat) (role : Role)
    (request : LinkerRequest) (answer : Answer) (stopped : ∀ other, AgreeOn orgId db other →
      respond fuzz other ⟨userId, role, some orgId⟩ request = (answer, other)) :
    Isolated fuzz orgId db userId role request := by
  have here := stopped db (AgreeOn.refl orgId db)
  constructor
  · intro other agree
    rw [stopped other agree, here]
  · rw [here]
    exact untouched_refl orgId db

theorem mergeEntities_found (db : LinkerDb) (user : User) (winnerId loserId : Int)
    (allowed : mayEdit user.role = true) (differ : winnerId ≠ loserId) (winner : RawEntity)
    (found : entityById db winnerId = some winner) :
    mergeEntities db user winnerId loserId =
      match entityById db loserId with
      | none => (.failed (entityNotFound loserId), db)
      | some loser =>
        match flushMerge db user.id winner loser with
        | none => (.failed internalServerError, db)
        | some after => (.merged (absorb winner loser), after) := by
  unfold mergeEntities
  rw [if_neg (by simp [allowed]), if_neg differ]
  cases lost : entityById db loserId with
  | none => simp only [found]
  | some loser => cases merged : flushMerge db user.id winner loser <;> simp only [found, merged]

theorem merge_own_isolated (orgId : Nat) (db : LinkerDb) (userId : Nat) (role : Role)
    (winnerId loserId : Int) (allowed : mayEdit role = true) (differ : winnerId ≠ loserId)
    (winnerOwn : ownEntity orgId db winnerId = true) (loserOwn : ownEntity orgId db loserId = true)
    (outcome : (∀ row ∈ db.relationships, ownRelationship orgId row = false →
      row.touches loserId.toNat = false) ∨ MergeClashes db winnerId loserId) :
    Isolated fuzz orgId db userId role (.merge winnerId loserId) := by
  obtain ⟨winner, isWinner, found, foundElsewhere⟩ := entityById_own winnerOwn
  obtain ⟨loser, isLoser, loserFound, loserElsewhere⟩ := entityById_own loserOwn
  have winnerMember := ((entityById_eq_some_iff db winnerId winner).mp found).1
  obtain ⟨loserMember, loserIs⟩ := (entityById_eq_some_iff db loserId loser).mp loserFound
  have here := mergeEntities_found db ⟨userId, role, some orgId⟩ winnerId loserId allowed differ
    winner found
  simp only [loserFound] at here
  constructor
  · intro other agree
    have otherMember := ((entityById_eq_some_iff other winnerId winner).mp
      (foundElsewhere other agree)).1
    have elsewhere := mergeEntities_found other ⟨userId, role, some orgId⟩ winnerId loserId
      allowed differ winner (foundElsewhere other agree)
    simp only [loserElsewhere other agree] at elsewhere
    have into := flushMerge_none_of_agree agree userId loser isWinner
      winnerMember otherMember
    have back := flushMerge_none_of_agree agree.symm userId loser isWinner
      otherMember winnerMember
    change (mergeEntities other _ winnerId loserId).1 = (mergeEntities db _ winnerId loserId).1
    rw [here, elsewhere]
    cases flushed : flushMerge db userId winner loser with
    | none => rw [into flushed]
    | some after =>
      cases otherFlushed : flushMerge other userId winner loser with
      | none =>
        rw [back otherFlushed] at flushed
        cases flushed
      | some otherAfter => rfl
  · change OthersUntouched orgId db (mergeEntities db _ winnerId loserId).2
    rw [here]
    cases flushed : flushMerge db userId winner loser with
    | none => exact untouched_refl orgId db
    | some after =>
      rcases outcome with noRelationship | ⟨clashing, losing, first, second, clash⟩
      · have sameId : loserId.toNat = loser.id := by omega
        rw [sameId] at noRelationship
        exact untouched_of_flush orgId db after userId winner loser isWinner isLoser
          winnerMember loserMember noRelationship flushed
      · rw [found] at first
        rw [loserFound] at second
        cases first
        cases second
        rw [(flushMerge_eq_none_iff db userId winner loser winnerMember).mpr clash] at flushed
        cases flushed

theorem merge_isolated (orgId : Nat) (db : LinkerDb) (userId : Nat) (role : Role)
    (winnerId loserId : Int) (confined : Confined orgId db role (.merge winnerId loserId)) :
    Isolated fuzz orgId db userId role (.merge winnerId loserId) := by
  cases allowed : mayEdit role with
  | false =>
    apply isolated_of_stopped fuzz orgId db userId role _ (.failed (roleRefused role))
    intro other _
    simp [respond, mergeEntities, allowed]
  | true =>
    by_cases differ : winnerId = loserId
    · apply isolated_of_stopped fuzz orgId db userId role _ (.failed idsMustDiffer)
      intro other _
      simp [respond, mergeEntities, allowed, differ]
    · rcases confined with refused | same | negative | ⟨winnerOwn, negative | ⟨loserOwn, outcome⟩⟩
      · rw [refused] at allowed
        cases allowed
      · exact absurd same differ
      · apply isolated_of_stopped fuzz orgId db userId role _ (.failed (entityNotFound winnerId))
        intro other _
        simp [respond, mergeEntities, allowed, differ, entityById_negative other winnerId negative]
      · obtain ⟨winner, _, _, foundElsewhere⟩ := entityById_own winnerOwn
        apply isolated_of_stopped fuzz orgId db userId role _ (.failed (entityNotFound loserId))
        intro other agree
        simp [respond, mergeEntities, allowed, differ, foundElsewhere other agree,
          entityById_negative other loserId negative]
      · exact merge_own_isolated fuzz orgId db userId role winnerId loserId allowed differ
          winnerOwn loserOwn outcome

theorem dismissed_own (agree : AgreeOn orgId first second) (pair : Int × Int)
    (firstOwn : ownEntity orgId first pair.1 = true)
    (secondOwn : ownEntity orgId first pair.2 = true) :
    (second.dismissals.rows.find? fun row => (row.entityAId, row.entityBId) == pair) =
      first.dismissals.rows.find? fun row => (row.entityAId, row.entityBId) == pair := by
  have among : ∀ db : LinkerDb, ownEntity orgId db = ownEntity orgId first →
      (db.dismissals.rows.find? fun row => (row.entityAId, row.entityBId) == pair) =
        (db.dismissals.rows.filter (ownDismissal orgId db)).find?
          fun row => (row.entityAId, row.entityBId) == pair := by
    intro db same
    rw [List.find?_filter]
    congr 1
    funext row
    by_cases matching : (row.entityAId, row.entityBId) = pair
    · subst matching
      simp [ownDismissal, same, firstOwn, secondOwn]
    · simp [matching]
  rw [among second (ownEntity_of_agree agree).symm, among first rfl, agree.dismissals]

theorem dismiss_isolated (orgId : Nat) (db : LinkerDb) (userId : Nat) (role : Role)
    (entityAId entityBId : Int) (confined : Confined orgId db role (.dismiss entityAId entityBId)) :
    Isolated fuzz orgId db userId role (.dismiss entityAId entityBId) := by
  cases allowed : mayEdit role with
  | false =>
    apply isolated_of_stopped fuzz orgId db userId role _ (.failed (roleRefused role))
    intro other _
    simp [respond, dismissPair, allowed]
  | true =>
    rcases confined with refused | ⟨firstOwn, secondOwn⟩
    · rw [refused] at allowed
      cases allowed
    · have pairOwn : ownEntity orgId db (pairKey entityAId entityBId).1 = true ∧
          ownEntity orgId db (pairKey entityAId entityBId).2 = true := by
        unfold pairKey
        rcases Int.le_total entityAId entityBId with ordered | ordered
        · rw [Int.min_eq_left ordered, Int.max_eq_right ordered]
          exact ⟨firstOwn, secondOwn⟩
        · rw [Int.min_eq_right ordered, Int.max_eq_left ordered]
          exact ⟨secondOwn, firstOwn⟩
      constructor
      · intro other agree
        have sameLookup := dismissed_own agree _ pairOwn.1 pairOwn.2
        simp only [respond, dismissPair, allowed, Bool.not_true, Bool.false_eq_true, if_false,
          sameLookup]
        split
        · rfl
        · rw [agree.nextDismissal]
      · simp only [respond, dismissPair, allowed, Bool.not_true, Bool.false_eq_true, if_false]
        split
        · exact untouched_refl orgId db
        · refine ⟨rfl, rfl, ?_⟩
          have inserted : ownDismissal orgId db
              ⟨db.dismissals.nextKey, (pairKey entityAId entityBId).1,
                (pairKey entityAId entityBId).2⟩ = true := by
            rw [ownDismissal, pairOwn.1, pairOwn.2, Bool.and_self]
          simp [SerialTable.append, SerialTable.keyed, dismissalSchema, inserted]

def ownPart (orgId : Nat) (db : LinkerDb) : LinkerDb where
  entities := db.entities.deleteWhere fun row => !isOwn orgId row
  relationships := db.relationships.filter (ownRelationship orgId)
  dismissals := db.dismissals.deleteWhere fun row => !ownDismissal orgId db row
  audit := []

def foreignEntity (orgId id : Nat) : RawEntity where
  id := id
  orgId := some ((orgId + 1 : Nat) : Int)
  domain := none
  primaryLabel := some "twin"
  attributesJson := none
  validationStatus := some "pending"
  enrichmentCitationCount := none
  enrichmentStatus := some "none"
  source := none

theorem foreignEntity_not_own (orgId id : Nat) : isOwn orgId (foreignEntity orgId id) = false := by
  simp [isOwn, foreignEntity]

/-- Ids that no entity of the organization has. -/
structure ForeignIds (orgId : Nat) (db : LinkerDb) where
  ids : List Nat
  bound : Nat
  bounded : ∀ id ∈ ids, id < bound
  nodup : ids.Nodup
  unused : ∀ id ∈ ids, ownEntity orgId db id = false

def ForeignIds.one (id : Nat) (foreign : ownEntity orgId db id = false) : ForeignIds orgId db where
  ids := [id]
  bound := id + 1
  bounded := by simp
  nodup := by simp
  unused := by simpa using foreign

/-- As many as one scan takes. -/
def ForeignIds.scan (start : Nat) (large : db.entities.nextKey ≤ start) : ForeignIds orgId db where
  ids := List.range' start scanLimit
  bound := start + scanLimit
  bounded := fun _ member => (List.mem_range'_1.mp member).2
  nodup := List.nodup_range'
  unused := by
    intro id member
    rw [← Bool.not_eq_true]
    intro own
    obtain ⟨row, rowMember, sameId⟩ := (ownEntity_iff orgId db id).mp own
    have below : row.id < db.entities.nextKey :=
      db.entities.key_lt row (List.mem_filter.mp rowMember).1
    have above := (List.mem_range'_1.mp member).1
    omega

variable (foreign : ForeignIds orgId db)

theorem ForeignIds.not_mem (row : RawEntity) (member : row ∈ (ownPart orgId db).entities.rows) :
    row.id ∉ foreign.ids := by
  intro isForeign
  obtain ⟨stored, kept⟩ := (SerialTable.mem_deleteWhere _ _ row).mp member
  have own : ownEntity orgId db row.id = true := (ownEntity_iff orgId db row.id).mpr
    ⟨row, List.mem_filter.mpr ⟨stored, by simpa using kept⟩, rfl⟩
  rw [foreign.unused row.id isForeign] at own
  cases own

def prepended : EntityTable where
  rows := foreign.ids.map (foreignEntity orgId) ++ (ownPart orgId db).entities.rows
  nextKey := (ownPart orgId db).entities.nextKey + foreign.bound
  key_lt := by
    intro row member
    rcases List.mem_append.mp member with new | old
    · obtain ⟨id, idMember, rfl⟩ := List.mem_map.mp new
      have below := foreign.bounded id idMember
      change id < _
      omega
    · have below := (ownPart orgId db).entities.key_lt row old
      omega
  distinct := by
    rw [List.pairwise_append, List.pairwise_map]
    refine ⟨foreign.nodup, (ownPart orgId db).entities.distinct, ?_⟩
    intro row member other otherMember same
    obtain ⟨id, idMember, rfl⟩ := List.mem_map.mp member
    have sameId : id = other.id := same
    exact foreign.not_mem other otherMember (sameId ▸ idMember)
  unclashing := by
    rw [List.pairwise_append, List.pairwise_map]
    refine ⟨?_, (ownPart orgId db).entities.unclashing, ?_⟩
    · refine foreign.nodup.imp ?_
      intro first second _
      exact no_clash_of_no_canonicalId (foreignEntity orgId first) (foreignEntity orgId second) rfl
    · intro row member other _
      obtain ⟨id, _, rfl⟩ := List.mem_map.mp member
      exact no_clash_of_no_canonicalId (foreignEntity orgId id) other rfl

/-- The organization's rows, after other organizations' entities with ids it does not use. -/
def withForeign : LinkerDb := { ownPart orgId db with entities := prepended foreign }

theorem ownPart_entities (orgId : Nat) (db : LinkerDb) :
    (ownPart orgId db).entities.rows.filter (isOwn orgId) =
      db.entities.rows.filter (isOwn orgId) := by
  simp [ownPart, SerialTable.deleteWhere, List.filter_filter]

theorem agree_of_entities (orgId : Nat) (db other : LinkerDb)
    (entities : other.entities.rows.filter (isOwn orgId) = db.entities.rows.filter (isOwn orgId))
    (relationships : other.relationships = (ownPart orgId db).relationships)
    (dismissals : other.dismissals = (ownPart orgId db).dismissals) : AgreeOn orgId db other := by
  have sameOwn : ownEntity orgId other = ownEntity orgId db := by
    funext entityId
    rw [Bool.eq_iff_iff, ownEntity_iff, ownEntity_iff, entities]
  have sameDismissal : ownDismissal orgId other = ownDismissal orgId db := by
    funext row
    rw [ownDismissal, ownDismissal, sameOwn]
  refine ⟨entities.symm, ?_, ?_, ?_⟩
  · rw [relationships]
    simp [ownPart, List.filter_filter]
  · rw [dismissals, sameDismissal]
    simp [ownPart, SerialTable.deleteWhere, List.filter_filter]
  · rw [dismissals]
    rfl

theorem agree_ownPart (orgId : Nat) (db : LinkerDb) : AgreeOn orgId db (ownPart orgId db) :=
  agree_of_entities orgId db _ (ownPart_entities orgId db) rfl rfl

theorem agree_withForeign : AgreeOn orgId db (withForeign foreign) := by
  refine agree_of_entities orgId db _ ?_ rfl rfl
  rw [← ownPart_entities orgId db]
  change ((foreign.ids.map (foreignEntity orgId) ++ _).filter (isOwn orgId)) = _
  rw [List.filter_append, List.filter_eq_nil_iff.mpr, List.nil_append]
  intro row member
  obtain ⟨id, _, rfl⟩ := List.mem_map.mp member
  rw [foreignEntity_not_own]
  decide

theorem entityById_ownPart (orgId : Nat) (db : LinkerDb) (entityId : Int)
    (foreign : ownEntity orgId db entityId = false) :
    entityById (ownPart orgId db) entityId = none := by
  cases found : entityById (ownPart orgId db) entityId with
  | none => rfl
  | some row =>
    obtain ⟨member, sameId⟩ := (entityById_eq_some_iff _ entityId row).mp found
    obtain ⟨stored, kept⟩ := (SerialTable.mem_deleteWhere _ _ row).mp member
    have own : ownEntity orgId db entityId = true := (ownEntity_iff orgId db entityId).mpr
      ⟨row, List.mem_filter.mpr ⟨stored, by simpa using kept⟩, sameId⟩
    rw [own] at foreign
    cases foreign

theorem entityById_withForeign (id : Nat) (member : id ∈ foreign.ids) :
    entityById (withForeign foreign) id = some (foreignEntity orgId id) :=
  (entityById_eq_some_iff _ _ _).mpr
    ⟨List.mem_append_left _ (List.mem_map_of_mem member), rfl⟩

theorem entityNotFound_injective {first second : Int}
    (same : entityNotFound first = entityNotFound second) : first = second := by
  have texts := congrArg String.toList (congrArg HttpError.detail same)
  simp only [entityNotFound, String.toList_append] at texts
  have numbers := List.append_cancel_left (List.append_cancel_right texts)
  exact toString_int_injective (String.toList_injective numbers)

theorem notFound_ne_internal (entityId : Int) :
    Answer.failed (entityNotFound entityId) ≠ .failed internalServerError := by
  intro same
  have codes := congrArg HttpError.statusCode (Answer.failed.inj same)
  cases codes

theorem merge_found_both (db : LinkerDb) (user : User) (winnerId loserId entityId : Int)
    (allowed : mayEdit user.role = true) (differ : winnerId ≠ loserId) (winner loser : RawEntity)
    (found : entityById db winnerId = some winner) (loserFound : entityById db loserId = some loser) :
    (mergeEntities db user winnerId loserId).1 ≠ .failed (entityNotFound entityId) := by
  rw [mergeEntities_found db user winnerId loserId allowed differ winner found]
  simp only [loserFound]
  cases flushMerge db user.id winner loser with
  | none => exact (notFound_ne_internal entityId).symm
  | some after => exact nofun

theorem merge_found_winner (db : LinkerDb) (user : User) (winnerId loserId : Int)
    (allowed : mayEdit user.role = true) (differ : winnerId ≠ loserId) (winner : RawEntity)
    (found : entityById db winnerId = some winner) :
    (mergeEntities db user winnerId loserId).1 ≠ .failed (entityNotFound winnerId) := by
  cases loserFound : entityById db loserId with
  | some loser =>
    exact merge_found_both db user winnerId loserId winnerId allowed differ winner loser found
      loserFound
  | none =>
    rw [mergeEntities_found db user winnerId loserId allowed differ winner found]
    simp only [loserFound]
    intro same
    exact differ (entityNotFound_injective (Answer.failed.inj same)).symm

variable {winnerId loserId : Int} {userId : Nat} {fuzz : Fuzz} {role : Role}

section

variable (isolated : Isolated fuzz orgId db userId role (.merge winnerId loserId))

include isolated

theorem merge_answers_equal :
    (mergeEntities (withForeign foreign) ⟨userId, role, some orgId⟩ winnerId loserId).1 =
      (mergeEntities (ownPart orgId db) ⟨userId, role, some orgId⟩ winnerId loserId).1 := by
  have more := isolated.1 _ (agree_withForeign foreign)
  have less := isolated.1 _ (agree_ownPart orgId db)
  exact more.trans less.symm

theorem winner_own_of_isolated (allowed : mayEdit role = true) (differ : winnerId ≠ loserId)
    (stored : 0 ≤ winnerId) :
    ownEntity orgId db winnerId = true := by
  cases own : ownEntity orgId db winnerId with
  | true => rfl
  | false =>
    obtain ⟨id, rfl⟩ := Int.eq_ofNat_of_zero_le stored
    have equal := merge_answers_equal (.one id own) isolated
    have missing : (mergeEntities (ownPart orgId db) ⟨userId, role, some orgId⟩ id loserId).1 =
        .failed (entityNotFound id) := by
      simp only [mergeEntities, allowed, Bool.not_true, Bool.false_eq_true, if_false,
        if_neg differ, entityById_ownPart orgId db id own]
    rw [missing] at equal
    exact absurd equal (merge_found_winner _ ⟨userId, role, some orgId⟩ id loserId allowed differ _
      (entityById_withForeign (.one id own) id List.mem_cons_self))

theorem loser_own_of_isolated (allowed : mayEdit role = true) (differ : winnerId ≠ loserId)
    (winnerOwn : ownEntity orgId db winnerId = true) (stored : 0 ≤ loserId) :
    ownEntity orgId db loserId = true := by
  cases own : ownEntity orgId db loserId with
  | true => rfl
  | false =>
    obtain ⟨id, rfl⟩ := Int.eq_ofNat_of_zero_le stored
    obtain ⟨winner, _, _, foundElsewhere⟩ := entityById_own winnerOwn
    have equal := merge_answers_equal (.one id own) isolated
    have missing :
        (mergeEntities (ownPart orgId db) ⟨userId, role, some orgId⟩ winnerId id).1 =
          .failed (entityNotFound id) := by
      simp only [mergeEntities, allowed, Bool.not_true, Bool.false_eq_true, if_false,
        if_neg differ, foundElsewhere _ (agree_ownPart orgId db),
        entityById_ownPart orgId db id own]
    rw [missing] at equal
    exact absurd equal (merge_found_both _ ⟨userId, role, some orgId⟩ winnerId id id allowed differ
      winner _ (foundElsewhere _ (agree_withForeign (.one id own)))
      (entityById_withForeign (.one id own) id List.mem_cons_self))

theorem relationships_kept_of_isolated (allowed : mayEdit role = true) (differ : winnerId ≠ loserId)
    (winnerOwn : ownEntity orgId db winnerId = true) (loserOwn : ownEntity orgId db loserId = true)
    (goesThrough : ¬ MergeClashes db winnerId loserId) :
    ∀ row ∈ db.relationships, ownRelationship orgId row = false →
      row.touches loserId.toNat = false := by
  intro row member outside
  obtain ⟨winner, _, found, _⟩ := entityById_own winnerOwn
  obtain ⟨loser, _, loserFound, _⟩ := entityById_own loserOwn
  have loserIs := ((entityById_eq_some_iff db loserId loser).mp loserFound).2
  have untouched := isolated.2.relationships
  simp only [respond] at untouched
  rw [mergeEntities_found db ⟨userId, role, some orgId⟩ winnerId loserId allowed differ winner found]
    at untouched
  simp only [loserFound] at untouched
  cases flushed : flushMerge db userId winner loser with
  | none =>
    have clash := (flushMerge_eq_none_iff db userId winner loser
      ((entityById_eq_some_iff db winnerId winner).mp found).1).mp flushed
    exact absurd ⟨winner, loser, found, loserFound, clash⟩ goesThrough
  | some after =>
    simp only [flushed] at untouched
    obtain ⟨updated, _, rfl⟩ := Option.map_eq_some_iff.mp flushed
    have remains : row ∈ (cascadeRelationships db.relationships loser.id).filter
        fun row => !ownRelationship orgId row := by
      rw [untouched]
      exact List.mem_filter.mpr ⟨member, by rw [outside]; rfl⟩
    have untouchedRow := (List.mem_filter.mp (List.mem_filter.mp remains).1).2
    have sameId : loserId.toNat = loser.id := by omega
    rw [sameId]
    simpa using untouchedRow

end

theorem merge_confined (fuzz : Fuzz) (orgId : Nat) (db : LinkerDb) (userId : Nat) (role : Role)
    (winnerId loserId : Int)
    (isolated : Isolated fuzz orgId db userId role (.merge winnerId loserId)) :
    Confined orgId db role (.merge winnerId loserId) := by
  cases allowed : mayEdit role with
  | false => exact .inl allowed
  | true =>
    by_cases differ : winnerId = loserId
    · exact .inr (.inl differ)
    · rcases Int.lt_or_le winnerId 0 with negative | stored
      · exact .inr (.inr (.inl negative))
      · have winnerOwn := winner_own_of_isolated isolated allowed differ stored
        refine .inr (.inr (.inr ⟨winnerOwn, ?_⟩))
        rcases Int.lt_or_le loserId 0 with negative | loserStored
        · exact .inl negative
        · have loserOwn := loser_own_of_isolated isolated allowed differ winnerOwn loserStored
          refine .inr ⟨loserOwn, ?_⟩
          by_cases clashing : MergeClashes db winnerId loserId
          · exact .inr clashing
          · exact .inl (relationships_kept_of_isolated isolated allowed differ winnerOwn loserOwn
              clashing)

theorem dismiss_confined (fuzz : Fuzz) (orgId : Nat) (db : LinkerDb) (userId : Nat) (role : Role)
    (entityAId entityBId : Int)
    (isolated : Isolated fuzz orgId db userId role (.dismiss entityAId entityBId)) :
    Confined orgId db role (.dismiss entityAId entityBId) := by
  cases allowed : mayEdit role with
  | false => exact .inl allowed
  | true =>
    right
    by_contra foreign
    have outside : ∀ row : LinkDismissal, (row.entityAId, row.entityBId) =
        pairKey entityAId entityBId → ownDismissal orgId db row = false := by
      intro row isPair
      obtain ⟨first, second⟩ := Prod.mk.inj isPair
      rw [ownDismissal, first, second, Bool.and_eq_false_iff]
      by_contra both
      rw [not_or, Bool.not_eq_false, Bool.not_eq_false] at both
      rcases Int.le_total entityAId entityBId with ordered | ordered
      · rw [Int.min_eq_left ordered, Int.max_eq_right ordered] at both
        exact foreign both
      · rw [Int.min_eq_right ordered, Int.max_eq_left ordered] at both
        exact foreign both.symm
    cases found : db.dismissals.rows.find? fun row =>
        (row.entityAId, row.entityBId) == pairKey entityAId entityBId with
    | some existing =>
      have below := db.dismissals.key_lt existing (List.mem_of_find?_eq_some found)
      have answers := isolated.1 _ (agree_ownPart orgId db)
      have gone : ((ownPart orgId db).dismissals.rows.find? fun row =>
          (row.entityAId, row.entityBId) == pairKey entityAId entityBId) = none := by
        rw [List.find?_eq_none]
        intro row member isPair
        obtain ⟨_, kept⟩ := (SerialTable.mem_deleteWhere _ _ row).mp member
        rw [outside row (beq_iff_eq.mp isPair)] at kept
        cases kept
      simp only [respond, dismissPair, allowed, Bool.not_true, Bool.false_eq_true, if_false,
        found, gone, Answer.dismissed.injEq] at answers
      change db.dismissals.nextKey = existing.id at answers
      change existing.id < _ at below
      omega
    | none =>
      have untouched := congrArg List.length isolated.2.dismissals
      have isOutside := outside ⟨db.dismissals.nextKey, (pairKey entityAId entityBId).1,
        (pairKey entityAId entityBId).2⟩ rfl
      simp only [respond, dismissPair, allowed, Bool.not_true, Bool.false_eq_true, if_false,
        found, SerialTable.append, SerialTable.keyed, dismissalSchema, List.filter_append,
        List.length_append] at untouched
      simp [isOutside] at untouched

theorem foldl_addToGroup (key : String) (members rows : List RawEntity) (fuzz : Fuzz)
    (same : ∀ row ∈ rows, blockKey fuzz row = key) :
    rows.foldl (fun groups row => addToGroup groups (blockKey fuzz row) row) [(key, members)] =
      [(key, members ++ rows)] := by
  induction rows generalizing members with
  | nil => simp
  | cons row rest ih =>
    rw [List.foldl_cons, same row List.mem_cons_self, addToGroup, if_pos rfl,
      ih (members ++ [row]) fun other member => same other (List.mem_cons_of_mem row member),
      List.append_assoc, List.singleton_append]

theorem buckets_of_one_block (fuzz : Fuzz) (key : String) (row : RawEntity) (rest : List RawEntity)
    (same : ∀ other ∈ row :: rest, blockKey fuzz other = key) :
    buckets fuzz (row :: rest) = [(key, row :: rest)] := by
  rw [buckets, List.foldl_cons, same row List.mem_cons_self]
  exact foldl_addToGroup key [row] rest fuzz fun other member =>
    same other (List.mem_cons_of_mem row member)

/-- The candidates so far name only the given entities as their first. -/
def FirstAmong (ids : List Nat) (found : Option (List LinkCandidate)) : Prop :=
  ∃ candidates, found = some candidates ∧ candidates ≠ [] ∧
    ∀ candidate ∈ candidates, candidate.entityA.id ∈ ids

theorem pairScore_foreign (fuzz : Fuzz) (orgId first second : Nat) :
    (pairScore fuzz (foreignEntity orgId first) (foreignEntity orgId second)).1 = 1000 := by
  have equal := fuzz.identical "twin" (by decide) (by decide)
  simp [pairScore, fieldScores, fieldScore, foreignEntity, equal, roundedRatio]

theorem snap_foreign (orgId id : Nat) :
    ∃ shown, snap (foreignEntity orgId id) = some shown ∧ shown.id = id := ⟨_, rfl, rfl⟩

theorem considerPair_foreign (fuzz : Fuzz) (orgId : Nat) (ids : List Nat) (threshold : Rat)
    (limit : Int) (dismissed : List (Int × Int)) (found : Option (List LinkCandidate))
    (among : FirstAmong ids found) (first second : Nat) (member : first ∈ ids) :
    FirstAmong ids (considerPair fuzz threshold limit dismissed found
      (foreignEntity orgId first, foreignEntity orgId second)) := by
  obtain ⟨candidates, rfl, nonempty, all⟩ := among
  obtain ⟨shownFirst, firstShown, firstId⟩ := snap_foreign orgId first
  obtain ⟨shownSecond, secondShown, _⟩ := snap_foreign orgId second
  simp only [considerPair, bind, Option.bind]
  split
  · exact ⟨candidates, rfl, nonempty, all⟩
  · split
    · exact ⟨candidates, rfl, nonempty, all⟩
    · split
      · simp only [firstShown, secondShown]
        refine ⟨_, rfl, by simp, ?_⟩
        intro candidate isCandidate
        rcases List.mem_append.mp isCandidate with old | new
        · exact all candidate old
        · rw [List.mem_singleton.mp new, firstId]
          exact member
      · exact ⟨candidates, rfl, nonempty, all⟩

theorem foldl_considerPair_foreign (fuzz : Fuzz) (orgId : Nat) (ids : List Nat) (threshold : Rat)
    (limit : Int) (dismissed : List (Int × Int)) (pairs : List (RawEntity × RawEntity))
    (foreign : ∀ pair ∈ pairs, ∃ first ∈ ids, ∃ second ∈ ids,
      pair = (foreignEntity orgId first, foreignEntity orgId second))
    (found : Option (List LinkCandidate)) (among : FirstAmong ids found) :
    FirstAmong ids (pairs.foldl (considerPair fuzz threshold limit dismissed) found) := by
  induction pairs generalizing found with
  | nil => exact among
  | cons pair rest ih =>
    obtain ⟨first, member, second, _, rfl⟩ := foreign pair List.mem_cons_self
    refine ih (fun other otherMember => foreign other (List.mem_cons_of_mem _ otherMember)) _ ?_
    exact considerPair_foreign fuzz orgId ids threshold limit dismissed found among first second
      member

theorem considerPair_first (fuzz : Fuzz) (orgId : Nat) (ids : List Nat) (threshold : Rat)
    (limit : Int) (dismissed : List (Int × Int)) (first second : Nat) (member : first ∈ ids)
    (low : threshold ≤ 1) (room : 1 ≤ limit)
    (undismissed : pairKey first second ∉ dismissed) :
    FirstAmong ids (considerPair fuzz threshold limit dismissed (some [])
      (foreignEntity orgId first, foreignEntity orgId second)) := by
  obtain ⟨shownFirst, firstShown, firstId⟩ := snap_foreign orgId first
  obtain ⟨shownSecond, secondShown, _⟩ := snap_foreign orgId second
  have empty : ¬ limit ≤ (([] : List LinkCandidate).length : Int) := by
    simp only [List.length_nil]
    omega
  have undismissedHere : pairKey (foreignEntity orgId first).id (foreignEntity orgId second).id ∉
      dismissed := undismissed
  have reached : threshold ≤
      ((pairScore fuzz (foreignEntity orgId first) (foreignEntity orgId second)).1 : Rat) / 1000 := by
    have whole : ((1000 : Nat) : Rat) / 1000 = 1 := by decide +kernel
    rw [pairScore_foreign, whole]
    exact low
  simp only [considerPair, bind, Option.bind, if_neg empty, List.map_nil, List.not_mem_nil,
    false_or, if_neg undismissedHere, if_pos reached, firstShown, secondShown, List.nil_append]
  refine ⟨_, rfl, by simp, ?_⟩
  intro candidate isCandidate
  rw [List.mem_singleton.mp isCandidate, firstId]
  exact member

theorem scanned_withForeign (full : foreign.ids.length = scanLimit) :
    scanned (withForeign foreign) = foreign.ids.map (foreignEntity orgId) := by
  unfold scanned
  change ((foreign.ids.map (foreignEntity orgId) ++ _).filter _).take scanLimit = _
  rw [List.filter_append, List.filter_eq_self.mpr, ← full, ← List.length_map (foreignEntity orgId),
    List.take_left]
  intro row member
  obtain ⟨id, _, rfl⟩ := List.mem_map.mp member
  rfl

theorem buckets_foreign (fuzz : Fuzz) (orgId first : Nat) (others : List Nat) :
    buckets fuzz ((first :: others).map (foreignEntity orgId)) =
      [(blockKey fuzz (foreignEntity orgId first), (first :: others).map (foreignEntity orgId))] := by
  apply buckets_of_one_block
  intro row member
  rw [← List.map_cons] at member
  obtain ⟨id, _, rfl⟩ := List.mem_map.mp member
  rfl

theorem foreign_of_combinations (orgId : Nat) (ids : List Nat) (pair : RawEntity × RawEntity)
    (member : pair ∈ combinations (ids.map (foreignEntity orgId))) :
    ∃ first ∈ ids, ∃ second ∈ ids,
      pair = (foreignEntity orgId first, foreignEntity orgId second) := by
  obtain ⟨left, right⟩ := mem_combinations _ pair member
  obtain ⟨first, firstMember, firstIs⟩ := List.mem_map.mp left
  obtain ⟨second, secondMember, secondIs⟩ := List.mem_map.mp right
  exact ⟨first, firstMember, second, secondMember, by rw [firstIs, secondIs]⟩

theorem undismissed_withForeign (first second : Nat) (firstMember : first ∈ foreign.ids)
    (secondMember : second ∈ foreign.ids) :
    pairKey first second ∉ dismissedSet (withForeign foreign) := by
  intro isDismissed
  obtain ⟨row, member, isPair⟩ := List.mem_map.mp isDismissed
  obtain ⟨_, kept⟩ := (SerialTable.mem_deleteWhere _ _ row).mp member
  obtain ⟨smaller, _⟩ := Prod.mk.inj isPair
  have own : ownEntity orgId db row.entityAId = true := by
    simp only [ownDismissal, Bool.not_eq_false', Bool.and_eq_true] at kept
    exact kept.1
  have unused : ownEntity orgId db row.entityAId = false := by
    rw [smaller]
    rcases Int.le_total (first : Int) second with ordered | ordered
    · rw [Int.min_eq_left ordered]
      exact foreign.unused first firstMember
    · rw [Int.min_eq_right ordered]
      exact foreign.unused second secondMember
  rw [unused] at own
  cases own

theorem pairs_of_foreign (fuzz : Fuzz) (orgId first second : Nat) (others : List Nat)
    (threshold : Rat) (limit : Int) (dismissed : List (Int × Int)) (low : threshold ≤ 1)
    (room : 1 ≤ limit) (undismissed : pairKey first second ∉ dismissed) :
    FirstAmong (first :: second :: others)
      ((combinations ((first :: second :: others).map (foreignEntity orgId))).foldl
        (considerPair fuzz threshold limit dismissed) (some [])) := by
  have foreign := foreign_of_combinations orgId (first :: second :: others)
  have pairs : combinations ((first :: second :: others).map (foreignEntity orgId)) =
      (foreignEntity orgId first, foreignEntity orgId second) ::
        (others.map (fun other => (foreignEntity orgId first, foreignEntity orgId other)) ++
          combinations ((second :: others).map (foreignEntity orgId))) := by
    simp [combinations]
  rw [pairs] at foreign ⊢
  rw [List.foldl_cons]
  refine foldl_considerPair_foreign fuzz orgId _ threshold limit dismissed _
    (fun pair member => foreign pair (List.mem_cons_of_mem _ member)) _ ?_
  exact considerPair_first fuzz orgId _ threshold limit dismissed first second List.mem_cons_self low
    room undismissed

theorem getCandidates_of_firstAmong (fuzz : Fuzz) (db : LinkerDb) (threshold : Rat) (limit : Int)
    (bounds : withinBounds threshold limit = true) (room : 1 ≤ limit) (ids : List Nat)
    (among : FirstAmong ids (((buckets fuzz (scanned db)).flatMap fun bucket =>
      combinations bucket.2).foldl (considerPair fuzz threshold limit (dismissedSet db)) (some []))) :
    ∃ candidate rest, getCandidates fuzz db threshold limit = .candidates (candidate :: rest) ∧
      candidate.entityA.id ∈ ids := by
  obtain ⟨candidates, whole, nonempty, all⟩ := among
  generalize shownIs : (sortedBy (fun first second => decide (second.score ≤ first.score))
    candidates).take limit.toNat = shown
  have answer : getCandidates fuzz db threshold limit = .candidates shown := by
    simp only [getCandidates, bounds, Bool.not_true, Bool.false_eq_true, if_false, whole, shownIs]
  cases shown with
  | nil =>
    rw [List.take_eq_nil_iff, sortedBy_eq_nil_iff] at shownIs
    rcases shownIs with zero | empty
    · omega
    · exact absurd empty nonempty
  | cons candidate rest =>
    refine ⟨candidate, rest, answer, all candidate ?_⟩
    apply (sortedBy_perm _ candidates).mem_iff.mp
    apply List.mem_of_mem_take (i := limit.toNat)
    rw [shownIs]
    exact List.mem_cons_self

theorem candidates_withForeign (fuzz : Fuzz) (full : foreign.ids.length = scanLimit)
    (threshold : Rat) (limit : Int) (bounds : withinBounds threshold limit = true) :
    ∃ candidate rest, getCandidates fuzz (withForeign foreign) threshold limit =
      .candidates (candidate :: rest) ∧ candidate.entityA.id ∈ foreign.ids := by
  obtain ⟨first, second, others, listed⟩ :
      ∃ first second others, foreign.ids = first :: second :: others := by
    match foreign.ids, full with
    | [], full => cases full
    | [_], full => cases full
    | first :: second :: others, _ => exact ⟨first, second, others, rfl⟩
  have low : threshold ≤ 1 ∧ 1 ≤ limit := by
    simp only [withinBounds, Bool.and_eq_true, decide_eq_true_eq] at bounds
    exact ⟨bounds.1.1.2, bounds.1.2⟩
  refine getCandidates_of_firstAmong fuzz _ threshold limit bounds low.2 _ ?_
  have undismissed := undismissed_withForeign foreign first second (by simp [listed])
    (by simp [listed])
  rw [scanned_withForeign foreign full, listed, buckets_foreign, List.flatMap_singleton]
  exact pairs_of_foreign fuzz orgId first second others threshold limit _ low.1 low.2 undismissed

theorem candidates_confined (fuzz : Fuzz) (orgId : Nat) (db : LinkerDb) (userId : Nat)
    (role : Role) (threshold : Rat) (limit : Int)
    (isolated : Isolated fuzz orgId db userId role (.candidates threshold limit)) :
    Confined orgId db role (.candidates threshold limit) := by
  cases bounds : withinBounds threshold limit with
  | false => exact bounds
  | true =>
    have scans : ∀ start, db.entities.nextKey ≤ start →
        ∃ foreign : ForeignIds orgId db, foreign.ids = List.range' start scanLimit :=
      fun start large => ⟨.scan start large, rfl⟩
    obtain ⟨near, atNear⟩ := scans db.entities.nextKey (Nat.le_refl _)
    obtain ⟨far, atFar⟩ := scans (db.entities.nextKey + scanLimit) (Nat.le_add_right _ _)
    obtain ⟨candidate, rest, answer, among⟩ := candidates_withForeign near fuzz
      (atNear ▸ List.length_range') threshold limit bounds
    obtain ⟨other, otherRest, otherAnswer, otherAmong⟩ := candidates_withForeign far fuzz
      (atFar ▸ List.length_range') threshold limit bounds
    have firstSame := isolated.1 _ (agree_withForeign near)
    have secondSame := isolated.1 _ (agree_withForeign far)
    have same := firstSame.trans secondSame.symm
    simp only [respond, answer, otherAnswer, Answer.candidates.injEq, List.cons.injEq] at same
    rw [same.1, atNear] at among
    rw [atFar] at otherAmong
    have below := (List.mem_range'_1.mp among).2
    have above := (List.mem_range'_1.mp otherAmong).1
    omega

/-- A request stays within the organization of its user exactly where it is confined. -/
theorem isolated_iff_confined (fuzz : Fuzz) (orgId : Nat) (db : LinkerDb) (userId : Nat)
    (role : Role) (request : LinkerRequest) :
    Isolated fuzz orgId db userId role request ↔ Confined orgId db role request := by
  cases request with
  | candidates threshold limit =>
    constructor
    · exact candidates_confined fuzz orgId db userId role threshold limit
    · intro outOfBounds
      apply isolated_of_stopped fuzz orgId db userId role _ .rejected
      intro other _
      unfold Confined at outOfBounds
      simp [respond, getCandidates, outOfBounds]
  | merge winnerId loserId =>
    exact ⟨merge_confined fuzz orgId db userId role winnerId loserId,
      merge_isolated fuzz orgId db userId role winnerId loserId⟩
  | dismiss entityAId entityBId =>
    exact ⟨dismiss_confined fuzz orgId db userId role entityAId entityBId,
      dismiss_isolated fuzz orgId db userId role entityAId entityBId⟩

def plainFuzz : Fuzz where
  tokenSortRatio := fun first second => if first = second then 100 else 0
  ratio := fun first second => if first = second then 100 else 0
  lower := String.toLower
  identical := fun _ _ _ => if_pos rfl

def twoTenants : LinkerDb where
  entities :=
    { rows := [foreignEntity 0 1, foreignEntity 1 2]
      nextKey := 3
      key_lt := by decide
      distinct := by decide
      unclashing := by decide }
  relationships := []
  dismissals := SerialTable.empty dismissalSchema
  audit := []

/-- An editor of organization 1 merges the other organization's entity away. -/
theorem merge_not_isolated : ¬ Isolated plainFuzz 1 twoTenants 7 .editor (.merge 1 2) := by
  intro isolated
  have untouched := isolated.2.entities
  revert untouched
  decide

end Ukip.Linker.Confinement
