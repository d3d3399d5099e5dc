import Ukip.Analytics.Corpus
import Ukip.Foundation.SerialTable

/-!
# The table of entities

`raw_entities` with its unique indexes `uq_raw_entities_canonical` and
`uq_raw_entities_canonical_global`, and `entity_relationships`, whose rows follow the
entities that they name.
-/

namespace Ukip.Entities.Table

open Foundation.Relational Analytics.Corpus

def canonicalKey (row : RawEntity) : Option (Option Int × String × String × String) :=
  match row.domain, row.entityType, row.canonicalId with
  | some domain, some entityType, some canonicalId =>
    some (row.orgId, domain, entityType, canonicalId)
  | _, _, _ => none

def canonicalClash (first second : RawEntity) : Bool :=
  (canonicalKey first).isSome && canonicalKey first == canonicalKey second

theorem canonicalClash_comm (first second : RawEntity) :
    canonicalClash first second = canonicalClash second first := by
  unfold canonicalClash
  by_cases same : canonicalKey first = canonicalKey second
  · rw [same]
  · rw [beq_eq_false_iff_ne.mpr same, beq_eq_false_iff_ne.mpr (Ne.symm same), Bool.and_false,
      Bool.and_false]

def entitySchema : Schema RawEntity where
  key := RawEntity.id
  withKey := fun value row => { row with id := value }
  key_withKey := fun _ _ => rfl
  clash := canonicalClash
  clash_comm := canonicalClash_comm
  clash_withKey := fun _ _ _ => rfl

abbrev EntityTable := SerialTable entitySchema

theorem orgId_of_clash {first second : RawEntity}
    (clashes : canonicalClash first second = true) : first.orgId = second.orgId := by
  unfold canonicalClash at clashes
  rw [Bool.and_eq_true, beq_iff_eq] at clashes
  obtain ⟨constrained, same⟩ := clashes
  obtain ⟨key, firstKey⟩ := Option.isSome_iff_exists.mp constrained
  rw [firstKey] at same
  unfold canonicalKey at firstKey same
  split at firstKey
  · split at same
    · rw [← Option.some.inj firstKey, Option.some.injEq, Prod.mk.injEq] at same
      exact same.1
    · cases same
  · cases firstKey

theorem no_clash_of_no_canonicalId (first second : RawEntity) (none : first.canonicalId = none) :
    canonicalClash first second = false := by
  unfold canonicalClash canonicalKey
  rw [none]
  simp

/-- A row of `entity_relationships`. -/
structure EntityRelationship where
  id : Nat
  orgId : Option Int
  sourceId : Option Nat
  targetId : Option Nat
  relationType : Option String

def EntityRelationship.touches (relationship : EntityRelationship) (entityId : Nat) : Bool :=
  relationship.sourceId == some entityId || relationship.targetId == some entityId

def cascadeRelationships (relationships : List EntityRelationship) (entityId : Nat) :
    List EntityRelationship :=
  relationships.filter fun relationship => !relationship.touches entityId

end Ukip.Entities.Table
