import Ukip.Linker.Confinement

/-!
# What a merge keeps

A merge that goes through fills the winner's empty fields from the loser and takes the
loser's relationships away with it.
-/

namespace Ukip.Linker.MergeLoss

open Foundation.Relational Analytics.Corpus Entities.Table Confinement EntityLinker Tenancy.Access

def fillFields : List (RawEntity → Option String) :=
  [RawEntity.primaryLabel, RawEntity.secondaryLabel, RawEntity.canonicalId, RawEntity.entityType,
    RawEntity.domain, RawEntity.validationStatus, RawEntity.enrichmentDoi,
    RawEntity.enrichmentConcepts, RawEntity.enrichmentSource]

def withWritable (row columns : RawEntity) : RawEntity :=
  { row with
    primaryLabel := columns.primaryLabel
    secondaryLabel := columns.secondaryLabel
    canonicalId := columns.canonicalId
    entityType := columns.entityType
    domain := columns.domain
    validationStatus := columns.validationStatus
    enrichmentDoi := columns.enrichmentDoi
    enrichmentConcepts := columns.enrichmentConcepts
    enrichmentSource := columns.enrichmentSource
    enrichmentStatus := columns.enrichmentStatus
    enrichmentCitationCount := columns.enrichmentCitationCount }

/-- The winner is enriched by the loser, which it is not by itself. -/
def Adopts (winner loser : RawEntity) : Prop :=
  winner.enrichmentStatus ≠ some "completed" ∧ loser.enrichmentStatus = some "completed"

structure Merged (winner loser merged : RawEntity) : Prop where
  kept : ∀ field ∈ fillFields, truthy (field winner) = true → field merged = field winner
  filledUp : ∀ field ∈ fillFields, truthy (field winner) = false → truthy (field loser) = true →
    field merged = field loser
  adopted : Adopts winner loser → merged.enrichmentStatus = loser.enrichmentStatus ∧
    merged.enrichmentCitationCount = loser.enrichmentCitationCount
  unadopted : ¬Adopts winner loser → merged.enrichmentStatus = winner.enrichmentStatus ∧
    merged.enrichmentCitationCount = winner.enrichmentCitationCount
  others : withWritable merged winner = winner

structure Stored (db after : LinkerDb) (winner loser merged : RawEntity) : Prop where
  entities : ∀ row, row ∈ after.entities.rows ↔
    row = merged ∨ row ∈ db.entities.rows ∧ row.id ≠ winner.id ∧ row.id ≠ loser.id
  relationships : ∀ edge, edge ∈ after.relationships ↔
    edge ∈ db.relationships ∧ edge.touches loser.id = false

theorem merged_absorb (winner loser : RawEntity) : Merged winner loser (absorb winner loser) where
  kept := by
    have keep (kept absorbed : Option String) (has : truthy kept = true) :
        filled kept absorbed = kept := by simp [filled, has]
    simp only [fillFields, List.forall_mem_cons]
    exact ⟨keep _ _, keep _ _, keep _ _, keep _ _, keep _ _, keep _ _, keep _ _, keep _ _, keep _ _,
      nofun⟩
  filledUp := by
    have fill (kept absorbed : Option String) (lacks : truthy kept = false)
        (has : truthy absorbed = true) : filled kept absorbed = absorbed := by
      simp [filled, lacks, has]
    simp only [fillFields, List.forall_mem_cons]
    exact ⟨fill _ _, fill _ _, fill _ _, fill _ _, fill _ _, fill _ _, fill _ _, fill _ _, fill _ _,
      nofun⟩
  adopted := fun adopts => ⟨if_pos adopts, if_pos adopts⟩
  unadopted := fun not => ⟨if_neg not, if_neg not⟩
  others := rfl

variable {db after : LinkerDb} {userId : Nat} {winner loser : RawEntity}

theorem stored_flushMerge (winnerIn : winner ∈ db.entities.rows) (apart : winner.id ≠ loser.id)
    (flushed : flushMerge db userId winner loser = some after) :
    Stored db after winner loser (absorb winner loser) := by
  obtain ⟨updated, updates, rfl⟩ := Option.map_eq_some_iff.mp flushed
  have rows := SerialTable.rows_updateChecked updates
  refine ⟨fun row => ?_, fun edge => ?_⟩
  · rw [SerialTable.mem_deleteWhere, rows, List.mem_map]
    constructor
    · rintro ⟨⟨old, oldIn, rfl⟩, notLoser⟩
      by_cases isWinner : old.id = winner.id
      · obtain rfl := db.entities.eq_of_key_eq oldIn winnerIn isWinner
        exact .inl (if_pos (by simp [entitySchema]))
      · have unchanged : (absorbing loser).onRow (fun row => entitySchema.key row == winner.id) old =
            old := if_neg (by simpa [entitySchema] using isWinner)
        rw [unchanged] at notLoser ⊢
        exact .inr ⟨oldIn, isWinner, by simpa using notLoser⟩
    · rintro (rfl | ⟨oldIn, notWinner, notLoser⟩)
      · exact ⟨⟨winner, winnerIn, if_pos (by simp [entitySchema])⟩, by simpa [absorb] using apart⟩
      · exact ⟨⟨row, oldIn, if_neg (by simpa [entitySchema] using notWinner)⟩,
          by simpa using notLoser⟩
  · simp [cascadeRelationships]

theorem merge_keeps (db : LinkerDb) (user : User) (winnerId loserId : Int) (winner loser : RawEntity)
    (allowed : mayEdit user.role = true) (differ : winnerId ≠ loserId)
    (isWinner : entityById db winnerId = some winner) (isLoser : entityById db loserId = some loser) :
    (¬MergeClashes db winnerId loserId →
      ∃ merged after, mergeEntities db user winnerId loserId = (.merged merged, after)) ∧
    ∀ merged after, mergeEntities db user winnerId loserId = (.merged merged, after) →
      Merged winner loser merged ∧ Stored db after winner loser merged := by
  have run := mergeEntities_found db user winnerId loserId allowed differ winner isWinner
  simp only [isLoser] at run
  obtain ⟨winnerIn, winnerIs⟩ := (entityById_eq_some_iff db winnerId winner).mp isWinner
  have loserIs := ((entityById_eq_some_iff db loserId loser).mp isLoser).2
  have apart : winner.id ≠ loser.id := by omega
  rw [run]
  constructor
  · intro clear
    cases flushed : flushMerge db user.id winner loser with
    | none =>
      have clash := (flushMerge_eq_none_iff db user.id winner loser winnerIn).mp flushed
      exact absurd ⟨winner, loser, isWinner, isLoser, clash⟩ clear
    | some after => exact ⟨_, after, rfl⟩
  · intro merged after completes
    cases flushed : flushMerge db user.id winner loser with
    | none =>
      rw [flushed] at completes
      cases completes
    | some stored =>
      rw [flushed] at completes
      cases completes
      exact ⟨merged_absorb winner loser, stored_flushMerge winnerIn apart flushed⟩

def citingLoser : LinkerDb where
  entities :=
    { rows := [foreignEntity 0 1, foreignEntity 0 2, foreignEntity 0 3]
      nextKey := 4
      key_lt := by decide
      distinct := by decide
      unclashing := by decide }
  relationships := [⟨1, some 1, some 2, some 3, some "cites"⟩]
  dismissals := SerialTable.empty dismissalSchema
  audit := []

theorem merge_keeps_two :
    (¬MergeClashes citingLoser 1 2 →
      ∃ merged after, mergeEntities citingLoser ⟨7, .editor, some 1⟩ 1 2 = (.merged merged, after)) ∧
    ∀ merged after, mergeEntities citingLoser ⟨7, .editor, some 1⟩ 1 2 = (.merged merged, after) →
      Merged (foreignEntity 0 1) (foreignEntity 0 2) merged ∧
        Stored citingLoser after (foreignEntity 0 1) (foreignEntity 0 2) merged :=
  merge_keeps citingLoser ⟨7, .editor, some 1⟩ 1 2 _ _ (by decide) (by decide) (by decide) (by decide)

/-- Every relationship of the loser to a third entity has one of the winner after it. -/
def EdgesSurvive (db after : LinkerDb) (winnerId loserId : Nat) : Prop :=
  ∀ edge ∈ db.relationships, edge.touches loserId = true → edge.touches winnerId = false →
    ∃ kept ∈ after.relationships, kept.touches winnerId = true

theorem merge_drops_citation :
    (mergeEntities citingLoser ⟨7, .editor, some 1⟩ 1 2).1 = .merged (foreignEntity 0 1) ∧
      ¬EdgesSurvive citingLoser (mergeEntities citingLoser ⟨7, .editor, some 1⟩ 1 2).2 1 2 := by
  unfold EdgesSurvive
  decide

end Ukip.Linker.MergeLoss
