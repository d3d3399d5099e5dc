import Ukip.Foundation.EventRun
import Ukip.Coauthorship.Artifacts

/-!
# Weights of the edges

An edge's weight is kept beside the contributions that it counts.  A write adds to both and
a merge takes from both; a write that moves an entity to another scope takes the entity's
contributions away and leaves the edges of the old scope as they are.
-/

namespace Ukip.Coauthorship.Weights

open Foundation.EventRun Foundation.LogCount Foundation.Tally Identity Artifacts

/-- The weight of each pair and scope is the number of its contributions, and there is an edge
only where there is one. -/
def Counted (store : Store) : Prop :=
  Agrees CoauthorContribution.edge store.contributions store.edges

/-- What the tables say about an entity: its publications are of one scope, and a contribution
is of a scope in which the entity has a publication. -/
structure Recorded (store : Store) : Prop where
  oneScope : ∀ first ∈ store.publications, ∀ second ∈ store.publications,
    first.entityId = second.entityId → first.scope = second.scope
  placed : ∀ row ∈ store.contributions, ∃ publication ∈ store.publications,
    publication.entityId = row.entityId ∧ publication.scope = row.edge.scope

variable {python : Python} {detectors : Detectors} {store : Store} {entity : RawEntity}

structure Records (entityId : Nat) (scope : Scope) (before after : Store) : Prop where
  authors : after.authors = before.authors
  publications : after.publications = before.publications
  stats : after.stats = before.stats
  dirtyScopes : after.dirtyScopes = before.dirtyScopes
  elsewhere : ∀ other, other ≠ scope → scopeEdges after.edges other = scopeEdges before.edges other
  contributions : ∀ row ∈ after.contributions,
    row ∈ before.contributions ∨ (row.entityId = entityId ∧ row.edge.scope = scope)
  counted : Counted before → Counted after
  entries : ∀ key : EdgeKey, key.scope ≠ scope → entryOf after.edges key = entryOf before.edges key
  counts : ∀ key : EdgeKey, key.scope ≠ scope →
    rowCount CoauthorContribution.edge after.contributions key =
      rowCount CoauthorContribution.edge before.contributions key

variable (entityId : Nat) (scope : Scope)

theorem records_idle (store : Store) :
    Records entityId scope store store where
  authors := rfl
  publications := rfl
  stats := rfl
  dirtyScopes := rfl
  elsewhere := fun _ _ => rfl
  contributions := fun _ member => .inl member
  counted := id
  entries := fun _ _ => rfl
  counts := fun _ _ => rfl

theorem scopeEdges_bump (edges : Counter EdgeKey) (key : EdgeKey) {scope : Scope}
    (other : scope ≠ key.scope) : scopeEdges (bump edges key) scope = scopeEdges edges scope := by
  have apart : decide (key.scope = scope) = false := decide_eq_false fun same => other same.symm
  unfold scopeEdges
  induction edges with
  | nil => simp [bump, apart]
  | cons entry rest ih =>
    obtain ⟨counted, count⟩ := entry
    unfold bump
    split
    · rename_i same
      simp [same, apart]
    · rw [List.filter_cons, List.filter_cons, ih]

theorem records_pair (store : Store) (pair : Nat × Nat) :
    Records entityId scope store (recordPair entityId scope store pair) := by
  unfold recordPair
  dsimp only
  split
  · exact records_idle entityId scope store
  · split
    · exact records_idle entityId scope store
    · refine ⟨rfl, rfl, rfl, rfl, fun _ other => scopeEdges_bump _ _ other, ?_,
        fun counted => agrees_append counted _, ?_, ?_⟩
      · intro row member
        rcases List.mem_append.mp member with old | new
        · exact .inl old
        · obtain rfl := List.mem_singleton.mp new
          exact .inr ⟨rfl, rfl⟩
      · intro key elsewhere
        rw [entryOf_bump, if_neg fun same => elsewhere (congrArg EdgeKey.scope same).symm]
      · intro key elsewhere
        rw [rowCount_append, if_neg fun same => elsewhere (congrArg EdgeKey.scope same).symm,
          Nat.add_zero]

theorem records_pairs (pairs : List (Nat × Nat)) (store : Store) :
    Records entityId scope store (pairs.foldl (recordPair entityId scope) store) := by
  induction pairs generalizing store with
  | nil => exact records_idle entityId scope store
  | cons pair rest ih =>
    have first := records_pair entityId scope store pair
    have later := ih (recordPair entityId scope store pair)
    refine ⟨later.authors.trans first.authors, later.publications.trans first.publications,
      later.stats.trans first.stats, later.dirtyScopes.trans first.dirtyScopes,
      fun other apart => (later.elsewhere other apart).trans (first.elsewhere other apart), ?_,
      fun counted => later.counted (first.counted counted),
      fun key elsewhere => (later.entries key elsewhere).trans (first.entries key elsewhere),
      fun key elsewhere => (later.counts key elsewhere).trans (first.counts key elsewhere)⟩
    intro row member
    rcases later.contributions row member with old | new
    · exact first.contributions row old
    · exact .inr new

variable {publications : List AuthorPublication}

theorem mem_priorScopes {entityId : Nat} {scope : Scope} :
    scope ∈ priorScopes publications entityId ↔
      ∃ row ∈ publications, row.entityId = entityId ∧ row.scope = scope := by
  simp [priorScopes, and_assoc]

theorem isReassigned_iff :
    isReassigned store entity = true ↔
      (∃ row ∈ store.publications, row.entityId = entity.id) ∧
        ∀ row ∈ store.publications, row.entityId = entity.id → row.scope ≠ scopeOf entity := by
  have someScope : (priorScopes store.publications entity.id).isEmpty = false ↔
      ∃ row ∈ store.publications, row.entityId = entity.id := by
    rw [List.isEmpty_eq_false_iff_exists_mem]
    simp [mem_priorScopes]
  have notCurrent : (priorScopes store.publications entity.id).contains (scopeOf entity) = false ↔
      ∀ row ∈ store.publications, row.entityId = entity.id → row.scope ≠ scopeOf entity := by
    rw [← Bool.not_eq_true, List.contains_iff_mem, mem_priorScopes]
    simp
  unfold isReassigned
  rw [Bool.and_eq_true, Bool.not_eq_true', Bool.not_eq_true', someScope, notCurrent]

theorem reassign_idle (stays : isReassigned store entity = false) : reassign store entity = store := by
  unfold reassign
  rw [if_neg (by simp [stays])]

theorem reassignedRow_spec (row : AuthorPublication) :
    (reassignedRow entity row).entityId = row.entityId ∧
      (row.entityId = entity.id → (reassignedRow entity row).scope = scopeOf entity) ∧
      (row.entityId ≠ entity.id → reassignedRow entity row = row) := by
  unfold reassignedRow
  by_cases own : row.entityId = entity.id
  · rw [if_pos own]
    exact ⟨rfl, fun _ => rfl, fun other => absurd own other⟩
  · rw [if_neg own]
    exact ⟨rfl, fun here => absurd here own, fun _ => rfl⟩

theorem scope_of_moved (moves : isReassigned store entity = true) {row : AuthorPublication}
    (member : row ∈ (reassign store entity).publications) (own : row.entityId = entity.id) :
    row.scope = scopeOf entity := by
  unfold reassign at member
  rw [if_pos moves] at member
  obtain ⟨old, _, rfl⟩ := List.mem_map.mp member
  obtain ⟨sameEntity, current, _⟩ :
      (reassignedRow entity old).entityId = old.entityId ∧ _ := reassignedRow_spec old
  exact current (sameEntity.symm.trans own)

theorem reassign_scope (recorded : Recorded store) :
    ∀ row ∈ (reassign store entity).publications, row.entityId = entity.id →
      row.scope = scopeOf entity := by
  intro row member own
  by_cases moves : isReassigned store entity = true
  · exact scope_of_moved moves member own
  · rw [reassign_idle (Bool.eq_false_iff.mpr moves)] at member
    by_contra elsewhere
    refine moves (isReassigned_iff.mpr ⟨⟨row, member, own⟩, ?_⟩)
    intro other otherMember otherOwn current
    exact elsewhere ((recorded.oneScope row member other otherMember
      (own.trans otherOwn.symm)).trans current)

variable {row : AuthorPublication}

theorem mem_reassign_other (other : row.entityId ≠ entity.id) :
    row ∈ (reassign store entity).publications ↔ row ∈ store.publications := by
  by_cases moves : isReassigned store entity = true
  · unfold reassign
    rw [if_pos moves]
    constructor
    · intro member
      obtain ⟨old, stored, rfl⟩ := List.mem_map.mp member
      obtain ⟨sameEntity, _, still⟩ := reassignedRow_spec old
      rw [still (sameEntity ▸ other)]
      exact stored
    · intro stored
      exact List.mem_map.mpr ⟨row, stored, (reassignedRow_spec row).2.2 other⟩
  · rw [reassign_idle (Bool.eq_false_iff.mpr moves)]

theorem reassign_recorded (recorded : Recorded store) : Recorded (reassign store entity) := by
  refine ⟨?_, ?_⟩
  · intro first firstMember second secondMember same
    by_cases own : first.entityId = entity.id
    · rw [reassign_scope recorded first firstMember own,
        reassign_scope recorded second secondMember (same ▸ own)]
    · exact recorded.oneScope first ((mem_reassign_other own).mp firstMember) second
        ((mem_reassign_other (same ▸ own)).mp secondMember) same
  · intro row member
    by_cases moves : isReassigned store entity = true
    · unfold reassign at member
      rw [if_pos moves] at member
      obtain ⟨stored, other⟩ := List.mem_filter.mp member
      obtain ⟨publication, published, own, scope⟩ := recorded.placed row stored
      have elsewhere : publication.entityId ≠ entity.id := by
        rw [own]
        simpa using other
      exact ⟨publication, (mem_reassign_other elsewhere).mpr published, own, scope⟩
    · rw [reassign_idle (Bool.eq_false_iff.mpr moves)] at member ⊢
      exact recorded.placed row member

variable {authorIds : List Nat}

theorem newPublication_own (member : row ∈ newPublications store entity authorIds) :
    row.entityId = entity.id ∧ row.scope = scopeOf entity := by
  unfold newPublications at member
  obtain ⟨⟨authorId, position⟩, _, added⟩ := List.mem_filterMap.mp member
  dsimp only at added
  split at added
  · cases added
  obtain rfl := Option.some.inj added
  exact ⟨rfl, rfl⟩

theorem published_of_resolved {authorId : Nat} (member : authorId ∈ authorIds) :
    ∃ row ∈ store.publications ++ newPublications store entity authorIds,
      row.entityId = entity.id := by
  by_cases old : store.publications.any
      fun row => row.entityId == entity.id && row.authorId == authorId
  · obtain ⟨row, stored, own⟩ := List.any_eq_true.mp old
    simp only [Bool.and_eq_true, beq_iff_eq] at own
    exact ⟨row, List.mem_append_left _ stored, own.1⟩
  · obtain ⟨position, found⟩ := List.mem_iff_getElem?.mp member
    refine ⟨⟨authorId, entity.id, scopeOf entity, 1 + position⟩, List.mem_append_right _ ?_, rfl⟩
    unfold newPublications
    refine List.mem_filterMap.mpr ⟨(authorId, 1 + position), ?_, if_neg old⟩
    exact List.mk_mem_zipIdx_iff_le_and_getElem?_sub.mpr ⟨by omega, by simpa using found⟩

def flushed (store : Store) (entity : RawEntity) (authorIds : List Nat) : Store :=
  { reassign store entity with
    publications := (reassign store entity).publications ++
      newPublications (reassign store entity) entity authorIds }

variable {written : Store}

theorem stageArtifacts_ok (staged : stageArtifacts store entity authorIds = .ok written) :
    written =
      let recorded := (combinations authorIds).foldl (recordPair entity.id (scopeOf entity))
        (flushed store entity authorIds)
      { recorded with
        dirtyScopes := markDirty recorded.dirtyScopes (scopeOf entity) "enrichment" } := by
  unfold stageArtifacts at staged
  dsimp only at staged
  split at staged
  · cases staged
  exact (Except.ok.inj staged).symm

/-- A write that is staged: the entity's rows moved, its publications added, its pairs
recorded. -/
structure Staged (store : Store) (entity : RawEntity) (written : Store) : Prop where
  authors : written.authors = store.authors
  recorded : Recorded store → Recorded written
  counted : Counted (reassign store entity) → Counted written
  entries : ∀ key : EdgeKey, key.scope ≠ scopeOf entity →
    entryOf written.edges key = entryOf store.edges key
  counts : ∀ key : EdgeKey, key.scope ≠ scopeOf entity →
    rowCount CoauthorContribution.edge written.contributions key =
      rowCount CoauthorContribution.edge (reassign store entity).contributions key

theorem staged_of_stage (staged : stageArtifacts store entity authorIds = .ok written) :
    Staged store entity written := by
  obtain rfl := stageArtifacts_ok staged
  have loop := records_pairs entity.id (scopeOf entity) (combinations authorIds)
    (flushed store entity authorIds)
  have sameEdges : (reassign store entity).edges = store.edges := by
    unfold reassign
    split <;> rfl
  have sameAuthors : (reassign store entity).authors = store.authors := by
    unfold reassign
    split <;> rfl
  refine ⟨loop.authors.trans sameAuthors, ?_, loop.counted, ?_, loop.counts⟩
  · intro recorded
    have before : Recorded (reassign store entity) := reassign_recorded recorded
    have ofEntity : ∀ row ∈ (reassign store entity).publications ++
        newPublications (reassign store entity) entity authorIds,
        row.entityId = entity.id → row.scope = scopeOf entity := by
      intro row member own
      rcases List.mem_append.mp member with old | new
      · exact reassign_scope recorded row old own
      · exact (newPublication_own new).2
    refine ⟨?_, ?_⟩
    · rw [loop.publications]
      intro first firstMember second secondMember same
      by_cases own : first.entityId = entity.id
      · rw [ofEntity first firstMember own, ofEntity second secondMember (same ▸ own)]
      · have stored : ∀ row ∈ (reassign store entity).publications ++
            newPublications (reassign store entity) entity authorIds,
            row.entityId ≠ entity.id → row ∈ (reassign store entity).publications := by
          intro row member other
          rcases List.mem_append.mp member with old | new
          · exact old
          · exact absurd (newPublication_own new).1 other
        exact before.oneScope first (stored first firstMember own) second
          (stored second secondMember (same ▸ own)) same
    · rw [loop.publications]
      intro row member
      rcases loop.contributions row member with old | ⟨own, scope⟩
      · obtain ⟨publication, published, placed⟩ := before.placed row old
        exact ⟨publication, List.mem_append_left _ published, placed⟩
      · cases authorIds with
        | nil =>
          obtain ⟨publication, published, placed⟩ := before.placed row member
          exact ⟨publication, List.mem_append_left _ published, placed⟩
        | cons authorId rest =>
          obtain ⟨publication, published, ofIt⟩ :
              ∃ publication ∈ (reassign store entity).publications ++
                newPublications (reassign store entity) entity (authorId :: rest),
                publication.entityId = entity.id := published_of_resolved List.mem_cons_self
          exact ⟨publication, published, ofIt.trans own.symm,
            (ofEntity publication published ofIt).trans scope.symm⟩
  · intro key elsewhere
    rw [← sameEdges]
    exact loop.entries key elsewhere

theorem mem_mergedPublications {winner loser : Nat}
    (member : row ∈ mergedPublications publications winner loser) :
    ∃ old ∈ publications, row.entityId = old.entityId ∧ row.scope = old.scope := by
  obtain ⟨old, kept, rfl⟩ := List.mem_map.mp member
  exact ⟨old, (List.mem_filter.mp kept).1, rfl, rfl⟩

theorem mergedPublications_keeps {winner loser : Nat} (different : winner ≠ loser)
    (oneScope : ∀ first ∈ publications, ∀ second ∈ publications,
      first.entityId = second.entityId → first.scope = second.scope) (member : row ∈ publications) :
    ∃ kept ∈ mergedPublications publications winner loser,
      kept.entityId = row.entityId ∧ kept.scope = row.scope := by
  by_cases dropped : row.authorId = loser ∧
      row.entityId ∈ (publications.filter fun other => other.authorId = winner).map
        AuthorPublication.entityId
  · obtain ⟨other, winners, sameEntity⟩ := List.mem_map.mp dropped.2
    obtain ⟨stored, ofWinner⟩ := List.mem_filter.mp winners
    have ofWinner : other.authorId = winner := by simpa using ofWinner
    refine ⟨_, List.mem_map.mpr ⟨other, List.mem_filter.mpr ⟨stored, ?_⟩, rfl⟩, sameEntity,
      oneScope other stored row member sameEntity⟩
    simp [ofWinner, different]
  · refine ⟨_, List.mem_map.mpr ⟨row, List.mem_filter.mpr ⟨member, ?_⟩, rfl⟩, rfl, rfl⟩
    exact decide_eq_true dropped

theorem mergeAuthors_recorded {winner loser : Author} {merged : Store}
    (served : mergeAuthors store winner loser = .ok merged) (recorded : Recorded store) :
    Recorded merged := by
  rcases mergeAuthors_cases served with ⟨_, rfl⟩ | ⟨different, rfl⟩
  · exact recorded
  · refine ⟨?_, ?_⟩
    · intro first firstMember second secondMember same
      obtain ⟨firstOld, firstStored, firstEntity, firstScope⟩ := mem_mergedPublications firstMember
      obtain ⟨secondOld, secondStored, secondEntity, secondScope⟩ :=
        mem_mergedPublications secondMember
      rw [firstScope, secondScope]
      exact recorded.oneScope firstOld firstStored secondOld secondStored
        (firstEntity.symm.trans (same.trans secondEntity))
    · intro row member
      obtain ⟨publication, published, own, scope⟩ :=
        recorded.placed row (List.mem_filter.mp member).1
      obtain ⟨kept, keptMember, sameEntity, sameScope⟩ :=
        mergedPublications_keeps different recorded.oneScope published
      exact ⟨kept, keptMember, sameEntity.trans own, sameScope.trans scope⟩

theorem mergeAuthors_counted {winner loser : Author} {merged : Store}
    (served : mergeAuthors store winner loser = .ok merged) (counted : Counted store) :
    Counted merged := by
  rcases mergeAuthors_cases served with ⟨_, rfl⟩ | ⟨_, rfl⟩
  · exact counted
  · exact agrees_filter counted fun key => !key.involves loser.id

inductive Event where
  | write (enabled : Bool) (entity : RawEntity)
  | merge (winnerId loserId : Nat)
  | recompute (scope : Scope)

def authorById (store : Store) (authorId : Nat) : Option Author :=
  store.authors.rows.find? fun row => row.id == authorId

def step (python : Python) (detectors : Detectors) (store : Store) : Event → Store
  | .write enabled entity =>
    match writeCoauthorArtifacts python enabled store entity with
    | .ok written => written
    | .error failure => failure.committed
  | .merge winnerId loserId =>
    match authorById store winnerId, authorById store loserId with
    | some winner, some loser =>
      match mergeAuthors store winner loser with
      | .ok merged => merged
      | .error _ => store
    | _, _ => store
  | .recompute scope => recomputeCoauthorStats detectors store scope

/-- A write that goes through moves an entity with contributions out of their scope. -/
def MovesContributions (python : Python) (store : Store) : Event → Prop
  | .write enabled entity =>
    (∃ authorIds table, resolveEntity python enabled store entity = .ok (some (authorIds, table)) ∧
      ((newPublications store entity authorIds).map AuthorPublication.authorId).Nodup) ∧
    isReassigned store entity = true ∧ ∃ row ∈ store.contributions, row.entityId = entity.id
  | _ => False

theorem committed_authors {enabled : Bool} {failure : Failure}
    (raised : resolveEntity python enabled store entity = .error failure) :
    ∃ table, failure.committed = { store with authors := table } := by
  unfold resolveEntity at raised
  split at raised
  · cases raised
  split at raised
  · obtain rfl := Except.error.inj raised
    exact ⟨store.authors, rfl⟩
  · split at raised
    · cases raised
    split at raised
    · obtain rfl := Except.error.inj raised
      exact ⟨_, rfl⟩
    · cases raised

theorem newPublications_reassigned (table : AuthorTable) (authorIds : List Nat) :
    newPublications (reassign { store with authors := table } entity) entity authorIds =
      newPublications store entity authorIds := by
  have sameTest : ∀ authorId,
      ((reassign { store with authors := table } entity).publications.any fun row =>
        row.entityId == entity.id && row.authorId == authorId) =
      store.publications.any fun row => row.entityId == entity.id && row.authorId == authorId := by
    intro authorId
    unfold reassign
    split
    · have perRow : ∀ row : AuthorPublication,
          ((reassignedRow entity row).entityId == entity.id &&
            (reassignedRow entity row).authorId == authorId) =
          (row.entityId == entity.id && row.authorId == authorId) := by
        intro row
        unfold reassignedRow
        split <;> rfl
      simp only [List.any_map, Function.comp_def, perRow]
    · rfl
  unfold newPublications
  simp only [sameTest]

theorem stage_ok_iff (table : AuthorTable) (authorIds : List Nat) :
    (∃ written, stageArtifacts { store with authors := table } entity authorIds = .ok written) ↔
      ((newPublications store entity authorIds).map AuthorPublication.authorId).Nodup := by
  unfold stageArtifacts
  dsimp only
  rw [newPublications_reassigned]
  split
  · rename_i double
    exact iff_of_false (fun wrong => (nomatch wrong.choose_spec)) double
  · rename_i distinct
    exact iff_of_true ⟨_, rfl⟩ (not_not.mp distinct)

theorem write_outcome (detectors : Detectors) (enabled : Bool) (store : Store) (entity : RawEntity) :
    ((∃ table, step python detectors store (.write enabled entity) =
        { store with authors := table }) ∧
      ¬ ∃ authorIds table written,
        resolveEntity python enabled store entity = .ok (some (authorIds, table)) ∧
          stageArtifacts { store with authors := table } entity authorIds = .ok written) ∨
    ∃ authorIds table written,
      resolveEntity python enabled store entity = .ok (some (authorIds, table)) ∧
        stageArtifacts { store with authors := table } entity authorIds = .ok written ∧
        step python detectors store (.write enabled entity) = written := by
  simp only [step, writeCoauthorArtifacts]
  cases resolved : resolveEntity python enabled store entity with
  | error failure =>
    refine .inl ⟨committed_authors resolved, ?_⟩
    rintro ⟨authorIds, table, written, wrong, _⟩
    cases wrong
  | ok outcome =>
    cases outcome with
    | none =>
      refine .inl ⟨⟨store.authors, rfl⟩, ?_⟩
      rintro ⟨authorIds, table, written, wrong, _⟩
      cases wrong
    | some pair =>
      obtain ⟨authorIds, table⟩ := pair
      dsimp only
      cases stage : stageArtifacts { store with authors := table } entity authorIds with
      | error raised =>
        refine .inl ⟨⟨table, rfl⟩, ?_⟩
        rintro ⟨otherIds, otherTable, written, same, staged⟩
        obtain ⟨rfl, rfl⟩ := Prod.mk.inj (Option.some.inj (Except.ok.inj same))
        cases stage.symm.trans staged
      | ok written => exact .inr ⟨authorIds, table, written, rfl, stage, rfl⟩

theorem write_cases (enabled : Bool) (store : Store) (entity : RawEntity) :
    (((step python detectors store (.write enabled entity)).publications = store.publications ∧
        (step python detectors store (.write enabled entity)).contributions = store.contributions ∧
        (step python detectors store (.write enabled entity)).edges = store.edges) ∧
      ¬ ∃ authorIds table, resolveEntity python enabled store entity = .ok (some (authorIds, table)) ∧
        ((newPublications store entity authorIds).map AuthorPublication.authorId).Nodup) ∨
    ∃ authorIds table, (resolveEntity python enabled store entity = .ok (some (authorIds, table)) ∧
        ((newPublications store entity authorIds).map AuthorPublication.authorId).Nodup) ∧
      Staged { store with authors := table } entity
        (step python detectors store (.write enabled entity)) := by
  rcases write_outcome detectors enabled store entity with
    ⟨⟨table, same⟩, unstaged⟩ | ⟨authorIds, table, written, resolved, staged, same⟩
  · rw [same]
    refine .inl ⟨⟨rfl, rfl, rfl⟩, ?_⟩
    rintro ⟨authorIds, table, resolved, distinct⟩
    obtain ⟨written, staged⟩ := (stage_ok_iff table authorIds).mpr distinct
    exact unstaged ⟨authorIds, table, written, resolved, staged⟩
  · rw [same]
    exact .inr ⟨authorIds, table, ⟨resolved, (stage_ok_iff table authorIds).mp ⟨written, staged⟩⟩,
      staged_of_stage staged⟩

theorem recorded_congr {first second : Store}
    (publications : second.publications = first.publications)
    (contributions : second.contributions = first.contributions) (recorded : Recorded first) :
    Recorded second := by
  refine ⟨?_, ?_⟩
  · rw [publications]
    exact recorded.oneScope
  · rw [publications, contributions]
    exact recorded.placed

theorem step_recorded (event : Event) (recorded : Recorded store) :
    Recorded (step python detectors store event) := by
  cases event with
  | write enabled entity =>
    rcases write_cases enabled store entity with
      ⟨⟨publications, contributions, _⟩, _⟩ | ⟨authorIds, table, _, staged⟩
    · exact recorded_congr publications contributions recorded
    · exact staged.recorded ⟨recorded.oneScope, recorded.placed⟩
  | merge winnerId loserId =>
    unfold step
    dsimp only
    split
    · split
      · rename_i served
        exact mergeAuthors_recorded served recorded
      · exact recorded
    · exact recorded
  | recompute scope => exact ⟨recorded.oneScope, recorded.placed⟩

theorem staged_counted_iff {table : AuthorTable} (recorded : Recorded store)
    (counted : Counted store) (staged : Staged { store with authors := table } entity written) :
    Counted written ↔
      ¬ (isReassigned store entity = true ∧
        ∃ row ∈ store.contributions, row.entityId = entity.id) := by
  have sameTest : isReassigned { store with authors := table } entity = isReassigned store entity :=
    rfl
  have sameContributions : (reassign { store with authors := table } entity).contributions =
      if isReassigned store entity then
        store.contributions.filter fun row => row.entityId ≠ entity.id
      else store.contributions := by
    unfold reassign
    rw [sameTest]
    split <;> rfl
  have sameEdges : (reassign { store with authors := table } entity).edges = store.edges := by
    unfold reassign
    split <;> rfl
  constructor
  · rintro after ⟨moves, row, member, own⟩
    obtain ⟨publication, published, ofIt, scope⟩ := recorded.placed row member
    have elsewhere : row.edge.scope ≠ scopeOf entity := by
      rw [← scope]
      exact (isReassigned_iff.mp moves).2 publication published (ofIt.trans own)
    have fewer : rowCount CoauthorContribution.edge
        (store.contributions.filter fun other => decide (other.entityId ≠ entity.id)) row.edge <
        rowCount CoauthorContribution.edge store.contributions row.edge :=
      rowCount_filter_lt _ member (by simp [own])
    have counts := staged.counts row.edge elsewhere
    rw [sameContributions, if_pos moves] at counts
    have entries := staged.entries row.edge elsewhere
    have equal := rowCount_eq_of_agrees counted (entries.symm.trans (after row.edge))
    rw [counts] at equal
    exact absurd equal (Nat.ne_of_gt fewer)
  · intro stays
    refine staged.counted ?_
    unfold Counted
    rw [sameContributions, sameEdges]
    split
    · rename_i moves
      have untouched : store.contributions.filter (fun row => row.entityId ≠ entity.id) =
          store.contributions := by
        refine List.filter_eq_self.mpr fun row member => ?_
        exact decide_eq_true fun own => stays ⟨moves, row, member, own⟩
      rw [untouched]
      exact counted
    · exact counted

theorem step_counted_iff (event : Event) (recorded : Recorded store) (counted : Counted store) :
    Counted (step python detectors store event) ↔ ¬ MovesContributions python store event := by
  cases event with
  | write enabled entity =>
    rcases write_cases enabled store entity with
      ⟨⟨_, contributions, edges⟩, unwritten⟩ | ⟨authorIds, table, written, staged⟩
    · refine iff_of_true ?_ fun moves => unwritten moves.1
      unfold Counted
      rw [contributions, edges]
      exact counted
    · rw [staged_counted_iff recorded counted staged]
      exact not_congr ⟨fun moves => ⟨⟨authorIds, table, written⟩, moves⟩, fun moves => moves.2⟩
  | merge winnerId loserId =>
    refine iff_of_true ?_ id
    unfold step
    dsimp only
    split
    · split
      · rename_i served
        exact mergeAuthors_counted served counted
      · exact counted
    · exact counted
  | recompute scope => exact iff_of_true counted id

def emptyStore : Store where
  authors := ⟨[], 0⟩
  publications := []
  contributions := []
  edges := []
  stats := []
  dirtyScopes := []
  suggestions := []

/-- The weights count the contributions in every state of a run exactly if no write of the run
moves an entity that has contributions. -/
theorem weights_counted_iff (python : Python) (detectors : Detectors) (events : List Event) :
    EveryState (step python detectors) Counted emptyStore events ↔
      EveryStep (step python detectors)
        (fun store event => ¬ MovesContributions python store event) emptyStore events := by
  have kept : ∀ store event, Recorded store → Recorded (step python detectors store event) :=
    fun _ event recorded => step_recorded event recorded
  have empty : Recorded emptyStore := ⟨nofun, nofun⟩
  exact everyState_iff_everyStep_within kept
    (fun _ event recorded counted => step_counted_iff event recorded counted) emptyStore events
    empty fun _ => rfl

def asciiPython : Python where
  nfd := id
  nfc := id
  combining := fun _ => false
  isAlpha := Char.isAlpha
  lower := List.map Char.toLower
  shown := fun _ => ""

def graphNodes (edges : Counter EdgeKey) : List Nat :=
  (edges.flatMap fun entry => [entry.1.authorA, entry.1.authorB]).eraseDups

def graphEdges (edges : Counter EdgeKey) : List (Nat × Nat) :=
  (edges.map fun entry =>
    (min entry.1.authorA entry.1.authorB, max entry.1.authorA entry.1.authorB)).eraseDups

def degree (edges : Counter EdgeKey) (node : Nat) : Nat :=
  (graphEdges edges).countP (fun pair => pair.1 == node) +
    (graphEdges edges).countP fun pair => pair.2 == node

def plainDetectors : Detectors where
  nodes := graphNodes
  edgeCount := fun edges => (graphEdges edges).length
  degree := degree
  degreeCentrality := fun edges node =>
    if (graphNodes edges).length ≤ 1 then 1
    else degree edges node / ((graphNodes edges).length - 1)
  bestPartition := fun _ _ => 0
  connectedComponents := fun _ _ => 0

def paper (orgId : Option Nat) : RawEntity where
  id := 1
  orgId := orgId
  domain := none
  attributesJson := .parsed (.object
    [("enrichment_authors", .array [.text "John Smith", .text "Amy Lee"])])

/-- The paper is written for no organization and then again for organization 9: the edge of
the first scope stays without a contribution. -/
theorem moved_paper_keeps_weight :
    let final := runEvents (step asciiPython plainDetectors) emptyStore
      [.write true (paper none), .write true (paper (some 9))]
    entryOf final.edges ⟨1, 2, ⟨0, "default"⟩⟩ = some 1 ∧
      rowCount CoauthorContribution.edge final.contributions ⟨1, 2, ⟨0, "default"⟩⟩ = 0 ∧
      ¬ Counted final := by
  have weight : entryOf (runEvents (step asciiPython plainDetectors) emptyStore
      [.write true (paper none), .write true (paper (some 9))]).edges ⟨1, 2, ⟨0, "default"⟩⟩ =
        some 1 := by decide
  have count : rowCount CoauthorContribution.edge
      (runEvents (step asciiPython plainDetectors) emptyStore
        [.write true (paper none), .write true (paper (some 9))]).contributions
      ⟨1, 2, ⟨0, "default"⟩⟩ = 0 := by decide
  refine ⟨weight, count, fun counted => ?_⟩
  have agrees := counted ⟨1, 2, ⟨0, "default"⟩⟩
  rw [weight, if_pos count] at agrees
  cases agrees

end Ukip.Coauthorship.Weights
