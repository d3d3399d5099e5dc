import Ukip.Coauthorship.Rerun

/-!
# One write of an entity's rows

`write_coauthor_artifacts` on any state of the tables.  Of the authors that it takes each has
one publication afterwards, each two of them one contribution, and their edge has one unit of
weight more where the pair was not recorded before.
-/

namespace Ukip.Coauthorship.SingleWrite

open Foundation.LogCount Foundation.Tally Identity Artifacts Weights Merges Authors Rerun

def publicationKey (row : AuthorPublication) : Nat × Nat := (row.authorId, row.entityId)

def contributionKey (row : CoauthorContribution) : Nat × Nat × Nat :=
  (row.entityId, row.edge.authorA, row.edge.authorB)

structure Keyed (store : Store) : Prop where
  publications : (store.publications.map publicationKey).Nodup
  contributions : (store.contributions.map contributionKey).Nodup

def publicationsOf (store : Store) (entityId authorId : Nat) : Nat :=
  (store.publications.map publicationKey).count (authorId, entityId)

def contributionsOf (store : Store) (entityId first second : Nat) : Nat :=
  (store.contributions.map contributionKey).count (entityId, min first second, max first second)

variable {python : Python} {store : Store} {entity : RawEntity} {entityId authorId : Nat}

theorem mem_publicationKeys {publications : List AuthorPublication} :
    (authorId, entityId) ∈ publications.map publicationKey ↔
      publishedBy publications entityId authorId = true := by
  simp [publishedBy, publicationKey, List.mem_map, and_comm]

theorem mem_contributionKeys {contributions : List CoauthorContribution} {entityId : Nat}
    {pair : Nat × Nat} :
    (entityId, min pair.1 pair.2, max pair.1 pair.2) ∈ contributions.map contributionKey ↔
      recorded contributions entityId pair = true := by
  simp [recorded, contributionKey, List.mem_map, and_assoc]

theorem contributionsOf_comm (store : Store) (entityId first second : Nat) :
    contributionsOf store entityId first second = contributionsOf store entityId second first := by
  simp only [contributionsOf, min_comm, max_comm]

/-- What the loop does to the log and to the edges of its scope: as much weight is added as
there are new contributions, and only the pairs of the loop are touched. -/
structure Increments (entityId : Nat) (scope : Scope) (pairs : List (Nat × Nat))
    (before after : Store) : Prop where
  keyed : Keyed before → Keyed after
  balance : ∀ first second,
    weight after.edges first second scope + contributionsOf before entityId first second =
      weight before.edges first second scope + contributionsOf after entityId first second
  entries : ∀ key : EdgeKey,
    (∀ pair ∈ pairs, pair.1 ≠ pair.2 → key ≠ ⟨min pair.1 pair.2, max pair.1 pair.2, scope⟩) →
      entryOf after.edges key = entryOf before.edges key
  logged : ∀ key : Nat × Nat × Nat,
    (∀ pair ∈ pairs, pair.1 ≠ pair.2 → key ≠ (entityId, min pair.1 pair.2, max pair.1 pair.2)) →
      (after.contributions.map contributionKey).count key =
        (before.contributions.map contributionKey).count key

theorem increments_idle (entityId : Nat) (scope : Scope) (pairs : List (Nat × Nat)) (store : Store) :
    Increments entityId scope pairs store store :=
  ⟨id, fun _ _ => rfl, fun _ _ => rfl, fun _ _ => rfl⟩

theorem increments_pair (entityId : Nat) (scope : Scope) (store : Store) (pair : Nat × Nat) :
    Increments entityId scope [pair] store (recordPair entityId scope store pair) := by
  unfold recordPair
  dsimp only
  split
  · exact increments_idle entityId scope [pair] store
  · rename_i different
    split
    · exact increments_idle entityId scope [pair] store
    · rename_i absent
      have fresh : (entityId, min pair.1 pair.2, max pair.1 pair.2) ∉
          store.contributions.map contributionKey := fun there =>
        absent (mem_contributionKeys.mp there)
      refine ⟨fun keyed => ⟨keyed.publications, ?_⟩, fun first second => ?_, fun key apart => ?_,
        fun key apart => ?_⟩
      · rw [List.map_append, List.map_singleton]
        exact keyed.contributions.append (List.nodup_singleton _)
          (List.disjoint_singleton.mpr fresh)
      · -- the new row and the bumped edge are of one pair
        unfold weight contributionsOf
        rw [entryOf_bump, List.map_append, List.count_append]
        by_cases same : min pair.1 pair.2 = min first second ∧ max pair.1 pair.2 = max first second
        · simp [contributionKey, same.1, same.2]
          omega
        · have otherEdge : (⟨min pair.1 pair.2, max pair.1 pair.2, scope⟩ : EdgeKey) ≠
              ⟨min first second, max first second, scope⟩ := by
            simpa using same
          have otherRow : (entityId, min pair.1 pair.2, max pair.1 pair.2) ≠
              (entityId, min first second, max first second) := by
            simpa using same
          rw [if_neg otherEdge, List.map_singleton, List.count_singleton]
          simp [contributionKey, otherRow]
      · have other := apart pair (List.mem_singleton_self pair) different
        rw [entryOf_bump, if_neg fun same => other same.symm]
      · have other := apart pair (List.mem_singleton_self pair) different
        rw [List.map_append, List.count_append, List.map_singleton, List.count_singleton]
        simp [contributionKey, Ne.symm other]

theorem increments_pairs (entityId : Nat) (scope : Scope) (pairs : List (Nat × Nat)) (store : Store) :
    Increments entityId scope pairs store (pairs.foldl (recordPair entityId scope) store) := by
  induction pairs generalizing store with
  | nil => exact increments_idle entityId scope [] store
  | cons pair rest ih =>
    have first := increments_pair entityId scope store pair
    have later := ih (recordPair entityId scope store pair)
    refine ⟨fun keyed => later.keyed (first.keyed keyed), fun one other => ?_, fun key apart => ?_,
      fun key apart => ?_⟩
    · have here := first.balance one other
      have there := later.balance one other
      rw [List.foldl_cons]
      omega
    · obtain ⟨here, others⟩ := List.forall_mem_cons.mp apart
      exact (later.entries key others).trans
        (first.entries key (List.forall_mem_singleton.mpr here))
    · obtain ⟨here, others⟩ := List.forall_mem_cons.mp apart
      exact (later.logged key others).trans
        (first.logged key (List.forall_mem_singleton.mpr here))

theorem reassign_publicationKeys (store : Store) (entity : RawEntity) :
    (reassign store entity).publications.map publicationKey =
      store.publications.map publicationKey := by
  unfold reassign
  split
  · have perRow : ∀ row, publicationKey (reassignedRow entity row) = publicationKey row := by
      intro row
      unfold reassignedRow
      split <;> rfl
    simp only [List.map_map, Function.comp_def, perRow]
  · rfl

theorem reassign_keyed (keyed : Keyed store) : Keyed (reassign store entity) := by
  refine ⟨?_, ?_⟩
  · rw [reassign_publicationKeys]
    exact keyed.publications
  · unfold reassign
    split
    · exact keyed.contributions.sublist (List.filter_sublist.map contributionKey)
    · exact keyed.contributions

theorem reassign_edges (store : Store) (entity : RawEntity) :
    (reassign store entity).edges = store.edges := by
  unfold reassign
  split <;> rfl

theorem newPublications_keys (store : Store) (entity : RawEntity) (authorIds : List Nat) :
    (newPublications store entity authorIds).map publicationKey =
      (authorIds.filter fun authorId => !publishedBy store.publications entity.id authorId).map
        fun authorId => (authorId, entity.id) := by
  rw [← newPublications_ids, List.map_map]
  refine List.map_congr_left fun row added => ?_
  have own := (newPublication_own added).1
  simp [publicationKey, own]

variable {authorIds : List Nat} {after : Store}

theorem flushed_keyed (keyed : Keyed store)
    (staged : stageArtifacts store entity authorIds = .ok after) :
    Keyed (flushed store entity authorIds) := by
  have apart : ((newPublications (reassign store entity) entity authorIds).map
      AuthorPublication.authorId).Nodup := by
    rw [newPublications_reassigned store.authors authorIds]
    exact (stage_ok_iff store.authors authorIds).mp ⟨after, staged⟩
  have before : Keyed (reassign store entity) := reassign_keyed keyed
  refine ⟨?_, before.contributions⟩
  unfold flushed
  rw [List.map_append, newPublications_keys]
  rw [newPublications_ids] at apart
  refine before.publications.append (apart.map fun first second same => (Prod.mk.inj same).1) ?_
  intro key old new
  obtain ⟨authorId, unpublished, rfl⟩ := List.mem_map.mp new
  have there := mem_publicationKeys.mp old
  have absent := (List.mem_filter.mp unpublished).2
  simp [there] at absent

theorem flushed_publications (other : ¬ (entityId = entity.id ∧ authorId ∈ authorIds)) :
    publicationsOf (flushed store entity authorIds) entityId authorId =
      publicationsOf store entityId authorId := by
  have none : (authorId, entityId) ∉ (newPublications (reassign store entity) entity authorIds).map
      publicationKey := by
    rw [newPublications_keys]
    intro added
    obtain ⟨found, kept, same⟩ := List.mem_map.mp added
    obtain ⟨rfl, rfl⟩ := Prod.mk.inj same
    exact other ⟨rfl, (List.mem_filter.mp kept).1⟩
  unfold publicationsOf flushed
  rw [List.map_append, List.count_append, List.count_eq_zero.mpr none, reassign_publicationKeys,
    Nat.add_zero]

/-- What a write leaves of the rows of its entity and of all others, for the authors that it
takes. -/
structure Written (entity : RawEntity) (authorIds : List Nat) (store after : Store) : Prop where
  keyed : Keyed after
  publications : ∀ authorId ∈ authorIds, publicationsOf after entity.id authorId = 1
  contributions : ∀ first ∈ authorIds, ∀ second ∈ authorIds, first ≠ second →
    contributionsOf after entity.id first second = 1
  weights : ∀ first ∈ authorIds, ∀ second ∈ authorIds, first ≠ second →
    weight after.edges first second (scopeOf entity) =
      weight store.edges first second (scopeOf entity) +
        if contributionsOf (reassign store entity) entity.id first second = 0 then 1 else 0
  otherPublications : ∀ entityId authorId, ¬ (entityId = entity.id ∧ authorId ∈ authorIds) →
    publicationsOf after entityId authorId = publicationsOf store entityId authorId
  otherContributions : ∀ entityId first second,
    ¬ (entityId = entity.id ∧ first ∈ authorIds ∧ second ∈ authorIds ∧ first ≠ second) →
      contributionsOf after entityId first second =
        contributionsOf (reassign store entity) entityId first second
  otherEdges : ∀ key : EdgeKey,
    ¬ (key.scope = scopeOf entity ∧ key.authorA ∈ authorIds ∧ key.authorB ∈ authorIds ∧
        key.authorA ≠ key.authorB) →
      entryOf after.edges key = entryOf store.edges key

theorem counted_once (keyed : Keyed after)
    (pairs : ∀ pair ∈ combinations authorIds, pair.1 ≠ pair.2 →
      recorded after.contributions entity.id pair = true) {first second : Nat}
    (firstIn : first ∈ authorIds) (secondIn : second ∈ authorIds) (different : first ≠ second) :
    contributionsOf after entity.id first second = 1 := by
  have counted : ∀ pair ∈ combinations authorIds, pair.1 ≠ pair.2 →
      contributionsOf after entity.id pair.1 pair.2 = 1 := fun pair member apart =>
    List.count_eq_one_of_mem keyed.contributions
      (mem_contributionKeys.mpr (pairs pair member apart))
  rcases combinations_complete firstIn secondIn with equal | straight | crossed
  · exact absurd equal different
  · exact counted _ straight different
  · rw [contributionsOf_comm]
    exact counted _ crossed different.symm

theorem apart_of_combinations {entityId first second : Nat}
    (other : ¬ (entityId = entity.id ∧ first ∈ authorIds ∧ second ∈ authorIds ∧ first ≠ second))
    {pair : Nat × Nat} (member : pair ∈ combinations authorIds) (different : pair.1 ≠ pair.2) :
    (entityId, min first second, max first second) ≠
      (entity.id, min pair.1 pair.2, max pair.1 pair.2) := by
  intro equal
  obtain ⟨sameEntity, low, high⟩ : entityId = entity.id ∧
      min first second = min pair.1 pair.2 ∧ max first second = max pair.1 pair.2 := by
    simpa using equal
  obtain ⟨firstIn, secondIn⟩ := mem_combinations authorIds pair member
  have either : (first = pair.1 ∧ second = pair.2) ∨ (first = pair.2 ∧ second = pair.1) := by omega
  rcases either with ⟨rfl, rfl⟩ | ⟨rfl, rfl⟩
  · exact other ⟨sameEntity, firstIn, secondIn, different⟩
  · exact other ⟨sameEntity, secondIn, firstIn, different.symm⟩

theorem written_of_stage (keyed : Keyed store)
    (staged : stageArtifacts store entity authorIds = .ok after) :
    Written entity authorIds store after := by
  have left := coauthored_of_stage staged
  have start : Keyed (flushed store entity authorIds) := flushed_keyed keyed staged
  obtain rfl := stageArtifacts_ok staged
  have loop := increments_pairs entity.id (scopeOf entity) (combinations authorIds)
    (flushed store entity authorIds)
  have same := (records_pairs entity.id (scopeOf entity) (combinations authorIds)
    (flushed store entity authorIds)).publications
  have final := loop.keyed start
  have once : ∀ first ∈ authorIds, ∀ second ∈ authorIds, first ≠ second →
      contributionsOf ((combinations authorIds).foldl (recordPair entity.id (scopeOf entity))
        (flushed store entity authorIds)) entity.id first second = 1 :=
    fun _ firstIn _ secondIn different =>
      counted_once final left.pairs firstIn secondIn different
  refine ⟨⟨final.publications, final.contributions⟩, ?_, once, ?_, ?_, ?_, ?_⟩
  · intro authorId member
    exact List.count_eq_one_of_mem final.publications
      (mem_publicationKeys.mpr (left.published authorId member))
  · intro first firstIn second secondIn different
    have balance := loop.balance first second
    have before : contributionsOf (flushed store entity authorIds) entity.id first second =
        contributionsOf (reassign store entity) entity.id first second := rfl
    have edges : (flushed store entity authorIds).edges = store.edges := reassign_edges store entity
    have bound : contributionsOf (reassign store entity) entity.id first second ≤ 1 :=
      List.nodup_iff_count_le_one.mp (reassign_keyed keyed).contributions _
    rw [once first firstIn second secondIn different, before, edges] at balance
    dsimp only
    split <;> omega
  · intro entityId authorId other
    unfold publicationsOf
    rw [same]
    exact flushed_publications other
  · intro entityId first second other
    exact loop.logged _ fun pair member different => apart_of_combinations other member different
  · intro key other
    refine (loop.entries key fun pair member different equal => other ?_).trans
      (congrArg (entryOf · key) (reassign_edges store entity))
    obtain ⟨firstIn, secondIn⟩ := mem_combinations authorIds pair member
    subst equal
    refine ⟨rfl, ?_, ?_, ?_⟩
    · rcases min_choice pair.1 pair.2 with low | low <;> simpa only [low]
    · rcases max_choice pair.1 pair.2 with high | high <;> simpa only [high]
    · dsimp only
      omega

theorem written_touched {table : AuthorTable}
    (written : Written entity authorIds { store with authors := table } after) :
    Written entity authorIds store after := by
  have sameLog : (reassign { store with authors := table } entity).contributions =
      (reassign store entity).contributions := by
    unfold reassign
    rw [show isReassigned { store with authors := table } entity = isReassigned store entity from rfl]
    split <;> rfl
  have sameCount : ∀ entityId first second,
      contributionsOf (reassign { store with authors := table } entity) entityId first second =
        contributionsOf (reassign store entity) entityId first second := by
    intro entityId first second
    unfold contributionsOf
    rw [sameLog]
  refine ⟨written.keyed, written.publications, written.contributions, ?_,
    written.otherPublications, ?_, written.otherEdges⟩
  · intro first firstIn second secondIn different
    rw [← sameCount]
    exact written.weights first firstIn second secondIn different
  · intro entityId first second other
    rw [← sameCount]
    exact written.otherContributions entityId first second other

/-- The authors behind some names: each name has one, and names of different keys have different
ones. -/
structure Identified (python : Python) (table : AuthorTable) (names : List String) : Prop where
  found : ∀ name ∈ names, ∃ authorId, idOf table (nameKey python name) = some authorId
  apart : ∀ first ∈ names, ∀ second ∈ names,
    idOf table (nameKey python first) = idOf table (nameKey python second) →
      nameKey python first = nameKey python second

theorem identified_touched {names : List String} (numbered : Numbered store.authors)
    (filled : ∀ name ∈ names, nameKey python name ≠ "") :
    Identified python (names.foldl (touch python) store.authors) names := by
  have found : ∀ name ∈ names, ∃ authorId,
      idOf (names.foldl (touch python) store.authors) (nameKey python name) = some authorId :=
    fun name member => idOf_seen member (filled name member)
  refine ⟨found, fun first firstIn second _ same => ?_⟩
  obtain ⟨authorId, here⟩ := found first firstIn
  exact idOf_inj (touches_numbered names numbered) here (same ▸ here)

/-- Fewer than two names leave the tables as they are.  Of longer lists the first
`maxAuthorsForCoauth` are written, once: a second write adds no row and no weight. -/
theorem write_once (python : Python) (store : Store) (entity : RawEntity) (names : List String)
    (wellformed : Wellformed store) (keyed : Keyed store)
    (read : authorsFromAttrs python entity.attributesJson = .ok names) :
    (names.length < 2 → writeCoauthorArtifacts python true store entity = .ok store) ∧
      (2 ≤ names.length →
        (∀ name ∈ names.take maxAuthorsForCoauth, nameKey python name ≠ "") →
        (((names.take maxAuthorsForCoauth).map (nameKey python)).filter fun key =>
          !published store entity key).Nodup →
        ∃ after, writeCoauthorArtifacts python true store entity = .ok after ∧
          Identified python after.authors (names.take maxAuthorsForCoauth) ∧
          Written entity (idsIn python after.authors (names.take maxAuthorsForCoauth)) store after ∧
          ∃ again, writeCoauthorArtifacts python true after entity = .ok again ∧
            again.publications = after.publications ∧ again.contributions = after.contributions ∧
            again.edges = after.edges) := by
  refine ⟨fun few => ?_, fun enough filled distinct => ?_⟩
  · simp [writeCoauthorArtifacts, resolveEntity, read, few]
  · have many : ¬ names.length < 2 := Nat.not_lt.mpr enough
    have ready : Ready store store entity :=
      ⟨Extends.refl store.authors, wellformed.numbered, fun _ => rfl⟩
    obtain ⟨after, staged⟩ := (stage_through_iff wellformed ready _ filled).mpr distinct
    have served : writeCoauthorArtifacts python true store entity = .ok after := by
      rw [writeCoauthors_filled read many filled]
      dsimp only
      rw [staged]
    have left := coauthored_of_stage staged
    have identified : Identified python after.authors (names.take maxAuthorsForCoauth) := by
      rw [left.authors]
      exact identified_touched wellformed.numbered filled
    have ids : idsIn python after.authors (names.take maxAuthorsForCoauth) =
        idsIn python ((names.take maxAuthorsForCoauth).foldl (touch python) store.authors)
          (names.take maxAuthorsForCoauth) := by
      rw [left.authors]
    have touched : Keyed { store with
        authors := (names.take maxAuthorsForCoauth).foldl (touch python) store.authors } :=
      ⟨keyed.publications, keyed.contributions⟩
    have written : Written entity
        (idsIn python ((names.take maxAuthorsForCoauth).foldl (touch python) store.authors)
          (names.take maxAuthorsForCoauth)) store after :=
      written_touched (written_of_stage touched staged)
    have some : idsIn python after.authors (names.take maxAuthorsForCoauth) ≠ [] := by
      have positive : 0 < min maxAuthorsForCoauth names.length :=
        lt_min (by decide) (by omega)
      intro empty
      have length := congrArg List.length empty
      simp only [idsIn, List.length_map, List.length_take, List.length_nil] at length
      omega
    exact ⟨after, served, identified, ids ▸ written, _,
      writeCoauthors_again read many filled identified.found (left.current (ids ▸ some))
        (ids ▸ left.published) (ids ▸ left.pairs), rfl, rfl, rfl⟩

theorem write_once_onePaper :
    ∃ after, writeCoauthorArtifacts asciiPython true emptyStore
        (paperBy 1 ["John Smith", "Amy Lee"]) = .ok after ∧
      Identified asciiPython after.authors ["John Smith", "Amy Lee"] ∧
      Written (paperBy 1 ["John Smith", "Amy Lee"])
        (idsIn asciiPython after.authors ["John Smith", "Amy Lee"]) emptyStore after ∧
      ∃ again, writeCoauthorArtifacts asciiPython true after
          (paperBy 1 ["John Smith", "Amy Lee"]) = .ok again ∧
        again.publications = after.publications ∧ again.contributions = after.contributions ∧
        again.edges = after.edges :=
  (write_once asciiPython emptyStore (paperBy 1 ["John Smith", "Amy Lee"])
    ["John Smith", "Amy Lee"] emptyStore_wellformed ⟨List.nodup_nil, List.nodup_nil⟩
    (by decide +kernel)).2 (by decide) (by decide +kernel) (by decide +kernel)

def sixteenNames : List String :=
  "abcdefghijklmnop".toList.map fun char => String.ofList ['K', 'i', 'm', ' ', 'L', char]

/-- All sixteen names have keys of their own, and the last one becomes no author. -/
theorem last_name_not_written :
    authorsFromAttrs asciiPython (paperBy 1 sixteenNames).attributesJson = .ok sixteenNames ∧
      (sixteenNames.map (nameKey asciiPython)).Nodup ∧
      ∃ after, writeCoauthorArtifacts asciiPython true emptyStore (paperBy 1 sixteenNames) =
          .ok after ∧
        after.publications.length = 15 ∧ after.contributions.length = 105 ∧
        idOf after.authors (nameKey asciiPython "Kim Lp") = none ∧ "Kim Lp" ∈ sixteenNames := by
  refine ⟨by decide +kernel, by decide +kernel, ?_⟩
  have counts : ((writeCoauthorArtifacts asciiPython true emptyStore
      (paperBy 1 sixteenNames)).toOption.map fun after =>
        (after.publications.length, after.contributions.length,
          idOf after.authors (nameKey asciiPython "Kim Lp"))) = some (15, 105, none) := by
    decide +kernel
  cases served : writeCoauthorArtifacts asciiPython true emptyStore (paperBy 1 sixteenNames) with
  | error failure =>
    rw [served] at counts
    cases counts
  | ok after =>
    rw [served] at counts
    obtain ⟨publications, contributions, absent⟩ :
        after.publications.length = 15 ∧ after.contributions.length = 105 ∧
          idOf after.authors (nameKey asciiPython "Kim Lp") = none := by
      simpa [Except.toOption] using counts
    exact ⟨after, rfl, publications, contributions, absent, by decide +kernel⟩

end Ukip.Coauthorship.SingleWrite
