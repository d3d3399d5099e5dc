import Ukip.Coauthorship.Migration

/-!
# A second migration

What one turn of the walk leaves for its entity, the turns of the other entities keep, and a
turn that finds it adds nothing.
-/

namespace Ukip.Coauthorship.Rerun

open Foundation.FallibleLoop Foundation.Tally Identity Artifacts Weights Merges Authors Suggestions
open Migration

variable (python : Python)

def publishedBy (publications : List AuthorPublication) (entityId authorId : Nat) : Bool :=
  publications.any fun row => row.entityId == entityId && row.authorId == authorId

def published (store : Store) (entity : RawEntity) (key : String) : Bool :=
  match idOf store.authors key with
  | none => false
  | some authorId => publishedBy store.publications entity.id authorId

def walkedNames (entity : RawEntity) : List String :=
  match shapeOf python entity with
  | .ok (.selfPair names) => names
  | .ok (.coauthors names) => names.take maxAuthorsForCoauth
  | _ => []

/-- The attributes are an object, every name that is walked has a key, and where the co-author
rows are written, the names without a publication have different keys. -/
def Accepted (store : Store) (entity : RawEntity) : Prop :=
  (∃ shape, shapeOf python entity = .ok shape) ∧
  (∀ name ∈ walkedNames python entity, nameKey python name ≠ "") ∧
  ∀ names, shapeOf python entity = .ok (.coauthors names) →
    (((walkedNames python entity).map (nameKey python)).filter fun key =>
      !published store entity key).Nodup

/-- Ids and keys of the authors are unique, and a publication is by one of them. -/
structure Wellformed (store : Store) : Prop where
  numbered : Numbered store.authors
  keys : KeysDistinct store.authors
  published : ∀ row ∈ store.publications, row.authorId ∈ store.authors.rows.map Author.id

variable {python} {store : Store} {entity : RawEntity}

/-- The author has a publication of the entity, and no other row is touched. -/
structure Publishes (entity : RawEntity) (authorId : Nat) (store after : Store) : Prop where
  authors : after.authors = store.authors
  contributions : after.contributions = store.contributions
  edges : after.edges = store.edges
  kept : ∀ row ∈ store.publications, row ∈ after.publications
  own : ∀ row ∈ after.publications, row ∈ store.publications ∨ row.entityId = entity.id
  present : publishedBy after.publications entity.id authorId = true
  idle : publishedBy store.publications entity.id authorId = true → after = store

theorem selfPublication_publishes (store : Store) (entity : RawEntity) (authorId : Nat) :
    Publishes entity authorId store (selfPublication store entity authorId) := by
  have sameTest : (store.publications.any fun row =>
      row.authorId == authorId && row.entityId == entity.id) =
      publishedBy store.publications entity.id authorId := by
    unfold publishedBy
    exact List.any_congr rfl fun row => Bool.and_comm _ _
  unfold selfPublication
  rw [sameTest]
  by_cases present : publishedBy store.publications entity.id authorId = true
  · rw [if_pos present]
    exact ⟨rfl, rfl, rfl, fun _ member => member, fun _ member => .inl member, present,
      fun _ => rfl⟩
  · rw [if_neg present]
    refine ⟨rfl, rfl, rfl, fun _ member => List.mem_append_left _ member, ?_, ?_,
      fun there => absurd there present⟩
    · intro row member
      rcases List.mem_append.mp member with old | new
      · exact .inl old
      · obtain rfl := List.mem_singleton.mp new
        exact .inr rfl
    · simp [publishedBy]

variable (names : List String)

theorem writeSelfPair_ok_iff (committed store : Store) :
    (∃ after, writeSelfPair python entity committed store names = .ok after) ↔
      ∀ name ∈ names, nameKey python name ≠ "" := by
  induction names generalizing committed store with
  | nil => exact iff_of_true ⟨store, rfl⟩ nofun
  | cons name rest ih =>
    rw [List.forall_mem_cons]
    by_cases empty : nameKey python name = ""
    · refine iff_of_false ?_ fun filled => filled.1 empty
      simp only [writeSelfPair, getOrCreate_empty empty]
      exact fun wrong => (nomatch wrong.choose_spec)
    · simp only [writeSelfPair, getOrCreate_id store.authors empty]
      rw [ih]
      exact ⟨fun filled => ⟨empty, filled⟩, fun filled => filled.2⟩

/-- What the branch leaves: its names seen, a publication of each, and nothing else changed. -/
structure SelfPaired (python : Python) (entity : RawEntity) (names : List String)
    (store after : Store) : Prop where
  authors : after.authors = names.foldl (touch python) store.authors
  contributions : after.contributions = store.contributions
  edges : after.edges = store.edges
  kept : ∀ row ∈ store.publications, row ∈ after.publications
  own : ∀ row ∈ after.publications, row ∈ store.publications ∨ row.entityId = entity.id
  recorded : ∀ name ∈ names, ∃ authorId, idOf after.authors (nameKey python name) = some authorId ∧
    publishedBy after.publications entity.id authorId = true

theorem publishedBy_mono {first second : List AuthorPublication} {entityId authorId : Nat}
    (kept : ∀ row ∈ first, row ∈ second) (present : publishedBy first entityId authorId = true) :
    publishedBy second entityId authorId = true := by
  obtain ⟨row, member, own⟩ := List.any_eq_true.mp present
  exact List.any_eq_true.mpr ⟨row, kept row member, own⟩

theorem selfPaired_of_write {committed store after : Store}
    (served : writeSelfPair python entity committed store names = .ok after) :
    SelfPaired python entity names store after := by
  induction names generalizing committed store with
  | nil =>
    obtain rfl := Except.ok.inj served
    exact ⟨rfl, rfl, rfl, fun _ member => member, fun _ member => .inl member,
      nofun⟩
  | cons name rest ih =>
    by_cases empty : nameKey python name = ""
    · simp only [writeSelfPair, getOrCreate_empty empty] at served
      cases served
    · simp only [writeSelfPair, getOrCreate_id store.authors empty] at served
      have later := ih served
      have here := selfPublication_publishes
        { store with authors := touch python store.authors name } entity
        ((idOf store.authors (nameKey python name)).getD (store.authors.lastId + 1))
      have found := idOf_touch store.authors name (nameKey python name) empty
      rw [if_pos rfl] at found
      refine ⟨?_, ?_, ?_, ?_, ?_, ?_⟩
      · rw [later.authors, here.authors]
        rfl
      · exact later.contributions.trans here.contributions
      · exact later.edges.trans here.edges
      · exact fun row member => later.kept row (here.kept row member)
      · intro row member
        rcases later.own row member with before | own
        · exact here.own row before
        · exact .inr own
      · refine List.forall_mem_cons.mpr ⟨?_, later.recorded⟩
        refine ⟨_, ?_, publishedBy_mono later.kept here.present⟩
        rw [later.authors, here.authors]
        exact (touches_extend rest _).kept _ _ found

theorem writeSelfPair_again (committed store : Store)
    (filled : ∀ name ∈ names, nameKey python name ≠ "") (recorded : ∀ name ∈ names, ∃ authorId,
      idOf store.authors (nameKey python name) = some authorId ∧
        publishedBy store.publications entity.id authorId = true) :
    writeSelfPair python entity committed store names =
      .ok { store with authors := names.foldl (touch python) store.authors } := by
  induction names generalizing committed store with
  | nil => rfl
  | cons name rest ih =>
    have empty : nameKey python name ≠ "" := filled name List.mem_cons_self
    obtain ⟨authorId, found, present⟩ := recorded name List.mem_cons_self
    have idle := (selfPublication_publishes
      { store with authors := touch python store.authors name } entity authorId).idle present
    simp only [writeSelfPair, getOrCreate_id store.authors empty, found, Option.getD_some, idle]
    rw [ih _ _ (fun other member => filled other (List.mem_cons_of_mem name member)) ?_]
    · rfl
    · intro other member
      obtain ⟨otherId, otherFound, otherPresent⟩ :=
        recorded other (List.mem_cons_of_mem name member)
      exact ⟨otherId, (touch_extends store.authors name).kept _ _ otherFound, otherPresent⟩

variable {names : List String}

theorem shape_coauthors (shape : shapeOf python entity = .ok (.coauthors names)) :
    authorsFromAttrs python entity.attributesJson = .ok names ∧ ¬ names.length < 2 := by
  unfold shapeOf at shape
  cases read : authorsFromAttrs python entity.attributesJson with
  | error raised =>
    rw [read] at shape
    cases shape
  | ok all =>
    rw [read] at shape
    have branch := Except.ok.inj shape
    split at branch
    · cases branch
    rename_i enough
    split at branch
    · cases branch
    obtain rfl := Shape.coauthors.inj branch
    exact ⟨rfl, enough⟩

def idsIn (python : Python) (table : AuthorTable) (names : List String) : List Nat :=
  names.map fun name => (idOf table (nameKey python name)).getD 0

theorem writeCoauthors_filled (read : authorsFromAttrs python entity.attributesJson = .ok names)
    (enough : ¬ names.length < 2)
    (filled : ∀ name ∈ names.take maxAuthorsForCoauth, nameKey python name ≠ "") :
    writeCoauthorArtifacts python true store entity =
      let table := (names.take maxAuthorsForCoauth).foldl (touch python) store.authors
      match stageArtifacts { store with authors := table } entity
          (idsIn python table (names.take maxAuthorsForCoauth)) with
      | .error raised => .error ⟨raised, { store with authors := table }⟩
      | .ok written => .ok written := by
  have through := resolveAuthors_filled (names.take maxAuthorsForCoauth) store.authors filled
  simp only [writeCoauthorArtifacts, resolveEntity, read, through, if_neg enough]
  rfl

theorem writeCoauthors_unfilled (shape : shapeOf python entity = .ok (.coauthors names))
    {name : String} (member : name ∈ names.take maxAuthorsForCoauth)
    (empty : nameKey python name = "") :
    ∃ failure, writeCoauthorArtifacts python true store entity = .error failure := by
  obtain ⟨read, enough⟩ := shape_coauthors shape
  obtain ⟨⟨raised, table⟩, stopped⟩ : ∃ failure,
      resolveAuthors python store.authors (names.take maxAuthorsForCoauth) = .error failure :=
    resolveAuthors_unfilled store.authors member empty
  simp only [writeCoauthorArtifacts, resolveEntity, read, stopped, if_neg enough]
  exact ⟨_, rfl⟩

variable {after : Store}

theorem writeCoauthors_ok_iff (shape : shapeOf python entity = .ok (.coauthors names)) :
    writeCoauthorArtifacts python true store entity = .ok after ↔
      (∀ name ∈ names.take maxAuthorsForCoauth, nameKey python name ≠ "") ∧
        stageArtifacts
          { store with
            authors := (names.take maxAuthorsForCoauth).foldl (touch python) store.authors } entity
          (idsIn python ((names.take maxAuthorsForCoauth).foldl (touch python) store.authors)
            (names.take maxAuthorsForCoauth)) = .ok after := by
  obtain ⟨read, enough⟩ := shape_coauthors shape
  constructor
  · intro served
    have filled : ∀ name ∈ names.take maxAuthorsForCoauth, nameKey python name ≠ "" := by
      intro name member empty
      obtain ⟨failure, raised⟩ : ∃ failure,
          writeCoauthorArtifacts python true store entity = .error failure :=
        writeCoauthors_unfilled shape member empty
      cases raised.symm.trans served
    refine ⟨filled, ?_⟩
    rw [writeCoauthors_filled read enough filled] at served
    dsimp only at served
    split at served
    · cases served
    rename_i written staged
    obtain rfl := Except.ok.inj served
    exact staged
  · rintro ⟨filled, staged⟩
    rw [writeCoauthors_filled read enough filled]
    dsimp only
    rw [staged]

theorem newPublications_ids (store : Store) (entity : RawEntity) (authorIds : List Nat) :
    (newPublications store entity authorIds).map AuthorPublication.authorId =
      authorIds.filter fun authorId => !publishedBy store.publications entity.id authorId := by
  have perId : ∀ (ids : List Nat) (position : Nat),
      ((ids.zipIdx position).filterMap fun placed =>
        if store.publications.any fun row =>
            row.entityId == entity.id && row.authorId == placed.1 then none
        else some (⟨placed.1, entity.id, scopeOf entity, placed.2⟩ : AuthorPublication)).map
          AuthorPublication.authorId =
      ids.filter fun authorId => !publishedBy store.publications entity.id authorId := by
    intro ids
    induction ids with
    | nil => exact fun _ => rfl
    | cons authorId rest ih =>
      intro position
      rw [List.zipIdx_cons, List.filterMap_cons, List.filter_cons]
      unfold publishedBy at ih ⊢
      dsimp only
      split
      · rename_i skipped
        split at skipped
        · rename_i present
          simp only [present, Bool.not_true, Bool.false_eq_true, if_false]
          exact ih (position + 1)
        · cases skipped
      · rename_i row kept
        split at kept
        · cases kept
        rename_i absent
        obtain rfl := Option.some.inj kept
        have flag := Bool.eq_false_iff.mpr absent
        simp only [flag, Bool.not_false, if_true, List.map_cons]
        exact congrArg (authorId :: ·) (ih (position + 1))
  exact perId authorIds 1

def recorded (contributions : List CoauthorContribution) (entityId : Nat) (pair : Nat × Nat) : Bool :=
  contributions.any fun row => row.entityId == entityId &&
    row.edge.authorA == min pair.1 pair.2 && row.edge.authorB == max pair.1 pair.2

theorem recorded_mono {first second : List CoauthorContribution} {entityId : Nat} {pair : Nat × Nat}
    (kept : ∀ row ∈ first, row.entityId = entityId → row ∈ second)
    (there : recorded first entityId pair = true) : recorded second entityId pair = true := by
  obtain ⟨row, member, own⟩ := List.any_eq_true.mp there
  have ofEntity : row.entityId = entityId := by
    simp only [Bool.and_eq_true, beq_iff_eq] at own
    exact own.1.1
  exact List.any_eq_true.mpr ⟨row, kept row member ofEntity, own⟩

theorem recordPair_records (entityId : Nat) (scope : Scope) (store : Store) (pair : Nat × Nat) :
    (∀ row ∈ store.contributions, row ∈ (recordPair entityId scope store pair).contributions) ∧
      (pair.1 ≠ pair.2 →
        recorded (recordPair entityId scope store pair).contributions entityId pair = true) ∧
      (pair.1 = pair.2 ∨ recorded store.contributions entityId pair = true →
        recordPair entityId scope store pair = store) := by
  unfold recordPair
  dsimp only
  split
  · rename_i same
    exact ⟨fun _ member => member, fun different => absurd same different, fun _ => rfl⟩
  · rename_i different
    split
    · rename_i there
      exact ⟨fun _ member => member, fun _ => there, fun _ => rfl⟩
    · rename_i absent
      refine ⟨fun _ member => List.mem_append_left _ member, fun _ => ?_, ?_⟩
      · simp [recorded]
      · rintro (same | there)
        · exact absurd same different
        · exact absurd there absent

theorem recordPairs_records (entityId : Nat) (scope : Scope) (pairs : List (Nat × Nat))
    (store : Store) :
    (∀ row ∈ store.contributions,
        row ∈ (pairs.foldl (recordPair entityId scope) store).contributions) ∧
      (∀ pair ∈ pairs, pair.1 ≠ pair.2 →
        recorded (pairs.foldl (recordPair entityId scope) store).contributions entityId pair =
          true) ∧
      ((∀ pair ∈ pairs, pair.1 ≠ pair.2 → recorded store.contributions entityId pair = true) →
        pairs.foldl (recordPair entityId scope) store = store) := by
  induction pairs generalizing store with
  | nil => exact ⟨fun _ member => member, nofun, fun _ => rfl⟩
  | cons pair rest ih =>
    obtain ⟨grows, recorded, idle⟩ := recordPair_records entityId scope store pair
    obtain ⟨laterGrows, laterRecorded, laterIdle⟩ := ih (recordPair entityId scope store pair)
    refine ⟨fun row member => laterGrows row (grows row member), ?_, ?_⟩
    · refine List.forall_mem_cons.mpr ⟨fun different => ?_, laterRecorded⟩
      exact recorded_mono (fun row member _ => laterGrows row member) (recorded different)
    · intro all
      obtain ⟨here, others⟩ := List.forall_mem_cons.mp all
      have still : recordPair entityId scope store pair = store :=
        idle (or_iff_not_imp_left.mpr here)
      rw [still] at laterIdle
      rw [List.foldl_cons, still]
      exact laterIdle others

/-- What a staged write leaves for its entity and for the others. -/
structure Coauthored (entity : RawEntity) (authorIds : List Nat) (store after : Store) : Prop where
  authors : after.authors = store.authors
  published : ∀ authorId ∈ authorIds, publishedBy after.publications entity.id authorId = true
  current : authorIds ≠ [] → isReassigned after entity = false
  pairs : ∀ pair ∈ combinations authorIds, pair.1 ≠ pair.2 →
    recorded after.contributions entity.id pair = true
  otherPublications : ∀ row, row.entityId ≠ entity.id →
    (row ∈ after.publications ↔ row ∈ store.publications)
  otherContributions : ∀ row ∈ store.contributions, row.entityId ≠ entity.id →
    row ∈ after.contributions

variable {authorIds : List Nat}

theorem publishedBy_newPublications {authorId : Nat} (member : authorId ∈ authorIds) :
    publishedBy (store.publications ++ newPublications store entity authorIds) entity.id authorId =
      true := by
  by_cases old : publishedBy store.publications entity.id authorId = true
  · exact publishedBy_mono (fun _ stored => List.mem_append_left _ stored) old
  · have new : authorId ∈ (newPublications store entity authorIds).map AuthorPublication.authorId := by
      rw [newPublications_ids]
      exact List.mem_filter.mpr ⟨member, by simpa using old⟩
    obtain ⟨row, added, rfl⟩ := List.mem_map.mp new
    have own := (newPublication_own added).1
    exact List.any_eq_true.mpr ⟨row, List.mem_append_right _ added, by simp [own]⟩

theorem reassign_current {row : AuthorPublication} (member : row ∈ (reassign store entity).publications)
    (own : row.entityId = entity.id) :
    ∃ current ∈ (reassign store entity).publications,
      current.entityId = entity.id ∧ current.scope = scopeOf entity := by
  by_cases moves : isReassigned store entity = true
  · exact ⟨row, member, own, scope_of_moved moves member own⟩
  · rw [reassign_idle (Bool.eq_false_iff.mpr moves)] at member ⊢
    by_contra none
    refine moves (isReassigned_iff.mpr ⟨⟨row, member, own⟩, fun other stored ofIt current => ?_⟩)
    exact none ⟨other, stored, ofIt, current⟩

theorem coauthored_of_stage (staged : stageArtifacts store entity authorIds = .ok after) :
    Coauthored entity authorIds store after := by
  have authors := (staged_of_stage staged).authors
  obtain rfl := stageArtifacts_ok staged
  have loop := records_pairs entity.id (scopeOf entity) (combinations authorIds)
    (flushed store entity authorIds)
  obtain ⟨grows, pairs, _⟩ := recordPairs_records entity.id (scopeOf entity)
    (combinations authorIds) (flushed store entity authorIds)
  have published : ∀ authorId ∈ authorIds, publishedBy
      ((reassign store entity).publications ++
        newPublications (reassign store entity) entity authorIds) entity.id authorId = true :=
    fun authorId member => publishedBy_newPublications member
  refine ⟨authors, ?_, ?_, pairs, ?_, ?_⟩
  · rw [loop.publications]
    exact published
  · intro some
    obtain ⟨authorId, member⟩ := List.exists_mem_of_ne_nil authorIds some
    obtain ⟨row, stored, own⟩ := List.any_eq_true.mp (published authorId member)
    simp only [Bool.and_eq_true, beq_iff_eq] at own
    have current : ∃ current ∈ (reassign store entity).publications ++
        newPublications (reassign store entity) entity authorIds,
        current.entityId = entity.id ∧ current.scope = scopeOf entity := by
      rcases List.mem_append.mp stored with old | new
      · obtain ⟨current, kept, here⟩ := reassign_current old own.1
        exact ⟨current, List.mem_append_left _ kept, here⟩
      · exact ⟨row, stored, newPublication_own new⟩
    obtain ⟨row, stored, ofIt, here⟩ := current
    refine Bool.eq_false_iff.mpr fun moves => ?_
    have elsewhere := (isReassigned_iff.mp moves).2
    rw [loop.publications] at elsewhere
    exact elsewhere row stored ofIt here
  · intro row other
    rw [loop.publications, flushed, List.mem_append]
    constructor
    · rintro (old | new)
      · exact (mem_reassign_other other).mp old
      · exact absurd (newPublication_own new).1 other
    · exact fun stored => .inl ((mem_reassign_other other).mpr stored)
  · intro row stored other
    refine grows row ?_
    unfold flushed reassign
    split
    · exact List.mem_filter.mpr ⟨stored, by simpa using other⟩
    · exact stored

theorem stage_again (current : isReassigned store entity = false)
    (published : ∀ authorId ∈ authorIds, publishedBy store.publications entity.id authorId = true)
    (pairs : ∀ pair ∈ combinations authorIds, pair.1 ≠ pair.2 →
      recorded store.contributions entity.id pair = true) :
    stageArtifacts store entity authorIds =
      .ok { store with dirtyScopes := markDirty store.dirtyScopes (scopeOf entity) "enrichment" } := by
  have noIds : (newPublications store entity authorIds).map AuthorPublication.authorId = [] := by
    rw [newPublications_ids]
    exact List.filter_eq_nil_iff.mpr fun authorId member => by simp [published authorId member]
  have none : newPublications store entity authorIds = [] := List.map_eq_nil_iff.mp noIds
  have idle := (recordPairs_records entity.id (scopeOf entity) (combinations authorIds) store).2.2 pairs
  unfold stageArtifacts
  simp only [reassign_idle current, none, List.map_nil, List.nodup_nil, not_true_eq_false, if_false,
    List.append_nil, idle]

theorem writeCoauthors_again (read : authorsFromAttrs python entity.attributesJson = .ok names)
    (enough : ¬ names.length < 2)
    (filled : ∀ name ∈ names.take maxAuthorsForCoauth, nameKey python name ≠ "")
    (found : ∀ name ∈ names.take maxAuthorsForCoauth, ∃ authorId,
      idOf store.authors (nameKey python name) = some authorId)
    (current : isReassigned store entity = false)
    (published : ∀ authorId ∈ idsIn python store.authors (names.take maxAuthorsForCoauth),
      publishedBy store.publications entity.id authorId = true)
    (pairs : ∀ pair ∈ combinations (idsIn python store.authors (names.take maxAuthorsForCoauth)),
      pair.1 ≠ pair.2 → recorded store.contributions entity.id pair = true) :
    writeCoauthorArtifacts python true store entity = .ok { store with
      authors := (names.take maxAuthorsForCoauth).foldl (touch python) store.authors
      dirtyScopes := markDirty store.dirtyScopes (scopeOf entity) "enrichment" } := by
  have sameIds : idsIn python ((names.take maxAuthorsForCoauth).foldl (touch python) store.authors)
      (names.take maxAuthorsForCoauth) =
      idsIn python store.authors (names.take maxAuthorsForCoauth) := by
    refine List.map_congr_left fun name member => ?_
    obtain ⟨authorId, here⟩ := found name member
    rw [here, (touches_extend _ store.authors).kept _ _ here]
  have again : stageArtifacts { store with
        authors := (names.take maxAuthorsForCoauth).foldl (touch python) store.authors } entity
      (idsIn python store.authors (names.take maxAuthorsForCoauth)) = .ok { store with
        authors := (names.take maxAuthorsForCoauth).foldl (touch python) store.authors
        dirtyScopes := markDirty store.dirtyScopes (scopeOf entity) "enrichment" } :=
    stage_again current published pairs
  rw [writeCoauthors_filled read enough filled]
  dsimp only
  rw [sameIds, again]

/-- The rows that a turn leaves for its entity: an author with a publication for each name, and
in the co-author branch the current scope and a triple for each pair. -/
structure Settled (python : Python) (store : Store) (entity : RawEntity) : Prop where
  shaped : ∃ shape, shapeOf python entity = .ok shape
  filled : ∀ name ∈ walkedNames python entity, nameKey python name ≠ ""
  published : ∀ name ∈ walkedNames python entity, ∃ authorId,
    idOf store.authors (nameKey python name) = some authorId ∧
      publishedBy store.publications entity.id authorId = true
  coauthored : ∀ names, shapeOf python entity = .ok (.coauthors names) →
    isReassigned store entity = false ∧
      ∀ pair ∈ combinations (idsIn python store.authors (walkedNames python entity)),
        pair.1 ≠ pair.2 → recorded store.contributions entity.id pair = true

structure Turn (python : Python) (store : Store) (entity : RawEntity) (after : Store) : Prop where
  authors : after.authors = (walkedNames python entity).foldl (touch python) store.authors
  settled : Settled python after entity
  otherPublications : ∀ row, row.entityId ≠ entity.id →
    (row ∈ after.publications ↔ row ∈ store.publications)
  otherContributions : ∀ row ∈ store.contributions, row.entityId ≠ entity.id →
    row ∈ after.contributions

theorem walkedNames_selfPair (shape : shapeOf python entity = .ok (.selfPair names)) :
    walkedNames python entity = names := by
  unfold walkedNames
  rw [shape]

theorem walkedNames_coauthors (shape : shapeOf python entity = .ok (.coauthors names)) :
    walkedNames python entity = names.take maxAuthorsForCoauth := by
  unfold walkedNames
  rw [shape]

theorem walkedNames_skipped (shape : shapeOf python entity = .ok .skipped) :
    walkedNames python entity = [] := by
  unfold walkedNames
  rw [shape]

theorem mem_idsIn {table : AuthorTable} {name : String} {authorId : Nat} (member : name ∈ names)
    (found : idOf table (nameKey python name) = some authorId) :
    authorId ∈ idsIn python table names :=
  List.mem_map.mpr ⟨name, member, by rw [found]; rfl⟩

theorem turn_of_skipped (shape : shapeOf python entity = .ok .skipped) :
    Turn python store entity store := by
  have none := walkedNames_skipped shape
  refine ⟨by rw [none]; rfl, ⟨⟨_, shape⟩, ?_, ?_, ?_⟩, fun _ _ => Iff.rfl, fun _ member _ => member⟩
  · simp [none]
  · simp [none]
  · intro names other
    cases shape.symm.trans other

theorem turn_of_selfPair (shape : shapeOf python entity = .ok (.selfPair names))
    (served : writeSelfPair python entity store store names = .ok after) :
    Turn python store entity after := by
  have walked := walkedNames_selfPair shape
  have paired := selfPaired_of_write names served
  have filled := (writeSelfPair_ok_iff names store store).mp ⟨after, served⟩
  refine ⟨by rw [walked]; exact paired.authors, ⟨⟨_, shape⟩, ?_, ?_, ?_⟩, ?_, ?_⟩
  · rw [walked]
    exact filled
  · rw [walked]
    exact paired.recorded
  · intro names other
    cases shape.symm.trans other
  · intro row other
    exact ⟨fun member => (paired.own row member).resolve_right other, paired.kept row⟩
  · intro row member _
    rw [paired.contributions]
    exact member

theorem turn_of_coauthors (shape : shapeOf python entity = .ok (.coauthors names))
    (served : writeCoauthorArtifacts python true store entity = .ok after) :
    Turn python store entity after := by
  have walked := walkedNames_coauthors shape
  obtain ⟨filled, staged⟩ := (writeCoauthors_ok_iff shape).mp served
  have coauthored := coauthored_of_stage staged
  have authors := coauthored.authors
  dsimp only at authors
  refine ⟨by rw [walked]; exact authors, ⟨⟨_, shape⟩, ?_, ?_, ?_⟩,
    coauthored.otherPublications, coauthored.otherContributions⟩
  · rw [walked]
    exact filled
  · rw [walked]
    intro name member
    obtain ⟨authorId, found⟩ : ∃ authorId,
        idOf ((names.take maxAuthorsForCoauth).foldl (touch python) store.authors)
          (nameKey python name) = some authorId := idOf_seen member (filled name member)
    refine ⟨authorId, by rw [authors]; exact found, ?_⟩
    exact coauthored.published authorId (mem_idsIn member found)
  · intro _ _
    rw [walked, authors]
    refine ⟨coauthored.current ?_, coauthored.pairs⟩
    have some : names.take maxAuthorsForCoauth ≠ [] := by
      have enough := (shape_coauthors shape).2
      intro none
      have length := congrArg List.length none
      simp [maxAuthorsForCoauth] at length
      simp [length] at enough
    simpa [idsIn] using some

theorem turn_of_migrate (served : migrateEntity python false store entity = .ok after) :
    Turn python store entity after := by
  unfold migrateEntity at served
  cases shape : shapeOf python entity with
  | error raised =>
    rw [shape] at served
    cases served
  | ok branch =>
    rw [shape] at served
    cases branch with
    | skipped =>
      obtain rfl := Except.ok.inj served
      exact turn_of_skipped shape
    | selfPair names => exact turn_of_selfPair shape served
    | coauthors names => exact turn_of_coauthors shape served

theorem Turn.keeps {other : RawEntity} (turn : Turn python store entity after)
    (apart : other.id ≠ entity.id) (settled : Settled python store other) :
    Settled python after other := by
  have sameId : ∀ name ∈ walkedNames python other,
      idOf after.authors (nameKey python name) = idOf store.authors (nameKey python name) := by
    intro name member
    obtain ⟨authorId, found, _⟩ := settled.published name member
    rw [turn.authors, found]
    exact (touches_extend _ store.authors).kept _ _ found
  have sameRows : ∀ row, row.entityId = other.id →
      (row ∈ after.publications ↔ row ∈ store.publications) :=
    fun row own => turn.otherPublications row (own ▸ apart)
  refine ⟨settled.shaped, settled.filled, fun name member => ?_, fun names shape => ?_⟩
  · obtain ⟨authorId, found, present⟩ := settled.published name member
    refine ⟨authorId, (sameId name member).trans found, ?_⟩
    obtain ⟨row, stored, own⟩ := List.any_eq_true.mp present
    have ofOther : row.entityId = other.id := by
      simp only [Bool.and_eq_true, beq_iff_eq] at own
      exact own.1
    exact List.any_eq_true.mpr ⟨row, (sameRows row ofOther).mpr stored, own⟩
  · obtain ⟨current, pairs⟩ := settled.coauthored names shape
    refine ⟨?_, ?_⟩
    · refine Bool.eq_false_iff.mpr fun moves => ?_
      obtain ⟨⟨row, stored, own⟩, elsewhere⟩ := isReassigned_iff.mp moves
      refine Bool.eq_false_iff.mp current (isReassigned_iff.mpr ⟨?_, ?_⟩)
      · exact ⟨row, (sameRows row own).mp stored, own⟩
      · exact fun row stored own => elsewhere row ((sameRows row own).mpr stored) own
    · have sameIds : idsIn python after.authors (walkedNames python other) =
          idsIn python store.authors (walkedNames python other) :=
        List.map_congr_left fun name member => by rw [sameId name member]
      rw [sameIds]
      intro pair member different
      exact recorded_mono (fun row stored own => turn.otherContributions row stored (own ▸ apart))
        (pairs pair member different)

def view (store : Store) :
    (String → Option Nat) × List AuthorPublication × List CoauthorContribution × Counter EdgeKey :=
  (idOf store.authors, store.publications, store.contributions, store.edges)

theorem settled_of_view {first second : Store} (same : view first = view second)
    (settled : Settled python first entity) : Settled python second entity := by
  obtain ⟨ids, publications, contributions, _⟩ :
      idOf first.authors = idOf second.authors ∧ first.publications = second.publications ∧
        first.contributions = second.contributions ∧ first.edges = second.edges := by
    simpa [view] using same
  have sameIds : ∀ names, idsIn python second.authors names = idsIn python first.authors names := by
    intro names
    unfold idsIn
    rw [ids]
  refine ⟨settled.shaped, settled.filled, ?_, fun names shape => ?_⟩
  · rw [← ids, ← publications]
    exact settled.published
  · obtain ⟨current, pairs⟩ := settled.coauthored names shape
    refine ⟨?_, ?_⟩
    · unfold isReassigned at current ⊢
      rw [← publications]
      exact current
    · rw [sameIds, ← contributions]
      exact pairs

theorem view_touched (store : Store) (dirty : List CoauthorDirtyScope)
    (found : ∀ name ∈ names, ∃ authorId, idOf store.authors (nameKey python name) = some authorId)
    (filled : ∀ name ∈ names, nameKey python name ≠ "") :
    view { store with
      authors := names.foldl (touch python) store.authors
      dirtyScopes := dirty } = view store := by
  have sameIds : idOf (names.foldl (touch python) store.authors) = idOf store.authors := by
    rw [touches_stored names store.authors filled found]
    funext key
    unfold idOf AuthorTable.find
    rw [List.find?_map, Option.map_map]
    rfl
  simp [view, sameIds]

theorem migrate_again (settled : Settled python store entity) :
    ∃ after, migrateEntity python false store entity = .ok after ∧ view after = view store := by
  have found : ∀ name ∈ walkedNames python entity, ∃ authorId,
      idOf store.authors (nameKey python name) = some authorId := fun name member =>
    (settled.published name member).imp fun _ here => here.1
  obtain ⟨branch, shape⟩ := settled.shaped
  unfold migrateEntity
  rw [shape]
  cases branch with
  | skipped => exact ⟨store, rfl, rfl⟩
  | selfPair names =>
    have walked := walkedNames_selfPair shape
    have again := writeSelfPair_again names store store (walked ▸ settled.filled)
      (walked ▸ settled.published)
    exact ⟨_, again, view_touched store store.dirtyScopes (walked ▸ found) (walked ▸ settled.filled)⟩
  | coauthors names =>
    have walked := walkedNames_coauthors shape
    obtain ⟨current, pairs⟩ := settled.coauthored names shape
    have filled : ∀ name ∈ names.take maxAuthorsForCoauth, nameKey python name ≠ "" :=
      walked ▸ settled.filled
    have published : ∀ authorId ∈ idsIn python store.authors (names.take maxAuthorsForCoauth),
        publishedBy store.publications entity.id authorId = true := by
      intro authorId member
      obtain ⟨name, named, rfl⟩ := List.mem_map.mp member
      obtain ⟨authorId, here, present⟩ := settled.published name (walked ▸ named)
      rw [here]
      exact present
    obtain ⟨read, enough⟩ := shape_coauthors shape
    exact ⟨_, writeCoauthors_again read enough filled (walked ▸ found) current published
        (walked ▸ pairs),
      view_touched store (markDirty store.dirtyScopes (scopeOf entity) "enrichment")
        (walked ▸ found) filled⟩

/-- The entity meets what the run started with, except for authors that were added. -/
structure Ready (start store : Store) (entity : RawEntity) : Prop where
  grown : Extends start.authors store.authors
  numbered : Numbered store.authors
  same : ∀ authorId, publishedBy store.publications entity.id authorId =
    publishedBy start.publications entity.id authorId

theorem Turn.ready {start after : Store} {other : RawEntity} (turn : Turn python store entity after)
    (apart : other.id ≠ entity.id) (ready : Ready start store other) : Ready start after other := by
  refine ⟨?_, ?_, fun authorId => ?_⟩
  · rw [turn.authors]
    exact ready.grown.trans (touches_extend _ store.authors)
  · rw [turn.authors]
    exact touches_numbered _ ready.numbered
  · rw [← ready.same authorId]
    refine Bool.eq_iff_iff.mpr ?_
    unfold publishedBy
    simp only [List.any_eq_true, Bool.and_eq_true, beq_iff_eq]
    refine exists_congr fun row => and_congr_left fun own => ?_
    exact turn.otherPublications row (own.1 ▸ apart)

theorem publishedBy_walked {start : Store} (wellformed : Wellformed start)
    (ready : Ready start store entity) {name : String} (member : name ∈ names)
    (filled : nameKey python name ≠ "") :
    publishedBy store.publications entity.id
        ((idOf (names.foldl (touch python) store.authors) (nameKey python name)).getD 0) =
      published start entity (nameKey python name) := by
  obtain ⟨authorId, found⟩ : ∃ authorId,
      idOf (names.foldl (touch python) store.authors) (nameKey python name) = some authorId :=
    idOf_seen member filled
  have grown : Extends start.authors (names.foldl (touch python) store.authors) :=
    ready.grown.trans (touches_extend names store.authors)
  rw [found, Option.getD_some, ready.same authorId]
  unfold published
  cases before : idOf start.authors (nameKey python name) with
  | some earlier =>
    have same := grown.kept _ _ before
    obtain rfl := Option.some.inj (same.symm.trans found)
    rfl
  | none =>
    have past : start.authors.lastId < authorId := grown.fresh _ _ before found
    refine Bool.eq_false_iff.mpr fun present => ?_
    obtain ⟨row, stored, own⟩ := List.any_eq_true.mp present
    simp only [Bool.and_eq_true, beq_iff_eq] at own
    obtain ⟨author, authorStored, sameId⟩ := List.mem_map.mp (wellformed.published row stored)
    have bound := wellformed.numbered.bounded author authorStored
    omega

/-- The flush of step 4 is through exactly if the names without a publication have different
keys. -/
theorem stage_through_iff {start : Store} (wellformed : Wellformed start)
    (ready : Ready start store entity) (names : List String)
    (filled : ∀ name ∈ names, nameKey python name ≠ "") :
    (∃ written, stageArtifacts
        { store with authors := names.foldl (touch python) store.authors } entity
          (idsIn python (names.foldl (touch python) store.authors) names) = .ok written) ↔
      ((names.map (nameKey python)).filter fun key => !published start entity key).Nodup := by
  have numbered : Numbered (names.foldl (touch python) store.authors) :=
    touches_numbered names ready.numbered
  have ids : idsIn python (names.foldl (touch python) store.authors) names =
      (names.map (nameKey python)).map fun key =>
        (idOf (names.foldl (touch python) store.authors) key).getD 0 := by
    rw [List.map_map]
    rfl
  have sameTest : ((names.map (nameKey python)).filter
      ((fun authorId => !publishedBy store.publications entity.id authorId) ∘ fun key =>
        (idOf (names.foldl (touch python) store.authors) key).getD 0)) =
      (names.map (nameKey python)).filter fun key => !published start entity key := by
    refine List.filter_congr fun key member => ?_
    obtain ⟨name, named, rfl⟩ := List.mem_map.mp member
    have here := publishedBy_walked wellformed ready named (filled name named)
    simp only [Function.comp_apply, here]
  rw [stage_ok_iff, newPublications_ids, ids, List.filter_map, sameTest]
  constructor
  · exact List.Nodup.of_map _
  · refine List.Nodup.map_on fun first firstMember second secondMember same => ?_
    obtain ⟨firstName, firstNamed, rfl⟩ := List.mem_map.mp (List.mem_filter.mp firstMember).1
    obtain ⟨secondName, secondNamed, rfl⟩ := List.mem_map.mp (List.mem_filter.mp secondMember).1
    obtain ⟨firstId, firstFound⟩ : ∃ authorId, idOf (names.foldl (touch python) store.authors)
        (nameKey python firstName) = some authorId := idOf_seen firstNamed (filled _ firstNamed)
    obtain ⟨secondId, secondFound⟩ : ∃ authorId, idOf (names.foldl (touch python) store.authors)
        (nameKey python secondName) = some authorId := idOf_seen secondNamed (filled _ secondNamed)
    rw [firstFound, secondFound] at same
    have same : firstId = secondId := same
    exact idOf_inj numbered firstFound (same ▸ secondFound)

theorem migrate_ok_iff {start : Store} (wellformed : Wellformed start)
    (ready : Ready start store entity) :
    (∃ after, migrateEntity python false store entity = .ok after) ↔
      Accepted python start entity := by
  cases shape : shapeOf python entity with
  | error raised =>
    refine iff_of_false ?_ ?_
    · simp only [migrateEntity, shape]
      exact fun wrong => (nomatch wrong.choose_spec)
    · rintro ⟨⟨branch, shaped⟩, _⟩
      cases shape.symm.trans shaped
  | ok branch =>
    cases branch with
    | skipped =>
      refine iff_of_true ⟨store, by simp only [migrateEntity, shape]⟩ ⟨⟨_, shape⟩, ?_, ?_⟩
      · simp [walkedNames_skipped shape]
      · intro names other
        cases shape.symm.trans other
    | selfPair names =>
      have walked := walkedNames_selfPair shape
      have turn : (∃ after, migrateEntity python false store entity = .ok after) ↔
          ∀ name ∈ names, nameKey python name ≠ "" := by
        simp only [migrateEntity, shape]
        exact writeSelfPair_ok_iff names store store
      rw [turn]
      constructor
      · intro filled
        refine ⟨⟨_, shape⟩, walked ▸ filled, fun names other => ?_⟩
        cases shape.symm.trans other
      · rintro ⟨_, filled, _⟩
        exact walked ▸ filled
    | coauthors names =>
      have walked := walkedNames_coauthors shape
      have turn : migrateEntity python false store entity =
          writeCoauthorArtifacts python true store entity := by
        simp only [migrateEntity, shape]
        rfl
      rw [turn]
      constructor
      · rintro ⟨after, served⟩
        obtain ⟨filled, staged⟩ := (writeCoauthors_ok_iff shape).mp served
        refine ⟨⟨_, shape⟩, walked ▸ filled, fun _ _ => ?_⟩
        rw [walked]
        exact (stage_through_iff wellformed ready _ filled).mp ⟨after, staged⟩
      · rintro ⟨_, filled, distinct⟩
        rw [walked] at filled
        have distinct := distinct names shape
        rw [walked] at distinct
        obtain ⟨written, staged⟩ := (stage_through_iff wellformed ready _ filled).mpr distinct
        exact ⟨written, (writeCoauthors_ok_iff shape).mpr ⟨filled, staged⟩⟩

theorem foldlM_through {State Item Error : Type} {Ready : Item → Prop}
    {body : State → Item → Except Error State}
    (through : ∀ state item, Ready item → ∃ after, body state item = .ok after)
    {items : List Item} (start : State) (ready : ∀ item ∈ items, Ready item) :
    ∃ final, items.foldlM body start = .ok final := by
  have everyApart : items.Pairwise fun _ _ => True := List.pairwise_of_forall fun _ _ => trivial
  exact (foldlM_ok_iff (fun state item (holds : Ready item) =>
    iff_of_true (through state item holds) holds)
    (fun _ _ _ _ _ _ (holds : Ready _) => holds) everyApart ready).mpr ready

theorem comparePair_through {entities : List RawEntity} {publications : List AuthorPublication}
    (scan : Scan) (pair : Author × Author) (apart : pair.1.nameKey ≠ pair.2.nameKey) :
    ∃ after, comparePair python entities publications scan pair = .ok after := by
  have classified : ∃ decision,
      classifyMerge python entities publications pair.1 pair.2 = .ok decision := by
    unfold classifyMerge
    rw [if_neg apart]
    dsimp only
    split
    · exact ⟨_, rfl⟩
    · split
      · exact ⟨_, rfl⟩
      · split <;> exact ⟨_, rfl⟩
  obtain ⟨decision, classified⟩ := classified
  unfold comparePair
  rw [classified]
  dsimp only
  split
  · exact ⟨_, rfl⟩
  · split <;> exact ⟨_, rfl⟩

theorem generate_through (entities : List RawEntity) (groupBound : Nat)
    (distinct : KeysDistinct store.authors) :
    ∃ stats suggestions, generateMergeSuggestions python entities groupBound store =
      .ok (stats, { store with suggestions := suggestions }) := by
  have turns : ∀ scan members, (members.map Author.nameKey).Nodup → ∃ after,
      compareGroup python entities store.publications groupBound scan members = .ok after := by
    intro scan members distinctMembers
    unfold compareGroup
    split
    · exact ⟨_, rfl⟩
    · split
      · exact ⟨_, rfl⟩
      · exact foldlM_through (fun scan pair apart => comparePair_through scan pair apart) _
          (combinations_apart Author.nameKey members distinctMembers)
  have grouped : ∀ members ∈ groups store.authors.rows, (members.map Author.nameKey).Nodup := by
    intro members member
    obtain ⟨family, _, rfl⟩ := List.mem_map.mp member
    exact List.Nodup.sublist (List.Sublist.map _ List.filter_sublist) distinct
  unfold generateMergeSuggestions
  obtain ⟨scan, scanned⟩ := foldlM_through turns
    { existing := store.suggestions.map fun row => unordered row.authorA row.authorB
      suggestions := store.suggestions
      stats := ⟨store.authors.rows.length, 0, 0, 0, 0⟩ } grouped
  exact ⟨scan.stats, scan.suggestions, by simp only [scanned]⟩

theorem recomputeAll_frame (detectors : Detectors) (scopes : List Scope) (store : Store) :
    (recomputeAll detectors store scopes).authors = store.authors ∧
      (recomputeAll detectors store scopes).publications = store.publications ∧
      (recomputeAll detectors store scopes).contributions = store.contributions := by
  unfold recomputeAll
  induction scopes generalizing store with
  | nil => exact ⟨rfl, rfl, rfl⟩
  | cons scope rest ih => exact ih (recomputeCoauthorStats detectors store scope)

theorem migration_through {detectors : Detectors} (legacy : List EntityRelationship)
    (entities : List RawEntity) (domain : Option String) {written : Store}
    (walked : (entities.filter (inDomain domain)).foldlM (migrateEntity python false) store =
      .ok written) (distinct : KeysDistinct written.authors) :
    ∃ stats final, migrateCoauthorGraph python detectors legacy entities false domain store =
        .ok (stats, final) ∧
      final.authors = written.authors ∧ view final = view written := by
  obtain ⟨scan, suggestions, generated⟩ := generate_through entities maxGroupSize distinct
  unfold migrateCoauthorGraph
  dsimp only
  rw [walked]
  dsimp only
  rw [if_neg Bool.false_ne_true, generated]
  refine ⟨_, _, rfl, (recomputeAll_frame detectors _ _).1, ?_⟩
  obtain ⟨authors, publications, contributions⟩ := recomputeAll_frame detectors
    (migratedScopes written.edges domain) { written with suggestions := suggestions }
  unfold view
  rw [authors, publications, contributions, recomputeAll_edges]

/-- Two runs are through, and the second leaves the authors, the contributions and the edges
with their weights as the first left them. -/
def Repeatable (python : Python) (detectors : Detectors) (legacy : List EntityRelationship)
    (entities : List RawEntity) (domain : Option String) (store : Store) : Prop :=
  ∃ firstStats first secondStats second,
    migrateCoauthorGraph python detectors legacy entities false domain store =
      .ok (firstStats, first) ∧
    migrateCoauthorGraph python detectors legacy entities false domain first =
      .ok (secondStats, second) ∧
    second.authors = first.authors ∧ second.contributions = first.contributions ∧
      second.edges = first.edges

variable {items : List RawEntity}

theorem walk_authors {final : Store}
    (walked : items.foldlM (migrateEntity python false) store = .ok final) :
    final.authors = (items.flatMap (walkedNames python)).foldl (touch python) store.authors := by
  rw [List.foldl_flatMap]
  exact foldlM_part Store.authors
    (fun table entity => (walkedNames python entity).foldl (touch python) table)
    (fun _ _ _ served => (turn_of_migrate served).authors) walked

theorem walk_ok_iff (wellformed : Wellformed store) (distinct : (items.map RawEntity.id).Nodup) :
    (∃ final, items.foldlM (migrateEntity python false) store = .ok final) ↔
      ∀ entity ∈ items, Accepted python store entity := by
  have apart : items.Pairwise fun first second => second.id ≠ first.id :=
    (List.pairwise_map.mp distinct).imp fun different => different.symm
  have decides : ∀ state entity, Ready store state entity →
      ((∃ after, migrateEntity python false state entity = .ok after) ↔
        Accepted python store entity) := fun _ _ ready => migrate_ok_iff wellformed ready
  have stays : ∀ state entity after other, migrateEntity python false state entity = .ok after →
      other.id ≠ entity.id → Ready store state other → Ready store after other :=
    fun _ _ _ _ served different ready => (turn_of_migrate served).ready different ready
  exact foldlM_ok_iff decides stays apart fun _ _ =>
    ⟨Extends.refl store.authors, wellformed.numbered, fun _ => rfl⟩

theorem walk_settles {final : Store} (distinct : (items.map RawEntity.id).Nodup)
    (walked : items.foldlM (migrateEntity python false) store = .ok final) :
    ∀ entity ∈ items, Settled python final entity := by
  have apart : items.Pairwise fun first second => first.id ≠ second.id :=
    List.pairwise_map.mp distinct
  have settles : ∀ state entity after, migrateEntity python false state entity = .ok after →
      Settled python after entity := fun _ _ _ served => (turn_of_migrate served).settled
  have stays : ∀ state entity after other, migrateEntity python false state entity = .ok after →
      other.id ≠ entity.id → Settled python state other → Settled python after other :=
    fun _ _ _ _ served different settled => (turn_of_migrate served).keeps different settled
  exact foldlM_settles settles stays apart walked

theorem second_run (detectors : Detectors) (legacy : List EntityRelationship)
    (entities : List RawEntity) (domain : Option String) (wellformed : Wellformed store)
    (distinct : ((entities.filter (inDomain domain)).map RawEntity.id).Nodup) {written : Store}
    (walked : (entities.filter (inDomain domain)).foldlM (migrateEntity python false) store =
      .ok written) :
    ∃ firstStats first secondStats second,
      migrateCoauthorGraph python detectors legacy entities false domain store =
        .ok (firstStats, first) ∧
      migrateCoauthorGraph python detectors legacy entities false domain first =
        .ok (secondStats, second) ∧
      view second = view first ∧ (second.authors = first.authors ↔
        AliasesSettle python store.authors
          ((entities.filter (inDomain domain)).flatMap (walkedNames python))) := by
  have accepted := (walk_ok_iff wellformed distinct).mp ⟨written, walked⟩
  have names := walk_authors walked
  have writtenKeys : KeysDistinct written.authors := by
    rw [names]
    exact touches_distinct _ wellformed.keys
  obtain ⟨firstStats, first, firstRun, firstAuthors, firstView⟩ :=
    migration_through legacy entities domain walked writtenKeys
  have settled : ∀ entity ∈ entities.filter (inDomain domain), Settled python first entity :=
    fun entity member => settled_of_view firstView.symm (walk_settles distinct walked entity member)
  have absorbed : ∀ state entity, Settled python state entity → ∃ after,
      migrateEntity python false state entity = .ok after ∧ view after = view state :=
    fun _ _ settled => migrate_again settled
  have seen : ∀ first second entity, view first = view second → Settled python first entity →
      Settled python second entity := fun _ _ _ same settled => settled_of_view same settled
  obtain ⟨rewritten, rewalked, sameView⟩ := foldlM_unseen view absorbed seen settled
  have renames := walk_authors rewalked
  have rewrittenKeys : KeysDistinct rewritten.authors := by
    rw [renames, firstAuthors]
    exact touches_distinct _ writtenKeys
  obtain ⟨secondStats, second, secondRun, secondAuthors, secondView⟩ :=
    migration_through legacy entities domain rewalked rewrittenKeys
  have filled : ∀ name ∈ (entities.filter (inDomain domain)).flatMap (walkedNames python),
      nameKey python name ≠ "" := by
    intro name member
    obtain ⟨entity, walkedEntity, named⟩ := List.mem_flatMap.mp member
    exact (accepted entity walkedEntity).2.1 name named
  refine ⟨firstStats, first, secondStats, second, firstRun, secondRun,
    secondView.trans sameView, ?_⟩
  rw [secondAuthors, renames, firstAuthors, names]
  exact touches_again_iff wellformed.keys _ filled

/-- Two runs of the migration go as promised exactly if the walk accepts every entity and the
capped alias lists come out of a second reading of the names as they went in. -/
theorem migration_repeatable_iff (python : Python) (detectors : Detectors)
    (legacy : List EntityRelationship) (entities : List RawEntity) (domain : Option String)
    (store : Store) (wellformed : Wellformed store) (distinct : (entities.map RawEntity.id).Nodup) :
    Repeatable python detectors legacy entities domain store ↔
      (∀ entity ∈ entities.filter (inDomain domain), Accepted python store entity) ∧
        AliasesSettle python store.authors
          ((entities.filter (inDomain domain)).flatMap (walkedNames python)) := by
  have distinctWalked : ((entities.filter (inDomain domain)).map RawEntity.id).Nodup :=
    distinct.sublist (List.Sublist.map _ List.filter_sublist)
  constructor
  · rintro ⟨_, first, _, second, firstRun, secondRun, sameAuthors, _⟩
    have through : ∃ written,
        (entities.filter (inDomain domain)).foldlM (migrateEntity python false) store =
          .ok written := by
      unfold migrateCoauthorGraph at firstRun
      dsimp only at firstRun
      split at firstRun
      · cases firstRun
      rename_i written walked
      exact ⟨written, walked⟩
    obtain ⟨written, walked⟩ := through
    obtain ⟨_, _, _, _, firstAgain, secondAgain, _, sameIff⟩ :=
      second_run detectors legacy entities domain wellformed distinctWalked walked
    obtain ⟨_, rfl⟩ := Prod.mk.inj (Except.ok.inj (firstRun.symm.trans firstAgain))
    obtain ⟨_, rfl⟩ := Prod.mk.inj (Except.ok.inj (secondRun.symm.trans secondAgain))
    exact ⟨(walk_ok_iff wellformed distinctWalked).mp ⟨written, walked⟩, sameIff.mp sameAuthors⟩
  · rintro ⟨accepted, settle⟩
    obtain ⟨written, walked⟩ := (walk_ok_iff wellformed distinctWalked).mpr accepted
    obtain ⟨firstStats, first, secondStats, second, firstRun, secondRun, sameView, sameIff⟩ :=
      second_run detectors legacy entities domain wellformed distinctWalked walked
    obtain ⟨_, _, contributions, edges⟩ :
        idOf second.authors = idOf first.authors ∧ second.publications = first.publications ∧
          second.contributions = first.contributions ∧ second.edges = first.edges := by
      simpa [view] using sameView
    exact ⟨firstStats, first, secondStats, second, firstRun, secondRun, sameIff.mpr settle,
      contributions, edges⟩

theorem emptyStore_wellformed : Wellformed emptyStore :=
  ⟨⟨List.nodup_nil, nofun⟩, List.nodup_nil, nofun⟩

theorem migration_repeatable_iff_onePaper :
    Repeatable asciiPython plainDetectors [] [paperBy 1 ["John Smith", "Amy Lee"]] none emptyStore := by
  have shape : shapeOf asciiPython (paperBy 1 ["John Smith", "Amy Lee"]) =
      .ok (.coauthors ["John Smith", "Amy Lee"]) := by decide +kernel
  have walked : walkedNames asciiPython (paperBy 1 ["John Smith", "Amy Lee"]) =
      ["John Smith", "Amy Lee"] := walkedNames_coauthors shape
  have filled : ∀ name ∈ ["John Smith", "Amy Lee"], nameKey asciiPython name ≠ "" := by
    decide +kernel
  have selected : [paperBy 1 ["John Smith", "Amy Lee"]].filter (inDomain none) =
      [paperBy 1 ["John Smith", "Amy Lee"]] :=
    List.filter_eq_self.mpr fun _ _ => by simp [inDomain]
  refine (migration_repeatable_iff asciiPython plainDetectors [] _ none emptyStore
    emptyStore_wellformed (by decide)).mpr ?_
  rw [selected, List.flatMap_singleton, walked]
  refine ⟨List.forall_mem_singleton.mpr ⟨⟨_, shape⟩, ?_, fun _ _ => ?_⟩, ?_⟩
  · rw [walked]
    exact filled
  · rw [walked]
    decide +kernel
  · refine settle_of_few _ _ filled fun key => ?_
    have within : (formsOf asciiPython ["John Smith", "Amy Lee"] key).toFinset ∪
        (aliasesOf emptyStore.authors key).toFinset ⊆ ({"John Smith", "Amy Lee"} : Finset String) := by
      intro form member
      rcases Finset.mem_union.mp member with seen | stored
      · simpa using (List.mem_filter.mp (List.mem_toFinset.mp seen)).1
      · simp [aliasesOf, emptyStore, AuthorTable.find] at stored
    exact (Finset.card_le_card within).trans (Finset.card_le_two.trans (by decide))

def raisedBy (entities : List RawEntity) : Option Raised :=
  match migrateCoauthorGraph asciiPython plainDetectors [] entities false none emptyStore with
  | .ok _ => none
  | .error failure => some failure.raised

theorem not_repeatable {entities : List RawEntity} {raised : Raised}
    (stopped : raisedBy entities = some raised) :
    ¬ Repeatable asciiPython plainDetectors [] entities none emptyStore := by
  rintro ⟨firstStats, first, _, _, served, _⟩
  unfold raisedBy at stopped
  rw [served] at stopped
  cases stopped

/-- A label without a key, and two labels of one author beside a third name: each stops the
migration. -/
theorem labels_stop_migration :
    raisedBy [paperBy 1 ["John Smith", "PhD"]] = some .valueError ∧
      raisedBy [paperBy 1 ["John Smith", "Smith, John", "Amy Lee"]] = some .integrityError ∧
      ¬ Repeatable asciiPython plainDetectors [] [paperBy 1 ["John Smith", "PhD"]] none emptyStore := by
  have stopped : raisedBy [paperBy 1 ["John Smith", "PhD"]] = some .valueError := by decide +kernel
  exact ⟨stopped, by decide +kernel, not_repeatable stopped⟩

end Ukip.Coauthorship.Rerun
