import Ukip.Coauthorship.Weights

/-!
# What a merge of two authors keeps

The collaborations of the merged author after the next recompute, and the names under which
later writes find the merged author.
-/

namespace Ukip.Coauthorship.Merges

open Foundation.JsonValue Foundation.LogCount Foundation.Tally Identity Artifacts
open Foundation.EventRun Weights

variable {python : Python} {detectors : Detectors} {store merged : Store} {winner loser : Author}

/-- The publications that list `other` together with one of `members` in the scope. -/
def jointPublications (publications : List AuthorPublication) (scope : Scope) (members : List Nat)
    (other : Nat) : Finset Nat :=
  ((publications.filter fun row => row.authorId == other && row.scope == scope &&
    publications.any fun shared =>
      members.contains shared.authorId && shared.entityId == row.entityId &&
        shared.scope == scope).map AuthorPublication.entityId).toFinset

variable {publications : List AuthorPublication}

theorem mem_jointPublications {scope : Scope} {members : List Nat} {other entityId : Nat} :
    entityId ∈ jointPublications publications scope members other ↔
      (∃ row ∈ publications, row.authorId = other ∧ row.scope = scope ∧ row.entityId = entityId) ∧
        ∃ row ∈ publications, row.authorId ∈ members ∧ row.scope = scope ∧
          row.entityId = entityId := by
  unfold jointPublications
  rw [List.mem_toFinset, List.mem_map]
  constructor
  · rintro ⟨row, member, rfl⟩
    obtain ⟨stored, passes⟩ := List.mem_filter.mp member
    simp only [Bool.and_eq_true, beq_iff_eq, List.any_eq_true, List.contains_iff_mem] at passes
    obtain ⟨⟨other, scope⟩, shared, sharedStored, ⟨ofMember, sameEntity⟩, sameScope⟩ := passes
    exact ⟨⟨row, stored, other, scope, rfl⟩, shared, sharedStored, ofMember, sameScope, sameEntity⟩
  · rintro ⟨⟨row, stored, other, scope, rfl⟩, shared, sharedStored, ofMember, sameScope, sameEntity⟩
    refine ⟨row, List.mem_filter.mpr ⟨stored, ?_⟩, rfl⟩
    simp only [Bool.and_eq_true, beq_iff_eq, List.any_eq_true, List.contains_iff_mem]
    exact ⟨⟨other, scope⟩, shared, sharedStored, ⟨ofMember, sameEntity⟩, sameScope⟩

def weight (edges : Counter EdgeKey) (first second : Nat) (scope : Scope) : Nat :=
  (entryOf edges ⟨min first second, max first second, scope⟩).getD 0

def recomputeAll (detectors : Detectors) (store : Store) (scopes : List Scope) : Store :=
  scopes.foldl (recomputeCoauthorStats detectors) store

/-- For each third author, the winner's edges count the publications with either of the two. -/
def CountsBoth (edges : Counter EdgeKey) (publications : List AuthorPublication)
    (winner loser : Nat) : Prop :=
  ∀ other, other ≠ winner → other ≠ loser → ∀ scope,
    weight edges winner other scope =
      (jointPublications publications scope [winner, loser] other).card

/-- For each third author, the winner's edges count the winner's own publications. -/
def CountsOwn (edges : Counter EdgeKey) (publications : List AuthorPublication)
    (winner loser : Nat) : Prop :=
  ∀ other, other ≠ winner → other ≠ loser → ∀ scope,
    weight edges winner other scope =
      (jointPublications publications scope [winner] other).card

/-- A publication that lists a third author with the loser lists the winner too. -/
def LoserAddsNothing (publications : List AuthorPublication) (winner loser : Nat) : Prop :=
  ∀ other, other ≠ winner → other ≠ loser → ∀ scope,
    jointPublications publications scope [loser] other ⊆
      jointPublications publications scope [winner] other

theorem recomputeAll_edges (scopes : List Scope) (store : Store) :
    (recomputeAll detectors store scopes).edges = store.edges := by
  unfold recomputeAll
  induction scopes generalizing store with
  | nil => rfl
  | cons scope rest ih => exact ih (recomputeCoauthorStats detectors store scope)

theorem weight_after_merge (different : winner.id ≠ loser.id)
    (served : mergeAuthors store winner loser = .ok merged) (scopes : List Scope) {other : Nat}
    (third : other ≠ loser.id) (scope : Scope) :
    weight (recomputeAll detectors merged scopes).edges winner.id other scope =
      weight store.edges winner.id other scope := by
  rcases mergeAuthors_cases served with ⟨same, _⟩ | ⟨_, rfl⟩
  · exact absurd same different
  · have apart : EdgeKey.involves ⟨min winner.id other, max winner.id other, scope⟩ loser.id =
        false := by
      unfold EdgeKey.involves
      rcases Nat.le_total winner.id other with low | high
      · simp [Nat.min_eq_left low, Nat.max_eq_right low, different, third]
      · simp [Nat.min_eq_right high, Nat.max_eq_left high, different, third]
    unfold weight mergedStore
    rw [recomputeAll_edges, entryOf_filter (fun key : EdgeKey => !key.involves loser.id),
      if_pos (by simp [apart])]

theorem jointPublications_pair (publications : List AuthorPublication) (scope : Scope)
    (winner loser other : Nat) :
    jointPublications publications scope [winner, loser] other =
      jointPublications publications scope [winner] other ∪
        jointPublications publications scope [loser] other := by
  ext entityId
  simp only [Finset.mem_union, mem_jointPublications, List.mem_cons, List.not_mem_nil, or_false]
  constructor
  · rintro ⟨listed, row, stored, isWinner | isLoser, rest⟩
    · exact .inl ⟨listed, row, stored, isWinner, rest⟩
    · exact .inr ⟨listed, row, stored, isLoser, rest⟩
  · rintro (⟨listed, row, stored, isWinner, rest⟩ | ⟨listed, row, stored, isLoser, rest⟩)
    · exact ⟨listed, row, stored, .inl isWinner, rest⟩
    · exact ⟨listed, row, stored, .inr isLoser, rest⟩

theorem countsBoth_iff_of_countsOwn {edges : Counter EdgeKey} {winner loser : Nat}
    (own : CountsOwn edges publications winner loser) :
    CountsBoth edges publications winner loser ↔ LoserAddsNothing publications winner loser := by
  refine forall_congr' fun other => forall_congr' fun notWinner => forall_congr' fun notLoser =>
    forall_congr' fun scope => ?_
  rw [own other notWinner notLoser scope, jointPublications_pair]
  constructor
  · intro sameCard
    have same := Finset.eq_of_subset_of_card_le Finset.subset_union_left (Nat.le_of_eq sameCard.symm)
    exact Finset.union_eq_left.mp same.symm
  · intro inside
    rw [Finset.union_eq_left.mpr inside]

/-- After a merge and any recomputes, the winner's edges count the publications with either of
the two exactly if they did so before; where they counted the winner's own, that is to say if
the loser has no publication with a third author that does not list the winner. -/
theorem collaborations_kept_iff (detectors : Detectors) (store merged : Store)
    (winner loser : Author) (scopes : List Scope) (different : winner.id ≠ loser.id)
    (served : mergeAuthors store winner loser = .ok merged) :
    (CountsBoth (recomputeAll detectors merged scopes).edges store.publications winner.id loser.id ↔
      CountsBoth store.edges store.publications winner.id loser.id) ∧
    (CountsOwn store.edges store.publications winner.id loser.id →
      (CountsBoth (recomputeAll detectors merged scopes).edges store.publications winner.id
          loser.id ↔
        LoserAddsNothing store.publications winner.id loser.id)) := by
  have same : CountsBoth (recomputeAll detectors merged scopes).edges store.publications winner.id
      loser.id ↔ CountsBoth store.edges store.publications winner.id loser.id := by
    refine forall_congr' fun other => forall_congr' fun _ => forall_congr' fun notLoser =>
      forall_congr' fun scope => ?_
    rw [weight_after_merge different served scopes notLoser scope]
  exact ⟨same, fun own => same.trans (countsBoth_iff_of_countsOwn own)⟩

def paperBy (id : Nat) (authors : List String) : RawEntity where
  id := id
  orgId := none
  domain := none
  attributesJson := .parsed (.object [("authors", .array (authors.map Json.text))])

def defaultScope : Scope := ⟨0, "default"⟩

def twoPapers : Store :=
  runEvents (step asciiPython plainDetectors) emptyStore
    [.write true (paperBy 1 ["J Smith", "Amy Lee"]), .write true (paperBy 2 ["John Smith", "Bob Ray"])]

def initialSmith : Author := ⟨1, "smith_j", "J Smith", ["J Smith"], none⟩

def fullSmith : Author := ⟨3, "smith_john", "John Smith", ["John Smith"], none⟩

theorem collaborations_kept_iff_twoPapers :
    mergeAuthors twoPapers initialSmith fullSmith =
        .ok (mergedStore twoPapers initialSmith fullSmith) ∧
      (CountsBoth (recomputeAll plainDetectors (mergedStore twoPapers initialSmith fullSmith)
          [defaultScope]).edges twoPapers.publications 1 3 ↔
        CountsBoth twoPapers.edges twoPapers.publications 1 3) :=
  ⟨rfl, (collaborations_kept_iff plainDetectors twoPapers _ initialSmith fullSmith [defaultScope]
    (by decide) rfl).1⟩

/-- The paper with Bob Ray is not counted for the merged author. -/
theorem collaboration_lost :
    initialSmith ∈ twoPapers.authors.rows ∧ fullSmith ∈ twoPapers.authors.rows ∧
      weight (recomputeAll plainDetectors (mergedStore twoPapers initialSmith fullSmith)
        [defaultScope]).edges 1 4 defaultScope = 0 ∧
      jointPublications twoPapers.publications defaultScope [1, 3] 4 = {2} ∧
      ¬ CountsBoth (recomputeAll plainDetectors (mergedStore twoPapers initialSmith fullSmith)
        [defaultScope]).edges twoPapers.publications 1 3 := by
  have lost : weight (recomputeAll plainDetectors (mergedStore twoPapers initialSmith fullSmith)
      [defaultScope]).edges 1 4 defaultScope = 0 := by decide
  have joint : jointPublications twoPapers.publications defaultScope [1, 3] 4 = {2} := by
    decide
  refine ⟨by decide, by decide, lost, joint, fun counts => ?_⟩
  have equal := counts 4 (by decide) (by decide) defaultScope
  rw [lost, joint] at equal
  cases equal

def resolvedNames (python : Python) (enabled : Bool) (entity : RawEntity) : List String :=
  if !enabled then []
  else
    match authorsFromAttrs python entity.attributesJson with
    | .error _ => []
    | .ok names =>
      if names.length < 2 then []
      else (names.take maxAuthorsForCoauth).takeWhile fun name => nameKey python name ≠ ""

def touch (python : Python) (table : AuthorTable) (name : String) : AuthorTable :=
  match getOrCreateAuthor python table name with
  | .ok (_, next) => next
  | .error _ => table

def attributions (python : Python) (table : AuthorTable) : List String → List (String × Nat)
  | [] => []
  | name :: rest =>
    match getOrCreateAuthor python table name with
    | .ok (authorId, next) => (name, authorId) :: attributions python next rest
    | .error _ => []

theorem getOrCreate_empty {table : AuthorTable} {name : String} (empty : nameKey python name = "") :
    getOrCreateAuthor python table name = .error .valueError := by
  simp [getOrCreateAuthor, empty]

theorem getOrCreate_filled (table : AuthorTable) {name : String}
    (filled : nameKey python name ≠ "") :
    ∃ authorId, getOrCreateAuthor python table name = .ok (authorId, touch python table name) := by
  unfold touch getOrCreateAuthor
  simp only [filled, if_false]
  cases table.find (nameKey python name) with
  | none => exact ⟨_, rfl⟩
  | some existing => exact ⟨_, rfl⟩

theorem resolveAuthors_table (python : Python) (names : List String) (table : AuthorTable) :
    (∀ authorIds next, resolveAuthors python table names = .ok (authorIds, next) →
      next = (names.takeWhile fun name => nameKey python name ≠ "").foldl (touch python) table ∧
        authorIds = (attributions python table names).map Prod.snd) ∧
    ∀ raised next, resolveAuthors python table names = .error (raised, next) →
      next = (names.takeWhile fun name => nameKey python name ≠ "").foldl (touch python) table := by
  induction names generalizing table with
  | nil =>
    constructor
    · intro authorIds next resolved
      obtain ⟨rfl, rfl⟩ := Prod.mk.inj (Except.ok.inj resolved)
      exact ⟨rfl, rfl⟩
    · intro raised next resolved
      cases resolved
  | cons name rest ih =>
    by_cases empty : nameKey python name = ""
    · simp only [resolveAuthors, getOrCreate_empty empty]
      refine ⟨nofun, fun raised next same => ?_⟩
      obtain ⟨_, rfl⟩ := Prod.mk.inj (Except.error.inj same)
      simp [empty]
    · obtain ⟨authorId, found⟩ := getOrCreate_filled table empty
      have later := ih (touch python table name)
      simp only [resolveAuthors, attributions, found]
      have front : (name :: rest).takeWhile (fun name => nameKey python name ≠ "") =
          name :: rest.takeWhile fun name => nameKey python name ≠ "" :=
        List.takeWhile_cons_of_pos (by simp [empty])
      rw [front, List.foldl_cons]
      cases resolved : resolveAuthors python (touch python table name) rest with
      | error failure =>
        refine ⟨nofun, fun raised next same => ?_⟩
        obtain rfl := Except.error.inj same
        exact later.2 _ _ resolved
      | ok pair =>
        refine ⟨fun authorIds next same => ?_, nofun⟩
        obtain ⟨rfl, rfl⟩ := Prod.mk.inj (Except.ok.inj same)
        obtain ⟨table, ids⟩ := later.1 _ _ resolved
        exact ⟨table, by rw [List.map_cons, ids]⟩

theorem write_authors (enabled : Bool) (store : Store) (entity : RawEntity) :
    (step python detectors store (.write enabled entity)).authors =
      (resolvedNames python enabled entity).foldl (touch python) store.authors := by
  have resolvedTable : (∀ failure, resolveEntity python enabled store entity = .error failure →
      failure.committed.authors =
        (resolvedNames python enabled entity).foldl (touch python) store.authors) ∧
      (resolveEntity python enabled store entity = .ok none →
        resolvedNames python enabled entity = []) ∧
      ∀ authorIds table, resolveEntity python enabled store entity = .ok (some (authorIds, table)) →
        table = (resolvedNames python enabled entity).foldl (touch python) store.authors := by
    unfold resolveEntity resolvedNames
    split
    · exact ⟨nofun, fun _ => rfl, nofun⟩
    · cases authorsFromAttrs python entity.attributesJson with
      | error raised =>
        refine ⟨fun failure same => ?_, nofun, nofun⟩
        obtain rfl := Except.error.inj same
        rfl
      | ok names =>
        dsimp only
        split
        · exact ⟨nofun, fun _ => rfl, nofun⟩
        · have tables := resolveAuthors_table python (names.take maxAuthorsForCoauth) store.authors
          cases resolved : resolveAuthors python store.authors (names.take maxAuthorsForCoauth) with
          | error failure =>
            refine ⟨fun _ same => ?_, nofun,
              nofun⟩
            obtain rfl := Except.error.inj same
            exact tables.2 _ _ resolved
          | ok pair =>
            refine ⟨nofun, nofun,
              fun authorIds table same => ?_⟩
            obtain rfl := Option.some.inj (Except.ok.inj same)
            exact (tables.1 _ _ resolved).1
  obtain ⟨raised, skipped, through⟩ := resolvedTable
  simp only [step, writeCoauthorArtifacts]
  cases resolved : resolveEntity python enabled store entity with
  | error failure => exact raised failure resolved
  | ok outcome =>
    cases outcome with
    | none =>
      rw [skipped resolved]
      rfl
    | some pair =>
      obtain ⟨authorIds, table⟩ := pair
      rw [← through authorIds table resolved]
      dsimp only
      cases stage : stageArtifacts { store with authors := table } entity authorIds with
      | error failure => rfl
      | ok written => exact (staged_of_stage stage).authors

theorem mem_touch_key {table : AuthorTable} {name key : String} (filled : nameKey python name ≠ "") :
    (∃ row ∈ (touch python table name).rows, row.nameKey = key) ↔
      (∃ row ∈ table.rows, row.nameKey = key) ∨ nameKey python name = key := by
  unfold touch getOrCreateAuthor
  simp only [filled, if_false]
  cases found : table.find (nameKey python name) with
  | none =>
    dsimp only
    constructor
    · rintro ⟨row, member, rfl⟩
      rcases List.mem_append.mp member with old | new
      · exact .inl ⟨row, old, rfl⟩
      · obtain rfl := List.mem_singleton.mp new
        exact .inr rfl
    · rintro (⟨row, member, rfl⟩ | rfl)
      · exact ⟨row, List.mem_append_left _ member, rfl⟩
      · exact ⟨newAuthor table _ name, List.mem_append_right _ List.mem_cons_self, rfl⟩
  | some existing =>
    have sameKey : ∀ row : Author, (if row.nameKey = nameKey python name then
        { row with aliases := seenAs row.aliases name } else row).nameKey = row.nameKey := by
      intro row
      split <;> rfl
    dsimp only
    constructor
    · rintro ⟨row, member, rfl⟩
      obtain ⟨old, stored, rfl⟩ := List.mem_map.mp member
      exact .inl ⟨old, stored, (sameKey old).symm⟩
    · rintro (⟨row, member, rfl⟩ | rfl)
      · exact ⟨_, List.mem_map.mpr ⟨row, member, rfl⟩, sameKey row⟩
      · have stored := List.mem_of_find?_eq_some found
        have keyed : existing.nameKey = nameKey python name := by
          simpa using List.find?_some found
        exact ⟨_, List.mem_map.mpr ⟨existing, stored, rfl⟩, (sameKey existing).trans keyed⟩

theorem mem_touches_key {key : String} (names : List String) (table : AuthorTable)
    (filled : ∀ name ∈ names, nameKey python name ≠ "") :
    (∃ row ∈ (names.foldl (touch python) table).rows, row.nameKey = key) ↔
      (∃ row ∈ table.rows, row.nameKey = key) ∨ ∃ name ∈ names, nameKey python name = key := by
  induction names generalizing table with
  | nil => simp
  | cons name rest ih =>
    rw [List.foldl_cons, ih _ fun other member => filled other (List.mem_cons_of_mem name member),
      mem_touch_key (filled name List.mem_cons_self), or_assoc]
    simp

theorem resolved_filled {enabled : Bool} {entity : RawEntity} :
    ∀ name ∈ resolvedNames python enabled entity, nameKey python name ≠ "" := by
  intro name member
  unfold resolvedNames at member
  split at member
  · cases member
  split at member
  · cases member
  split at member
  · cases member
  simpa using List.mem_takeWhile_imp member

def writesOf (writes : List (Bool × RawEntity)) : List Event :=
  writes.map fun write => .write write.1 write.2

def runAttributions (python : Python) (detectors : Detectors) :
    Store → List (Bool × RawEntity) → List (String × Nat)
  | _, [] => []
  | store, write :: rest =>
    attributions python store.authors (resolvedNames python write.1 write.2) ++
      runAttributions python detectors (step python detectors store (.write write.1 write.2)) rest

/-- The loser's names go to the winner, and no author is made for them. -/
def Durable (python : Python) (detectors : Detectors) (merged : Store) (winner loser : Author)
    (writes : List (Bool × RawEntity)) : Prop :=
  (∀ entry ∈ runAttributions python detectors merged writes,
    nameKey python entry.1 = loser.nameKey → entry.2 = winner.id) ∧
  ∀ row ∈ (runEvents (step python detectors) merged (writesOf writes)).authors.rows,
    row.nameKey ≠ loser.nameKey

/-- No write gets as far as a name with the loser's key. -/
def NeverNamed (python : Python) (loser : Author) (writes : List (Bool × RawEntity)) : Prop :=
  ∀ write ∈ writes, ∀ name ∈ resolvedNames python write.1 write.2,
    nameKey python name ≠ loser.nameKey

variable (writes : List (Bool × RawEntity))

theorem run_has_key_iff {key : String} (store : Store) :
    (∃ row ∈ (runEvents (step python detectors) store (writesOf writes)).authors.rows,
        row.nameKey = key) ↔
      (∃ row ∈ store.authors.rows, row.nameKey = key) ∨
        ∃ write ∈ writes, ∃ name ∈ resolvedNames python write.1 write.2,
          nameKey python name = key := by
  induction writes generalizing store with
  | nil => simp [writesOf, runEvents]
  | cons write rest ih =>
    have next := ih (step python detectors store (.write write.1 write.2))
    rw [write_authors, mem_touches_key _ _ resolved_filled, or_assoc] at next
    refine next.trans (or_congr_right ?_)
    simp

theorem mem_attributions {entry : String × Nat} (names : List String) (table : AuthorTable)
    (member : entry ∈ attributions python table names) : entry.1 ∈ names := by
  induction names generalizing table with
  | nil => cases member
  | cons name rest ih =>
    unfold attributions at member
    split at member
    · rcases List.mem_cons.mp member with rfl | later
      · exact List.mem_cons_self
      · exact List.mem_cons_of_mem name (ih _ later)
    · cases member

theorem mem_runAttributions {entry : String × Nat} (store : Store)
    (member : entry ∈ runAttributions python detectors store writes) :
    ∃ write ∈ writes, entry.1 ∈ resolvedNames python write.1 write.2 := by
  induction writes generalizing store with
  | nil => cases member
  | cons write rest ih =>
    rcases List.mem_append.mp member with here | later
    · exact ⟨write, List.mem_cons_self, mem_attributions _ _ here⟩
    · obtain ⟨other, listed, named⟩ := ih _ later
      exact ⟨other, List.mem_cons_of_mem write listed, named⟩

theorem merged_without_key (distinctKeys : (store.authors.rows.map Author.nameKey).Nodup)
    (stored : loser ∈ store.authors.rows) :
    ¬ ∃ row ∈ (mergedStore store winner loser).authors.rows, row.nameKey = loser.nameKey := by
  rintro ⟨row, member, keyed⟩
  obtain ⟨mapped, other⟩ := List.mem_filter.mp member
  obtain ⟨old, oldStored, rfl⟩ := List.mem_map.mp mapped
  have sameKey : old.nameKey = loser.nameKey := by
    rw [← keyed]
    split <;> rfl
  obtain rfl := List.inj_on_of_nodup_map distinctKeys oldStored stored sameKey
  revert other
  split <;> simp

/-- After a merge, the loser's names stay with the winner exactly as long as no write resolves
one of them. -/
theorem merge_durable_iff (python : Python) (detectors : Detectors) (store merged : Store)
    (winner loser : Author) (writes : List (Bool × RawEntity))
    (distinctKeys : (store.authors.rows.map Author.nameKey).Nodup)
    (stored : loser ∈ store.authors.rows) (different : winner.id ≠ loser.id)
    (served : mergeAuthors store winner loser = .ok merged) :
    Durable python detectors merged winner loser writes ↔ NeverNamed python loser writes := by
  rcases mergeAuthors_cases served with ⟨same, _⟩ | ⟨_, rfl⟩
  · exact absurd same different
  · have created : (∃ row ∈ (runEvents (step python detectors) (mergedStore store winner loser)
        (writesOf writes)).authors.rows, row.nameKey = loser.nameKey) ↔ _ :=
      run_has_key_iff writes _
    rw [or_iff_right (merged_without_key distinctKeys stored)] at created
    constructor
    · rintro ⟨_, noRow⟩ write listed name resolved keyed
      obtain ⟨row, member, same⟩ := created.mpr ⟨write, listed, name, resolved, keyed⟩
      exact noRow row member same
    · intro never
      refine ⟨fun entry member keyed => ?_, fun row member keyed => ?_⟩
      · obtain ⟨write, listed, resolved⟩ := mem_runAttributions writes _ member
        exact absurd keyed (never write listed entry.1 resolved)
      · obtain ⟨write, listed, name, resolved, same⟩ := created.mp ⟨row, member, keyed⟩
        exact never write listed name resolved same

def laterWrite : List (Bool × RawEntity) := [(true, paperBy 3 ["John Smith", "Cay Fox"])]

theorem merge_durable_iff_laterWrite :
    (twoPapers.authors.rows.map Author.nameKey).Nodup ∧ fullSmith ∈ twoPapers.authors.rows ∧
      (Durable asciiPython plainDetectors (mergedStore twoPapers initialSmith fullSmith) initialSmith
          fullSmith laterWrite ↔
        NeverNamed asciiPython fullSmith laterWrite) :=
  ⟨by decide, by decide,
    merge_durable_iff asciiPython plainDetectors twoPapers _ initialSmith fullSmith laterWrite
      (by decide) (by decide) (by decide) rfl⟩

/-- The name that was merged away is given to a new author. -/
theorem merged_name_returns :
    nameKey asciiPython "John Smith" = fullSmith.nameKey ∧
      ("John Smith", 5) ∈ runAttributions asciiPython plainDetectors
        (mergedStore twoPapers initialSmith fullSmith) laterWrite ∧
      ¬ Durable asciiPython plainDetectors (mergedStore twoPapers initialSmith fullSmith)
        initialSmith fullSmith laterWrite := by
  have attributed : ("John Smith", 5) ∈ runAttributions asciiPython plainDetectors
      (mergedStore twoPapers initialSmith fullSmith) laterWrite := by decide
  have keyed : nameKey asciiPython "John Smith" = fullSmith.nameKey := by decide
  refine ⟨keyed, attributed, fun durable => ?_⟩
  have winners := durable.1 _ attributed keyed
  revert winners
  decide

end Ukip.Coauthorship.Merges
