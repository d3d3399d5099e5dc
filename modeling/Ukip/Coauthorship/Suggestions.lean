import Ukip.Foundation.FallibleLoop
import Ukip.Coauthorship.Authors

/-!
# The review queue of author merges

`classify_merge` of `coauthorship/identity.py`, `coauthorship/suggestions.py` and the endpoints
that confirm and reject a suggestion.  Generation enters each pair of authors at most once, the
smaller id first; a merge repoints the stored pairs.
-/

namespace Ukip.Coauthorship.Suggestions

open Foundation.EventRun Foundation.FallibleLoop Foundation.JsonValue Foundation.Tally
open Analytics.Corpus (strip isPythonSpace)
open Identity Artifacts Weights Merges Authors

variable (python : Python)

inductive Tier where
  | strong
  | probable
  | ambiguous
  | distinct
  deriving DecidableEq

structure MergeDecision where
  tier : Tier
  reason : String
  evidence : Entries

/-- `key.split("_", 1)` of a key with an underscore. -/
def splitKey (key : Text) : Text × Text :=
  (key.takeWhile fun char => char != '_', (key.dropWhile fun char => char != '_').drop 1)

def lastInitialPair (aKey bKey : String) : Bool :=
  if '_' ∉ aKey.toList ∨ '_' ∉ bKey.toList then false
  else
    let (lastA, firstA) := splitKey aKey.toList
    let (lastB, firstB) := splitKey bKey.toList
    if lastA ≠ lastB ∨ firstA = [] ∨ firstB = [] then false
    else
      let oneInitial := (firstA.length == 1) != (firstB.length == 1)
      oneInitial && ((firstB.take 1).isPrefixOf firstA || (firstA.take 1).isPrefixOf firstB)

def publicationEntityIds (publications : List AuthorPublication) (authorId : Nat) : List Nat :=
  ((publications.filter fun row => row.authorId = authorId).map
    AuthorPublication.entityId).eraseDups

def sharedPublicationIds (publications : List AuthorPublication) (aId bId : Nat) : List Nat :=
  sortedBy (fun first second => decide (first ≤ second))
    ((publicationEntityIds publications aId).filter fun entityId =>
      (publicationEntityIds publications bId).contains entityId)

/-- The affiliation of one record; a JSON value that is no object has no `get`. -/
def affiliationOf : JsonColumn → Except Raised (Option String)
  | .null => .ok none
  | .malformed _ => .ok none
  | .parsed (.object attrs) =>
    match firstTruthy [get? attrs "affiliation", get? attrs "enrichment_affiliation"] with
    | .text affiliation =>
      let stripped := strip isPythonSpace affiliation.toList
      .ok (if stripped = [] then none else some (String.ofList (python.lower stripped)))
    | _ => .ok none
  | .parsed _ => .error .attributeError

def affiliationsForEntities (entities : List RawEntity) (entityIds : List Nat) :
    Except Raised (List String) :=
  (entities.filter fun entity => entityIds.contains entity.id).foldlM
    (fun affiliations entity => do
      let affiliation ← affiliationOf python entity.attributesJson
      pure (affiliations ++ affiliation.toList)) []

def sharedAffiliations (entities : List RawEntity) (publications : List AuthorPublication)
    (aId bId : Nat) : Except Raised (List String) :=
  let aEntities := publicationEntityIds publications aId
  let bEntities := publicationEntityIds publications bId
  if aEntities.isEmpty || bEntities.isEmpty then .ok []
  else do
    let affiliationsA ← affiliationsForEntities python entities aEntities
    let affiliationsB ← affiliationsForEntities python entities bEntities
    pure (sortedBy (fun first second => decide (first ≤ second))
      ((affiliationsA.filter fun affiliation => affiliationsB.contains affiliation).eraseDups))

def classifyMerge (entities : List RawEntity) (publications : List AuthorPublication)
    (a b : Author) : Except Raised MergeDecision :=
  let orcid := fun author : Author => Json.text (author.orcid.getD "")
  if filled a.orcid && filled b.orcid && a.orcid == b.orcid then
    .ok ⟨.strong, "orcid match", [("orcid", orcid a)]⟩
  else if filled a.orcid && filled b.orcid && a.orcid != b.orcid then
    .ok ⟨.distinct, "orcid conflict", [("a", orcid a), ("b", orcid b)]⟩
  else if a.nameKey = b.nameKey then
    let shared := sharedPublicationIds publications a.id b.id
    if !shared.isEmpty then
      .ok ⟨.strong, "name_key + shared publications",
        [("shared_entity_ids",
          .array ((shared.take 10).map fun entityId => Json.integer entityId))]⟩
    else do
      let sharedAff ← sharedAffiliations python entities publications a.id b.id
      if !sharedAff.isEmpty then
        pure ⟨.probable, "name_key + shared affiliation",
          [("affiliations", .array ((sharedAff.take 5).map Json.text))]⟩
      else pure ⟨.ambiguous, "name_key collision without disambiguator", []⟩
  else if lastInitialPair a.nameKey b.nameKey then
    .ok ⟨.ambiguous, "last+initial match across name forms", []⟩
  else .ok ⟨.distinct, "no overlap", []⟩

def maxGroupSize : Nat := 200

def familyName (key : String) : Text := key.toList.takeWhile fun char => char != '_'

/-- The authors by family name, the families in the order in which the authors bring them. -/
def groups (authors : List Author) : List (List Author) :=
  ((authors.map fun author => familyName author.nameKey).eraseDups).map fun family =>
    authors.filter fun author => familyName author.nameKey = family

structure ScanStats where
  authorsScanned : Nat
  groupsCompared : Nat
  groupsSkippedTooLarge : Nat
  pairsCompared : Nat
  suggestionsCreated : Nat

structure Scan where
  existing : List (Nat × Nat)
  suggestions : List AuthorMergeSuggestion
  stats : ScanStats

def unordered (aId bId : Nat) : Nat × Nat := (min aId bId, max aId bId)

def nextId (suggestions : List AuthorMergeSuggestion) : Nat :=
  (suggestions.map AuthorMergeSuggestion.id).foldl max 0 + 1

def comparePair (entities : List RawEntity) (publications : List AuthorPublication) (scan : Scan)
    (pair : Author × Author) : Except Raised Scan :=
  let scan := { scan with
    stats := { scan.stats with pairsCompared := scan.stats.pairsCompared + 1 } }
  let key := unordered pair.1.id pair.2.id
  if key ∈ scan.existing then .ok scan
  else
    match classifyMerge python entities publications pair.1 pair.2 with
    | .error raised => .error raised
    | .ok decision =>
      if decision.tier = .ambiguous then
        .ok
          { existing := scan.existing ++ [key]
            suggestions := scan.suggestions ++
              [⟨nextId scan.suggestions, key.1, key.2, decision.reason, .pending⟩]
            stats := { scan.stats with suggestionsCreated := scan.stats.suggestionsCreated + 1 } }
      else .ok scan

def compareGroup (entities : List RawEntity) (publications : List AuthorPublication)
    (groupBound : Nat) (scan : Scan) (members : List Author) : Except Raised Scan :=
  if members.length < 2 then .ok scan
  else if groupBound < members.length then
    .ok { scan with
      stats := { scan.stats with groupsSkippedTooLarge := scan.stats.groupsSkippedTooLarge + 1 } }
  else
    (combinations members).foldlM (comparePair python entities publications)
      { scan with stats := { scan.stats with groupsCompared := scan.stats.groupsCompared + 1 } }

def generateMergeSuggestions (entities : List RawEntity) (groupBound : Nat) (store : Store) :
    Except Raised (ScanStats × Store) :=
  let start : Scan :=
    { existing := store.suggestions.map fun row => unordered row.authorA row.authorB
      suggestions := store.suggestions
      stats := ⟨store.authors.rows.length, 0, 0, 0, 0⟩ }
  match (groups store.authors.rows).foldlM
      (compareGroup python entities store.publications groupBound) start with
  | .error raised => .error raised
  | .ok scan => .ok (scan.stats, { store with suggestions := scan.suggestions })

inductive Refusal where
  | http (status : Nat) (detail : String)
  | raised (raised : Raised)

def statusText : SuggestionStatus → String
  | .pending => "pending"
  | .merged => "merged"
  | .rejected => "rejected"

def pendingSuggestion (store : Store) (suggestionId : Nat) :
    Except Refusal AuthorMergeSuggestion :=
  match store.suggestions.find? fun row => row.id == suggestionId with
  | none => .error (.http 404 "merge suggestion not found")
  | some row =>
    if row.status ≠ .pending then
      .error (.http 409 ("suggestion already " ++ statusText row.status))
    else .ok row

def resolved (suggestions : List AuthorMergeSuggestion) (suggestionId : Nat)
    (status : SuggestionStatus) : List AuthorMergeSuggestion :=
  suggestions.map fun row => if row.id = suggestionId then { row with status := status } else row

def enqueueAuthorScopes (store : Store) (authorId : Nat) (reason : String) : Store :=
  { store with
    dirtyScopes := (((store.publications.filter fun row => row.authorId = authorId).map
      AuthorPublication.scope).eraseDups).foldl
        (fun markers scope => markDirty markers scope reason) store.dirtyScopes }

structure MergeResponse where
  winnerAuthorId : Nat
  loserAuthorId : Nat

def confirmMergeSuggestion (store : Store) (suggestionId : Nat) :
    Except Refusal (MergeResponse × Store) :=
  match pendingSuggestion store suggestionId with
  | .error refusal => .error refusal
  | .ok suggestion =>
    match authorById store suggestion.authorA, authorById store suggestion.authorB with
    | some winner, some loser =>
      match mergeAuthors store winner loser with
      | .error raised => .error (.raised raised)
      | .ok merged =>
        let merged := enqueueAuthorScopes merged winner.id "merge"
        .ok (⟨winner.id, loser.id⟩,
          { merged with suggestions := resolved merged.suggestions suggestionId .merged })
    | _, _ => .error (.http 409 "one of the authors no longer exists")

def rejectMergeSuggestion (store : Store) (suggestionId : Nat) : Except Refusal Store :=
  match pendingSuggestion store suggestionId with
  | .error refusal => .error refusal
  | .ok _ => .ok { store with suggestions := resolved store.suggestions suggestionId .rejected }

def pairOf (row : AuthorMergeSuggestion) : Nat × Nat := unordered row.authorA row.authorB

/-- Only proper pairs are pending, each pair has at most one row, and the smaller id comes
first. -/
structure Orderly (store : Store) : Prop where
  proper : ∀ row ∈ store.suggestions, row.status = .pending → row.authorA ≠ row.authorB
  onePerPair : (store.suggestions.map pairOf).Nodup
  ordered : ∀ row ∈ store.suggestions, row.authorA < row.authorB

inductive Event where
  | write (enabled : Bool) (entity : RawEntity)
  | generate (entities : List RawEntity) (groupBound : Nat)
  | confirm (suggestionId : Nat)
  | reject (suggestionId : Nat)

def step (detectors : Detectors) (store : Store) : Event → Store
  | .write enabled entity => Weights.step python detectors store (.write enabled entity)
  | .generate entities groupBound =>
    match generateMergeSuggestions python entities groupBound store with
    | .ok (_, generated) => generated
    | .error _ => store
  | .confirm suggestionId =>
    match confirmMergeSuggestion store suggestionId with
    | .ok (_, confirmed) => confirmed
    | .error _ => store
  | .reject suggestionId =>
    match rejectMergeSuggestion store suggestionId with
    | .ok rejected => rejected
    | .error _ => store

/-- The request confirms a pending suggestion of two authors who can be merged. -/
def Confirms (store : Store) : Event → Prop
  | .confirm suggestionId => ∃ suggestion winner loser,
      pendingSuggestion store suggestionId = .ok suggestion ∧
      authorById store suggestion.authorA = some winner ∧
      authorById store suggestion.authorB = some loser ∧
      ¬ (filled loser.orcid = true ∧ filled winner.orcid = false)
  | _ => False

variable {python} {detectors : Detectors} {store : Store}

variable {suggestionId : Nat} {suggestion : AuthorMergeSuggestion}

theorem pendingSuggestion_spec (found : pendingSuggestion store suggestionId = .ok suggestion) :
    suggestion ∈ store.suggestions ∧ suggestion.id = suggestionId ∧
      suggestion.status = .pending := by
  unfold pendingSuggestion at found
  split at found
  · cases found
  rename_i row stored
  split at found
  · cases found
  rename_i pending
  obtain rfl := Except.ok.inj found
  have keyed := List.find?_some stored
  exact ⟨List.mem_of_find?_eq_some stored, beq_iff_eq.mp keyed, not_not.mp pending⟩

theorem confirm_cases {response : MergeResponse} {after : Store}
    (served : confirmMergeSuggestion store suggestionId = .ok (response, after)) :
    ∃ suggestion winner loser merged,
      pendingSuggestion store suggestionId = .ok suggestion ∧
      authorById store suggestion.authorA = some winner ∧
      authorById store suggestion.authorB = some loser ∧
      mergeAuthors store winner loser = .ok merged ∧
      after.authors = merged.authors ∧
      after.suggestions = resolved merged.suggestions suggestionId .merged := by
  unfold confirmMergeSuggestion at served
  split at served
  · cases served
  rename_i suggestion found
  split at served
  · rename_i winner loser winnerFound loserFound
    split at served
    · cases served
    rename_i merged mergeServed
    obtain ⟨_, rfl⟩ := Prod.mk.inj (Except.ok.inj served)
    exact ⟨suggestion, winner, loser, merged, found, winnerFound, loserFound, mergeServed,
      rfl, rfl⟩
  · cases served

theorem recordPairs_suggestions (entityId : Nat) (scope : Scope) (pairs : List (Nat × Nat))
    (store : Store) :
    (pairs.foldl (recordPair entityId scope) store).suggestions = store.suggestions := by
  induction pairs generalizing store with
  | nil => rfl
  | cons pair rest ih =>
    refine (ih (recordPair entityId scope store pair)).trans ?_
    unfold recordPair
    dsimp only
    split
    · rfl
    · split <;> rfl

theorem write_suggestions (detectors : Detectors) (enabled : Bool) (store : Store) (entity : RawEntity) :
    (Weights.step python detectors store (.write enabled entity)).suggestions =
      store.suggestions := by
  rcases write_outcome detectors enabled store entity with
    ⟨⟨table, same⟩, _⟩ | ⟨authorIds, table, written, _, staged, same⟩
  · rw [same]
  · rw [same]
    obtain rfl := stageArtifacts_ok staged
    refine (recordPairs_suggestions entity.id (scopeOf entity) _ _).trans ?_
    unfold flushed reassign
    split <;> rfl

variable {winner loser : Author}

theorem confirm_repoints {merged : Store}
    (found : pendingSuggestion store suggestionId = .ok suggestion)
    (winnerFound : authorById store suggestion.authorA = some winner)
    (loserFound : authorById store suggestion.authorB = some loser)
    (served : mergeAuthors store winner loser = .ok merged) :
    ∃ row ∈ resolved merged.suggestions suggestionId .merged, row.authorA = row.authorB := by
  obtain ⟨stored, sameId, _⟩ := pendingSuggestion_spec found
  have winnerId := authorById_id winnerFound
  have loserId := authorById_id loserFound
  have same : ∀ row : AuthorMergeSuggestion, row.authorA = row.authorB →
      (if row.id = suggestionId then { row with status := SuggestionStatus.merged }
        else row).authorA =
      (if row.id = suggestionId then { row with status := SuggestionStatus.merged }
        else row).authorB := by
    intro row equal
    split <;> exact equal
  rcases mergeAuthors_cases served with ⟨sameAuthor, rfl⟩ | ⟨_, rfl⟩
  · exact ⟨_, List.mem_map_of_mem stored,
      same suggestion (winnerId.symm.trans (sameAuthor.trans loserId))⟩
  · refine ⟨_, List.mem_map_of_mem (List.mem_map_of_mem stored), same _ ?_⟩
    rw [← winnerId, ← loserId]
    simp [repointed]

/-- The scan knows the pairs that are stored, in their canonical order. -/
structure ScanOrderly (scan : Scan) : Prop where
  known : scan.existing = scan.suggestions.map pairOf
  distinct : scan.existing.Nodup
  ordered : ∀ row ∈ scan.suggestions, row.authorA < row.authorB

variable {entities : List RawEntity} {publications : List AuthorPublication}

theorem comparePair_orderly {scan after : Scan} {pair : Author × Author}
    (apart : pair.1.id ≠ pair.2.id) (orderly : ScanOrderly scan)
    (compared : comparePair python entities publications scan pair = .ok after) :
    ScanOrderly after := by
  unfold comparePair at compared
  dsimp only at compared
  split at compared
  · obtain rfl := Except.ok.inj compared
    exact ⟨orderly.known, orderly.distinct, orderly.ordered⟩
  · rename_i fresh
    split at compared
    · cases compared
    rename_i decision _
    split at compared
    · obtain rfl := Except.ok.inj compared
      refine ⟨?_, ?_, ?_⟩
      · rw [List.map_append, orderly.known]
        simp [pairOf, unordered]
      · rw [List.nodup_append]
        refine ⟨orderly.distinct, List.nodup_singleton _, ?_⟩
        intro old oldMember new newMember same
        obtain rfl := List.mem_singleton.mp newMember
        exact fresh (same ▸ oldMember)
      · intro row member
        rcases List.mem_append.mp member with old | new
        · exact orderly.ordered row old
        · obtain rfl := List.mem_singleton.mp new
          simp only [unordered]
          omega
    · obtain rfl := Except.ok.inj compared
      exact ⟨orderly.known, orderly.distinct, orderly.ordered⟩

theorem compareGroup_orderly {groupBound : Nat} {scan after : Scan} {members : List Author}
    (distinct : (members.map Author.id).Nodup) (orderly : ScanOrderly scan)
    (compared : compareGroup python entities publications groupBound scan members = .ok after) :
    ScanOrderly after := by
  unfold compareGroup at compared
  split at compared
  · obtain rfl := Except.ok.inj compared
    exact orderly
  · split at compared
    · obtain rfl := Except.ok.inj compared
      exact ⟨orderly.known, orderly.distinct, orderly.ordered⟩
    · have start : ScanOrderly { scan with
          stats := { scan.stats with groupsCompared := scan.stats.groupsCompared + 1 } } :=
        ⟨orderly.known, orderly.distinct, orderly.ordered⟩
      refine foldlM_kept (fun state kept pair member next turn => ?_) start compared
      exact comparePair_orderly (combinations_apart Author.id members distinct pair member) kept turn

theorem generate_orderly {groupBound : Nat} {stats : ScanStats} {generated : Store}
    (numbered : Numbered store.authors) (orderly : Orderly store)
    (served : generateMergeSuggestions python entities groupBound store = .ok (stats, generated)) :
    generated.authors = store.authors ∧ Orderly generated := by
  unfold generateMergeSuggestions at served
  dsimp only at served
  split at served
  · cases served
  rename_i scan scanned
  obtain ⟨_, rfl⟩ := Prod.mk.inj (Except.ok.inj served)
  have start : ScanOrderly
      { existing := store.suggestions.map fun row => unordered row.authorA row.authorB
        suggestions := store.suggestions
        stats := ⟨store.authors.rows.length, 0, 0, 0, 0⟩ } :=
    ⟨rfl, orderly.onePerPair, orderly.ordered⟩
  have final : ScanOrderly scan := by
    refine foldlM_kept (fun state kept members member next turn => ?_) start scanned
    obtain ⟨family, _, rfl⟩ := List.mem_map.mp member
    exact compareGroup_orderly
      (numbered.distinct.sublist (List.Sublist.map Author.id List.filter_sublist)) kept turn
  refine ⟨rfl, fun row member _ => Nat.ne_of_lt (final.ordered row member), ?_, final.ordered⟩
  exact final.known ▸ final.distinct

theorem reject_orderly (orderly : Orderly store) :
    Orderly { store with
      suggestions := resolved store.suggestions suggestionId .rejected } := by
  have samePair : ∀ row : AuthorMergeSuggestion,
      pairOf (if row.id = suggestionId then { row with status := SuggestionStatus.rejected }
        else row) = pairOf row := by
    intro row
    split <;> rfl
  have ordered : ∀ row ∈ resolved store.suggestions suggestionId .rejected,
      row.authorA < row.authorB := by
    intro row member
    obtain ⟨old, stored, rfl⟩ := List.mem_map.mp member
    have before := orderly.ordered old stored
    split <;> exact before
  refine ⟨fun row member _ => Nat.ne_of_lt (ordered row member), ?_, ordered⟩
  unfold resolved
  simpa only [List.map_map, Function.comp_def, samePair] using orderly.onePerPair

theorem step_numbered (event : Event) (numbered : Numbered store.authors) :
    Numbered (step python detectors store event).authors := by
  cases event with
  | write enabled entity =>
    simp only [step]
    rw [write_authors]
    exact touches_numbered _ numbered
  | generate entities groupBound =>
    simp only [step, generateMergeSuggestions]
    split
    · rename_i served
      split at served
      · cases served
      obtain ⟨_, rfl⟩ := Prod.mk.inj (Except.ok.inj served)
      exact numbered
    · exact numbered
  | confirm suggestionId =>
    simp only [step]
    split
    · rename_i served
      obtain ⟨_, _, _, merged, _, _, _, mergeServed, authors, _⟩ := confirm_cases served
      rw [authors]
      exact mergeAuthors_numbered mergeServed numbered
    · exact numbered
  | reject suggestionId =>
    simp only [step, rejectMergeSuggestion]
    split
    · rename_i served
      split at served
      · cases served
      obtain rfl := Except.ok.inj served
      exact numbered
    · exact numbered

theorem mergeAuthors_ok_iff (different : winner.id ≠ loser.id) :
    (∃ merged, mergeAuthors store winner loser = .ok merged) ↔
      ¬ (filled loser.orcid = true ∧ filled winner.orcid = false) := by
  unfold mergeAuthors
  rw [if_neg different]
  cases filled loser.orcid <;> cases filled winner.orcid <;> simp

theorem Orderly.differ (orderly : Orderly store)
    (found : pendingSuggestion store suggestionId = .ok suggestion)
    (winnerFound : authorById store suggestion.authorA = some winner)
    (loserFound : authorById store suggestion.authorB = some loser) : winner.id ≠ loser.id := by
  rw [authorById_id winnerFound, authorById_id loserFound]
  exact Nat.ne_of_lt (orderly.ordered suggestion (pendingSuggestion_spec found).1)

theorem step_orderly_iff (event : Event) (numbered : Numbered store.authors)
    (orderly : Orderly store) :
    Orderly (step python detectors store event) ↔ ¬ Confirms store event := by
  cases event with
  | write enabled entity =>
    refine iff_of_true ?_ id
    have same : (step python detectors store (.write enabled entity)).suggestions =
        store.suggestions := write_suggestions detectors enabled store entity
    refine ⟨?_, ?_, ?_⟩
    · rw [same]
      exact orderly.proper
    · rw [same]
      exact orderly.onePerPair
    · rw [same]
      exact orderly.ordered
  | generate entities groupBound =>
    refine iff_of_true ?_ id
    simp only [step]
    split
    · rename_i served
      exact (generate_orderly numbered orderly served).2
    · exact orderly
  | reject suggestionId =>
    refine iff_of_true ?_ id
    simp only [step, rejectMergeSuggestion]
    split
    · rename_i served
      split at served
      · cases served
      obtain rfl := Except.ok.inj served
      exact reject_orderly orderly
    · exact orderly
  | confirm suggestionId =>
    constructor
    · rintro after ⟨suggestion, winner, loser, found, winnerFound, loserFound, mergeable⟩
      have different := orderly.differ found winnerFound loserFound
      obtain ⟨merged, served⟩ := (mergeAuthors_ok_iff different).mpr mergeable
      have outcome : confirmMergeSuggestion store suggestionId =
          .ok (⟨winner.id, loser.id⟩, { enqueueAuthorScopes merged winner.id "merge" with
            suggestions := resolved merged.suggestions suggestionId .merged }) := by
        unfold confirmMergeSuggestion
        rw [found]
        dsimp only
        rw [winnerFound, loserFound]
        dsimp only
        rw [served]
        rfl
      simp only [step, outcome] at after
      obtain ⟨row, member, same⟩ := confirm_repoints found winnerFound loserFound served
      exact absurd same (Nat.ne_of_lt (after.ordered row member))
    · intro unconfirmed
      simp only [step]
      split
      · rename_i served
        obtain ⟨suggestion, winner, loser, merged, found, winnerFound, loserFound, mergeServed,
          _⟩ := confirm_cases served
        have different := orderly.differ found winnerFound loserFound
        exact absurd ⟨suggestion, winner, loser, found, winnerFound, loserFound,
          (mergeAuthors_ok_iff different).mp ⟨merged, mergeServed⟩⟩ unconfirmed
      · exact orderly

/-- The queue is orderly in every state of a run exactly if no suggestion is confirmed. -/
theorem suggestions_orderly_iff (python : Python) (detectors : Detectors) (store : Store)
    (events : List Event) (numbered : Numbered store.authors) (orderly : Orderly store) :
    EveryState (step python detectors) Orderly store events ↔
      EveryStep (step python detectors) (fun store event => ¬ Confirms store event) store events := by
  have kept : ∀ store event, Numbered store.authors →
      Numbered (step python detectors store event).authors :=
    fun _ event numbered => step_numbered event numbered
  exact everyState_iff_everyStep_within kept
    (fun _ event numbered orderly => step_orderly_iff event numbered orderly) store events
    numbered orderly

def threeSmiths : Store :=
  runEvents (Weights.step asciiPython plainDetectors) emptyStore
    [.write true (paperBy 1 ["John Smith", "Amy Lee"]),
      .write true (paperBy 2 ["Jane Smith", "Bob Ray"]),
      .write true (paperBy 3 ["J Smith", "Cay Fox"])]

theorem threeSmiths_numbered : Numbered threeSmiths.authors :=
  ⟨by decide, by decide⟩

theorem threeSmiths_orderly : Orderly threeSmiths := by
  have empty : threeSmiths.suggestions = [] := by decide
  refine ⟨?_, ?_, ?_⟩
  · rw [empty]
    exact nofun
  · rw [empty]
    exact List.nodup_nil
  · rw [empty]
    exact nofun

theorem suggestions_orderly_iff_rejected :
    EveryState (step asciiPython plainDetectors) Orderly threeSmiths
      [.generate [] maxGroupSize, .reject 1] :=
  (suggestions_orderly_iff asciiPython plainDetectors threeSmiths _ threeSmiths_numbered
    threeSmiths_orderly).mpr ⟨id, id, trivial⟩

/-- Confirming that John is J turns the pair of Jane and J around.  When J is named again, the
next confirmations leave two rows for one pair, and then a pending row of Jane alone. -/
theorem confirmed_pairs_collide :
    ((runEvents (step asciiPython plainDetectors) threeSmiths
        [.generate [] maxGroupSize, .confirm 1]).suggestions.map fun row =>
          (row.authorA, row.authorB, row.status)) = [(1, 1, .merged), (3, 1, .pending)] ∧
      ((runEvents (step asciiPython plainDetectors) threeSmiths
        [.generate [] maxGroupSize, .confirm 1, .write true (paperBy 4 ["J Smith", "Dan Poe"]),
          .generate [] maxGroupSize, .confirm 3]).suggestions.map fun row =>
          (row.authorA, row.authorB, row.status)) =
        [(1, 1, .merged), (3, 1, .pending), (1, 1, .merged), (3, 1, .pending)] ∧
      ((runEvents (step asciiPython plainDetectors) threeSmiths
        [.generate [] maxGroupSize, .confirm 1, .write true (paperBy 4 ["J Smith", "Dan Poe"]),
          .generate [] maxGroupSize, .confirm 3, .confirm 2]).suggestions.map fun row =>
          (row.authorA, row.authorB, row.status)) =
        [(3, 3, .merged), (3, 3, .merged), (3, 3, .merged), (3, 3, .pending)] ∧
      ¬ Orderly (runEvents (step asciiPython plainDetectors) threeSmiths
        [.generate [] maxGroupSize, .confirm 1]) := by
  refine ⟨by decide, by decide, by decide, fun orderly => ?_⟩
  have first : ((runEvents (step asciiPython plainDetectors) threeSmiths
      [.generate [] maxGroupSize, .confirm 1]).suggestions.map fun row =>
        (row.authorA, row.authorB)).head? = some (1, 1) := by decide
  obtain ⟨row, found, pair⟩ := Option.map_eq_some_iff.mp (List.head?_map ▸ first)
  obtain ⟨same, equal⟩ := Prod.mk.inj pair
  have ordered := orderly.ordered row (List.mem_of_head? found)
  omega

end Ukip.Coauthorship.Suggestions
