import Ukip.Foundation.LogCount
import Ukip.Coauthorship.Identity

/-!
# Co-authorship rows

The tables behind the co-authorship network, `write_coauthor_artifacts` of
`enrichment_worker.py`, `merge_authors` of `coauthorship/identity.py` and
`recompute_coauthor_stats` of `coauthorship/recompute.py`.  The edges are a counter: an
edge's weight under its key.
-/

namespace Ukip.Coauthorship.Artifacts

open Foundation.JsonValue Foundation.Tally Identity

structure Scope where
  orgId : Nat
  domainId : String
  deriving DecidableEq

structure RawEntity where
  id : Nat
  orgId : Option Nat
  domain : Option String
  attributesJson : JsonColumn

def scopeOf (entity : RawEntity) : Scope where
  orgId := entity.orgId.getD 0
  domainId := if entity.domain.getD "" = "" then "default" else entity.domain.getD ""

structure AuthorPublication where
  authorId : Nat
  entityId : Nat
  scope : Scope
  position : Nat

structure EdgeKey where
  authorA : Nat
  authorB : Nat
  scope : Scope
  deriving DecidableEq

structure CoauthorContribution where
  entityId : Nat
  edge : EdgeKey

structure AuthorStats where
  authorId : Nat
  scope : Scope
  degree : Nat
  centrality : ℚ
  communityId : Nat
  publicationCount : Nat

inductive SuggestionStatus where
  | pending
  | merged
  | rejected
  deriving DecidableEq

structure AuthorMergeSuggestion where
  id : Nat
  authorA : Nat
  authorB : Nat
  reason : String
  status : SuggestionStatus

structure CoauthorDirtyScope where
  scope : Scope
  reason : String

structure Store where
  authors : AuthorTable
  publications : List AuthorPublication
  contributions : List CoauthorContribution
  edges : Counter EdgeKey
  stats : List AuthorStats
  dirtyScopes : List CoauthorDirtyScope
  suggestions : List AuthorMergeSuggestion

/-- `db.merge(CoauthorDirtyScope(...))` -/
def markDirty (markers : List CoauthorDirtyScope) (scope : Scope) (reason : String) :
    List CoauthorDirtyScope :=
  if markers.any fun marker => marker.scope == scope then
    markers.map fun marker => if marker.scope = scope then { marker with reason := reason } else marker
  else markers ++ [⟨scope, reason⟩]

variable (python : Python)

def maxAuthorsForCoauth : Nat := 15

/-- What an exception leaves: it is raised, and the caller rolls back to what was committed. -/
structure Failure where
  raised : Raised
  committed : Store

def resolveAuthors (table : AuthorTable) : List String →
    Except (Raised × AuthorTable) (List Nat × AuthorTable)
  | [] => .ok ([], table)
  | name :: rest =>
    match getOrCreateAuthor python table name with
    | .error raised => .error (raised, table)
    | .ok (authorId, table) =>
      match resolveAuthors table rest with
      | .error failure => .error failure
      | .ok (authorIds, table) => .ok (authorId :: authorIds, table)

def priorScopes (publications : List AuthorPublication) (entityId : Nat) : List Scope :=
  ((publications.filter fun row => row.entityId = entityId).map
    AuthorPublication.scope).eraseDups

def isReassigned (store : Store) (entity : RawEntity) : Bool :=
  !(priorScopes store.publications entity.id).isEmpty &&
    !(priorScopes store.publications entity.id).contains (scopeOf entity)

def reassignedRow (entity : RawEntity) (row : AuthorPublication) : AuthorPublication :=
  if row.entityId = entity.id then { row with scope := scopeOf entity } else row

def reassign (store : Store) (entity : RawEntity) : Store :=
  if isReassigned store entity then
    { store with
      dirtyScopes := (priorScopes store.publications entity.id).foldl
        (fun markers scope => markDirty markers scope "reassign") store.dirtyScopes
      publications := store.publications.map (reassignedRow entity)
      contributions := store.contributions.filter fun row => row.entityId ≠ entity.id }
  else store

/-- Step 3, the rows that are added: the resolved authors without one, with their positions. -/
def newPublications (store : Store) (entity : RawEntity) (authorIds : List Nat) :
    List AuthorPublication :=
  (authorIds.zipIdx 1).filterMap fun (authorId, position) =>
    if store.publications.any fun row => row.entityId == entity.id && row.authorId == authorId then
      none
    else some ⟨authorId, entity.id, scopeOf entity, position⟩

def recordPair (entityId : Nat) (scope : Scope) (store : Store) (pair : Nat × Nat) : Store :=
  let low := min pair.1 pair.2
  let high := max pair.1 pair.2
  if pair.1 = pair.2 then store
  else if store.contributions.any fun row =>
      row.entityId == entityId && row.edge.authorA == low && row.edge.authorB == high then store
  else
    { store with
      contributions := store.contributions ++ [⟨entityId, ⟨low, high, scope⟩⟩]
      edges := bump store.edges ⟨low, high, scope⟩ }

def stageArtifacts (store : Store) (entity : RawEntity) (authorIds : List Nat) :
    Except Raised Store :=
  let store := reassign store entity
  let added := newPublications store entity authorIds
  -- two rows with one primary key in the flush of step 4
  if ¬ (added.map AuthorPublication.authorId).Nodup then .error .integrityError
  else
    let store := { store with publications := store.publications ++ added }
    let store := (combinations authorIds).foldl (recordPair entity.id (scopeOf entity)) store
    .ok { store with dirtyScopes := markDirty store.dirtyScopes (scopeOf entity) "enrichment" }

/-- Step 1 and what comes before it: `none` is an early return.  `enabled` is the runtime flag
or `force`. -/
def resolveEntity (enabled : Bool) (store : Store) (entity : RawEntity) :
    Except Failure (Option (List Nat × AuthorTable)) :=
  if !enabled then .ok none
  else
    match authorsFromAttrs python entity.attributesJson with
    | .error raised => .error ⟨raised, store⟩
    | .ok names =>
      if names.length < 2 then .ok none
      else
        match resolveAuthors python store.authors (names.take maxAuthorsForCoauth) with
        | .error (raised, table) => .error ⟨raised, { store with authors := table }⟩
        | .ok resolved => .ok (some resolved)

/-- `write_coauthor_artifacts`, with the caller's commit. -/
def writeCoauthorArtifacts (enabled : Bool) (store : Store) (entity : RawEntity) :
    Except Failure Store :=
  match resolveEntity python enabled store entity with
  | .error failure => .error failure
  | .ok none => .ok store
  | .ok (some (authorIds, table)) =>
    let store := { store with authors := table }
    match stageArtifacts store entity authorIds with
    | .error raised => .error ⟨raised, store⟩
    | .ok written => .ok written

def filled (column : Option String) : Bool := column.getD "" ≠ ""

def repointed (winner loser authorId : Nat) : Nat := if authorId = loser then winner else authorId

def mergedPublications (publications : List AuthorPublication) (winner loser : Nat) :
    List AuthorPublication :=
  let winnerEntities := (publications.filter fun row => row.authorId = winner).map
    AuthorPublication.entityId
  (publications.filter fun row => ¬ (row.authorId = loser ∧ row.entityId ∈ winnerEntities)).map
    fun row => { row with authorId := repointed winner loser row.authorId }

def EdgeKey.involves (key : EdgeKey) (authorId : Nat) : Bool :=
  key.authorA == authorId || key.authorB == authorId

/-- The rows after a merge: the loser's publications and suggestions become the winner's, the
loser's contributions, edges and statistics go. -/
def mergedStore (store : Store) (winner loser : Author) : Store :=
  let aliases := setAliases (winner.aliases ++ loser.aliases ++ [loser.displayName])
  { store with
    authors := { store.authors with
      rows := (store.authors.rows.map fun row =>
        if row.id = winner.id then { row with aliases := aliases } else row).filter fun row =>
          row.id ≠ loser.id }
    publications := mergedPublications store.publications winner.id loser.id
    stats := store.stats.filter fun row => row.authorId ≠ loser.id
    suggestions := store.suggestions.map fun row =>
      { row with
        authorA := repointed winner.id loser.id row.authorA
        authorB := repointed winner.id loser.id row.authorB }
    contributions := store.contributions.filter fun row => !row.edge.involves loser.id
    edges := store.edges.filter fun entry => !entry.1.involves loser.id }

/-- `merge_authors`.  Adopting the loser's ORCID is an UPDATE that the flush sends before the
DELETE of the loser, so the column's UNIQUE constraint refuses it. -/
def mergeAuthors (store : Store) (winner loser : Author) : Except Raised Store :=
  if winner.id = loser.id then .ok store
  else if filled loser.orcid && !filled winner.orcid then .error .integrityError
  else .ok (mergedStore store winner loser)

theorem mergeAuthors_cases {store merged : Store} {winner loser : Author}
    (served : mergeAuthors store winner loser = .ok merged) :
    (winner.id = loser.id ∧ merged = store) ∨
      (winner.id ≠ loser.id ∧ merged = mergedStore store winner loser) := by
  unfold mergeAuthors at served
  split at served
  · rename_i same
    exact .inl ⟨same, (Except.ok.inj served).symm⟩
  · rename_i different
    split at served
    · cases served
    · exact .inr ⟨different, (Except.ok.inj served).symm⟩

/-- networkx and python-louvain on the graph of these edges. -/
structure Detectors where
  nodes : Counter EdgeKey → List Nat
  edgeCount : Counter EdgeKey → Nat
  degree : Counter EdgeKey → Nat → Nat
  degreeCentrality : Counter EdgeKey → Nat → ℚ
  bestPartition : Counter EdgeKey → Nat → Nat
  connectedComponents : Counter EdgeKey → Nat → Nat

variable (detectors : Detectors)

def louvainMinNodes : Nat := 50
def louvainMaxNodes : Nat := 3000
def louvainMaxEdges : Nat := 25000

def shouldUseLouvain (nodes edges : Nat) : Bool :=
  louvainMinNodes ≤ nodes && nodes ≤ louvainMaxNodes && edges ≤ louvainMaxEdges

def scopeEdges (edges : Counter EdgeKey) (scope : Scope) : Counter EdgeKey :=
  edges.filter fun entry => entry.1.scope = scope

def publicationCount (publications : List AuthorPublication) (scope : Scope) (node : Nat) : Nat :=
  publications.countP fun row => row.scope == scope && row.authorId == node

/-- The rows that a recompute inserts, from the edges of the scope and the publications. -/
def statsOf (edges : Counter EdgeKey) (publications : List AuthorPublication) (scope : Scope) :
    List AuthorStats :=
  if edges.isEmpty then []
  else
    let communities :=
      if shouldUseLouvain (detectors.nodes edges).length (detectors.edgeCount edges) then
        detectors.bestPartition edges
      else detectors.connectedComponents edges
    (detectors.nodes edges).map fun node =>
      { authorId := node
        scope := scope
        degree := detectors.degree edges node
        centrality := detectors.degreeCentrality edges node
        communityId := communities node
        publicationCount := publicationCount publications scope node }

def replaceStats (store : Store) (scope : Scope) (stats : List AuthorStats) : Store :=
  { store with
    stats := (store.stats.filter fun row => row.scope ≠ scope) ++ stats
    dirtyScopes := store.dirtyScopes.filter fun marker => marker.scope ≠ scope }

def recomputeCoauthorStats (store : Store) (scope : Scope) : Store :=
  replaceStats store scope
    (statsOf detectors (scopeEdges store.edges scope) store.publications scope)

end Ukip.Coauthorship.Artifacts
