import Ukip.Coauthorship.Suggestions

/-!
# The one-shot migration

`migrate_coauthor_graph` of `coauthorship/migration.py`: a walk over the entities that writes
each one's co-authorship rows, then the review queue and the statistics.  It is through as long
as no entity raises, and a second run finds every row of the first one.
-/

namespace Ukip.Coauthorship.Migration

open Foundation.Tally Identity Artifacts Merges Suggestions

variable (python : Python) (detectors : Detectors)

structure EntityRelationship where
  sourceId : Nat
  relationType : String

structure MigrationStats where
  legacyEdgesFound : Nat
  entitiesScanned : Nat
  entitiesWithAuthors : Nat
  authorsCreated : Nat
  publicationsCreated : Nat
  edgesCreated : Nat
  selfPairsSkipped : Nat
  scopesRecomputed : Nat
  suggestionsCreated : Option Nat

/-- `{name_key(a) for a in authors if name_key(a)}` -/
def distinctKeys (names : List String) : List String :=
  ((names.map (nameKey python)).filter fun key => key ≠ "").eraseDups

/-- The publication that the self-pair branch adds where the author has none of the entity. -/
def selfPublication (store : Store) (entity : RawEntity) (authorId : Nat) : Store :=
  if store.publications.any fun row => row.authorId == authorId && row.entityId == entity.id then
    store
  else
    { store with
      publications := store.publications ++ [⟨authorId, entity.id, scopeOf entity, 1⟩] }

/-- The loop of the self-pair branch.  Each author commits what was added before it, so a name
that raises takes the publication of the name before with it. -/
def writeSelfPair (entity : RawEntity) (committed store : Store) :
    List String → Except Failure Store
  | [] => .ok store
  | name :: rest =>
    match getOrCreateAuthor python store.authors name with
    | .error raised => .error ⟨raised, committed⟩
    | .ok (authorId, table) =>
      let committed := { store with authors := table }
      writeSelfPair entity committed (selfPublication committed entity authorId) rest

/-- The branch of one entity, and whether it was a self-pair. -/
inductive Shape where
  | skipped
  | selfPair (names : List String)
  | coauthors (names : List String)
  deriving DecidableEq

def shapeOf (entity : RawEntity) : Except Raised Shape :=
  match authorsFromAttrs python entity.attributesJson with
  | .error raised => .error raised
  | .ok names =>
    .ok (if names.length < 2 then .skipped
      else if (distinctKeys python names).length < 2 then .selfPair names
      else .coauthors names)

def migrateEntity (dryRun : Bool) (store : Store) (entity : RawEntity) : Except Failure Store :=
  match shapeOf python entity with
  | .error raised => .error ⟨raised, store⟩
  | .ok .skipped => .ok store
  | .ok (.selfPair names) =>
    if dryRun then .ok store else writeSelfPair python entity store store names
  | .ok (.coauthors _) =>
    if dryRun then .ok store else writeCoauthorArtifacts python true store entity

/-- `if domain:` -/
def inDomain (domain : Option String) (entity : RawEntity) : Bool :=
  domain.getD "" = "" || entity.domain == domain

def legacyEdges (legacy : List EntityRelationship) (entities : List RawEntity)
    (domain : Option String) : Nat :=
  if domain.getD "" = "" then legacy.countP fun row => row.relationType == "CO_AUTHOR"
  else
    (legacy.map fun row => entities.countP fun entity =>
      row.relationType == "CO_AUTHOR" && entity.id == row.sourceId && entity.domain == domain).sum

def migratedScopes (edges : Counter EdgeKey) (domain : Option String) : List Scope :=
  ((edges.map fun entry => entry.1.scope).filter fun scope =>
    domain.getD "" = "" || some scope.domainId == domain).eraseDups

def migrateCoauthorGraph (legacy : List EntityRelationship) (entities : List RawEntity)
    (dryRun : Bool) (domain : Option String) (store : Store) :
    Except Failure (MigrationStats × Store) :=
  let walked := entities.filter (inDomain domain)
  match walked.foldlM (migrateEntity python dryRun) store with
  | .error failure => .error failure
  | .ok written =>
    let shapes := walked.map (shapeOf python)
    let stats : MigrationStats :=
      { legacyEdgesFound := legacyEdges legacy entities domain
        entitiesScanned := walked.length
        entitiesWithAuthors := shapes.countP fun shape =>
          match shape with
          | .ok (.selfPair _) => true
          | .ok (.coauthors _) => true
          | _ => false
        authorsCreated := 0
        publicationsCreated := 0
        edgesCreated := 0
        selfPairsSkipped := if dryRun then 0 else shapes.countP fun shape =>
          match shape with
          | .ok (.selfPair _) => true
          | _ => false
        scopesRecomputed := 0
        suggestionsCreated := none }
    if dryRun then .ok (stats, written)
    else
      match generateMergeSuggestions python entities maxGroupSize written with
      | .error raised => .error ⟨raised, written⟩
      | .ok (scan, generated) =>
        let scopes := migratedScopes generated.edges domain
        .ok ({ stats with
            authorsCreated := written.authors.rows.length - store.authors.rows.length
            publicationsCreated := written.publications.length
            edgesCreated := written.edges.length
            scopesRecomputed := scopes.length
            suggestionsCreated := some scan.suggestionsCreated },
          recomputeAll detectors generated scopes)

end Ukip.Coauthorship.Migration
