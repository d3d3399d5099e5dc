import Ukip.Engine.CanonicalIds

/-!
# Nodes and edges of a publication

`extract_nodes` and `compute_relationships` walk a publication apart from each other and
derive the same canonical ids: every end of an edge is the id of a node of the type that
the relation requires.
-/

namespace Ukip.Engine

open Foundation.Tally

inductive NodeType
  | publication
  | author
  | affiliation
  | journal
  | concept
  | identifier
  deriving DecidableEq

def NodeType.text : NodeType → String
  | .publication => "publication"
  | .author => "author"
  | .affiliation => "affiliation"
  | .journal => "journal"
  | .concept => "concept"
  | .identifier => "identifier"

inductive RelationType
  | authoredBy
  | belongsTo
  | publishedIn
  | hasConcept
  | identifiedBy
  | coauthorWith
  deriving DecidableEq

def RelationType.text : RelationType → String
  | .authoredBy => "authored-by"
  | .belongsTo => "belongs-to"
  | .publishedIn => "published-in"
  | .hasConcept => "has-concept"
  | .identifiedBy => "identified-by"
  | .coauthorWith => "coauthor-with"

def RelationType.sourceType : RelationType → NodeType
  | .belongsTo | .coauthorWith => .author
  | .authoredBy | .publishedIn | .hasConcept | .identifiedBy => .publication

def RelationType.targetType : RelationType → NodeType
  | .authoredBy | .coauthorWith => .author
  | .belongsTo => .affiliation
  | .publishedIn => .journal
  | .hasConcept => .concept
  | .identifiedBy => .identifier

inductive AttributeValue
  | null
  | number (value : Int)
  | text (value : String)

def AttributeValue.ofText : Option String → AttributeValue
  | none => .null
  | some value => .text value

def AttributeValue.ofNumber : Option Int → AttributeValue
  | none => .null
  | some value => .number value

structure PendingNode where
  orgId : Option Int
  importBatchId : Option Int
  domain : String
  entityType : NodeType
  primaryLabel : String
  secondaryLabel : Option String
  canonicalId : String
  attributesJson : String
  source : String
  enrichmentSource : Option String
  enrichmentConcepts : Option String

structure PendingRelationship where
  orgId : Option Int
  sourceCanonicalId : String
  targetCanonicalId : String
  relationType : RelationType
  weight : Rat
  deriving DecidableEq

/-- What a batch's nodes share, and `serde_json`'s text of an object. -/
structure GraphJob where
  tables : UnicodeTables
  jsonText : List (String × AttributeValue) → String
  orgId : Option Int
  importBatchId : Int
  domain : String

section Extraction

variable (job : GraphJob) (publication : Publication)

def pendingNode (entityType : NodeType) (primaryLabel : String) (secondaryLabel : Option String)
    (canonicalId attributesJson : String) : PendingNode where
  orgId := job.orgId
  importBatchId := some job.importBatchId
  domain := job.domain
  entityType
  primaryLabel
  secondaryLabel
  canonicalId
  attributesJson
  source := "graph_materializer"
  enrichmentSource := none
  enrichmentConcepts := none

def publicationNode : PendingNode :=
  { pendingNode job .publication publication.title (publication.year.map toString)
      (publicationCanonicalId job.tables publication)
      (job.jsonText [("doi", .ofText publication.doi), ("year", .ofNumber publication.year),
        ("publication_type", .ofText publication.publicationType),
        ("citation_count", .ofNumber publication.citationCount),
        ("reference_count", .ofNumber publication.referenceCount),
        ("enrichment_doi", .ofText publication.enrichmentDoi)]) with
    enrichmentSource := publication.enrichmentSource }

def authorNode (author : Author) : PendingNode :=
  pendingNode job .author author.name none (authorCanonicalId job.tables author)
    (job.jsonText [("orcid", .ofText author.orcid), ("external_id", .ofText author.externalId),
      ("order", .ofNumber author.order)])

def affiliationNode (aff : Affiliation) : PendingNode :=
  pendingNode job .affiliation aff.name aff.country (affiliationCanonicalId job.tables aff)
    (job.jsonText [("country", .ofText aff.country), ("external_id", .ofText aff.externalId)])

def affiliationNameNode (affName : String) : PendingNode :=
  pendingNode job .affiliation affName none (affiliationNameCanonicalId job.tables affName) "{}"

def journalNode (sourceTitle : String) : PendingNode :=
  pendingNode job .journal sourceTitle publication.publisher (journalCanonicalId job.tables sourceTitle)
    (job.jsonText [("publisher", .ofText publication.publisher)])

def conceptNode (concept : String) : PendingNode :=
  pendingNode job .concept concept none (conceptCanonicalId job.tables concept) "{}"

def identifierNode (id : Identifier) : PendingNode :=
  pendingNode job .identifier id.value (some id.scheme) (identifierCanonicalId id.scheme id.value)
    (job.jsonText [("scheme", .text id.scheme), ("value", .text id.value)])

def affiliationNames (author : Author) : List String :=
  author.affiliations.filter fun affName => !isBlank affName

def namedConcepts : List String := publication.concepts.filter fun concept => concept ≠ ""

def namedIdentifiers : List Identifier := publication.identifiers.filter fun id => id.value ≠ ""

def extractNodes : List PendingNode :=
  publicationNode job publication ::
    (publication.authors.map (authorNode job) ++
      publication.affiliations.map (affiliationNode job) ++
      (publication.authors.flatMap fun author =>
        (affiliationNames author).map (affiliationNameNode job)) ++
      (filled publication.sourceTitle).toList.map (journalNode job publication) ++
      (namedConcepts publication).map (conceptNode job) ++
      (namedIdentifiers publication).map (identifierNode job))

def relationship (source target : String) (relationType : RelationType) : PendingRelationship where
  orgId := job.orgId
  sourceCanonicalId := source
  targetCanonicalId := target
  relationType
  weight := 1

/-- `pair.sort()` -/
def sortedPair (pair : String × String) : String × String :=
  if pair.1 ≤ pair.2 then pair else (pair.2, pair.1)

def belongsToRelationships (author : Author) : List PendingRelationship :=
  publication.affiliations.map (fun aff =>
      relationship job (authorCanonicalId job.tables author) (affiliationCanonicalId job.tables aff)
        .belongsTo) ++
    (affiliationNames author).map fun affName =>
      relationship job (authorCanonicalId job.tables author)
        (affiliationNameCanonicalId job.tables affName) .belongsTo

def computeRelationships : List PendingRelationship :=
  let publicationId := publicationCanonicalId job.tables publication
  let authorIds := publication.authors.map (authorCanonicalId job.tables)
  authorIds.map (fun authorId => relationship job publicationId authorId .authoredBy) ++
    publication.authors.flatMap (belongsToRelationships job publication) ++
    (filled publication.sourceTitle).toList.map (fun sourceTitle =>
      relationship job publicationId (journalCanonicalId job.tables sourceTitle) .publishedIn) ++
    (namedConcepts publication).map (fun concept =>
      relationship job publicationId (conceptCanonicalId job.tables concept) .hasConcept) ++
    (namedIdentifiers publication).map (fun id =>
      relationship job publicationId (identifierCanonicalId id.scheme id.value) .identifiedBy) ++
    (combinations authorIds).map fun pair =>
      relationship job (sortedPair pair).1 (sortedPair pair).2 .coauthorWith

end Extraction

def entitiesOf (tables : UnicodeTables) (publication : Publication) : List (String × NodeType) :=
  (publicationCanonicalId tables publication, .publication) ::
    (publication.authors.map (fun author => (authorCanonicalId tables author, .author)) ++
      publication.affiliations.map (fun aff => (affiliationCanonicalId tables aff, .affiliation)) ++
      (publication.authors.flatMap fun author => (affiliationNames author).map fun affName =>
        (affiliationNameCanonicalId tables affName, .affiliation)) ++
      (filled publication.sourceTitle).toList.map (fun title => (journalCanonicalId tables title, .journal)) ++
      (namedConcepts publication).map (fun concept => (conceptCanonicalId tables concept, .concept)) ++
      (namedIdentifiers publication).map fun id =>
        (identifierCanonicalId id.scheme id.value, .identifier))

theorem extractNodes_entities (job : GraphJob) (publication : Publication) :
    (extractNodes job publication).map (fun node => (node.canonicalId, node.entityType)) =
      entitiesOf job.tables publication := by
  simp only [extractNodes, entitiesOf, List.map_cons, List.map_append, List.map_map, List.map_flatMap]
  rfl

theorem extractNodes_scope (job : GraphJob) (publication : Publication) {node : PendingNode}
    (member : node ∈ extractNodes job publication) :
    node.orgId = job.orgId ∧ node.domain = job.domain := by
  simp only [extractNodes, List.mem_cons, List.mem_append, List.mem_map, List.mem_flatMap] at member
  rcases member with rfl | (((((⟨_, _, rfl⟩ | ⟨_, _, rfl⟩) | ⟨_, _, _, _, rfl⟩) | ⟨_, _, rfl⟩) |
    ⟨_, _, rfl⟩) | ⟨_, _, rfl⟩) <;> exact ⟨rfl, rfl⟩

section Ends

variable (job : GraphJob) (publication : Publication)

theorem publication_mem_entitiesOf :
    (publicationCanonicalId job.tables publication, NodeType.publication) ∈
      entitiesOf job.tables publication := List.mem_cons_self

theorem author_mem_entitiesOf {id : String}
    (member : id ∈ publication.authors.map (authorCanonicalId job.tables)) :
    (id, NodeType.author) ∈ entitiesOf job.tables publication := by
  obtain ⟨author, inside, rfl⟩ := List.mem_map.mp member
  simp only [entitiesOf, List.mem_cons, List.mem_append, List.mem_map]
  exact .inr (.inl (.inl (.inl (.inl (.inl ⟨author, inside, rfl⟩)))))

theorem sortedPair_mem (pair : String × String) :
    ((sortedPair pair).1 = pair.1 ∧ (sortedPair pair).2 = pair.2) ∨
      ((sortedPair pair).1 = pair.2 ∧ (sortedPair pair).2 = pair.1) := by
  unfold sortedPair
  split
  · exact .inl ⟨rfl, rfl⟩
  · exact .inr ⟨rfl, rfl⟩

theorem belongsTo_ends {author : Author} (inside : author ∈ publication.authors)
    {rel : PendingRelationship} (member : rel ∈ belongsToRelationships job publication author) :
    ∃ target, rel = relationship job (authorCanonicalId job.tables author) target .belongsTo ∧
      (target, NodeType.affiliation) ∈ entitiesOf job.tables publication := by
  simp only [entitiesOf, List.mem_cons, List.mem_append, List.mem_map, List.mem_flatMap]
  rcases List.mem_append.mp member with ofPublication | ofAuthor
  · obtain ⟨aff, affIn, rfl⟩ := List.mem_map.mp ofPublication
    exact ⟨_, rfl, .inr (.inl (.inl (.inl (.inl (.inr ⟨aff, affIn, rfl⟩)))))⟩
  · obtain ⟨affName, nameIn, rfl⟩ := List.mem_map.mp ofAuthor
    exact ⟨_, rfl, .inr (.inl (.inl (.inl (.inr ⟨author, inside, affName, nameIn, rfl⟩))))⟩

theorem computeRelationships_ends {rel : PendingRelationship}
    (member : rel ∈ computeRelationships job publication) :
    rel.orgId = job.orgId ∧
      (rel.sourceCanonicalId, rel.relationType.sourceType) ∈ entitiesOf job.tables publication ∧
      (rel.targetCanonicalId, rel.relationType.targetType) ∈ entitiesOf job.tables publication := by
  have source := publication_mem_entitiesOf job publication
  simp only [computeRelationships, List.mem_append, List.mem_flatMap] at member
  rcases member with ((((authored | belongs) | published) | concept) | identified) | coauthors
  · obtain ⟨authorId, inside, rfl⟩ := List.mem_map.mp authored
    exact ⟨rfl, source, author_mem_entitiesOf job publication inside⟩
  · obtain ⟨author, inside, made⟩ := belongs
    obtain ⟨target, rfl, targetIn⟩ := belongsTo_ends job publication inside made
    exact ⟨rfl, author_mem_entitiesOf job publication (List.mem_map_of_mem inside), targetIn⟩
  · obtain ⟨title, inside, rfl⟩ := List.mem_map.mp published
    refine ⟨rfl, source, ?_⟩
    simp only [entitiesOf, List.mem_cons, List.mem_append, List.mem_map]
    exact .inr (.inl (.inl (.inr ⟨title, inside, rfl⟩)))
  · obtain ⟨label, inside, rfl⟩ := List.mem_map.mp concept
    refine ⟨rfl, source, ?_⟩
    simp only [entitiesOf, List.mem_cons, List.mem_append, List.mem_map]
    exact .inr (.inl (.inr ⟨label, inside, rfl⟩))
  · obtain ⟨id, inside, rfl⟩ := List.mem_map.mp identified
    refine ⟨rfl, source, ?_⟩
    simp only [entitiesOf, List.mem_cons, List.mem_append, List.mem_map]
    exact .inr (.inr ⟨id, inside, rfl⟩)
  · obtain ⟨pair, inside, rfl⟩ := List.mem_map.mp coauthors
    obtain ⟨firstIn, secondIn⟩ := mem_combinations _ pair inside
    rcases sortedPair_mem pair with ⟨first, second⟩ | ⟨first, second⟩
    · rw [first, second]
      exact ⟨rfl, author_mem_entitiesOf job publication firstIn,
        author_mem_entitiesOf job publication secondIn⟩
    · rw [first, second]
      exact ⟨rfl, author_mem_entitiesOf job publication secondIn,
        author_mem_entitiesOf job publication firstIn⟩

end Ends

end Ukip.Engine
