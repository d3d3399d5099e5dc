import Ukip.Entities.Table
import Ukip.Foundation.OrderBy
import Ukip.Graph.Plan

/-!
# Materializing a batch's graph

`materialize_scientific_import_graph` of `graph_materializer.py`.  A node is looked up
within its batch and inserted with a flush; an edge is looked up among the stored
relationships and otherwise added to the session, which writes it with the next flush.
The unique indexes of both tables do not know the batch.
-/

namespace Ukip.Graph.Materializer

open Foundation.Relational Analytics.Corpus Entities.Table Plan

structure GraphRelationship extends EntityRelationship where
  weight : Rat
  notes : Option String

/-- The columns of `uq_entity_relationships_pair` and of its global twin. -/
def relationshipKey (row : GraphRelationship) : Option (Option Int × Nat × Nat × String) :=
  match row.sourceId, row.targetId, row.relationType with
  | some source, some target, some relationType => some (row.orgId, source, target, relationType)
  | _, _, _ => none

def relationshipClash (first second : GraphRelationship) : Bool :=
  (relationshipKey first).isSome && relationshipKey first == relationshipKey second

theorem relationshipClash_comm (first second : GraphRelationship) :
    relationshipClash first second = relationshipClash second first := by
  unfold relationshipClash
  by_cases same : relationshipKey first = relationshipKey second
  · rw [same]
  · rw [beq_eq_false_iff_ne.mpr same, beq_eq_false_iff_ne.mpr (Ne.symm same), Bool.and_false,
      Bool.and_false]

def relationshipSchema : Schema GraphRelationship where
  key := fun row => row.id
  withKey := fun value row => { row with id := value }
  key_withKey := fun _ _ => rfl
  clash := relationshipClash
  clash_comm := relationshipClash_comm
  clash_withKey := fun _ _ _ => rfl

abbrev RelationshipTable := SerialTable relationshipSchema

structure GraphDb where
  entities : EntityTable
  relationships : RelationshipTable

/-- One import batch of an organization, and how Python writes JSON. -/
structure BatchContext where
  python : GraphPython
  orgId : Option Int
  batchId : Nat
  /-- how the database lists the publications, whose query asks for no order -/
  listing : Foundation.SetOrder RawEntity
  /-- `_node_attrs` -/
  nodeAttrs : Nat → NodeDemand → String
  /-- What follows the batch id in the notes of an edge. -/
  noteRest : Edge → String
  /-- `round(min(10.0, part / whole * 10), 4)`, as floats compute it. -/
  scaled : Nat → Nat → Rat

variable (context : BatchContext)

/-- `import_batch_id` as the column shows it. -/
def BatchContext.batch (context : BatchContext) : Option String := some (toString context.batchId)

/-- The filter of `_get_or_create_node`. -/
def isNode (key : NodeKey) (row : RawEntity) : Bool :=
  row.orgId == context.orgId && row.importBatchId == context.batch &&
    row.domain == some key.domain && row.entityType == some key.entityType &&
    row.canonicalId == some key.canonicalId

def nodeRow (demand : NodeDemand) : RawEntity where
  id := 0
  orgId := context.orgId
  domain := some demand.key.domain
  entityType := some demand.key.entityType
  primaryLabel := some demand.primaryLabel
  secondaryLabel := demand.secondaryLabel
  canonicalId := some demand.key.canonicalId
  attributesJson := some (context.nodeAttrs context.batchId demand)
  validationStatus := some "derived"
  enrichmentCitationCount := some "0"
  enrichmentStatus := some "derived"
  source := some "graph_materializer"
  importBatchId := context.batch

/-- A text that starts like a LIKE pattern, in which `_` stands for any character. -/
def startsLike : List Char → List Char → Bool
  | [], _ => true
  | _ :: _, [] => false
  | wanted :: pattern, char :: rest =>
    (wanted == '_' || wanted == char) && startsLike pattern rest

/-- `column.contains(marker)` -/
def containsLike (marker : String) (text : Option String) : Bool :=
  match text with
  | none => false
  | some text => text.toList.tails.any (startsLike marker.toList)

def marker : String := "\"import_batch_id\": " ++ toString context.batchId

def edgeNotes (edge : Edge) : String := "\x7b" ++ marker context ++ context.noteRest edge

def BatchContext.weightOf (context : BatchContext) : EdgeWeight → Rat
  | .tenths count => count / 10
  | .scaled part whole => context.scaled part whole

def isSorted (relationType : String) : Bool :=
  ["coauthor-with", "keyword-co-occurs-with", "equivalent-to"].contains relationType

def edgeRow (edge : Edge) (source target : Nat) : GraphRelationship where
  id := 0
  orgId := context.orgId
  sourceId := some source
  targetId := some target
  relationType := some edge.relationType
  weight := context.weightOf edge.weight
  notes := some (edgeNotes context edge)

/-- The filter of `_relationship_exists`. -/
def isRelationship (edge : Edge) (source target : Nat) (row : GraphRelationship) : Bool :=
  row.orgId == context.orgId && row.sourceId == some source && row.targetId == some target &&
    row.relationType == some edge.relationType && containsLike (marker context) row.notes

/-- The tables as the transaction has them, the edges added and not yet flushed, and the
nodes at hand. -/
structure Session where
  entities : EntityTable
  relationships : RelationshipTable
  pending : List GraphRelationship
  held : List (NodeKey × Nat)
  nodesCreated : Nat
  relationshipsCreated : Nat

/-- `db.flush()`, where no entity is new; nothing is the integrity error. -/
def Session.flush (session : Session) : Option Session :=
  (session.relationships.insertAll session.pending).map fun relationships =>
    { session with relationships := relationships, pending := [] }

/-- `_get_or_create_node`; a new node is flushed together with the edges added so far. -/
def Session.getOrCreateNode (session : Session) (demand : NodeDemand) : Option Session :=
  match session.entities.rows.find? (isNode context demand.key) with
  | some row => some { session with held := (demand.key, row.id) :: session.held }
  | none =>
    (session.entities.insert (nodeRow context demand)).bind fun entities =>
      Session.flush
        { session with
          entities := entities
          held := (demand.key, session.entities.nextKey) :: session.held
          nodesCreated := session.nodesCreated + 1 }

def Session.idOf (session : Session) : Endpoint → Option Nat
  | .publication id => some id
  | .node key => session.held.lookup key

def Session.ends (session : Session) (edge : Edge) : Option (Nat × Nat) :=
  (session.idOf edge.source).bind fun source =>
    (session.idOf edge.target).map fun target =>
      if isSorted edge.relationType then (min source target, max source target)
      else (source, target)

def Session.createRelationship (session : Session) (edge : Edge) : Session :=
  match session.ends edge with
  | none => session
  | some (source, target) =>
    if source = target then session
    else if session.relationships.rows.any (isRelationship context edge source target) then session
    else
      { session with
        pending := session.pending ++ [edgeRow context edge source target]
        relationshipsCreated := session.relationshipsCreated + 1 }

def Session.act (session : Session) : Action → Option Session
  | .node demand => session.getOrCreateNode context demand
  | .relate edge => some (session.createRelationship context edge)

def Session.run : Session → List Action → Option Session
  | session, [] => some session
  | session, action :: rest => (session.act context action).bind fun after => after.run rest

def begin (db : GraphDb) : Session where
  entities := db.entities
  relationships := db.relationships
  pending := []
  held := []
  nodesCreated := 0
  relationshipsCreated := 0

structure MaterializeResult where
  publications : Nat
  nodesCreated : Nat
  relationshipsCreated : Nat

def publicationsOf (db : GraphDb) : List RawEntity :=
  context.listing.visit (db.entities.rows.filter fun row => row.orgId == context.orgId &&
    row.importBatchId == context.batch &&
    match row.source with
    | some source => source != "graph_materializer"
    | none => false)

def planOf (db : GraphDb) : List Action := plan context.python (publicationsOf context db)

/-- `materialize_scientific_import_graph`: the committed tables and the result; an
integrity error leaves the tables as they were. -/
def materialize (db : GraphDb) : GraphDb × Option MaterializeResult :=
  match ((begin db).run context (planOf context db)).bind Session.flush with
  | none => (db, none)
  | some session =>
    (⟨session.entities, session.relationships⟩, some
      { publications := (publicationsOf context db).length
        nodesCreated := session.nodesCreated
        relationshipsCreated := session.relationshipsCreated })

end Ukip.Graph.Materializer
