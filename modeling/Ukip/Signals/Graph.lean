import Ukip.Foundation.Upsert
import Ukip.Signals.Keywords

/-!
# The graph of the keyword signals

`_persist_signal_graph_relations` of `semantic_keyword_signal_engine.py`, and the run that
commits it.  Nodes are rows of the table that the corpus is read from.  The session does
not flush before a query: a relationship is seen by the next lookup once a new node, or
the commit, has flushed it.
-/

namespace Ukip.Signals.Graph

open Foundation.Tally (combinations)
open Foundation.Upsert Keywords

def signalNodeSource : String := "semantic_keyword_signal_engine"

/-- A row of `entity_relationships`, by the columns of its unique index. -/
structure SignalEdge where
  orgId : Option Int
  sourceId : Nat
  targetId : Nat
  relationType : String
  deriving DecidableEq

structure SignalDb where
  entities : Store SignalEntity
  relationships : List SignalEdge
  /-- Rows of `organizations`; all ids where the engine does not enforce the reference. -/
  hasOrganization : Int → Bool

abbrev NodeKey := Option Text × Option String × Option Int

inductive NodeMark where
  | keyword (signal : SemanticSignal)
  | external (support : ExternalSupport)

structure NodeWrite where
  orgId : Option Int
  domainId : String
  label : Text
  mark : NodeMark

def NodeMark.entityType : NodeMark → String
  | .keyword _ => "semantic_keyword"
  | .external _ => "external_signal"

def NodeMark.canonicalPrefix : NodeMark → Text
  | .keyword _ => text "semantic-keyword"
  | .external _ => text "external-signal"

variable (python : Python)

def NodeWrite.canonicalId (write : NodeWrite) : Text :=
  write.mark.canonicalPrefix ++ ':' :: slug python write.label

def nodeKey (orgId : Option Int) (canonicalId : Text) : NodeKey :=
  (some canonicalId, some signalNodeSource, orgId)

def rowKey (row : SignalEntity) : NodeKey := (row.canonicalId, row.source, row.orgId)

/-- `existing.update(attrs)` and the two columns. -/
def writeNode (write : NodeWrite) (row : SignalEntity) : SignalEntity :=
  let labelled := { row with primaryLabel := some write.label, domain := some write.domainId }
  match write.mark with
  | .keyword signal => { labelled with semanticSignal := some signal }
  | .external support => { labelled with externalSupport := some support }

def newNode (write : NodeWrite) (value : Nat) : SignalEntity where
  id := value
  orgId := write.orgId
  domain := some write.domainId
  entityType := some write.mark.entityType
  primaryLabel := some write.label
  canonicalId := some (write.canonicalId python)
  source := some signalNodeSource
  enrichmentConcepts := none
  attributes := []
  semanticSignal := none
  externalSupport := none

/-- `_get_or_create_signal_node` -/
def signalNodes : Upserts SignalEntity NodeKey NodeWrite where
  keyOf := rowKey
  key := fun write => nodeKey write.orgId (write.canonicalId python)
  patch := writeNode
  blank := newNode python
  keyOf_patch := by
    intro write row
    unfold writeNode
    cases write.mark <;> rfl
  keyOf_blank := fun _ _ => rfl

structure Session where
  entities : Store SignalEntity
  flushed : List SignalEdge
  pending : List SignalEdge

/-- An end of a relationship: an entity of the corpus or the node of a label. -/
inductive EdgeEnd where
  | entity (id : Nat)
  | node (key : NodeKey)

inductive Action where
  | node (write : NodeWrite)
  | edge (orgId : Option Int) (source target : EdgeEnd) (relationType : String)

def EdgeEnd.resolve (store : Store SignalEntity) : EdgeEnd → Option Nat
  | .entity id => some id
  | .node key => (store.rows.find? fun row => rowKey row = key).map fun row => row.id

/-- `_create_signal_relationship` -/
def createRelationship (session : Session) (edge : SignalEdge) : Session :=
  if edge.sourceId = edge.targetId ∨ edge ∈ session.flushed then session
  else { session with pending := session.pending ++ [edge] }

def perform (session : Session) : Action → Session
  | .node write =>
    let entities := (signalNodes python).upsert session.entities write
    if (signalNodes python).holds session.entities ((signalNodes python).key write) then
      { session with entities := entities }
    else ⟨entities, session.flushed ++ session.pending, []⟩
  | .edge orgId source target relationType =>
    match source.resolve session.entities, target.resolve session.entities with
    | some sourceId, some targetId =>
      createRelationship session ⟨orgId, sourceId, targetId, relationType⟩
    | _, _ => session

def performAll (session : Session) (actions : List Action) : Session :=
  actions.foldl (perform python) session

variable (request : Request)

def keywordWrite (signal : Signal) : NodeWrite where
  orgId := request.orgId
  domainId := request.domainId
  label := signal.keyword
  mark := .keyword
    { keyword := signal.keyword
      classification := signal.classification
      supportCount := signal.supportCount
      externalSupport := signal.externalSupport
      opportunityScore := signal.opportunityScore
      sourceFields := signal.sourceFields
      externalSourceTypes := signal.externalSourceTypes }

def externalWrite (signal : Signal) : NodeWrite where
  orgId := request.orgId
  domainId := request.domainId
  label := text "External support: " ++ signal.keyword
  mark := .external
    { keyword := signal.keyword
      externalSupport := signal.externalSupport
      externalSourceTypes := signal.externalSourceTypes }

def nodeOf (write : NodeWrite) : EdgeEnd := .node ((signalNodes python).key write)

def keywordNode (signal : Signal) : EdgeEnd := nodeOf python (keywordWrite request signal)

def signalActions (signal : Signal) : List Action :=
  .node (keywordWrite request signal) ::
    ((signal.entityIds.take 25).map fun entityId =>
      Action.edge request.orgId (.entity entityId) (keywordNode python request signal)
        "derived-keyword") ++
    if 0 < signal.externalSupport then
      [.node (externalWrite request signal),
        .edge request.orgId (nodeOf python (externalWrite request signal))
          (keywordNode python request signal) "external-signal-for"]
    else []

/-- `first < second` of sets -/
def isProperPart (first second : List Text) : Bool :=
  first.all (fun word => second.contains word) && second.any fun word => !first.contains word

def emerges (base emerging : Signal) : Bool :=
  emerging.classification == .longTail &&
    isProperPart (base.keyword.splitOn ' ') (emerging.keyword.splitOn ' ')

def pairActions (pair : Signal × Signal) : List Action :=
  let left := keywordNode python request pair.1
  let right := keywordNode python request pair.2
  let shared := (pair.1.entityIds.filter fun id => pair.2.entityIds.contains id).length
  let all := (pair.1.entityIds ∪ pair.2.entityIds).length
  if all = 0 then []
  else
    (if all ≤ 5 * shared then [Action.edge request.orgId left right "semantic-neighbor"] else []) ++
      if emerges pair.2 pair.1 then [.edge request.orgId left right "emerging-from"]
      else if emerges pair.1 pair.2 then [.edge request.orgId right left "emerging-from"]
      else []

/-- `_persist_signal_graph_relations` -/
def graphActions (signals : List Signal) : List Action :=
  signals.flatMap (signalActions python request) ++
    (combinations (signals.take 25)).flatMap (pairActions python request)

def canonicalKey (row : SignalEntity) :
    Option (Option Int × String × String × Text) :=
  match row.domain, row.entityType, row.canonicalId with
  | some domain, some entityType, some canonicalId =>
    some (row.orgId, domain, entityType, canonicalId)
  | _, _, _ => none

def accepts (db : SignalDb) : Bool :=
  decide (db.entities.rows.filterMap canonicalKey).Nodup && decide db.relationships.Nodup &&
    request.orgId.all db.hasOrganization

structure Surroundings where
  python : Python
  scoring : Scoring
  page : Page

variable (surroundings : Surroundings)

def selected (db : SignalDb) : List Signal :=
  topSignals surroundings.python surroundings.scoring request
    (corpus surroundings.page request db.entities.rows)

def persisted (db : SignalDb) : SignalDb :=
  let session := performAll surroundings.python ⟨db.entities, db.relationships, []⟩
    (graphActions surroundings.python request (selected request surroundings db))
  { db with
    entities := session.entities
    relationships := session.flushed ++ session.pending }

/-- The tables after `materialize_keyword_signals`: a refused run is rolled back. -/
def materializeKeywordSignals (db : SignalDb) : SignalDb :=
  if request.persist = true ∧ selected request surroundings db ≠ [] then
    if accepts request (persisted request surroundings db) then persisted request surroundings db
    else db
  else db

end Ukip.Signals.Graph
