import Ukip.Engine.GraphNodes
import Ukip.Entities.Table
import Ukip.Foundation.Grouping

/-!
# The stored graph

The nodes of a batch are kept by canonical id, staged, and merged into the entities, where
they are unique by type and canonical id.  The edges are then joined with the entities by
canonical id alone.  An edge is stored once between nodes of the required types exactly when
the canonical ids of its ends stand for one type, in the batch and among the entities that
were there before.

The statements of the database are taken to succeed.
-/

namespace Ukip.Engine

open Foundation.Relational Foundation.Grouping Analytics.Corpus Entities.Table

/-- A row of `entity_relationships` with its weight. -/
structure StoredEdge extends EntityRelationship where
  weight : Rat

/-- The columns of `uq_entity_relationships_pair` and `uq_entity_relationships_pair_global`;
NULLs are all different. -/
def edgeKey (edge : StoredEdge) : Option (Option Int × Nat × Nat × String) :=
  match edge.sourceId, edge.targetId, edge.relationType with
  | some source, some target, some relationType => some (edge.orgId, source, target, relationType)
  | _, _, _ => none

def edgeClash (first second : StoredEdge) : Bool :=
  (edgeKey first).isSome && edgeKey first == edgeKey second

theorem edgeClash_comm (first second : StoredEdge) :
    edgeClash first second = edgeClash second first := by
  unfold edgeClash
  by_cases same : edgeKey first = edgeKey second
  · rw [same]
  · rw [beq_eq_false_iff_ne.mpr same, beq_eq_false_iff_ne.mpr (Ne.symm same), Bool.and_false,
      Bool.and_false]

def edgeSchema : Schema StoredEdge where
  key := fun edge => edge.id
  withKey := fun value edge => { edge with id := value }
  key_withKey := fun _ _ => rfl
  clash := edgeClash
  clash_comm := edgeClash_comm
  clash_withKey := fun _ _ _ => rfl

structure GraphTables where
  entities : EntityTable
  relationships : SerialTable edgeSchema

/-- The row of a staged node; the columns that the INSERT leaves out take their defaults. -/
def PendingNode.row (node : PendingNode) : RawEntity where
  id := 0
  orgId := node.orgId
  domain := some node.domain
  entityType := some node.entityType.text
  primaryLabel := some node.primaryLabel
  secondaryLabel := node.secondaryLabel
  canonicalId := some node.canonicalId
  attributesJson := some node.attributesJson
  validationStatus := some "pending"
  enrichmentCitationCount := some "0"
  enrichmentConcepts := node.enrichmentConcepts
  enrichmentSource := node.enrichmentSource
  enrichmentStatus := some "none"
  source := some node.source
  importBatchId := node.importBatchId.map toString

/-- The columns of `DISTINCT ON`. -/
def stageKey (node : PendingNode) : Option Int × String × NodeType × String :=
  (node.orgId, node.domain, node.entityType, node.canonicalId)

/-- The values of `node_map`, in no particular order. -/
def nodeMap (job : GraphJob) (publications : List Publication) : List PendingNode :=
  firsts PendingNode.canonicalId (publications.flatMap (extractNodes job))

def mergeNodes (entities : EntityTable) (staged : List PendingNode) : EntityTable :=
  let withOrg := firsts stageKey (staged.filter fun node => node.orgId.isSome)
  let withoutOrg := firsts stageKey (staged.filter fun node => node.orgId.isNone)
  (entities.insertAllOrIgnore (withOrg.map PendingNode.row)).insertAllOrIgnore
    (withoutOrg.map PendingNode.row)

def joins (orgId : Option Int) (domain canonicalId : String) (row : RawEntity) : Bool :=
  row.orgId == orgId && row.domain == some domain && row.canonicalId == some canonicalId

/-- The joined rows, with the columns of `GROUP BY` first. -/
def joined (entities : EntityTable) (orgId : Option Int) (domain : String)
    (rels : List PendingRelationship) : List ((Nat × Nat × RelationType) × Rat) :=
  (rels.filter fun rel => rel.orgId = orgId).flatMap fun rel =>
    (entities.rows.filter (joins orgId domain rel.sourceCanonicalId)).flatMap fun src =>
      (entities.rows.filter (joins orgId domain rel.targetCanonicalId)).map fun dst =>
        ((src.id, dst.id, rel.relationType), rel.weight)

def edgeRow (orgId : Option Int) (group : (Nat × Nat × RelationType) × List Rat) : StoredEdge where
  id := 0
  orgId
  sourceId := some group.1.1
  targetId := some group.1.2.1
  relationType := some group.1.2.2.text
  weight := group.2.max?.getD 0

def mergeRelationships (tables : GraphTables) (orgId : Option Int) (domain : String)
    (rels : List PendingRelationship) : SerialTable edgeSchema :=
  tables.relationships.insertAllOrIgnore
    ((grouped (joined tables.entities orgId domain rels)).map (edgeRow orgId))

def flushGraphStaged (tables : GraphTables) (staged : List PendingNode)
    (rels : List PendingRelationship) (orgId : Option Int) (domain : String) : GraphTables :=
  let merged := { tables with entities := mergeNodes tables.entities staged }
  { merged with relationships := mergeRelationships merged orgId domain rels }

/-- `process`, where `uniqueNodes` are the values of `node_map`. -/
def process (job : GraphJob) (publications : List Publication) (uniqueNodes : List PendingNode)
    (tables : GraphTables) : GraphTables :=
  flushGraphStaged tables uniqueNodes (publications.flatMap (computeRelationships job)) job.orgId
    job.domain

/-- The row is the stored node of a canonical id and type. -/
def IsNode (job : GraphJob) (canonicalId : String) (entityType : NodeType) (row : RawEntity) : Prop :=
  joins job.orgId job.domain canonicalId row = true ∧ row.entityType = some entityType.text

/-- The stored edges of the relation between rows with the canonical ids of the ends. -/
def storedEdges (job : GraphJob) (tables : GraphTables) (rel : PendingRelationship) : List StoredEdge :=
  tables.relationships.rows.filter fun edge =>
    edge.orgId == job.orgId && edge.relationType == some rel.relationType.text &&
      tables.entities.rows.any (fun src =>
        joins job.orgId job.domain rel.sourceCanonicalId src && edge.sourceId == some src.id) &&
      tables.entities.rows.any fun dst =>
        joins job.orgId job.domain rel.targetCanonicalId dst && edge.targetId == some dst.id

/-- The edge is stored once, and its ends are nodes of the types that the relation requires. -/
def EdgeStored (job : GraphJob) (tables : GraphTables) (rel : PendingRelationship) : Prop :=
  ∃ source ∈ tables.entities.rows, ∃ target ∈ tables.entities.rows, ∃ edge,
    IsNode job rel.sourceCanonicalId rel.relationType.sourceType source ∧
      IsNode job rel.targetCanonicalId rel.relationType.targetType target ∧
        storedEdges job tables rel = [edge] ∧ edge.sourceId = some source.id ∧
          edge.targetId = some target.id

/-- A canonical id stands for one type: the first entity of the batch that has it is of the
type, and so is every entity that had it before. -/
def StandsFor (job : GraphJob) (publications : List Publication) (entities : EntityTable)
    (canonicalId : String) (entityType : NodeType) : Prop :=
  (publications.flatMap (entitiesOf job.tables)).lookup canonicalId = some entityType ∧
    ∀ row ∈ entities.rows, joins job.orgId job.domain canonicalId row = true →
      row.entityType = some entityType.text

theorem NodeType.text_injective {first second : NodeType} (same : first.text = second.text) :
    first = second := by
  cases first <;> cases second <;> first | rfl | exact absurd same (by decide)

theorem joins_iff (orgId : Option Int) (domain canonicalId : String) (row : RawEntity) :
    joins orgId domain canonicalId row = true ↔
      row.orgId = orgId ∧ row.domain = some domain ∧ row.canonicalId = some canonicalId := by
  simp [joins, and_assoc]

theorem canonicalKey_of_clash {first second : RawEntity}
    (clashes : canonicalClash first second = true) : canonicalKey first = canonicalKey second := by
  unfold canonicalClash at clashes
  exact beq_iff_eq.mp (Bool.and_eq_true _ _ |>.mp clashes).2

theorem canonicalKey_row (node : PendingNode) :
    canonicalKey node.row = some (node.orgId, node.domain, node.entityType.text, node.canonicalId) :=
  rfl

variable {canonicalId : String} {entityType : NodeType} {row : RawEntity}

theorem canonicalKey_isNode {job : GraphJob} :
    canonicalKey row = some (job.orgId, job.domain, entityType.text, canonicalId) ↔
      IsNode job canonicalId entityType row := by
  rw [IsNode, joins_iff]
  unfold canonicalKey
  cases row.domain <;> cases row.entityType <;> cases row.canonicalId <;> simp
  tauto

theorem isNode_unique {job : GraphJob} (entities : EntityTable) {first second : RawEntity}
    (firstIn : first ∈ entities.rows) (secondIn : second ∈ entities.rows)
    (firstIs : IsNode job canonicalId entityType first)
    (secondIs : IsNode job canonicalId entityType second) : first = second := by
  refine entities.eq_of_clash firstIn secondIn ?_
  rw [← canonicalKey_isNode] at firstIs secondIs
  show canonicalClash first second = true
  simp [canonicalClash, firstIs, secondIs]

section Merge

variable (job : GraphJob) (publications : List Publication)

theorem lookup_entities (canonicalId : String) :
    (publications.flatMap (entitiesOf job.tables)).lookup canonicalId =
      ((publications.flatMap (extractNodes job)).find? fun node =>
        node.canonicalId = canonicalId).map PendingNode.entityType := by
  rw [← lookup_map, List.map_flatMap]
  simp only [extractNodes_entities]

theorem nodeMap_lookup {node : PendingNode} (member : node ∈ nodeMap job publications) :
    (publications.flatMap (entitiesOf job.tables)).lookup node.canonicalId = some node.entityType := by
  rw [nodeMap, mem_firsts_iff] at member
  rw [lookup_entities, member, Option.map_some]

theorem exists_mem_nodeMap
    (found : (publications.flatMap (entitiesOf job.tables)).lookup canonicalId = some entityType) :
    ∃ node ∈ nodeMap job publications, node.canonicalId = canonicalId ∧
      node.entityType = entityType := by
  rw [lookup_entities, Option.map_eq_some_iff] at found
  obtain ⟨node, first, typed⟩ := found
  have named : node.canonicalId = canonicalId := by simpa using List.find?_some first
  refine ⟨node, ?_, named, typed⟩
  rw [nodeMap, mem_firsts_iff, named]
  exact first

theorem nodeMap_scope {node : PendingNode} (member : node ∈ nodeMap job publications) :
    node.orgId = job.orgId ∧ node.domain = job.domain := by
  rw [nodeMap, mem_firsts_iff] at member
  obtain ⟨publication, _, extracted⟩ := List.mem_flatMap.mp (List.mem_of_find?_eq_some member)
  exact extractNodes_scope job publication extracted

end Merge

theorem mergeNodes_spec (entities : EntityTable) (staged : List PendingNode) :
    (∀ stored ∈ entities.rows, stored ∈ (mergeNodes entities staged).rows) ∧
      (∀ stored ∈ (mergeNodes entities staged).rows, stored ∈ entities.rows ∨
        ∃ node ∈ staged, ∃ value, stored = entitySchema.withKey value node.row) ∧
      ∀ node ∈ staged, ∃ stored ∈ (mergeNodes entities staged).rows,
        canonicalKey stored = canonicalKey node.row := by
  obtain ⟨kept, traced, present⟩ := entities.insertAllOrIgnore_spec
    ((firsts stageKey (staged.filter fun node => node.orgId.isSome)).map PendingNode.row)
  obtain ⟨keptAgain, tracedAgain, presentAgain⟩ :=
    (entities.insertAllOrIgnore
      ((firsts stageKey (staged.filter fun node => node.orgId.isSome)).map PendingNode.row))
      |>.insertAllOrIgnore_spec
        ((firsts stageKey (staged.filter fun node => node.orgId.isNone)).map PendingNode.row)
  have staging : ∀ {side : PendingNode → Bool} {row : RawEntity},
      row ∈ (firsts stageKey (staged.filter side)).map PendingNode.row →
        ∃ node ∈ staged, row = node.row := by
    intro side row member
    obtain ⟨node, first, rfl⟩ := List.mem_map.mp member
    exact ⟨node, (List.mem_filter.mp (mem_of_mem_firsts first)).1, rfl⟩
  have fits : ∀ {stored row : RawEntity}, (entitySchema.clash stored row = true ∨
      ∃ value, stored = entitySchema.withKey value row) → canonicalKey stored = canonicalKey row := by
    intro stored row either
    rcases either with clashes | ⟨value, rfl⟩
    · exact canonicalKey_of_clash clashes
    · rfl
  have keys : ∀ {first second : PendingNode}, stageKey first = stageKey second →
      canonicalKey first.row = canonicalKey second.row := by
    intro first second same
    simp only [stageKey, Prod.mk.injEq] at same
    rw [canonicalKey_row, canonicalKey_row, same.1, same.2.1, same.2.2.1, same.2.2.2]
  refine ⟨fun stored member => keptAgain stored (kept stored member), ?_, ?_⟩
  · intro stored member
    rcases tracedAgain stored member with earlier | ⟨row, inside, value, rfl⟩
    · rcases traced stored earlier with old | ⟨row, inside, value, rfl⟩
      · exact .inl old
      · obtain ⟨node, nodeIn, rfl⟩ := staging inside
        exact .inr ⟨node, nodeIn, value, rfl⟩
    · obtain ⟨node, nodeIn, rfl⟩ := staging inside
      exact .inr ⟨node, nodeIn, value, rfl⟩
  · intro node member
    cases scope : node.orgId with
    | some orgId =>
      have staged : node ∈ staged.filter fun node => node.orgId.isSome :=
        List.mem_filter.mpr ⟨member, by rw [scope]; rfl⟩
      obtain ⟨first, inFirsts, sameKey⟩ := exists_mem_firsts stageKey staged
      obtain ⟨stored, storedIn, either⟩ := present first.row (List.mem_map_of_mem inFirsts)
      exact ⟨stored, keptAgain stored storedIn, (fits either).trans (keys sameKey)⟩
    | none =>
      have staged : node ∈ staged.filter fun node => node.orgId.isNone :=
        List.mem_filter.mpr ⟨member, by rw [scope]; rfl⟩
      obtain ⟨first, inFirsts, sameKey⟩ := exists_mem_firsts stageKey staged
      obtain ⟨stored, storedIn, either⟩ := presentAgain first.row (List.mem_map_of_mem inFirsts)
      exact ⟨stored, storedIn, (fits either).trans (keys sameKey)⟩

section Stored

variable (job : GraphJob) (publications : List Publication) {uniqueNodes : List PendingNode}
  (arranged : uniqueNodes.Perm (nodeMap job publications)) (tables : GraphTables)

include arranged

theorem merged_of_joins (member : row ∈ (mergeNodes tables.entities uniqueNodes).rows)
    (fits : joins job.orgId job.domain canonicalId row = true) :
    row ∈ tables.entities.rows ∨
      ∃ entityType, (publications.flatMap (entitiesOf job.tables)).lookup canonicalId =
        some entityType ∧ IsNode job canonicalId entityType row := by
  rcases (mergeNodes_spec tables.entities uniqueNodes).2.1 row member with old | new
  · exact .inl old
  · obtain ⟨node, inside, value, rfl⟩ := new
    have named : node.canonicalId = canonicalId :=
      Option.some.inj ((joins_iff _ _ _ _).mp fits).2.2
    have first := nodeMap_lookup job publications (arranged.mem_iff.mp inside)
    rw [named] at first
    exact .inr ⟨node.entityType, first, fits, rfl⟩

theorem merged_of_lookup
    (found : (publications.flatMap (entitiesOf job.tables)).lookup canonicalId = some entityType) :
    ∃ row ∈ (mergeNodes tables.entities uniqueNodes).rows, IsNode job canonicalId entityType row := by
  obtain ⟨node, inside, rfl, rfl⟩ := exists_mem_nodeMap job publications found
  obtain ⟨orgIs, domainIs⟩ := nodeMap_scope job publications inside
  obtain ⟨row, member, sameKey⟩ :=
    (mergeNodes_spec tables.entities uniqueNodes).2.2 node (arranged.mem_iff.mpr inside)
  refine ⟨row, member, ?_⟩
  rw [← canonicalKey_isNode, sameKey, canonicalKey_row, orgIs, domainIs]

theorem isNode_of_standsFor
    (stands : StandsFor job publications tables.entities canonicalId entityType)
    (member : row ∈ (mergeNodes tables.entities uniqueNodes).rows)
    (fits : joins job.orgId job.domain canonicalId row = true) :
    IsNode job canonicalId entityType row := by
  rcases merged_of_joins job publications arranged tables member fits with old | new
  · exact ⟨fits, stands.2 row old fits⟩
  · obtain ⟨otherType, found, isNode⟩ := new
    rw [stands.1] at found
    rw [Option.some.inj found]
    exact isNode

theorem standsFor_of_only {node : RawEntity}
    (known : ∃ otherType, (canonicalId, otherType) ∈ publications.flatMap (entitiesOf job.tables))
    (isNode : IsNode job canonicalId entityType node)
    (only : ∀ row ∈ (mergeNodes tables.entities uniqueNodes).rows,
      joins job.orgId job.domain canonicalId row = true → row = node) :
    StandsFor job publications tables.entities canonicalId entityType := by
  constructor
  · obtain ⟨otherType, inside⟩ := known
    cases found : (publications.flatMap (entitiesOf job.tables)).lookup canonicalId with
    | none =>
      have absent := List.lookup_eq_none_iff.mp found _ inside
      simp at absent
    | some first =>
      obtain ⟨row, member, rowIs⟩ := merged_of_lookup job publications arranged tables found
      have same := only row member rowIs.1
      rw [same] at rowIs
      have texts : first.text = entityType.text :=
        Option.some.inj (rowIs.2.symm.trans isNode.2)
      rw [NodeType.text_injective texts]
  · intro row old fits
    rw [only row ((mergeNodes_spec tables.entities uniqueNodes).1 row old) fits]
    exact isNode.2

end Stored

theorem edgeKey_of_clash {first second : StoredEdge} (clashes : edgeClash first second = true) :
    edgeKey first = edgeKey second := by
  unfold edgeClash at clashes
  exact beq_iff_eq.mp (Bool.and_eq_true _ _ |>.mp clashes).2

theorem edgeKey_eq_some_iff {edge : StoredEdge} {orgId : Option Int} {source target : Nat}
    {relationType : String} :
    edgeKey edge = some (orgId, source, target, relationType) ↔
      edge.orgId = orgId ∧ edge.sourceId = some source ∧ edge.targetId = some target ∧
        edge.relationType = some relationType := by
  unfold edgeKey
  cases edge.sourceId <;> cases edge.targetId <;> cases edge.relationType <;> simp

variable {rels : List PendingRelationship} {rel : PendingRelationship}

theorem mergeRelationships_stores (tables : GraphTables) (orgId : Option Int) (domain : String)
    (member : rel ∈ rels) (inScope : rel.orgId = orgId) {src dst : RawEntity}
    (srcIn : src ∈ tables.entities.rows)
    (srcFits : joins orgId domain rel.sourceCanonicalId src = true)
    (dstIn : dst ∈ tables.entities.rows)
    (dstFits : joins orgId domain rel.targetCanonicalId dst = true) :
    ∃ edge ∈ (mergeRelationships tables orgId domain rels).rows,
      edgeKey edge = some (orgId, src.id, dst.id, rel.relationType.text) := by
  have inJoin : ((src.id, dst.id, rel.relationType), rel.weight) ∈
      joined tables.entities orgId domain rels := by
    simp only [joined, List.mem_flatMap, List.mem_map, List.mem_filter]
    exact ⟨rel, ⟨member, by simpa using inScope⟩, src, ⟨srcIn, srcFits⟩, dst, ⟨dstIn, dstFits⟩, rfl⟩
  have inGroups : ((src.id, dst.id, rel.relationType), itemsOf (joined tables.entities orgId domain
      rels) (src.id, dst.id, rel.relationType)) ∈ grouped (joined tables.entities orgId domain rels) :=
    (mem_grouped_iff _ _).mpr ⟨List.mem_map_of_mem inJoin, rfl⟩
  obtain ⟨edge, stored, either⟩ := (tables.relationships.insertAllOrIgnore_spec _).2.2
    (edgeRow orgId _) (List.mem_map_of_mem inGroups)
  refine ⟨edge, stored, ?_⟩
  rcases either with clashes | ⟨value, rfl⟩
  · exact edgeKey_of_clash clashes
  · rfl

theorem mem_storedEdges_iff (job : GraphJob) (tables : GraphTables) (rel : PendingRelationship)
    (edge : StoredEdge) :
    edge ∈ storedEdges job tables rel ↔ edge ∈ tables.relationships.rows ∧
      ∃ src ∈ tables.entities.rows, ∃ dst ∈ tables.entities.rows,
        joins job.orgId job.domain rel.sourceCanonicalId src = true ∧
          joins job.orgId job.domain rel.targetCanonicalId dst = true ∧
            edgeKey edge = some (job.orgId, src.id, dst.id, rel.relationType.text) := by
  simp only [storedEdges, List.mem_filter, Bool.and_eq_true, List.any_eq_true, beq_iff_eq,
    edgeKey_eq_some_iff]
  constructor
  · rintro ⟨member, ⟨⟨org, relation⟩, src, srcIn, srcFits, srcIs⟩, dst, dstIn, dstFits, dstIs⟩
    exact ⟨member, src, srcIn, dst, dstIn, srcFits, dstFits, org, srcIs, dstIs, relation⟩
  · rintro ⟨member, src, srcIn, dst, dstIn, srcFits, dstFits, org, srcIs, dstIs, relation⟩
    exact ⟨member, ⟨⟨org, relation⟩, src, srcIn, srcFits, srcIs⟩, dst, dstIn, dstFits, dstIs⟩

theorem only_ends {job : GraphJob} {tables : GraphTables} (member : rel ∈ rels)
    (inScope : rel.orgId = job.orgId) {edge : StoredEdge} {source target : RawEntity}
    (one : storedEdges job { tables with
      relationships := mergeRelationships tables job.orgId job.domain rels } rel = [edge])
    (fromSource : edge.sourceId = some source.id) (toTarget : edge.targetId = some target.id)
    (sourceIn : source ∈ tables.entities.rows) (targetIn : target ∈ tables.entities.rows)
    {src dst : RawEntity} (srcIn : src ∈ tables.entities.rows)
    (srcFits : joins job.orgId job.domain rel.sourceCanonicalId src = true)
    (dstIn : dst ∈ tables.entities.rows)
    (dstFits : joins job.orgId job.domain rel.targetCanonicalId dst = true) :
    src = source ∧ dst = target := by
  obtain ⟨other, stored, key⟩ := mergeRelationships_stores tables job.orgId job.domain member inScope
    srcIn srcFits dstIn dstFits
  have found : other ∈ storedEdges job { tables with
      relationships := mergeRelationships tables job.orgId job.domain rels } rel :=
    (mem_storedEdges_iff job _ rel other).mpr
      ⟨stored, src, srcIn, dst, dstIn, srcFits, dstFits, key⟩
  rw [one, List.mem_singleton] at found
  rw [found, edgeKey_eq_some_iff] at key
  refine ⟨tables.entities.eq_of_key_eq srcIn sourceIn ?_, tables.entities.eq_of_key_eq dstIn targetIn ?_⟩
  · exact Option.some.inj (key.2.1.symm.trans fromSource)
  · exact Option.some.inj (key.2.2.1.symm.trans toTarget)

section Ends

variable (job : GraphJob) (publications : List Publication) {uniqueNodes : List PendingNode}
  (arranged : uniqueNodes.Perm (nodeMap job publications)) (tables : GraphTables)
  {rel : PendingRelationship} (member : rel ∈ publications.flatMap (computeRelationships job))

include member

theorem ends_mem_entities : rel.orgId = job.orgId ∧
    (rel.sourceCanonicalId, rel.relationType.sourceType) ∈
      publications.flatMap (entitiesOf job.tables) ∧
    (rel.targetCanonicalId, rel.relationType.targetType) ∈
      publications.flatMap (entitiesOf job.tables) := by
  obtain ⟨publication, inBatch, computed⟩ := List.mem_flatMap.mp member
  obtain ⟨inScope, source, target⟩ := computeRelationships_ends job publication computed
  exact ⟨inScope, List.mem_flatMap.mpr ⟨publication, inBatch, source⟩,
    List.mem_flatMap.mpr ⟨publication, inBatch, target⟩⟩

include arranged

theorem standsFor_of_edgeStored
    (stored : EdgeStored job (process job publications uniqueNodes tables) rel) :
    StandsFor job publications tables.entities rel.sourceCanonicalId rel.relationType.sourceType ∧
      StandsFor job publications tables.entities rel.targetCanonicalId
        rel.relationType.targetType := by
  obtain ⟨inScope, sourceKnown, targetKnown⟩ := ends_mem_entities job publications member
  obtain ⟨source, sourceIn, target, targetIn, edge, sourceIs, targetIs, one, fromSource, toTarget⟩ :=
    stored
  have only := @only_ends _ rel job
    { tables with entities := mergeNodes tables.entities uniqueNodes } member inScope edge source target one fromSource toTarget sourceIn targetIn
  constructor
  · refine standsFor_of_only job publications arranged tables ⟨_, sourceKnown⟩ sourceIs ?_
    intro row rowIn fits
    exact (only rowIn fits targetIn targetIs.1).1
  · refine standsFor_of_only job publications arranged tables ⟨_, targetKnown⟩ targetIs ?_
    intro row rowIn fits
    exact (only sourceIn sourceIs.1 rowIn fits).2

theorem edgeStored_of_standsFor
    (sourceStands : StandsFor job publications tables.entities rel.sourceCanonicalId
      rel.relationType.sourceType)
    (targetStands : StandsFor job publications tables.entities rel.targetCanonicalId
      rel.relationType.targetType) :
    EdgeStored job (process job publications uniqueNodes tables) rel := by
  obtain ⟨inScope, _, _⟩ := ends_mem_entities job publications member
  obtain ⟨source, sourceIn, sourceIs⟩ :=
    merged_of_lookup job publications arranged tables sourceStands.1
  obtain ⟨target, targetIn, targetIs⟩ :=
    merged_of_lookup job publications arranged tables targetStands.1
  obtain ⟨edge, edgeIn, edgeIs⟩ := mergeRelationships_stores
    { tables with entities := mergeNodes tables.entities uniqueNodes } job.orgId job.domain member
    inScope sourceIn sourceIs.1 targetIn targetIs.1
  have ends := edgeKey_eq_some_iff.mp edgeIs
  refine ⟨source, sourceIn, target, targetIn, edge, sourceIs, targetIs, ?_, ends.2.1, ends.2.2.1⟩
  have found : edge ∈ storedEdges job (process job publications uniqueNodes tables) rel :=
    (mem_storedEdges_iff job _ rel edge).mpr
      ⟨edgeIn, source, sourceIn, target, targetIn, sourceIs.1, targetIs.1, edgeIs⟩
  rw [storedEdges, SerialTable.filter_eq_singleton_iff]
  refine ⟨List.mem_filter.mp found, fun other otherIn matched => ?_⟩
  have otherFound : other ∈ storedEdges job (process job publications uniqueNodes tables) rel :=
    List.mem_filter.mpr ⟨otherIn, matched⟩
  obtain ⟨_, src, srcIn, dst, dstIn, srcFits, dstFits, otherIs⟩ :=
    (mem_storedEdges_iff job _ rel other).mp otherFound
  have sameSource : src = source := isNode_unique _ srcIn sourceIn
    (isNode_of_standsFor job publications arranged tables sourceStands srcIn srcFits) sourceIs
  have sameTarget : dst = target := isNode_unique _ dstIn targetIn
    (isNode_of_standsFor job publications arranged tables targetStands dstIn dstFits) targetIs
  refine SerialTable.eq_of_clash _ otherIn edgeIn ?_
  rw [sameSource, sameTarget] at otherIs
  show edgeClash other edge = true
  simp [edgeClash, otherIs, edgeIs]

end Ends

/-- An edge of the batch is stored once, between nodes of the types that its relation
requires, exactly if the canonical ids of its ends stand for these types. -/
theorem edgeStored_iff (job : GraphJob) (publications : List Publication)
    (uniqueNodes : List PendingNode) (arranged : uniqueNodes.Perm (nodeMap job publications))
    (tables : GraphTables) (rel : PendingRelationship)
    (member : rel ∈ publications.flatMap (computeRelationships job)) :
    EdgeStored job (process job publications uniqueNodes tables) rel ↔
      StandsFor job publications tables.entities rel.sourceCanonicalId
          rel.relationType.sourceType ∧
        StandsFor job publications tables.entities rel.targetCanonicalId
          rel.relationType.targetType := by
  constructor
  · exact standsFor_of_edgeStored job publications arranged tables member
  · rintro ⟨sourceStands, targetStands⟩
    exact edgeStored_of_standsFor job publications arranged tables member sourceStands targetStands

def sampleJob : GraphJob where
  tables := sampleTables
  jsonText := fun _ => "{}"
  orgId := some 1
  importBatchId := 1
  domain := "science"

def emptyTables : GraphTables where
  entities := SerialTable.empty entitySchema
  relationships := SerialTable.empty edgeSchema

def ownArticle (identifiers : List Identifier) : Publication where
  entityId := 1
  title := "Own"
  authors := [⟨"Ann", none, some "0000-0001", none, []⟩]
  identifiers

def authoredEdge : PendingRelationship := relationship sampleJob "pub:1" "orcid:0000-0001" .authoredBy

theorem edgeStored_authored :
    EdgeStored sampleJob (process sampleJob [ownArticle []]
      (nodeMap sampleJob [ownArticle []]) emptyTables) authoredEdge :=
  (edgeStored_iff sampleJob [ownArticle []] _ (List.Perm.refl _) emptyTables authoredEdge
    (by decide)).mpr
    ⟨⟨by decide, fun _ member => absurd member List.not_mem_nil⟩,
      ⟨by decide, fun _ member => absurd member List.not_mem_nil⟩⟩

/-- The ORCID of the author is also an identifier of the publication: the identifier has no
node, and its edge ends at the author. -/
theorem edgeStored_not_always :
    ¬ ∀ (job : GraphJob) (publications : List Publication) (uniqueNodes : List PendingNode),
      uniqueNodes.Perm (nodeMap job publications) → ∀ tables : GraphTables,
        ∀ rel ∈ publications.flatMap (computeRelationships job),
          EdgeStored job (process job publications uniqueNodes tables) rel := by
  intro always
  have identified : relationship sampleJob "pub:1" "orcid:0000-0001" .identifiedBy ∈
      [ownArticle [⟨"orcid", "0000-0001"⟩]].flatMap (computeRelationships sampleJob) := by
    decide
  have stored := always sampleJob [ownArticle [⟨"orcid", "0000-0001"⟩]] _ (List.Perm.refl _)
    emptyTables _ identified
  have stands := (standsFor_of_edgeStored sampleJob _ (List.Perm.refl _) emptyTables identified
    stored).2.1
  exact absurd stands (by decide)

end Ukip.Engine
