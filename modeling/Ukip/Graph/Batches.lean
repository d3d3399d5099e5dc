import Ukip.Foundation.EventRun
import Ukip.Graph.Materializer

/-!
# Batches one after the other

The lookups of a batch see its own nodes only, the unique indexes all of them, and an edge
that waits for its flush is seen by neither.  A batch is materialized where its nodes are
stored under no other batch, its edges are not stored from elsewhere, and no edge is drawn
a second time while it waits.
-/

namespace Ukip.Graph.Batches

open Foundation.EventRun Foundation.Relational Foundation.Tally Analytics.Corpus Entities.Table Plan
open Materializer

/-! ## The condition of one batch -/

/-- An end of an edge before the batch: a stored row, or a node that is still to come. -/
inductive Site where
  | stored (id : Nat)
  | fresh (key : NodeKey)
  deriving DecidableEq

/-- Which nodes were asked for, and which edges wait for the flush or are written. -/
structure Scan where
  demanded : List NodeKey
  waiting : List Edge
  drawn : List Edge

variable (context : BatchContext) (db : GraphDb)

def siteOf : Endpoint → Site
  | .publication id => .stored id
  | .node key =>
    match db.entities.rows.find? (isNode context key) with
    | some row => .stored row.id
    | none => .fresh key

def alike (first second : Edge) : Bool :=
  first.relationType == second.relationType &&
    (siteOf context db first.source == siteOf context db second.source &&
        siteOf context db first.target == siteOf context db second.target ||
      isSorted first.relationType &&
        siteOf context db first.source == siteOf context db second.target &&
        siteOf context db first.target == siteOf context db second.source)

def joins (edge : Edge) (row : GraphRelationship) : Bool :=
  row.orgId == context.orgId && row.relationType == some edge.relationType &&
    match siteOf context db edge.source, siteOf context db edge.target with
    | .stored source, .stored target =>
      row.sourceId == some source && row.targetId == some target &&
          (!isSorted edge.relationType || source ≤ target) ||
        isSorted edge.relationType && row.sourceId == some target &&
          row.targetId == some source && target ≤ source
    | _, _ => false

def Scan.asked (scan : Scan) : Endpoint → Bool
  | .publication _ => true
  | .node key => scan.demanded.contains key

def passesOver (scan : Scan) (edge : Edge) : Bool :=
  !(scan.asked edge.source && scan.asked edge.target) ||
    siteOf context db edge.source == siteOf context db edge.target ||
    (db.relationships.rows.any fun row =>
      joins context db edge row && containsLike (marker context) row.notes) ||
    scan.drawn.any (alike context db edge)

def scanStep (scan : Scan) : Action → Scan
  | .node demand =>
    if siteOf context db (.node demand.key) = .fresh demand.key ∧
        demand.key ∉ scan.demanded then
      ⟨demand.key :: scan.demanded, [], scan.waiting ++ scan.drawn⟩
    else { scan with demanded := demand.key :: scan.demanded }
  | .relate edge =>
    if passesOver context db scan edge then scan
    else { scan with waiting := edge :: scan.waiting }

/-- No edge is drawn again while it waits, and none is stored from elsewhere. -/
def EdgesApart : Scan → List Action → Prop
  | _, [] => True
  | scan, action :: rest =>
    (∀ edge, action = .relate edge → passesOver context db scan edge = false →
      (scan.waiting.any (alike context db edge) = false ∧
        db.relationships.rows.any (joins context db edge) = false)) ∧
    EdgesApart (scanStep context db scan action) rest

def nodeIndex (key : NodeKey) : Option Int × String × String × String :=
  (context.orgId, key.domain, key.entityType, key.canonicalId)

/-- The nodes of a plan are stored under no other batch. -/
def NodesOwn (actions : List Action) : Prop :=
  ∀ demand, Action.node demand ∈ actions → ∀ row ∈ db.entities.rows,
    canonicalKey row = some (nodeIndex context demand.key) → row.importBatchId = context.batch

def Unobstructed : Prop :=
  NodesOwn context db (planOf context db) ∧
    EdgesApart context db ⟨[], [], []⟩ (planOf context db)

instance decidableEdgesApart : ∀ (scan : Scan) (actions : List Action),
    Decidable (EdgesApart context db scan actions)
  | _, [] => inferInstanceAs (Decidable True)
  | scan, .node demand :: rest =>
    have := decidableEdgesApart (scanStep context db scan (.node demand)) rest
    decidable_of_iff (EdgesApart context db (scanStep context db scan (.node demand)) rest)
      ⟨fun later => ⟨(nofun), later⟩, And.right⟩
  | scan, .relate edge :: rest =>
    have := decidableEdgesApart (scanStep context db scan (.relate edge)) rest
    decidable_of_iff ((passesOver context db scan edge = false →
        scan.waiting.any (alike context db edge) = false ∧
          db.relationships.rows.any (joins context db edge) = false) ∧
        EdgesApart context db (scanStep context db scan (.relate edge)) rest)
      (and_congr_left fun _ =>
        ⟨(fun here other isEdge => by cases isEdge; exact here), fun every => every edge rfl⟩)

def nodesOf (actions : List Action) : List NodeDemand :=
  actions.filterMap fun action =>
    match action with
    | .node demand => some demand
    | .relate _ => none

theorem mem_nodesOf (actions : List Action) (demand : NodeDemand) :
    demand ∈ nodesOf actions ↔ Action.node demand ∈ actions := by
  unfold nodesOf
  rw [List.mem_filterMap]
  constructor
  · rintro ⟨action, member, found⟩
    cases action with
    | node other =>
      cases Option.some.inj found
      exact member
    | relate edge => cases found
  · intro member
    exact ⟨.node demand, member, rfl⟩

instance decidableNodesOwn (actions : List Action) : Decidable (NodesOwn context db actions) :=
  decidable_of_iff (∀ demand ∈ nodesOf actions, ∀ row ∈ db.entities.rows,
      canonicalKey row = some (nodeIndex context demand.key) → row.importBatchId = context.batch)
    ⟨fun each demand member => each demand ((mem_nodesOf actions demand).mpr member),
      fun each demand member => each demand ((mem_nodesOf actions demand).mp member)⟩

instance : Decidable (Unobstructed context db) :=
  inferInstanceAs (Decidable (NodesOwn _ _ _ ∧ EdgesApart _ _ _ _))

/-! ## Ends of a plan -/

/-- The publications that an edge names are those of the plan. -/
def Grounded (ids : List Nat) (action : Action) : Prop :=
  ∀ edge, action = .relate edge → ∀ id,
    edge.source = .publication id ∨ edge.target = .publication id → id ∈ ids

section Grounded

variable (python : GraphPython)

variable (ids : List Nat)

theorem grounded_node (demand : NodeDemand) : Grounded ids (.node demand) := by
  intro edge isEdge
  cases isEdge

theorem grounded_nodes (first second : NodeKey) (relationType : String) (publicationId : Option Nat)
    (weight : EdgeWeight) :
    Grounded ids (.relate ⟨.node first, .node second, relationType, publicationId, weight⟩) := by
  intro edge isEdge id named
  cases isEdge
  rcases named with named | named <;> cases named

theorem grounded_publications (first second : Nat) (relationType : String) (weight : EdgeWeight)
    (firstMember : first ∈ ids) (secondMember : second ∈ ids) :
    Grounded ids (.relate ⟨.publication first, .publication second, relationType, none, weight⟩) := by
  intro edge isEdge id named
  cases isEdge
  rcases named with named | named
  · cases named
    exact firstMember
  · cases named
    exact secondMember

theorem grounded_attach (publicationId : Nat) (relationType : String) (weight : EdgeWeight)
    (demand : NodeDemand) (known : publicationId ∈ ids) :
    ∀ action ∈ attach publicationId relationType weight demand, Grounded ids action := by
  intro action member
  rcases List.mem_cons.mp member with rfl | member
  · exact grounded_node ids demand
  · rw [List.mem_singleton.mp member]
    intro edge isEdge id named
    cases isEdge
    rcases named with named | named
    · cases named
      exact known
    · cases named

theorem grounded_publicationActions (publication : RawEntity) (attrs : Attrs)
    (known : publication.id ∈ ids) :
    ∀ action ∈ publicationActions python publication attrs, Grounded ids action := by
  intro action member
  unfold publicationActions at member
  simp only [List.mem_append] at member
  rcases member with ((((author | affiliation) | belonging) | journal) | concept) | identifier
  · obtain ⟨planned, -, inside⟩ := List.mem_flatMap.mp author
    exact grounded_attach ids publication.id _ _ _ known action inside
  · obtain ⟨planned, -, rfl⟩ := List.mem_map.mp affiliation
    exact grounded_node ids _
  · unfold belongsTo at belonging
    obtain ⟨planned, -, inside⟩ := List.mem_flatMap.mp belonging
    obtain ⟨name, -, found⟩ := List.mem_filterMap.mp inside
    obtain ⟨entry, -, rfl⟩ := Option.map_eq_some_iff.mp found
    exact grounded_nodes ids _ _ _ _ _
  · unfold journalActions at journal
    split at journal
    · cases journal
    split at journal
    · cases journal
    exact grounded_attach ids publication.id _ _ _ known action journal
  · obtain ⟨planned, -, inside⟩ := List.mem_flatMap.mp concept
    exact grounded_attach ids publication.id _ _ _ known action inside
  · obtain ⟨planned, -, inside⟩ := List.mem_flatMap.mp identifier
    exact grounded_attach ids publication.id _ _ _ known action inside

theorem mem_sortedIds (id : Nat) : id ∈ sortedIds ids ↔ id ∈ ids :=
  (sortedBy_perm _ ids).mem_iff

theorem identifierPublications_known (publications : List RawEntity)
    (entry : (String × String) × List Nat)
    (member : entry ∈ identifierPublications python publications) (id : Nat) (listed : id ∈ entry.2) :
    id ∈ publications.map RawEntity.id := by
  unfold identifierPublications at member
  obtain ⟨identifier, -, rfl⟩ := List.mem_map.mp member
  obtain ⟨pair, inside, rfl⟩ := List.mem_map.mp listed
  obtain ⟨publication, known, pairs⟩ := List.mem_flatMap.mp (List.mem_filter.mp inside).1
  obtain ⟨value, -, rfl⟩ := List.mem_map.mp pairs
  exact List.mem_map_of_mem known

theorem grounded_plan (publications : List RawEntity) :
    ∀ action ∈ plan python publications, Grounded (publications.map RawEntity.id) action := by
  intro action member
  unfold plan at member
  simp only [List.mem_append] at member
  rcases member with ((((each | coauthor) | cooccurring) | related) | same) | acronym
  · obtain ⟨publication, known, inside⟩ := List.mem_flatMap.mp each
    exact grounded_publicationActions python _ publication _ (List.mem_map_of_mem known) action inside
  · obtain ⟨publication, -, inside⟩ := List.mem_flatMap.mp coauthor
    obtain ⟨pair, -, rfl⟩ := List.mem_map.mp inside
    exact grounded_nodes _ _ _ _ _ _
  · obtain ⟨publication, -, inside⟩ := List.mem_flatMap.mp cooccurring
    obtain ⟨pair, -, found⟩ := List.mem_filterMap.mp inside
    dsimp only at found
    split at found
    · cases found
    obtain ⟨left, -, found⟩ := Option.bind_eq_some_iff.mp found
    obtain ⟨right, -, rfl⟩ := Option.map_eq_some_iff.mp found
    exact grounded_nodes _ _ _ _ _ _
  · unfold relatedActions at related
    obtain ⟨pair, inside, found⟩ := List.mem_filterMap.mp related
    obtain ⟨left, right⟩ := mem_combinations _ pair inside
    dsimp only at found
    split at found
    · cases found
    cases found
    exact grounded_publications _ _ _ _ _ ((mem_sortedIds _ _).mp left) ((mem_sortedIds _ _).mp right)
  · obtain ⟨entry, known, inside⟩ := List.mem_flatMap.mp same
    obtain ⟨pair, paired, rfl⟩ := List.mem_map.mp inside
    obtain ⟨left, right⟩ := mem_combinations _ pair paired
    rw [mem_sortedIds, List.mem_eraseDups] at left right
    exact grounded_publications _ _ _ _ _
      (identifierPublications_known python publications entry known _ left)
      (identifierPublications_known python publications entry known _ right)
  · obtain ⟨short, -, inside⟩ := List.mem_flatMap.mp acronym
    obtain ⟨long, -, found⟩ := List.mem_filterMap.mp inside
    obtain ⟨left, -, found⟩ := Option.bind_eq_some_iff.mp found
    obtain ⟨right, -, rfl⟩ := Option.map_eq_some_iff.mp found
    exact grounded_nodes _ _ _ _ _ _

end Grounded

/-! ## The session beside the scan -/

/-- Relationships name entities that were inserted. -/
def EndsIssued (db : GraphDb) : Prop :=
  ∀ row ∈ db.relationships.rows, ∀ id, row.sourceId = some id ∨ row.targetId = some id →
    id < db.entities.nextKey

/-- A publication that an edge names is stored. -/
def Known (db : GraphDb) (endpoint : Endpoint) : Prop :=
  ∀ publication, endpoint = .publication publication → publication < db.entities.nextKey

def KnownEdge (db : GraphDb) (edge : Edge) : Prop := Known db edge.source ∧ Known db edge.target

/-- Where the session stands after the actions that the scan has seen. -/
structure Follows (scan : Scan) (session : Session) : Prop where
  kept : ∀ row ∈ db.entities.rows, row ∈ session.entities.rows
  grown : db.entities.nextKey ≤ session.entities.nextKey
  derived : ∀ row ∈ session.entities.rows, row ∈ db.entities.rows ∨
    db.entities.nextKey ≤ row.id ∧ ∃ key ∈ scan.demanded, isNode context key row = true
  held : ∀ key id, session.held.lookup key = some id →
    ∃ row ∈ session.entities.rows, row.id = id ∧ isNode context key row = true
  asked : ∀ key, key ∈ scan.demanded ↔ (session.held.lookup key).isSome = true
  edgesKept : ∀ row ∈ db.relationships.rows, row ∈ session.relationships.rows
  edgesDerived : ∀ row ∈ session.relationships.rows, row ∈ db.relationships.rows ∨
    containsLike (marker context) row.notes = true
  issued : ∀ row ∈ session.relationships.rows, ∀ id,
    row.sourceId = some id ∨ row.targetId = some id → id < session.entities.nextKey
  apart : session.pending.Pairwise fun first second => relationshipClash first second = false
  free : ∀ row ∈ session.pending, ∀ stored ∈ session.relationships.rows,
    relationshipClash row stored = false
  pending : ∀ row ∈ session.pending, ∃ edge ∈ scan.waiting, ∃ source target,
    session.ends edge = some (source, target) ∧ row = edgeRow context edge source target
  known : ∀ edge ∈ scan.waiting ++ scan.drawn, KnownEdge db edge
  waiting : ∀ edge ∈ scan.waiting, ∃ source target, session.ends edge = some (source, target) ∧
    (edgeRow context edge source target ∈ session.pending ∨
      ∃ row ∈ session.relationships.rows, isRelationship context edge source target row = true)
  drawn : ∀ edge ∈ scan.drawn, ∃ source target, session.ends edge = some (source, target) ∧
    ∃ row ∈ session.relationships.rows, isRelationship context edge source target row = true

theorem isNode_iff (key : NodeKey) (row : RawEntity) :
    isNode context key row = true ↔
      canonicalKey row = some (nodeIndex context key) ∧ row.importBatchId = context.batch := by
  unfold isNode canonicalKey nodeIndex
  simp only [Bool.and_eq_true, beq_iff_eq]
  constructor
  · rintro ⟨⟨⟨⟨org, batch⟩, domain⟩, entityType⟩, canonicalId⟩
    rw [domain, entityType, canonicalId, org]
    exact ⟨rfl, batch⟩
  · rintro ⟨index, batch⟩
    split at index
    · rename_i domain entityType canonicalId
      simp only [Option.some.injEq, Prod.mk.injEq] at index
      obtain ⟨org, rfl, rfl, rfl⟩ := index
      exact ⟨⟨⟨⟨org, batch⟩, domain⟩, entityType⟩, canonicalId⟩
    · cases index

theorem nodeIndex_injective {first second : NodeKey}
    (same : nodeIndex context first = nodeIndex context second) : first = second := by
  cases first
  cases second
  unfold nodeIndex at same
  simp only [Prod.mk.injEq, true_and] at same
  obtain ⟨rfl, rfl, rfl⟩ := same
  rfl

theorem isNode_injective {first second : NodeKey} {row : RawEntity}
    (isFirst : isNode context first row = true) (isSecond : isNode context second row = true) :
    first = second := by
  have left := ((isNode_iff context first row).mp isFirst).1
  rw [((isNode_iff context second row).mp isSecond).1] at left
  exact (nodeIndex_injective context (Option.some.inj left)).symm

variable (table : EntityTable)

theorem eq_of_index {first second : RawEntity} (firstMember : first ∈ table.rows)
    (secondMember : second ∈ table.rows) {index : Option Int × String × String × String}
    (isFirst : canonicalKey first = some index) (isSecond : canonicalKey second = some index) :
    first = second := by
  refine table.eq_of_clash firstMember secondMember ?_
  change canonicalClash first second = true
  simp [canonicalClash, isFirst, isSecond]

theorem eq_of_isNode {key : NodeKey} {first second : RawEntity} (firstMember : first ∈ table.rows)
    (secondMember : second ∈ table.rows) (isFirst : isNode context key first = true)
    (isSecond : isNode context key second = true) :
    first = second :=
  eq_of_index table firstMember secondMember ((isNode_iff context key first).mp isFirst).1
    ((isNode_iff context key second).mp isSecond).1

theorem entity_id_lt {row : RawEntity} (member : row ∈ table.rows) :
    row.id < table.nextKey :=
  table.key_lt row member

section Following

variable {context db} {scan : Scan} {session : Session}

theorem site_of_held (follows : Follows context db scan session) (key : NodeKey) (id : Nat)
    (found : session.held.lookup key = some id) :
    siteOf context db (.node key) = .stored id ∧ id < db.entities.nextKey ∨
      siteOf context db (.node key) = .fresh key ∧ db.entities.nextKey ≤ id := by
  obtain ⟨row, member, rfl, isRow⟩ := follows.held key id found
  simp only [siteOf]
  cases stored : db.entities.rows.find? (isNode context key) with
  | some other =>
    have otherMember := List.mem_of_find?_eq_some stored
    have same : other = row := eq_of_isNode context session.entities
      (follows.kept other otherMember) member (List.find?_some stored) isRow
    subst same
    exact .inl ⟨rfl, entity_id_lt db.entities otherMember⟩
  | none =>
    rcases follows.derived row member with old | ⟨large, -⟩
    · exact absurd isRow (List.find?_eq_none.mp stored row old)
    · exact .inr ⟨rfl, large⟩

theorem site_of_idOf (follows : Follows context db scan session) (endpoint : Endpoint) (id : Nat)
    (found : session.idOf endpoint = some id) :
    siteOf context db endpoint = .stored id ∨
      ∃ key, siteOf context db endpoint = .fresh key ∧ db.entities.nextKey ≤ id ∧
        session.held.lookup key = some id := by
  cases endpoint with
  | publication publication =>
    cases Option.some.inj found
    exact .inl rfl
  | node key =>
    rcases site_of_held follows key id found with ⟨stored, -⟩ | ⟨fresh, large⟩
    · exact .inl stored
    · exact .inr ⟨key, fresh, large, found⟩

theorem stored_id_lt (follows : Follows context db scan session) (endpoint : Endpoint) (id : Nat)
    (known : Known db endpoint) (found : session.idOf endpoint = some id)
    (stored : siteOf context db endpoint = .stored id) : id < db.entities.nextKey := by
  cases endpoint with
  | publication publication =>
    cases Option.some.inj found
    exact known id rfl
  | node key =>
    rcases site_of_held follows key id found with ⟨-, small⟩ | ⟨fresh, -⟩
    · exact small
    · rw [fresh] at stored
      cases stored

theorem id_eq_iff (follows : Follows context db scan session) (first second : Endpoint)
    (firstId secondId : Nat) (firstKnown : Known db first) (secondKnown : Known db second)
    (isFirst : session.idOf first = some firstId) (isSecond : session.idOf second = some secondId) :
    firstId = secondId ↔ siteOf context db first = siteOf context db second := by
  rcases site_of_idOf follows first firstId isFirst with left | ⟨key, left, large, found⟩ <;>
    rcases site_of_idOf follows second secondId isSecond with
      right | ⟨otherKey, right, otherLarge, otherFound⟩ <;>
    rw [left, right]
  · rw [Site.stored.injEq]
  · have small := stored_id_lt follows first firstId firstKnown isFirst left
    constructor
    · intro same
      omega
    · intro same
      cases same
  · have small := stored_id_lt follows second secondId secondKnown isSecond right
    constructor
    · intro same
      omega
    · intro same
      cases same
  · rw [Site.fresh.injEq]
    constructor
    · rintro rfl
      obtain ⟨row, member, rowId, isRow⟩ := follows.held key firstId found
      obtain ⟨other, otherMember, otherId, isOther⟩ := follows.held otherKey firstId otherFound
      have same : row = other :=
        session.entities.eq_of_key_eq member otherMember (rowId.trans otherId.symm)
      subst same
      exact isNode_injective context isRow isOther
    · rintro rfl
      rw [found] at otherFound
      exact Option.some.inj otherFound

theorem ends_eq_some_iff (session : Session) (edge : Edge) (source target : Nat) :
    session.ends edge = some (source, target) ↔
      ∃ left right, session.idOf edge.source = some left ∧ session.idOf edge.target = some right ∧
        (isSorted edge.relationType = true ∧ source = min left right ∧ target = max left right ∨
          isSorted edge.relationType = false ∧ source = left ∧ target = right) := by
  unfold Session.ends
  rw [Option.bind_eq_some_iff]
  constructor
  · rintro ⟨left, isLeft, rest⟩
    obtain ⟨right, isRight, written⟩ := Option.map_eq_some_iff.mp rest
    refine ⟨left, right, isLeft, isRight, ?_⟩
    cases sorted : isSorted edge.relationType with
    | true =>
      rw [sorted, if_pos rfl] at written
      cases written
      exact .inl ⟨rfl, rfl, rfl⟩
    | false =>
      rw [sorted, if_neg Bool.false_ne_true] at written
      cases written
      exact .inr ⟨rfl, rfl, rfl⟩
  · rintro ⟨left, right, isLeft, isRight, ⟨sorted, rfl, rfl⟩ | ⟨unsorted, rfl, rfl⟩⟩
    · exact ⟨left, isLeft, by rw [isRight, Option.map_some, sorted, if_pos rfl]⟩
    · exact ⟨source, isLeft, by rw [isRight, Option.map_some, unsorted, if_neg Bool.false_ne_true]⟩

theorem alike_iff (follows : Follows context db scan session) (first second : Edge)
    (firstKnown : KnownEdge db first) (secondKnown : KnownEdge db second)
    (firstEnds secondEnds : Nat × Nat) (isFirst : session.ends first = some firstEnds)
    (isSecond : session.ends second = some secondEnds) :
    alike context db first second = true ↔
      first.relationType = second.relationType ∧ firstEnds = secondEnds := by
  obtain ⟨source, target⟩ := firstEnds
  obtain ⟨otherSource, otherTarget⟩ := secondEnds
  obtain ⟨left, right, isLeft, isRight, written⟩ := (ends_eq_some_iff session first _ _).mp isFirst
  obtain ⟨otherLeft, otherRight, isOtherLeft, isOtherRight, otherWritten⟩ :=
    (ends_eq_some_iff session second _ _).mp isSecond
  unfold alike
  simp only [Bool.and_eq_true, Bool.or_eq_true, beq_iff_eq, Prod.mk.injEq]
  rw [← id_eq_iff follows _ _ _ _ firstKnown.1 secondKnown.1 isLeft isOtherLeft,
    ← id_eq_iff follows _ _ _ _ firstKnown.2 secondKnown.2 isRight isOtherRight,
    ← id_eq_iff follows _ _ _ _ firstKnown.1 secondKnown.2 isLeft isOtherRight,
    ← id_eq_iff follows _ _ _ _ firstKnown.2 secondKnown.1 isRight isOtherLeft]
  refine and_congr_right fun sameType => ?_
  rw [← sameType] at otherWritten
  rcases written with ⟨sorted, rfl, rfl⟩ | ⟨unsorted, rfl, rfl⟩
  · rcases otherWritten with ⟨-, rfl, rfl⟩ | ⟨unsorted, -, -⟩
    · simp only [sorted, true_and]
      omega
    · rw [sorted] at unsorted
      cases unsorted
  · rcases otherWritten with ⟨sorted, -, -⟩ | ⟨-, rfl, rfl⟩
    · rw [unsorted] at sorted
      cases sorted
    · simp [unsorted]

theorem loop_iff (follows : Follows context db scan session) (edge : Edge)
    (known : KnownEdge db edge) (source target : Nat)
    (isEnds : session.ends edge = some (source, target)) :
    siteOf context db edge.source = siteOf context db edge.target ↔ source = target := by
  obtain ⟨left, right, isLeft, isRight, written⟩ := (ends_eq_some_iff session edge _ _).mp isEnds
  rw [← id_eq_iff follows _ _ _ _ known.1 known.2 isLeft isRight]
  rcases written with ⟨-, rfl, rfl⟩ | ⟨-, rfl, rfl⟩
  · omega
  · rfl

/-- The columns of a stored relationship that an edge would repeat. -/
def Repeats (context : BatchContext) (edge : Edge) (source target : Nat)
    (row : GraphRelationship) : Prop :=
  row.orgId = context.orgId ∧ row.relationType = some edge.relationType ∧
    row.sourceId = some source ∧ row.targetId = some target

variable (edge : Edge) (source target : Nat) (row : GraphRelationship)

theorem isRelationship_iff :
    isRelationship context edge source target row = true ↔
      Repeats context edge source target row ∧ containsLike (marker context) row.notes = true := by
  unfold isRelationship Repeats
  simp only [Bool.and_eq_true, beq_iff_eq]
  constructor
  · rintro ⟨⟨⟨⟨org, isSource⟩, isTarget⟩, sameType⟩, marked⟩
    exact ⟨⟨org, sameType, isSource, isTarget⟩, marked⟩
  · rintro ⟨⟨org, sameType, isSource, isTarget⟩, marked⟩
    exact ⟨⟨⟨⟨org, isSource⟩, isTarget⟩, sameType⟩, marked⟩

theorem joins_iff (follows : Follows context db scan session) (issued : EndsIssued db) (edge : Edge)
    (source target : Nat)
    (isEnds : session.ends edge = some (source, target)) (row : GraphRelationship)
    (member : row ∈ db.relationships.rows) :
    joins context db edge row = true ↔ Repeats context edge source target row := by
  obtain ⟨left, right, isLeft, isRight, written⟩ := (ends_eq_some_iff session edge _ _).mp isEnds
  have freshEnd : db.entities.nextKey ≤ left ∨ db.entities.nextKey ≤ right →
      ¬ Repeats context edge source target row := by
    rintro large ⟨-, -, isSource, isTarget⟩
    have small := issued row member source (.inl isSource)
    have otherSmall := issued row member target (.inr isTarget)
    rcases written with ⟨-, rfl, rfl⟩ | ⟨-, rfl, rfl⟩ <;> omega
  unfold joins
  rcases site_of_idOf follows _ left isLeft with leftSite | ⟨key, leftSite, large, -⟩
  · rcases site_of_idOf follows _ right isRight with rightSite | ⟨key, rightSite, large, -⟩
    · rw [leftSite, rightSite]
      unfold Repeats
      simp only [Bool.and_eq_true, Bool.or_eq_true, beq_iff_eq, decide_eq_true_eq,
        Bool.not_eq_true', and_assoc]
      refine and_congr_right fun _ => and_congr_right fun _ => ?_
      rcases written with ⟨sorted, rfl, rfl⟩ | ⟨unsorted, rfl, rfl⟩
      · rcases Nat.le_total left right with ordered | ordered
        · rw [Nat.min_eq_left ordered, Nat.max_eq_right ordered]
          constructor
          · rintro (⟨isSource, isTarget, -⟩ | ⟨-, isSource, isTarget, reversed⟩)
            · exact ⟨isSource, isTarget⟩
            · have same : left = right := Nat.le_antisymm ordered reversed
              subst same
              exact ⟨isSource, isTarget⟩
          · rintro ⟨isSource, isTarget⟩
            exact .inl ⟨isSource, isTarget, .inr ordered⟩
        · rw [Nat.min_eq_right ordered, Nat.max_eq_left ordered]
          constructor
          · rintro (⟨isSource, isTarget, unsorted | reversed⟩ | ⟨-, isSource, isTarget, -⟩)
            · rw [sorted] at unsorted
              cases unsorted
            · have same : left = right := Nat.le_antisymm reversed ordered
              subst same
              exact ⟨isSource, isTarget⟩
            · exact ⟨isSource, isTarget⟩
          · rintro ⟨isSource, isTarget⟩
            exact .inr ⟨sorted, isSource, isTarget, ordered⟩
      · constructor
        · rintro (⟨isSource, isTarget, -⟩ | ⟨sorted, -⟩)
          · exact ⟨isSource, isTarget⟩
          · rw [unsorted] at sorted
            cases sorted
        · rintro ⟨isSource, isTarget⟩
          exact .inl ⟨isSource, isTarget, .inl unsorted⟩
    · rw [leftSite, rightSite]
      simp [freshEnd (.inr large)]
  · rw [leftSite]
    simp [freshEnd (.inl large)]

theorem marked_iff (follows : Follows context db scan session) (issued : EndsIssued db) (edge : Edge)
    (source target : Nat)
    (isEnds : session.ends edge = some (source, target)) (row : GraphRelationship)
    (member : row ∈ db.relationships.rows) :
    (joins context db edge row && containsLike (marker context) row.notes) = true ↔
      isRelationship context edge source target row = true := by
  rw [Bool.and_eq_true, joins_iff follows issued edge source target isEnds row member,
    isRelationship_iff]

/-! ## One action -/

theorem asked_iff (follows : Follows context db scan session) (endpoint : Endpoint) :
    scan.asked endpoint = true ↔ (session.idOf endpoint).isSome = true := by
  cases endpoint with
  | publication id => simp [Scan.asked, Session.idOf]
  | node key => simp [Scan.asked, Session.idOf, follows.asked key]

theorem ends_isSome_iff (follows : Follows context db scan session) (edge : Edge) :
    (scan.asked edge.source && scan.asked edge.target) = true ↔
      (session.ends edge).isSome = true := by
  rw [Bool.and_eq_true, asked_iff follows, asked_iff follows]
  unfold Session.ends
  cases session.idOf edge.source <;> cases session.idOf edge.target <;> simp

theorem startsLike_self (pattern rest : List Char) : startsLike pattern (pattern ++ rest) = true := by
  induction pattern with
  | nil => simp [startsLike]
  | cons char pattern ih => simp [startsLike, ih]

theorem edgeNotes_marked :
    containsLike (marker context) (some (edgeNotes context edge)) = true := by
  unfold containsLike edgeNotes
  rw [List.any_eq_true]
  refine ⟨(marker context).toList ++ (context.noteRest edge).toList, ?_, startsLike_self _ _⟩
  rw [List.mem_tails]
  refine ⟨"\x7b".toList, ?_⟩
  rw [String.toList_append, String.toList_append, List.append_assoc]

theorem edgeRow_found (source target value : Nat) :
    isRelationship context edge source target
      (relationshipSchema.withKey value (edgeRow context edge source target)) = true := by
  rw [isRelationship_iff]
  exact ⟨⟨rfl, rfl, rfl, rfl⟩, edgeNotes_marked edge⟩

theorem relationshipKey_edgeRow :
    relationshipKey (edgeRow context edge source target) =
      some (context.orgId, source, target, edge.relationType) := rfl

theorem clash_edgeRow_iff :
    relationshipClash (edgeRow context edge source target) row = true ↔
      Repeats context edge source target row := by
  unfold relationshipClash
  rw [relationshipKey_edgeRow, Option.isSome_some, Bool.true_and, beq_iff_eq]
  unfold relationshipKey Repeats
  constructor
  · intro same
    split at same
    · rename_i isSource isTarget isType
      simp only [Option.some.injEq, Prod.mk.injEq] at same
      obtain ⟨org, rfl, rfl, rfl⟩ := same
      exact ⟨org.symm, isType, isSource, isTarget⟩
    · cases same
  · rintro ⟨org, isType, isSource, isTarget⟩
    rw [isSource, isTarget, isType, org]

theorem ends_kept {after : Session} (ends : Nat × Nat)
    (kept : ∀ key id, session.held.lookup key = some id → after.held.lookup key = some id)
    (isEnds : session.ends edge = some ends) : after.ends edge = some ends := by
  have same : ∀ endpoint id, session.idOf endpoint = some id → after.idOf endpoint = some id := by
    intro endpoint id found
    cases endpoint with
    | publication publication => exact found
    | node key => exact kept key id found
  obtain ⟨source, target⟩ := ends
  obtain ⟨left, right, isLeft, isRight, written⟩ := (ends_eq_some_iff session edge _ _).mp isEnds
  exact (ends_eq_some_iff after edge _ _).mpr
    ⟨left, right, same _ left isLeft, same _ right isRight, written⟩

section

variable (follows : Follows context db scan session)

include follows

theorem lookup_hold (key : NodeKey) (row : RawEntity) (entities : EntityTable)
    (member : row ∈ entities.rows) (isRow : isNode context key row = true)
    (kept : ∀ stored ∈ session.entities.rows, stored ∈ entities.rows) (other : NodeKey) (id : Nat)
    (found : session.held.lookup other = some id) :
    ((key, row.id) :: session.held).lookup other = some id := by
  by_cases same : other = key
  · subst same
    obtain ⟨stored, storedMember, rfl, isStored⟩ := follows.held other id found
    have one : stored = row :=
      eq_of_isNode context entities (kept stored storedMember) member isStored isRow
    rw [one, List.lookup_cons_self]
  · rw [List.lookup_cons, beq_eq_false_iff_ne.mpr same]
    exact found

theorem follows_hold (key : NodeKey) (row : RawEntity) (entities : EntityTable) (count : Nat)
    (member : row ∈ entities.rows) (isRow : isNode context key row = true)
    (kept : ∀ stored ∈ session.entities.rows, stored ∈ entities.rows)
    (grown : session.entities.nextKey ≤ entities.nextKey)
    (derived : ∀ stored ∈ entities.rows, stored ∈ session.entities.rows ∨
      db.entities.nextKey ≤ stored.id ∧ isNode context key stored = true) :
    Follows context db { scan with demanded := key :: scan.demanded }
      { session with
        entities := entities
        held := (key, row.id) :: session.held
        nodesCreated := count } := by
  have lookups := lookup_hold follows key row entities member isRow kept
  refine
    { kept := fun stored inside => kept stored (follows.kept stored inside)
      grown := Nat.le_trans follows.grown grown
      derived := ?_
      held := ?_
      asked := ?_
      edgesKept := follows.edgesKept
      edgesDerived := follows.edgesDerived
      issued := fun stored inside id named =>
        Nat.lt_of_lt_of_le (follows.issued stored inside id named) grown
      apart := follows.apart
      free := follows.free
      pending := ?_
      known := follows.known
      waiting := ?_
      drawn := ?_ }
  · intro stored inside
    rcases derived stored inside with old | ⟨large, isStored⟩
    · rcases follows.derived stored old with first | ⟨large, other, demanded, isOther⟩
      · exact .inl first
      · exact .inr ⟨large, other, List.mem_cons_of_mem key demanded, isOther⟩
    · exact .inr ⟨large, key, List.mem_cons_self, isStored⟩
  · intro other id found
    by_cases same : other = key
    · subst same
      rw [List.lookup_cons_self] at found
      exact ⟨row, member, Option.some.inj found, isRow⟩
    · rw [List.lookup_cons, beq_eq_false_iff_ne.mpr same] at found
      obtain ⟨stored, inside, isId, isStored⟩ := follows.held other id found
      exact ⟨stored, kept stored inside, isId, isStored⟩
  · intro other
    by_cases same : other = key
    · subst same
      simp
    · rw [List.mem_cons, List.lookup_cons, beq_eq_false_iff_ne.mpr same, ← follows.asked other]
      simp [same]
  · intro stored inside
    obtain ⟨edge, waits, source, target, isEnds, isRow⟩ := follows.pending stored inside
    exact ⟨edge, waits, source, target, ends_kept edge _ lookups isEnds, isRow⟩
  · intro edge waits
    obtain ⟨source, target, isEnds, written⟩ := follows.waiting edge waits
    exact ⟨source, target, ends_kept edge _ lookups isEnds, written⟩
  · intro edge drawn
    obtain ⟨source, target, isEnds, written⟩ := follows.drawn edge drawn
    exact ⟨source, target, ends_kept edge _ lookups isEnds, written⟩

theorem idOf_lt (endpoint : Endpoint) (id : Nat) (known : Known db endpoint)
    (found : session.idOf endpoint = some id) :
    id < session.entities.nextKey := by
  cases endpoint with
  | publication publication =>
    cases Option.some.inj found
    exact Nat.lt_of_lt_of_le (known id rfl) follows.grown
  | node key =>
    obtain ⟨row, member, rfl, -⟩ := follows.held key id found
    exact entity_id_lt session.entities member

theorem ends_lt (edge : Edge) (source target : Nat) (known : KnownEdge db edge)
    (isEnds : session.ends edge = some (source, target)) :
    source < session.entities.nextKey ∧ target < session.entities.nextKey := by
  obtain ⟨left, right, isLeft, isRight, written⟩ := (ends_eq_some_iff session edge _ _).mp isEnds
  have leftSmall := idOf_lt follows _ left known.1 isLeft
  have rightSmall := idOf_lt follows _ right known.2 isRight
  rcases written with ⟨-, rfl, rfl⟩ | ⟨-, rfl, rfl⟩
  · omega
  · exact ⟨leftSmall, rightSmall⟩

theorem follows_flush :
    ∃ after, session.flush = some after ∧ after.entities = session.entities ∧
      after.held = session.held ∧
      Follows context db ⟨scan.demanded, [], scan.waiting ++ scan.drawn⟩ after := by
  obtain ⟨relationships, inserted, -, kept, traced, stored⟩ :=
    session.relationships.insertAll_of_apart session.pending follows.apart follows.free
  refine ⟨{ session with relationships := relationships, pending := [] }, ?_, rfl, rfl, ?_⟩
  · rw [Session.flush, inserted]
    rfl
  have fresh : ∀ row ∈ session.pending, ∃ edge ∈ scan.waiting, ∃ source target,
      session.ends edge = some (source, target) ∧ row = edgeRow context edge source target :=
    follows.pending
  refine
    { kept := follows.kept
      grown := follows.grown
      derived := follows.derived
      held := follows.held
      asked := follows.asked
      edgesKept := fun row member => kept row (follows.edgesKept row member)
      edgesDerived := ?_
      issued := ?_
      apart := List.Pairwise.nil
      free := fun row member => absurd member List.not_mem_nil
      pending := fun row member => absurd member List.not_mem_nil
      known := ?_
      waiting := fun edge member => absurd member List.not_mem_nil
      drawn := ?_ }
  · intro row member
    rcases traced row member with old | ⟨origin, inside, value, rfl⟩
    · exact follows.edgesDerived row old
    · obtain ⟨edge, -, source, target, -, rfl⟩ := fresh origin inside
      exact .inr (edgeNotes_marked edge)
  · intro row member id named
    rcases traced row member with old | ⟨origin, inside, value, rfl⟩
    · exact follows.issued row old id named
    · obtain ⟨edge, waits, source, target, isEnds, rfl⟩ := fresh origin inside
      have small := ends_lt follows edge source target
        (follows.known edge (List.mem_append_left _ waits)) isEnds
      rcases named with isSource | isTarget
      · cases isSource
        exact small.1
      · cases isTarget
        exact small.2
  · intro edge member
    rw [List.nil_append] at member
    exact follows.known edge member
  · intro edge member
    rcases List.mem_append.mp member with waits | drawn
    · obtain ⟨source, target, isEnds, pending | ⟨row, present, found⟩⟩ := follows.waiting edge waits
      · obtain ⟨value, inside⟩ := stored _ pending
        exact ⟨source, target, isEnds, _, inside, edgeRow_found edge source target value⟩
      · exact ⟨source, target, isEnds, row, kept row present, found⟩
    · obtain ⟨source, target, isEnds, row, present, found⟩ := follows.drawn edge drawn
      exact ⟨source, target, isEnds, row, kept row present, found⟩

theorem missing_iff (key : NodeKey) :
    session.entities.rows.find? (isNode context key) = none ↔
      siteOf context db (.node key) = .fresh key ∧ key ∉ scan.demanded := by
  constructor
  · intro found
    have absent := List.find?_eq_none.mp found
    constructor
    · have unstored : db.entities.rows.find? (isNode context key) = none :=
        List.find?_eq_none.mpr fun row old => absent row (follows.kept row old)
      simp only [siteOf, unstored]
    · intro demanded
      obtain ⟨id, isHeld⟩ := Option.isSome_iff_exists.mp ((follows.asked key).mp demanded)
      obtain ⟨row, member, -, isRow⟩ := follows.held key id isHeld
      exact absent row member isRow
  · rintro ⟨fresh, absent⟩
    refine List.find?_eq_none.mpr fun row member isRow => ?_
    rcases follows.derived row member with old | ⟨-, other, demanded, isOther⟩
    · simp only [siteOf] at fresh
      cases stored : db.entities.rows.find? (isNode context key) with
      | some present => simp [stored] at fresh
      | none => exact List.find?_eq_none.mp stored row old isRow
    · rw [isNode_injective context isRow isOther] at absent
      exact absent demanded

theorem step_node (demand : NodeDemand)
    (own : ∀ row ∈ db.entities.rows, canonicalKey row = some (nodeIndex context demand.key) →
      row.importBatchId = context.batch) :
    ∃ after, session.act context (.node demand) = some after ∧
      Follows context db (scanStep context db scan (.node demand)) after := by
  change ∃ after, session.getOrCreateNode context demand = some after ∧ _
  unfold Session.getOrCreateNode
  have misses := missing_iff follows demand.key
  cases found : session.entities.rows.find? (isNode context demand.key) with
  | some row =>
    have member := List.mem_of_find?_eq_some found
    have isRow : isNode context demand.key row = true := List.find?_some found
    have seen : ¬ (siteOf context db (.node demand.key) = .fresh demand.key ∧
        demand.key ∉ scan.demanded) := by
      rw [← misses, found]
      exact Option.some_ne_none row
    refine ⟨_, rfl, ?_⟩
    rw [scanStep, if_neg seen]
    exact follows_hold follows demand.key row session.entities session.nodesCreated member isRow
      (fun stored inside => inside) (Nat.le_refl _) (fun stored inside => .inl inside)
  | none =>
    have absent : ∀ row ∈ session.entities.rows, isNode context demand.key row ≠ true :=
      List.find?_eq_none.mp found
    have accepted : session.entities.rejects (nodeRow context demand) = false := by
      refine List.any_eq_false.mpr fun row member clashes => ?_
      have sameKey : canonicalKey row = some (nodeIndex context demand.key) := by
        change canonicalClash row (nodeRow context demand) = true at clashes
        unfold canonicalClash at clashes
        rw [Bool.and_eq_true, beq_iff_eq] at clashes
        exact clashes.2
      rcases follows.derived row member with old | ⟨-, other, -, isOther⟩
      · exact absent row member ((isNode_iff context demand.key row).mpr
          ⟨sameKey, own row old sameKey⟩)
      · obtain ⟨otherKey, batch⟩ := (isNode_iff context other row).mp isOther
        exact absent row member ((isNode_iff context demand.key row).mpr ⟨sameKey, batch⟩)
    have isNew : isNode context demand.key
        (session.entities.keyed (nodeRow context demand)) = true :=
      (isNode_iff context demand.key _).mpr ⟨rfl, rfl⟩
    have holding := follows_hold follows demand.key
      (session.entities.keyed (nodeRow context demand))
      (session.entities.append (nodeRow context demand) accepted) (session.nodesCreated + 1)
      ((session.entities.mem_append _ _ accepted).mpr (.inr rfl)) isNew
      (fun stored inside => (session.entities.mem_append _ _ accepted).mpr (.inl inside))
      (Nat.le_succ _) (fun stored inside => by
        rcases (session.entities.mem_append _ _ accepted).mp inside with old | rfl
        · exact .inl old
        · exact .inr ⟨follows.grown, isNew⟩)
    obtain ⟨after, flushed, -, -, follows_after⟩ := follows_flush holding
    refine ⟨after, ?_, ?_⟩
    · dsimp only
      rw [(session.entities.insert_eq_some_iff _ _).mpr ⟨accepted, rfl⟩, Option.bind_some]
      exact flushed
    · rw [scanStep, if_pos (misses.mp found)]
      exact follows_after

end

theorem passesOver_eq_false {edge : Edge} (clear : passesOver context db scan edge = false) :
    (scan.asked edge.source && scan.asked edge.target) = true ∧
      siteOf context db edge.source ≠ siteOf context db edge.target ∧
      (db.relationships.rows.any fun row =>
        joins context db edge row && containsLike (marker context) row.notes) = false ∧
      scan.drawn.any (alike context db edge) = false := by
  unfold passesOver at clear
  simp only [Bool.or_eq_false_iff, Bool.not_eq_false', beq_eq_false_iff_ne] at clear
  exact ⟨clear.1.1.1, clear.1.1.2, clear.1.2, clear.2⟩

theorem createRelationship_passed (follows : Follows context db scan session)
    (issued : EndsIssued db) (edge : Edge) (known : KnownEdge db edge)
    (passed : passesOver context db scan edge = true) :
    session.createRelationship context edge = session := by
  unfold Session.createRelationship
  cases isEnds : session.ends edge with
  | none => rfl
  | some ends =>
    obtain ⟨source, target⟩ := ends
    dsimp only
    by_cases loop : source = target
    · rw [if_pos loop]
    · have asked := (ends_isSome_iff follows edge).mpr (by rw [isEnds]; rfl)
      have found : session.relationships.rows.any
          (isRelationship context edge source target) = true := by
        unfold passesOver at passed
        simp only [asked, Bool.not_true, Bool.false_or, Bool.or_eq_true, beq_iff_eq] at passed
        rcases passed with (isLoop | marked) | drawn
        · exact absurd ((loop_iff follows edge known source target isEnds).mp isLoop) loop
        · obtain ⟨row, member, marked_row⟩ := List.any_eq_true.mp marked
          exact List.any_eq_true.mpr ⟨row, follows.edgesKept row member,
            (marked_iff follows issued edge source target isEnds row member).mp marked_row⟩
        · obtain ⟨other, member, same⟩ := List.any_eq_true.mp drawn
          obtain ⟨otherSource, otherTarget, otherEnds, row, stored, isRow⟩ :=
            follows.drawn other member
          obtain ⟨sameType, sameEnds⟩ := (alike_iff follows edge other known
            (follows.known other (List.mem_append_right _ member)) _ _ isEnds otherEnds).mp same
          cases sameEnds
          refine List.any_eq_true.mpr ⟨row, stored, ?_⟩
          unfold isRelationship at isRow ⊢
          rw [sameType]
          exact isRow
      rw [if_neg loop, if_pos found]

theorem ends_of_drawn (follows : Follows context db scan session) (edge : Edge)
    (known : KnownEdge db edge) (drawn : passesOver context db scan edge = false) :
    ∃ source target, session.ends edge = some (source, target) ∧ source ≠ target := by
  obtain ⟨asked, notLoop, -, -⟩ := passesOver_eq_false drawn
  obtain ⟨⟨source, target⟩, isEnds⟩ :=
    Option.isSome_iff_exists.mp ((ends_isSome_iff follows edge).mp asked)
  exact ⟨source, target, isEnds, fun same =>
    notLoop ((loop_iff follows edge known source target isEnds).mpr same)⟩

theorem follows_draw (follows : Follows context db scan session) (issued : EndsIssued db)
    (edge : Edge) (known : KnownEdge db edge)
    (drawn : passesOver context db scan edge = false)
    (alone : scan.waiting.any (alike context db edge) = false)
    (unclaimed : db.relationships.rows.any (joins context db edge) = false) :
    Follows context db { scan with waiting := edge :: scan.waiting }
      (session.createRelationship context edge) := by
  obtain ⟨source, target, isEnds, differ⟩ := ends_of_drawn follows edge known drawn
  have knownAll : ∀ other ∈ edge :: scan.waiting ++ scan.drawn, KnownEdge db other := by
    intro other member
    rcases List.mem_cons.mp member with rfl | member
    · exact known
    · exact follows.known other member
  unfold Session.createRelationship
  rw [isEnds]
  dsimp only
  rw [if_neg differ]
  cases present : session.relationships.rows.any (isRelationship context edge source target) with
  | true =>
    rw [if_pos rfl]
    obtain ⟨row, member, isRow⟩ := List.any_eq_true.mp present
    exact
      { follows with
        pending := fun stored inside => by
          obtain ⟨other, waits, rest⟩ := follows.pending stored inside
          exact ⟨other, List.mem_cons_of_mem edge waits, rest⟩
        known := knownAll
        waiting := fun other waits => by
          rcases List.mem_cons.mp waits with rfl | waits
          · exact ⟨source, target, isEnds, .inr ⟨row, member, isRow⟩⟩
          · exact follows.waiting other waits }
  | false =>
    rw [if_neg Bool.false_ne_true]
    have unstored : ∀ stored ∈ session.relationships.rows,
        ¬ Repeats context edge source target stored := by
      intro stored member repeats
      rcases follows.edgesDerived stored member with old | marked
      · have joined := (joins_iff follows issued edge source target isEnds stored old).mpr repeats
        rw [List.any_eq_false] at unclaimed
        exact unclaimed stored old joined
      · rw [List.any_eq_false] at present
        exact present stored member ((isRelationship_iff edge source target stored).mpr
          ⟨repeats, marked⟩)
    have unwaited : ∀ row ∈ session.pending,
        relationshipClash row (edgeRow context edge source target) = false := by
      intro row member
      obtain ⟨other, waits, otherSource, otherTarget, otherEnds, rfl⟩ :=
        follows.pending row member
      rw [Bool.eq_false_iff]
      intro clashes
      obtain ⟨-, sameType, sameSource, sameTarget⟩ := (clash_edgeRow_iff _ _ _ _).mp clashes
      cases Option.some.inj sameSource
      cases Option.some.inj sameTarget
      have same := (alike_iff follows edge other known
        (follows.known other (List.mem_append_left _ waits)) _ _ isEnds otherEnds).mpr
          ⟨Option.some.inj sameType, rfl⟩
      rw [List.any_eq_false] at alone
      exact alone other waits same
    exact
      { follows with
        apart := by
          rw [List.pairwise_append]
          refine ⟨follows.apart, List.pairwise_singleton _ _, fun row member new newMember => ?_⟩
          rw [List.mem_singleton.mp newMember]
          exact unwaited row member
        free := fun row member stored storedMember => by
          rcases List.mem_append.mp member with old | new
          · exact follows.free row old stored storedMember
          · rw [List.mem_singleton.mp new, Bool.eq_false_iff]
            intro clashes
            exact unstored stored storedMember ((clash_edgeRow_iff _ _ _ _).mp clashes)
        pending := fun row member => by
          rcases List.mem_append.mp member with old | new
          · obtain ⟨other, waits, rest⟩ := follows.pending row old
            exact ⟨other, List.mem_cons_of_mem edge waits, rest⟩
          · exact ⟨edge, List.mem_cons_self, source, target, isEnds, List.mem_singleton.mp new⟩
        known := knownAll
        waiting := fun other waits => by
          rcases List.mem_cons.mp waits with rfl | waits
          · exact ⟨source, target, isEnds, .inl (List.mem_append_right _ List.mem_cons_self)⟩
          · obtain ⟨otherSource, otherTarget, otherEnds, written⟩ := follows.waiting other waits
            exact ⟨otherSource, otherTarget, otherEnds,
              written.imp_left fun inside => List.mem_append_left _ inside⟩ }

theorem step_relate (follows : Follows context db scan session) (issued : EndsIssued db)
    (edge : Edge) (known : KnownEdge db edge)
    (clear : passesOver context db scan edge = false →
      scan.waiting.any (alike context db edge) = false ∧
        db.relationships.rows.any (joins context db edge) = false) :
    Follows context db (scanStep context db scan (.relate edge))
      (session.createRelationship context edge) := by
  rw [scanStep]
  cases passed : passesOver context db scan edge with
  | true =>
    rw [if_pos rfl, createRelationship_passed follows issued edge known passed]
    exact follows
  | false =>
    obtain ⟨alone, unclaimed⟩ := clear passed
    rw [if_neg Bool.false_ne_true]
    exact follows_draw follows issued edge known passed alone unclaimed

/-! ## A whole batch -/

def scanAll (context : BatchContext) (db : GraphDb) : Scan → List Action → Scan
  | scan, [] => scan
  | scan, action :: rest => scanAll context db (scanStep context db scan action) rest

theorem run_follows (follows : Follows context db scan session) (issued : EndsIssued db)
    (actions : List Action) (own : NodesOwn context db actions)
    (grounded : ∀ edge, Action.relate edge ∈ actions → KnownEdge db edge)
    (apart : EdgesApart context db scan actions) :
    ∃ after, session.run context actions = some after ∧
      Follows context db (scanAll context db scan actions) after := by
  induction actions generalizing scan session with
  | nil => exact ⟨session, rfl, follows⟩
  | cons action rest ih =>
    obtain ⟨here, later⟩ := apart
    obtain ⟨middle, acted, reached⟩ : ∃ middle, session.act context action = some middle ∧
        Follows context db (scanStep context db scan action) middle := by
      cases action with
      | node demand => exact step_node follows demand (own demand List.mem_cons_self)
      | relate edge =>
        exact ⟨_, rfl, step_relate follows issued edge (grounded edge List.mem_cons_self)
          (here edge rfl)⟩
    obtain ⟨after, ran, follows_after⟩ := ih reached
      (fun demand member => own demand (List.mem_cons_of_mem action member))
      (fun edge member => grounded edge (List.mem_cons_of_mem action member)) later
    refine ⟨after, ?_, follows_after⟩
    rw [Session.run, acted, Option.bind_some]
    exact ran

theorem begin_follows (issued : EndsIssued db) : Follows context db ⟨[], [], []⟩ (begin db) where
  kept := fun _ member => member
  grown := Nat.le_refl _
  derived := fun _ member => .inl member
  held := nofun
  asked := fun key => by simp [begin]
  edgesKept := fun _ member => member
  edgesDerived := fun _ member => .inl member
  issued := issued
  apart := List.Pairwise.nil
  free := fun row member => absurd member List.not_mem_nil
  pending := fun row member => absurd member List.not_mem_nil
  known := fun edge member => absurd member List.not_mem_nil
  waiting := fun edge member => absurd member List.not_mem_nil
  drawn := fun edge member => absurd member List.not_mem_nil

end Following

/-! ## Runs of batches -/

theorem mem_demanded (scan : Scan) (actions : List Action) (demand : NodeDemand)
    (asked : demand.key ∈ scan.demanded ∨ Action.node demand ∈ actions) :
    demand.key ∈ (scanAll context db scan actions).demanded := by
  induction actions generalizing scan with
  | nil => exact asked.resolve_right List.not_mem_nil
  | cons action rest ih =>
    refine ih (scanStep context db scan action) ?_
    rcases asked with before | here
    · left
      cases action with
      | node other =>
        rw [scanStep]
        split
        · exact List.mem_cons_of_mem _ before
        · exact List.mem_cons_of_mem _ before
      | relate edge =>
        rw [scanStep]
        split
        · exact before
        · exact before
    · rcases List.mem_cons.mp here with rfl | later
      · left
        rw [scanStep]
        split
        · exact List.mem_cons_self
        · exact List.mem_cons_self
      · exact .inr later

variable (session after : Session)

theorem flush_entities (flushed : session.flush = some after) :
    after.entities = session.entities := by
  obtain ⟨relationships, -, rfl⟩ := Option.map_eq_some_iff.mp flushed
  rfl

theorem act_kept (action : Action) (acted : session.act context action = some after) :
    ∀ row ∈ session.entities.rows, row ∈ after.entities.rows := by
  intro row member
  cases action with
  | relate edge =>
    cases Option.some.inj acted
    unfold Session.createRelationship
    split
    · exact member
    · split
      · exact member
      · split <;> exact member
  | node demand =>
    change session.getOrCreateNode context demand = some after at acted
    unfold Session.getOrCreateNode at acted
    split at acted
    · cases Option.some.inj acted
      exact member
    · obtain ⟨entities, inserted, flushed⟩ := Option.bind_eq_some_iff.mp acted
      rw [flush_entities _ after flushed]
      obtain ⟨accepted, rfl⟩ := (session.entities.insert_eq_some_iff _ _).mp inserted
      exact (session.entities.mem_append _ _ accepted).mpr (.inl member)

theorem run_kept (actions : List Action) (ran : session.run context actions = some after) :
    ∀ row ∈ session.entities.rows, row ∈ after.entities.rows := by
  induction actions generalizing session with
  | nil =>
    cases Option.some.inj ran
    exact fun row member => member
  | cons action rest ih =>
    obtain ⟨middle, acted, rest_ran⟩ := Option.bind_eq_some_iff.mp ran
    intro row member
    exact ih middle rest_ran row (act_kept context session middle action acted row member)

theorem materialize_kept :
    ∀ row ∈ db.entities.rows, row ∈ (materialize context db).1.entities.rows := by
  unfold materialize
  cases ran : ((begin db).run context (planOf context db)).bind Session.flush with
  | none => exact fun row member => member
  | some session =>
    obtain ⟨middle, middle_ran, flushed⟩ := Option.bind_eq_some_iff.mp ran
    intro row member
    dsimp only
    rw [flush_entities middle session flushed]
    exact run_kept context (begin db) middle (planOf context db) middle_ran row member

theorem planOf_known (edge : Edge) (member : Action.relate edge ∈ planOf context db) :
    KnownEdge db edge := by
  have stored : ∀ id ∈ (publicationsOf context db).map RawEntity.id, id < db.entities.nextKey := by
    intro id listed
    obtain ⟨row, inside, rfl⟩ := List.mem_map.mp listed
    have filtered := (context.listing.perm _).mem_iff.mp inside
    exact entity_id_lt db.entities (List.mem_filter.mp filtered).1
  have grounded := grounded_plan context.python (publicationsOf context db) _ member edge rfl
  exact ⟨fun id is => stored id (grounded id (.inl is)),
    fun id is => stored id (grounded id (.inr is))⟩

theorem materialize_unobstructed (issued : EndsIssued db) (clear : Unobstructed context db) :
    (materialize context db).2.isSome = true ∧ EndsIssued (materialize context db).1 ∧
      ∀ demand, Action.node demand ∈ planOf context db →
        ∃ row ∈ (materialize context db).1.entities.rows,
          isNode context demand.key row = true := by
  obtain ⟨middle, ran, follows⟩ := run_follows (begin_follows issued) issued
    (planOf context db) clear.1 (planOf_known context db) clear.2
  obtain ⟨after, flushed, sameEntities, sameHeld, follows_after⟩ := follows_flush follows
  have result : ((begin db).run context (planOf context db)).bind Session.flush = some after := by
    rw [ran, Option.bind_some, flushed]
  unfold materialize
  rw [result]
  refine ⟨rfl, follows_after.issued, fun demand member => ?_⟩
  have demanded := mem_demanded context db ⟨[], [], []⟩ (planOf context db) demand
    (.inr member)
  obtain ⟨id, isHeld⟩ := Option.isSome_iff_exists.mp
    ((follows_after.asked demand.key).mp demanded)
  obtain ⟨row, inside, -, isRow⟩ := follows_after.held demand.key id isHeld
  exact ⟨row, inside, isRow⟩

/-- An import stores a publication; then, in any order, batches are materialized. -/
inductive GraphEvent where
  | importRow (row : RawEntity)
  | materialize (batchId : Nat)

def forBatch (context : BatchContext) (batchId : Nat) : BatchContext :=
  { context with batchId := batchId }

def step (db : GraphDb) : GraphEvent → GraphDb
  | .importRow row =>
    match db.entities.insert row with
    | some entities => { db with entities := entities }
    | none => db
  | .materialize batchId => (materialize (forBatch context batchId) db).1

def Succeeds (db : GraphDb) : GraphEvent → Prop
  | .importRow _ => True
  | .materialize batchId => (materialize (forBatch context batchId) db).2.isSome = true

/-- One row of the table has the columns of the node. -/
def OneNode (db : GraphDb) (key : NodeKey) : Prop :=
  ∃ row ∈ db.entities.rows, canonicalKey row = some (nodeIndex context key) ∧
    ∀ other ∈ db.entities.rows, canonicalKey other = some (nodeIndex context key) → other = row

/-- Every batch succeeds, and in the end each node that a batch asked for is there once. -/
def BatchesMaterialized (start : GraphDb) (events : List GraphEvent) : Prop :=
  EveryStep (step context) (Succeeds context) start events ∧
    ∀ front batchId rest, events = front ++ .materialize batchId :: rest →
      ∀ demand, Action.node demand ∈
          planOf (forBatch context batchId) (runEvents (step context) start front) →
        OneNode context (runEvents (step context) start events) demand.key

/-- The condition of one event, in the state that it meets. -/
def UnobstructedEvent (db : GraphDb) : GraphEvent → Prop
  | .importRow _ => True
  | .materialize batchId => Unobstructed (forBatch context batchId) db

theorem step_issued (db : GraphDb) (event : GraphEvent) (issued : EndsIssued db)
    (clear : UnobstructedEvent context db event) : EndsIssued (step context db event) := by
  cases event with
  | importRow row =>
    unfold step
    dsimp only
    cases inserted : db.entities.insert row with
    | none => exact issued
    | some entities =>
      obtain ⟨accepted, rfl⟩ := (db.entities.insert_eq_some_iff _ _).mp inserted
      exact fun stored member id named =>
        Nat.lt_succ_of_lt (issued stored member id named)
  | materialize batchId =>
    exact (materialize_unobstructed (forBatch context batchId) db issued clear).2.1

theorem step_kept (db : GraphDb) (event : GraphEvent) :
    ∀ row ∈ db.entities.rows, row ∈ (step context db event).entities.rows := by
  cases event with
  | importRow row =>
    unfold step
    dsimp only
    cases inserted : db.entities.insert row with
    | none => exact fun stored member => member
    | some entities =>
      obtain ⟨accepted, rfl⟩ := (db.entities.insert_eq_some_iff _ _).mp inserted
      exact fun stored member => (db.entities.mem_append row stored accepted).mpr (.inl member)
  | materialize batchId => exact materialize_kept (forBatch context batchId) db

theorem run_keeps (start : GraphDb) (events : List GraphEvent) :
    ∀ row ∈ start.entities.rows, row ∈ (runEvents (step context) start events).entities.rows :=
  runEvents_related (fun before after => ∀ row ∈ before.entities.rows, row ∈ after.entities.rows)
    (fun _ _ member => member) (fun first second row member => second row (first row member))
    (step_kept context) start events

/-- A run of unobstructed batches materializes all of them, each node once. -/
theorem batches_materialized_of_unobstructed (start : GraphDb) (events : List GraphEvent)
    (issued : EndsIssued start)
    (clear : EveryStep (step context) (UnobstructedEvent context) start events) :
    BatchesMaterialized context start events := by
  refine ⟨?_, ?_⟩
  · refine everyStep_of_guard (step_issued context) (fun db event reached meets => ?_) start events
      issued clear
    cases event with
    | importRow row => trivial
    | materialize batchId =>
      exact (materialize_unobstructed (forBatch context batchId) db reached meets).1
  · rintro front batchId rest rfl demand member
    obtain ⟨frontClear, here, -⟩ := (everyStep_append start front _).mp clear
    have frontIssued := everyState_of_guard (step_issued context) start front issued frontClear
    have reached : EndsIssued (runEvents (step context) start front) :=
      ((everyState_iff_front start front).mp frontIssued) front [] (List.append_nil front).symm
    obtain ⟨-, -, present⟩ := materialize_unobstructed (forBatch context batchId) _ reached here
    obtain ⟨row, stored, isRow⟩ := present demand member
    have isIndex := ((isNode_iff (forBatch context batchId) demand.key row).mp isRow).1
    have final : row ∈ (runEvents (step context) start
        (front ++ .materialize batchId :: rest)).entities.rows := by
      rw [runEvents_append, runEvents]
      exact run_keeps context _ rest row stored
    exact ⟨row, final, isIndex, fun other inside sameIndex =>
      eq_of_index _ inside final sameIndex isIndex⟩

/-! ## Two imports -/

def journalText (title : String) : String := "\x7b\"journal\": \"" ++ title ++ "\"\x7d"

def asciiPython : GraphPython where
  loads := fun text =>
    (["Nature", "Science"].find? fun title => text == journalText title).map fun title =>
      .object [("journal", .text title)]
  shown := fun _ => ""
  casefold := fun text => text.map Char.toLower
  lower := fun text => text.map Char.toLower
  upper := fun text => text.map Char.toUpper

def journalContext : BatchContext where
  python := asciiPython
  orgId := some 1
  batchId := 0
  listing := ⟨id, fun _ => .refl _⟩
  nodeAttrs := fun _ _ => "\x7b\x7d"
  noteRest := fun _ => "\x7d"
  scaled := fun part whole => min 10 (part * 10 / whole)

def article (batchId : Nat) (title : String) : RawEntity where
  id := 0
  orgId := some 1
  domain := some "science"
  entityType := some "publication"
  primaryLabel := some "Article"
  attributesJson := some (journalText title)
  validationStatus := some "pending"
  enrichmentCitationCount := some "0"
  enrichmentStatus := some "none"
  source := some "user"
  importBatchId := some (toString batchId)

def emptyGraph : GraphDb := ⟨SerialTable.empty _, SerialTable.empty _⟩

theorem emptyGraph_issued : EndsIssued emptyGraph := fun _ member =>
  absurd member List.not_mem_nil

def twoImports (firstTitle secondTitle : String) : List GraphEvent :=
  [.importRow (article 1 firstTitle), .materialize 1, .importRow (article 2 secondTitle),
    .materialize 2]

instance (db : GraphDb) (event : GraphEvent) : Decidable (Succeeds journalContext db event) :=
  match event with
  | .importRow _ => inferInstanceAs (Decidable True)
  | .materialize _ => inferInstanceAs (Decidable (_ = true))

instance (db : GraphDb) (event : GraphEvent) :
    Decidable (UnobstructedEvent journalContext db event) :=
  match event with
  | .importRow _ => inferInstanceAs (Decidable True)
  | .materialize _ => inferInstanceAs (Decidable (Unobstructed _ db))

/-- Batches that share nothing. -/
theorem distinct_journals_materialized :
    BatchesMaterialized journalContext emptyGraph (twoImports "Nature" "Science") :=
  batches_materialized_of_unobstructed journalContext emptyGraph (twoImports "Nature" "Science")
    emptyGraph_issued (by decide +kernel)

/-- Two batches with one journal: the second cannot store its node. -/
theorem shared_journal_fails :
    ¬ BatchesMaterialized journalContext emptyGraph (twoImports "Nature" "Nature") := by
  rintro ⟨succeed, -⟩
  revert succeed
  decide +kernel

end Ukip.Graph.Batches
