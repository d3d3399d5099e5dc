import Ukip.Graph.Batches

/-!
# What a batch's graph holds

A graph is read off the tables by the names of the code: which labels a node key has, and
which weight an edge between two ends.  A call that goes through keeps all that is there and
adds, for each key and each pair of ends that has nothing yet, the first that its plan asks
for.
-/

namespace Ukip.Graph.Content

open Analytics.Corpus Entities.Table Plan Materializer Batches

/-- `primary_label` and `secondary_label` -/
abbrev Labels := Option String × Option String

variable (context : BatchContext) (db : GraphDb)

def labelsAt (key : NodeKey) : Option Labels :=
  (db.entities.rows.find? (isNode context key)).map fun row => (row.primaryLabel, row.secondaryLabel)

/-- The row that `_relationship_exists` looks for. -/
def isEdge (edge : Edge) (row : GraphRelationship) : Bool :=
  joins context db edge row && containsLike (marker context) row.notes

def weightAt (edge : Edge) : Option Rat :=
  (db.relationships.rows.find? (isEdge context db edge)).map GraphRelationship.weight

def labelsIn (actions : List Action) (key : NodeKey) : Option Labels :=
  ((nodesOf actions).find? fun demand => demand.key == key).map fun demand =>
    (some demand.primaryLabel, demand.secondaryLabel)

def isAsked (asked : List NodeKey) : Endpoint → Bool
  | .publication _ => true
  | .node key => asked.contains key

def offered : List NodeKey → List Action → List Edge
  | _, [] => []
  | asked, .node demand :: rest => offered (demand.key :: asked) rest
  | asked, .relate edge :: rest =>
    if isAsked asked edge.source && isAsked asked edge.target then
      edge :: offered asked rest
    else offered asked rest

def mayDraw (edge other : Edge) : Bool :=
  siteOf context db other.source != siteOf context db other.target && alike context db edge other

def weightIn (actions : List Action) (edge : Edge) : Option Rat :=
  ((offered [] actions).find? (mayDraw context db edge)).map fun other =>
    context.weightOf other.weight

def sessionDb (session : Session) : GraphDb := ⟨session.entities, session.relationships⟩

variable {context db} {session after : Session}

theorem createRelationship_entities (session : Session) (edge : Edge) :
    (session.createRelationship context edge).entities = session.entities := by
  unfold Session.createRelationship
  split
  · rfl
  · split
    · rfl
    · split <;> rfl

variable (action : Action)

theorem act_cases (acted : session.act context action = some after) :
    (∃ edge, action = .relate edge ∧ after = session.createRelationship context edge) ∨
      (∃ demand row, action = .node demand ∧
        session.entities.rows.find? (isNode context demand.key) = some row ∧
        after = { session with held := (demand.key, row.id) :: session.held }) ∨
      ∃ demand accepted relationships, action = .node demand ∧
        session.entities.rows.find? (isNode context demand.key) = none ∧
        session.relationships.insertAll session.pending = some relationships ∧
        after =
          { entities := session.entities.append (nodeRow context demand) accepted
            relationships := relationships
            pending := []
            held := (demand.key, session.entities.nextKey) :: session.held
            nodesCreated := session.nodesCreated + 1
            relationshipsCreated := session.relationshipsCreated } := by
  cases action with
  | relate edge => exact .inl ⟨edge, rfl, (Option.some.inj acted).symm⟩
  | node demand =>
    right
    change session.getOrCreateNode context demand = some after at acted
    unfold Session.getOrCreateNode at acted
    split at acted
    · next row found => exact .inl ⟨demand, row, rfl, found, (Option.some.inj acted).symm⟩
    · next missing =>
        obtain ⟨entities, inserted, flushed⟩ := Option.bind_eq_some_iff.mp acted
        obtain ⟨accepted, rfl⟩ := (session.entities.insert_eq_some_iff _ _).mp inserted
        obtain ⟨relationships, stored, rfl⟩ := Option.map_eq_some_iff.mp flushed
        exact .inr ⟨demand, accepted, relationships, rfl, missing, stored, rfl⟩

theorem isNode_keyed (table : EntityTable) (demand : NodeDemand) (key : NodeKey) :
    isNode context key (table.keyed (nodeRow context demand)) = (demand.key == key) := by
  rw [Bool.eq_iff_iff, isNode_iff, beq_iff_eq]
  constructor
  · rintro ⟨index, -⟩
    exact nodeIndex_injective context (Option.some.inj index)
  · rintro rfl
    exact ⟨rfl, rfl⟩

theorem labelsAt_append (demand : NodeDemand)
    (accepted : session.entities.rejects (nodeRow context demand) = false)
    (relationships : RelationshipTable) (key : NodeKey) :
    labelsAt context ⟨session.entities.append (nodeRow context demand) accepted, relationships⟩ key =
      (labelsAt context (sessionDb session) key).or (labelsIn [.node demand] key) := by
  change ((session.entities.rows ++ [session.entities.keyed (nodeRow context demand)]).find?
    (isNode context key)).map _ = _
  rw [List.find?_append, Option.map_or]
  congr 1
  simp only [List.find?_cons, List.find?_nil, isNode_keyed, labelsIn, nodesOf, List.filterMap_cons,
    List.filterMap_nil]
  cases demand.key == key <;> rfl

theorem labelsAt_act (acted : session.act context action = some after) (key : NodeKey) :
    labelsAt context (sessionDb after) key =
      (labelsAt context (sessionDb session) key).or (labelsIn [action] key) := by
  rcases act_cases action acted with ⟨edge, rfl, rfl⟩ | ⟨demand, row, rfl, found, rfl⟩ |
    ⟨demand, accepted, relationships, rfl, -, -, rfl⟩
  · have none : labelsIn [.relate edge] key = none := rfl
    rw [none, Option.or_none, labelsAt, labelsAt, sessionDb, sessionDb,
      createRelationship_entities]
  · change labelsAt context (sessionDb session) key = _
    by_cases same : demand.key = key
    · subst same
      have there : labelsAt context (sessionDb session) demand.key =
          some (row.primaryLabel, row.secondaryLabel) := by
        rw [labelsAt, sessionDb, found, Option.map_some]
      rw [there, Option.some_or]
    · have none : labelsIn [.node demand] key = none := by
        simp [labelsIn, nodesOf, same]
      rw [none, Option.or_none]
  · exact labelsAt_append demand accepted relationships key

theorem labelsIn_cons (rest : List Action) (key : NodeKey) :
    labelsIn (action :: rest) key = (labelsIn [action] key).or (labelsIn rest key) := by
  have split : nodesOf (action :: rest) = nodesOf [action] ++ nodesOf rest := by
    rw [nodesOf, nodesOf, nodesOf, ← List.filterMap_append, List.singleton_append]
  rw [labelsIn, split, List.find?_append, Option.map_or]
  rfl

theorem labelsAt_run (actions : List Action) (ran : session.run context actions = some after)
    (key : NodeKey) :
    labelsAt context (sessionDb after) key =
      (labelsAt context (sessionDb session) key).or (labelsIn actions key) := by
  induction actions generalizing session with
  | nil =>
    rw [← Option.some.inj ran]
    exact (Option.or_none).symm
  | cons action rest ih =>
    obtain ⟨middle, acted, rest_ran⟩ := Option.bind_eq_some_iff.mp ran
    rw [ih rest_ran, labelsAt_act action acted, labelsIn_cons action rest, Option.or_assoc]

/-- The entities are those of before, then derived ones. -/
def Grown (before after : GraphDb) : Prop :=
  before.entities.nextKey ≤ after.entities.nextKey ∧
    ∃ derived, after.entities.rows = before.entities.rows ++ derived ∧
      ∀ row ∈ derived, row.source = some "graph_materializer" ∧
        before.entities.nextKey ≤ row.id

theorem grown_refl (before : GraphDb) : Grown before before :=
  ⟨Nat.le_refl _, [], (List.append_nil _).symm, fun _ member => absurd member List.not_mem_nil⟩

theorem grown_trans {first second third : GraphDb} (earlier : Grown first second)
    (later : Grown second third) : Grown first third := by
  obtain ⟨larger, derived, rows, each⟩ := earlier
  obtain ⟨largest, more, allRows, moreEach⟩ := later
  refine ⟨Nat.le_trans larger largest, derived ++ more, ?_, fun row member => ?_⟩
  · rw [allRows, rows, List.append_assoc]
  · rcases List.mem_append.mp member with old | new
    · exact each row old
    · exact ⟨(moreEach row new).1, Nat.le_trans larger (moreEach row new).2⟩

theorem grown_act (acted : session.act context action = some after) :
    Grown (sessionDb session) (sessionDb after) := by
  rcases act_cases action acted with ⟨edge, rfl, rfl⟩ | ⟨demand, row, rfl, found, rfl⟩ |
    ⟨demand, accepted, relationships, rfl, -, -, rfl⟩
  · unfold Grown sessionDb
    rw [createRelationship_entities]
    exact grown_refl (sessionDb session)
  · exact grown_refl (sessionDb session)
  · refine ⟨Nat.le_succ _, [session.entities.keyed (nodeRow context demand)], rfl,
      fun row member => ?_⟩
    rw [List.mem_singleton.mp member]
    exact ⟨rfl, Nat.le_refl _⟩

theorem grown_run (actions : List Action) (ran : session.run context actions = some after) :
    Grown (sessionDb session) (sessionDb after) := by
  induction actions generalizing session with
  | nil =>
    rw [← Option.some.inj ran]
    exact grown_refl _
  | cons action rest ih =>
    obtain ⟨middle, acted, rest_ran⟩ := Option.bind_eq_some_iff.mp ran
    exact grown_trans (grown_act action acted) (ih rest_ran)

theorem materialize_cases (context : BatchContext) (db : GraphDb) :
    (materialize context db).1 = db ∧ (materialize context db).2 = none ∨
      ∃ middle relationships, (begin db).run context (planOf context db) = some middle ∧
        middle.relationships.insertAll middle.pending = some relationships ∧
        (materialize context db).1 = ⟨middle.entities, relationships⟩ ∧
        (materialize context db).2.isSome = true := by
  unfold materialize
  cases ran : ((begin db).run context (planOf context db)).bind Session.flush with
  | none => exact .inl ⟨rfl, rfl⟩
  | some session =>
    obtain ⟨middle, middle_ran, flushed⟩ := Option.bind_eq_some_iff.mp ran
    obtain ⟨relationships, stored, rfl⟩ := Option.map_eq_some_iff.mp flushed
    exact .inr ⟨middle, relationships, middle_ran, stored, rfl, rfl⟩

theorem grown_materialize (context : BatchContext) (db : GraphDb) :
    Grown db (materialize context db).1 := by
  rcases materialize_cases context db with ⟨same, -⟩ | ⟨middle, relationships, ran, -, result, -⟩
  · rw [same]
    exact grown_refl db
  · rw [result]
    exact grown_run (planOf context db) ran

theorem labelsAt_materialize (context : BatchContext) (db : GraphDb)
    (through : (materialize context db).2.isSome = true) (key : NodeKey) :
    labelsAt context (materialize context db).1 key =
      (labelsAt context db key).or (labelsIn (planOf context db) key) := by
  rcases materialize_cases context db with ⟨-, failed⟩ | ⟨middle, relationships, ran, -, result, -⟩
  · rw [failed] at through
    cases through
  · rw [result]
    exact labelsAt_run (planOf context db) ran key

section Sites

variable {before later : GraphDb}

theorem siteOf_node_injective (context : BatchContext) (db : GraphDb) {first second : NodeKey}
    (same : siteOf context db (.node first) = siteOf context db (.node second)) :
    first = second := by
  simp only [siteOf] at same
  cases isFirst : db.entities.rows.find? (isNode context first) with
  | none =>
    cases isSecond : db.entities.rows.find? (isNode context second) with
    | none => simpa [isFirst, isSecond] using same
    | some row => simp [isFirst, isSecond] at same
  | some row =>
    cases isSecond : db.entities.rows.find? (isNode context second) with
    | none => simp [isFirst, isSecond] at same
    | some other =>
      simp only [isFirst, isSecond, Site.stored.injEq] at same
      have one : row = other := db.entities.eq_of_key_eq (List.mem_of_find?_eq_some isFirst)
        (List.mem_of_find?_eq_some isSecond) same
      subst one
      exact isNode_injective context (List.find?_some isFirst) (List.find?_some isSecond)

theorem siteOf_grown (context : BatchContext) (grown : Grown before later) (key : NodeKey) (id : Nat)
    (small : id < before.entities.nextKey) :
    siteOf context later (.node key) = .stored id ↔ siteOf context before (.node key) = .stored id := by
  obtain ⟨-, derived, rows, each⟩ := grown
  simp only [siteOf]
  rw [rows, List.find?_append]
  cases stored : before.entities.rows.find? (isNode context key) with
  | some row => simp
  | none =>
    cases new : derived.find? (isNode context key) with
    | none => simp
    | some row =>
      have large := (each row (List.mem_of_find?_eq_some new)).2
      simp only [Option.none_or, Site.stored.injEq, reduceCtorEq, iff_false]
      omega

theorem siteOf_eq_grown (context : BatchContext) (grown : Grown before later)
    (first second : Endpoint) (firstKnown : Known before first) (secondKnown : Known before second) :
    siteOf context later first = siteOf context later second ↔
      siteOf context before first = siteOf context before second := by
  cases first with
  | publication id =>
    cases second with
    | publication other => exact Iff.rfl
    | node key =>
      have stored := siteOf_grown context grown key id (firstKnown id rfl)
      exact ⟨fun same => (stored.mp same.symm).symm, fun same => (stored.mpr same.symm).symm⟩
  | node key =>
    cases second with
    | publication id => exact siteOf_grown context grown key id (secondKnown id rfl)
    | node other =>
      constructor
      · intro same
        rw [siteOf_node_injective context later same]
      · intro same
        rw [siteOf_node_injective context before same]

theorem alike_grown (context : BatchContext) (grown : Grown before later) (first second : Edge)
    (firstKnown : KnownEdge before first) (secondKnown : KnownEdge before second) :
    alike context later first second = alike context before first second := by
  rw [Bool.eq_iff_iff]
  unfold alike
  simp only [Bool.and_eq_true, Bool.or_eq_true, beq_iff_eq]
  rw [siteOf_eq_grown context grown _ _ firstKnown.1 secondKnown.1,
    siteOf_eq_grown context grown _ _ firstKnown.2 secondKnown.2,
    siteOf_eq_grown context grown _ _ firstKnown.1 secondKnown.2,
    siteOf_eq_grown context grown _ _ firstKnown.2 secondKnown.1]

theorem mayDraw_grown (context : BatchContext) (grown : Grown before later) (edge other : Edge)
    (edgeKnown : KnownEdge before edge) (otherKnown : KnownEdge before other) :
    mayDraw context later edge other = mayDraw context before edge other := by
  unfold mayDraw
  rw [alike_grown context grown edge other edgeKnown otherKnown, Bool.eq_iff_iff]
  simp only [Bool.and_eq_true, bne_iff_ne, ne_eq]
  rw [siteOf_eq_grown context grown _ _ otherKnown.1 otherKnown.2]

theorem siteOf_stored_grown (context : BatchContext) (grown : Grown before later)
    (endpoint : Endpoint) (id : Nat) (small : id < before.entities.nextKey) :
    siteOf context later endpoint = .stored id ↔ siteOf context before endpoint = .stored id := by
  cases endpoint with
  | publication publication => exact Iff.rfl
  | node key => exact siteOf_grown context grown key id small

end Sites

section Alike

variable (context db)

theorem joins_eq_true_iff (edge : Edge) (row : GraphRelationship) :
    joins context db edge row = true ↔
      row.orgId = context.orgId ∧ row.relationType = some edge.relationType ∧
        ∃ source target, siteOf context db edge.source = .stored source ∧
          siteOf context db edge.target = .stored target ∧
          (isSorted edge.relationType = true ∧ row.sourceId = some (min source target) ∧
              row.targetId = some (max source target) ∨
            isSorted edge.relationType = false ∧ row.sourceId = some source ∧
              row.targetId = some target) := by
  unfold joins
  simp only [Bool.and_eq_true, beq_iff_eq, and_assoc]
  refine and_congr_right fun _ => and_congr_right fun _ => ?_
  cases siteOf context db edge.source with
  | fresh key => simp
  | stored source =>
    cases siteOf context db edge.target with
    | fresh key => simp
    | stored target =>
      simp only [Site.stored.injEq, Bool.or_eq_true, Bool.and_eq_true, beq_iff_eq,
        Bool.not_eq_true', decide_eq_true_eq, exists_and_left, exists_eq_left']
      cases isSorted edge.relationType with
      | false => simp
      | true =>
        rcases Nat.le_total source target with ordered | ordered
        · simp only [Nat.min_eq_left ordered, Nat.max_eq_right ordered]
          grind
        · simp only [Nat.min_eq_right ordered, Nat.max_eq_left ordered]
          grind

theorem clash_of_joins {edge : Edge} {first second : GraphRelationship}
    (firstJoins : joins context db edge first = true)
    (secondJoins : joins context db edge second = true) :
    relationshipClash first second = true := by
  obtain ⟨org, isType, source, target, isSource, isTarget, written⟩ :=
    (joins_eq_true_iff context db edge first).mp firstJoins
  obtain ⟨otherOrg, otherType, otherSource, otherTarget, isOther, isOtherTarget, otherWritten⟩ :=
    (joins_eq_true_iff context db edge second).mp secondJoins
  rw [isSource, Site.stored.injEq] at isOther
  rw [isTarget, Site.stored.injEq] at isOtherTarget
  subst isOther isOtherTarget
  unfold relationshipClash relationshipKey
  rcases written with ⟨sorted, left, right⟩ | ⟨unsorted, left, right⟩
  · rcases otherWritten with ⟨-, otherLeft, otherRight⟩ | ⟨unsorted, -, -⟩
    · simp [left, right, otherLeft, otherRight, org, otherOrg, isType, otherType]
    · rw [sorted] at unsorted
      cases unsorted
  · rcases otherWritten with ⟨sorted, -, -⟩ | ⟨-, otherLeft, otherRight⟩
    · rw [unsorted] at sorted
      cases sorted
    · simp [left, right, otherLeft, otherRight, org, otherOrg, isType, otherType]

theorem alike_eq_true_iff (first second : Edge) :
    alike context db first second = true ↔
      first.relationType = second.relationType ∧
        (siteOf context db first.source = siteOf context db second.source ∧
            siteOf context db first.target = siteOf context db second.target ∨
          isSorted first.relationType = true ∧
            siteOf context db first.source = siteOf context db second.target ∧
            siteOf context db first.target = siteOf context db second.source) := by
  unfold alike
  simp only [Bool.and_eq_true, Bool.or_eq_true, beq_iff_eq, and_assoc]

variable {first second : Edge}

theorem alike_symm (same : alike context db first second = true) :
    alike context db second first = true := by
  rw [alike_eq_true_iff] at same ⊢
  obtain ⟨sameType, ends | ⟨sorted, ends⟩⟩ := same
  · exact ⟨sameType.symm, .inl ⟨ends.1.symm, ends.2.symm⟩⟩
  · rw [sameType] at sorted
    exact ⟨sameType.symm, .inr ⟨sorted, ends.2.symm, ends.1.symm⟩⟩

theorem alike_trans {first second third : Edge} (left : alike context db first second = true)
    (right : alike context db second third = true) : alike context db first third = true := by
  rw [alike_eq_true_iff] at left right ⊢
  obtain ⟨leftType, left⟩ := left
  obtain ⟨rightType, right⟩ := right
  rw [← leftType] at right
  refine ⟨leftType.trans rightType, ?_⟩
  rcases left with ⟨source, target⟩ | ⟨sorted, source, target⟩ <;>
    rcases right with ⟨nextSource, nextTarget⟩ | ⟨also, nextSource, nextTarget⟩
  · exact .inl ⟨source.trans nextSource, target.trans nextTarget⟩
  · exact .inr ⟨also, source.trans nextSource, target.trans nextTarget⟩
  · exact .inr ⟨sorted, source.trans nextTarget, target.trans nextSource⟩
  · exact .inl ⟨source.trans nextTarget, target.trans nextSource⟩

theorem alike_left_congr (same : alike context db first second = true) (other : Edge) :
    alike context db first other = alike context db second other := by
  rw [Bool.eq_iff_iff]
  exact ⟨alike_trans context db (alike_symm context db same), alike_trans context db same⟩

theorem joins_congr (same : alike context db first second = true) (row : GraphRelationship) :
    joins context db first row = joins context db second row := by
  rw [Bool.eq_iff_iff, joins_eq_true_iff, joins_eq_true_iff]
  obtain ⟨sameType, ⟨source, target⟩ | ⟨sorted, source, target⟩⟩ :=
    (alike_eq_true_iff context db first second).mp same
  · rw [sameType, source, target]
  · rw [← sameType, source, target, sorted]
    simp only [true_and, reduceCtorEq, false_and, or_false]
    refine and_congr_right fun _ => and_congr_right fun _ => ?_
    constructor
    · rintro ⟨left, right, isLeft, isRight, written⟩
      exact ⟨right, left, isRight, isLeft, by rwa [Nat.min_comm, Nat.max_comm]⟩
    · rintro ⟨left, right, isLeft, isRight, written⟩
      exact ⟨right, left, isRight, isLeft, by rwa [Nat.min_comm, Nat.max_comm]⟩

theorem joins_grown {before later : GraphDb} (grown : Grown before later)
    (issued : EndsIssued before) (edge : Edge) (row : GraphRelationship)
    (member : row ∈ before.relationships.rows) :
    joins context later edge row = joins context before edge row := by
  rw [Bool.eq_iff_iff, joins_eq_true_iff, joins_eq_true_iff]
  refine and_congr_right fun _ => and_congr_right fun _ => ?_
  refine exists_congr fun source => exists_congr fun target => ?_
  have small : (isSorted edge.relationType = true ∧ row.sourceId = some (min source target) ∧
        row.targetId = some (max source target) ∨
      isSorted edge.relationType = false ∧ row.sourceId = some source ∧
        row.targetId = some target) →
      source < before.entities.nextKey ∧ target < before.entities.nextKey := by
    rintro (⟨-, isSource, isTarget⟩ | ⟨-, isSource, isTarget⟩)
    · have left := issued row member _ (.inl isSource)
      have right := issued row member _ (.inr isTarget)
      omega
    · exact ⟨issued row member _ (.inl isSource), issued row member _ (.inr isTarget)⟩
  constructor
  · rintro ⟨isSource, isTarget, written⟩
    obtain ⟨left, right⟩ := small written
    exact ⟨(siteOf_stored_grown context grown _ _ left).mp isSource,
      (siteOf_stored_grown context grown _ _ right).mp isTarget, written⟩
  · rintro ⟨isSource, isTarget, written⟩
    obtain ⟨left, right⟩ := small written
    exact ⟨(siteOf_stored_grown context grown _ _ left).mpr isSource,
      (siteOf_stored_grown context grown _ _ right).mpr isTarget, written⟩

end Alike

def edgesOf (scan : Scan) : List Edge := scan.waiting ++ scan.drawn

section Scan

variable (context db) (scan : Scan)

theorem asked_eq (endpoint : Endpoint) :
    scan.asked endpoint = isAsked scan.demanded endpoint := by
  cases endpoint <;> rfl

theorem find?_passed (edge other : Edge) (rest : List Edge)
    (unjoined : db.relationships.rows.any (isEdge context db edge) = false)
    (asked : (scan.asked other.source && scan.asked other.target) = true)
    (passed : passesOver context db scan other = true) :
    ((edgesOf scan).find? (alike context db edge)).or
        ((other :: rest).find? (mayDraw context db edge)) =
      ((edgesOf scan).find? (alike context db edge)).or (rest.find? (mayDraw context db edge)) := by
  cases draws : mayDraw context db edge other with
  | false => rw [List.find?_cons_of_neg (by rw [draws]; exact Bool.false_ne_true)]
  | true =>
    unfold mayDraw at draws
    rw [Bool.and_eq_true, bne_iff_ne] at draws
    obtain ⟨apart, same⟩ := draws
    unfold passesOver at passed
    simp only [asked, Bool.not_true, Bool.false_or, Bool.or_eq_true, beq_iff_eq] at passed
    rcases passed with (loop | marked) | drawn
    · exact absurd loop apart
    · obtain ⟨row, member, isRow⟩ := List.any_eq_true.mp marked
      rw [← joins_congr context db same row] at isRow
      rw [List.any_eq_false] at unjoined
      exact absurd isRow (unjoined row member)
    · obtain ⟨drawnEdge, member, isDrawn⟩ := List.any_eq_true.mp drawn
      have found : ((edgesOf scan).find? (alike context db edge)).isSome = true := by
        rw [List.find?_isSome]
        exact ⟨drawnEdge, List.mem_append_right _ member, alike_trans context db same isDrawn⟩
      obtain ⟨first, isFirst⟩ := Option.isSome_iff_exists.mp found
      rw [isFirst, Option.some_or, Option.some_or]

theorem find?_drawn (edge other : Edge) (rest : List Edge)
    (clear : passesOver context db scan other = false)
    (alone : scan.waiting.any (alike context db other) = false) :
    (other :: edgesOf scan).find? (alike context db edge) =
      ((edgesOf scan).find? (alike context db edge)).or
        (([other].find? (mayDraw context db edge))) ∧
    (other :: rest).find? (mayDraw context db edge) =
      ([other].find? (mayDraw context db edge)).or (rest.find? (mayDraw context db edge)) := by
  obtain ⟨-, apart, -, undrawn⟩ := passesOver_eq_false clear
  have isAlike : mayDraw context db edge other = alike context db edge other := by
    rw [mayDraw, bne_iff_ne.mpr apart, Bool.true_and]
  refine ⟨?_, ?_⟩
  · simp only [List.find?_cons, List.find?_nil, isAlike]
    cases same : alike context db edge other with
    | false => rw [Option.or_none]
    | true =>
      have none : (edgesOf scan).find? (alike context db edge) = none := by
        rw [List.find?_eq_none]
        intro drawn member isDrawn
        have both := alike_trans context db (alike_symm context db same) isDrawn
        rw [List.any_eq_false] at alone undrawn
        rcases List.mem_append.mp member with waits | before
        · exact alone drawn waits both
        · exact undrawn drawn before both
      rw [none, Option.none_or]
  · simp only [List.find?_cons, List.find?_nil]
    cases mayDraw context db edge other <;> rfl

theorem find?_scanAll (edge : Edge)
    (unjoined : db.relationships.rows.any (isEdge context db edge) = false) (scan : Scan)
    (actions : List Action) (apart : EdgesApart context db scan actions) :
    (edgesOf (scanAll context db scan actions)).find? (alike context db edge) =
      ((edgesOf scan).find? (alike context db edge)).or
        ((offered scan.demanded actions).find? (mayDraw context db edge)) := by
  induction actions generalizing scan with
  | nil => exact (Option.or_none).symm
  | cons action rest ih =>
    obtain ⟨here, later⟩ := apart
    rw [scanAll, ih _ later]
    cases action with
    | node demand =>
      rw [scanStep, offered]
      split
      · rfl
      · rfl
    | relate other =>
      rw [offered, ← asked_eq, ← asked_eq]
      cases passed : passesOver context db scan other with
      | true =>
        rw [scanStep, if_pos passed]
        cases asked : scan.asked other.source && scan.asked other.target with
        | false => rw [if_neg Bool.false_ne_true]
        | true =>
          rw [if_pos rfl]
          exact (find?_passed context db scan edge other _ unjoined asked passed).symm
      | false =>
        obtain ⟨asked, -⟩ := passesOver_eq_false passed
        obtain ⟨first, second⟩ := find?_drawn context db scan edge other
          (offered scan.demanded rest) passed (here other rfl passed).1
        rw [scanStep, if_neg (by rw [passed]; exact Bool.false_ne_true), if_pos asked, second,
          ← Option.or_assoc, ← first]
        rfl

end Scan

/-- The row that an edge was written as, under whatever id. -/
def Writes (context : BatchContext) (session : Session) (edge : Edge) (row : GraphRelationship) :
    Prop :=
  ∃ source target value, session.ends edge = some (source, target) ∧
    row = relationshipSchema.withKey value (edgeRow context edge source target)

/-- Which rows the actions that the scan has seen left in the session. -/
structure Traces (context : BatchContext) (db : GraphDb) (scan : Scan) (session : Session) :
    Prop where
  stored : ∀ row ∈ session.relationships.rows, row ∈ db.relationships.rows ∨
    ∃ edge ∈ scan.drawn, Writes context session edge row
  written : ∀ edge ∈ scan.drawn, ∃ row ∈ session.relationships.rows,
    Writes context session edge row
  waits : ∀ edge ∈ scan.waiting, ∃ row ∈ session.pending, Writes context session edge row

section Traces

variable {scan : Scan}

theorem traces_begin (context : BatchContext) (db : GraphDb) :
    Traces context db ⟨[], [], []⟩ (begin db) where
  stored := fun _ member => .inl member
  written := fun _ member => absurd member List.not_mem_nil
  waits := fun _ member => absurd member List.not_mem_nil

theorem traces_hold {middle : Session} (traces : Traces context db scan session)
    (demanded : List NodeKey) (sameRows : middle.relationships = session.relationships)
    (samePending : middle.pending = session.pending)
    (kept : ∀ key id, session.held.lookup key = some id → middle.held.lookup key = some id) :
    Traces context db { scan with demanded := demanded } middle := by
  have writes : ∀ edge row, Writes context session edge row → Writes context middle edge row := by
    rintro edge row ⟨source, target, value, isEnds, isRow⟩
    exact ⟨source, target, value, ends_kept edge _ kept isEnds, isRow⟩
  constructor
  · intro row member
    rw [sameRows] at member
    exact (traces.stored row member).imp_right fun ⟨edge, drawn, isRow⟩ =>
      ⟨edge, drawn, writes edge row isRow⟩
  · intro edge drawn
    obtain ⟨row, member, isRow⟩ := traces.written edge drawn
    exact ⟨row, by rw [sameRows]; exact member, writes edge row isRow⟩
  · intro edge waiting
    obtain ⟨row, member, isRow⟩ := traces.waits edge waiting
    exact ⟨row, by rw [samePending]; exact member, writes edge row isRow⟩

section

variable (follows : Follows context db scan session)

include follows

section

variable (traces : Traces context db scan session)

include traces

theorem traces_flush (relationships : RelationshipTable)
    (inserted : session.relationships.insertAll session.pending = some relationships) :
    Traces context db ⟨scan.demanded, [], scan.waiting ++ scan.drawn⟩
      { session with relationships := relationships, pending := [] } := by
  obtain ⟨table, isTable, -, kept, traced, allStored⟩ :=
    session.relationships.insertAll_of_apart session.pending follows.apart follows.free
  rw [inserted] at isTable
  cases Option.some.inj isTable
  constructor
  · intro row member
    rcases traced row member with old | ⟨origin, inside, value, rfl⟩
    · exact (traces.stored row old).imp_right fun ⟨edge, drawn, isRow⟩ =>
        ⟨edge, List.mem_append_right _ drawn, isRow⟩
    · obtain ⟨edge, waits, source, target, isEnds, rfl⟩ := follows.pending origin inside
      exact .inr ⟨edge, List.mem_append_left _ waits, source, target, value, isEnds, rfl⟩
  · intro edge member
    rcases List.mem_append.mp member with waits | drawn
    · obtain ⟨row, pending, source, target, value, isEnds, rfl⟩ := traces.waits edge waits
      obtain ⟨newValue, present⟩ := allStored _ pending
      exact ⟨_, present, source, target, newValue, isEnds, rfl⟩
    · obtain ⟨row, present, isRow⟩ := traces.written edge drawn
      exact ⟨row, kept row present, isRow⟩
  · intro edge waits
    cases waits

theorem traces_node (demand : NodeDemand)
    (acted : session.act context (.node demand) = some after) :
    Traces context db (scanStep context db scan (.node demand)) after := by
  have misses := missing_iff follows demand.key
  rcases act_cases (.node demand) acted with ⟨edge, isEdge, -⟩ | ⟨other, row, isNode, found, rfl⟩ |
    ⟨other, accepted, relationships, isNode, missing, inserted, rfl⟩
  · cases isEdge
  · cases isNode
    rw [scanStep, if_neg (by rw [← misses, found]; exact Option.some_ne_none row)]
    exact traces_hold traces _ rfl rfl fun key id => lookup_hold follows demand.key row
      session.entities (List.mem_of_find?_eq_some found) (List.find?_some found)
      (fun _ member => member) key id
  · cases isNode
    rw [scanStep, if_pos (misses.mp missing)]
    have isNew : isNode context demand.key (session.entities.keyed (nodeRow context demand)) = true :=
      (isNode_keyed session.entities demand demand.key).trans (beq_self_eq_true demand.key)
    refine traces_hold (traces_flush follows traces relationships inserted) _ rfl rfl
      fun key id => lookup_hold follows demand.key
        (session.entities.keyed (nodeRow context demand))
        (session.entities.append (nodeRow context demand) accepted)
        ((session.entities.mem_append _ _ accepted).mpr (.inr rfl)) isNew
        (fun stored inside => (session.entities.mem_append _ _ accepted).mpr (.inl inside)) key id

theorem createRelationship_drawn (issued : EndsIssued db) (edge : Edge) (known : KnownEdge db edge)
    (drawn : passesOver context db scan edge = false) :
    ∃ source target, session.ends edge = some (source, target) ∧
      session.createRelationship context edge =
        { session with
          pending := session.pending ++ [edgeRow context edge source target]
          relationshipsCreated := session.relationshipsCreated + 1 } := by
  obtain ⟨-, -, unmarked, undrawn⟩ := passesOver_eq_false drawn
  obtain ⟨source, target, isEnds, differ⟩ := ends_of_drawn follows edge known drawn
  have absent : session.relationships.rows.any (isRelationship context edge source target) =
      false := by
    rw [List.any_eq_false] at unmarked undrawn ⊢
    intro row member isRow
    rcases traces.stored row member with old | ⟨other, isDrawn, otherSource, otherTarget, value,
      otherEnds, rfl⟩
    · exact unmarked row old
        ((marked_iff follows issued edge source target isEnds row old).mpr isRow)
    · obtain ⟨⟨-, sameType, sameSource, sameTarget⟩, -⟩ := (isRelationship_iff _ _ _ _).mp isRow
      cases Option.some.inj sameSource
      cases Option.some.inj sameTarget
      have same := (alike_iff follows edge other known
        (follows.known other (List.mem_append_right _ isDrawn)) _ _ isEnds otherEnds).mpr
          ⟨(Option.some.inj sameType).symm, rfl⟩
      exact undrawn other isDrawn same
  refine ⟨source, target, isEnds, ?_⟩
  unfold Session.createRelationship
  rw [isEnds]
  dsimp only
  rw [if_neg differ, absent, if_neg Bool.false_ne_true]

theorem traces_relate (issued : EndsIssued db) (edge : Edge) (known : KnownEdge db edge) :
    Traces context db (scanStep context db scan (.relate edge))
      (session.createRelationship context edge) := by
  rw [scanStep]
  cases passed : passesOver context db scan edge with
  | true =>
    rw [if_pos rfl, createRelationship_passed follows issued edge known passed]
    exact traces
  | false =>
    obtain ⟨source, target, isEnds, created⟩ :=
      createRelationship_drawn follows traces issued edge known passed
    rw [if_neg Bool.false_ne_true, created]
    constructor
    · exact traces.stored
    · exact traces.written
    · intro other waits
      rcases List.mem_cons.mp waits with rfl | waits
      · exact ⟨_, List.mem_append_right _ List.mem_cons_self, source, target, 0, isEnds, rfl⟩
      · obtain ⟨row, member, isRow⟩ := traces.waits other waits
        exact ⟨row, List.mem_append_left _ member, isRow⟩

theorem run_traces (issued : EndsIssued db) (actions : List Action)
    (own : NodesOwn context db actions)
    (grounded : ∀ edge, Action.relate edge ∈ actions → KnownEdge db edge)
    (apart : EdgesApart context db scan actions) (ran : session.run context actions = some after) :
    Follows context db (scanAll context db scan actions) after ∧
      Traces context db (scanAll context db scan actions) after := by
  induction actions generalizing scan session with
  | nil =>
    rw [← Option.some.inj ran]
    exact ⟨follows, traces⟩
  | cons action rest ih =>
    obtain ⟨here, later⟩ := apart
    obtain ⟨middle, acted, rest_ran⟩ := Option.bind_eq_some_iff.mp ran
    have reached : Follows context db (scanStep context db scan action) middle ∧
        Traces context db (scanStep context db scan action) middle := by
      cases action with
      | node demand =>
        obtain ⟨_, also, follows_middle⟩ :=
          step_node follows demand (own demand List.mem_cons_self)
        rw [acted] at also
        cases Option.some.inj also
        exact ⟨follows_middle, traces_node follows traces demand acted⟩
      | relate edge =>
        have known := grounded edge List.mem_cons_self
        cases Option.some.inj acted
        exact ⟨step_relate follows issued edge known (here edge rfl),
          traces_relate follows traces issued edge known⟩
    exact ih reached.1 reached.2
      (fun demand member => own demand (List.mem_cons_of_mem action member))
      (fun edge member => grounded edge (List.mem_cons_of_mem action member)) later rest_ran

end

end

end Traces

variable {row : GraphRelationship}

theorem weightAt_eq_some {edge : Edge} (member : row ∈ db.relationships.rows)
    (isRow : isEdge context db edge row = true) : weightAt context db edge = some row.weight := by
  unfold weightAt
  cases found : db.relationships.rows.find? (isEdge context db edge) with
  | none => exact absurd isRow (List.find?_eq_none.mp found row member)
  | some other =>
    have isOther := List.find?_some found
    rw [isEdge, Bool.and_eq_true] at isRow isOther
    rw [db.relationships.eq_of_clash (List.mem_of_find?_eq_some found) member
      (clash_of_joins context db isOther.1 isRow.1), Option.map_some]

theorem weightAt_eq_none_iff (edge : Edge) :
    weightAt context db edge = none ↔
      ∀ row ∈ db.relationships.rows, isEdge context db edge row = false := by
  simp [weightAt]

theorem alike_of_joins {first second : Edge} (firstJoins : joins context db first row = true)
    (secondJoins : joins context db second row = true) : alike context db first second = true := by
  obtain ⟨-, isType, source, target, isSource, isTarget, written⟩ :=
    (joins_eq_true_iff context db first row).mp firstJoins
  obtain ⟨-, otherType, otherSource, otherTarget, isOther, isOtherTarget, otherWritten⟩ :=
    (joins_eq_true_iff context db second row).mp secondJoins
  have sameType : first.relationType = second.relationType := by
    rw [isType] at otherType
    exact Option.some.inj otherType
  rw [alike_eq_true_iff, isSource, isTarget, isOther, isOtherTarget]
  simp only [Site.stored.injEq]
  refine ⟨sameType, ?_⟩
  rw [← sameType] at otherWritten
  rcases written with ⟨sorted, left, right⟩ | ⟨unsorted, left, right⟩
  · rcases otherWritten with ⟨-, otherLeft, otherRight⟩ | ⟨unsorted, -, -⟩
    · rw [left, Option.some.injEq] at otherLeft
      rw [right, Option.some.injEq] at otherRight
      have ends : source = otherSource ∧ target = otherTarget ∨
          source = otherTarget ∧ target = otherSource := by omega
      exact ends.imp_right fun swapped => ⟨sorted, swapped⟩
    · rw [sorted] at unsorted
      cases unsorted
  · rcases otherWritten with ⟨sorted, -, -⟩ | ⟨-, otherLeft, otherRight⟩
    · rw [unsorted] at sorted
      cases sorted
    · rw [left, Option.some.injEq] at otherLeft
      rw [right, Option.some.injEq] at otherRight
      exact .inl ⟨otherLeft, otherRight⟩

section After

variable {scan : Scan}

theorem siteOf_of_idOf (follows : Follows context db scan session) (endpoint : Endpoint) (id : Nat)
    (found : session.idOf endpoint = some id) :
    siteOf context (sessionDb session) endpoint = .stored id := by
  cases endpoint with
  | publication publication =>
    cases Option.some.inj found
    rfl
  | node key =>
    obtain ⟨row, member, rfl, isRow⟩ := follows.held key id found
    simp only [siteOf]
    cases stored : (sessionDb session).entities.rows.find? (isNode context key) with
    | none => exact absurd isRow (List.find?_eq_none.mp stored row member)
    | some other =>
      rw [eq_of_isNode context session.entities (List.mem_of_find?_eq_some stored) member
        (List.find?_some stored) isRow]

theorem isEdge_of_writes (follows : Follows context db scan session) (edge : Edge)
    (row : GraphRelationship) (writes : Writes context session edge row) :
    isEdge context (sessionDb session) edge row = true := by
  obtain ⟨source, target, value, isEnds, rfl⟩ := writes
  obtain ⟨left, right, isLeft, isRight, written⟩ := (ends_eq_some_iff session edge _ _).mp isEnds
  rw [isEdge, Bool.and_eq_true, joins_eq_true_iff]
  refine ⟨⟨rfl, rfl, left, right, siteOf_of_idOf follows _ left isLeft,
    siteOf_of_idOf follows _ right isRight, ?_⟩, edgeNotes_marked edge⟩
  rcases written with ⟨sorted, rfl, rfl⟩ | ⟨unsorted, rfl, rfl⟩
  · exact .inl ⟨sorted, rfl, rfl⟩
  · exact .inr ⟨unsorted, rfl, rfl⟩

theorem weight_of_writes {edge : Edge} (writes : Writes context session edge row) :
    row.weight = context.weightOf edge.weight := by
  obtain ⟨source, target, value, -, rfl⟩ := writes
  rfl

theorem weightAt_of_traces (follows : Follows context db scan session)
    (traces : Traces context db scan session) (issued : EndsIssued db)
    (grown : Grown db (sessionDb session)) (edge : Edge) (known : KnownEdge db edge) :
    weightAt context (sessionDb session) edge =
      (weightAt context db edge).or
        ((scan.drawn.find? (alike context db edge)).map fun other =>
          context.weightOf other.weight) := by
  have drawnKnown : ∀ other ∈ scan.drawn, KnownEdge db other := fun other member =>
    follows.known other (List.mem_append_right _ member)
  have kept : ∀ row ∈ db.relationships.rows,
      isEdge context (sessionDb session) edge row = isEdge context db edge row := by
    intro row member
    rw [isEdge, isEdge, joins_grown context grown issued edge row member]
  cases before : weightAt context db edge with
  | some weight =>
    obtain ⟨row, found, rfl⟩ := Option.map_eq_some_iff.mp before
    have member := List.mem_of_find?_eq_some found
    rw [Option.some_or, weightAt_eq_some (follows.edgesKept row member)
      (by rw [kept row member]; exact List.find?_some found)]
  | none =>
    rw [Option.none_or]
    cases drawn : scan.drawn.find? (alike context db edge) with
    | some other =>
      have member := List.mem_of_find?_eq_some drawn
      obtain ⟨row, stored, writes⟩ := traces.written other member
      have isOther := isEdge_of_writes follows other row writes
      have same : alike context (sessionDb session) edge other = true := by
        rw [alike_grown context grown edge other known (drawnKnown other member)]
        exact List.find?_some drawn
      rw [isEdge, ← joins_congr context _ same row] at isOther
      rw [weightAt_eq_some stored isOther, weight_of_writes writes, Option.map_some]
    | none =>
      rw [Option.map_none, weightAt_eq_none_iff]
      intro row member
      rw [Bool.eq_false_iff]
      intro isRow
      rcases traces.stored row member with old | ⟨other, isDrawn, writes⟩
      · rw [kept row old, (weightAt_eq_none_iff edge).mp before row old] at isRow
        cases isRow
      · have isOther := isEdge_of_writes follows other row writes
        rw [isEdge, Bool.and_eq_true] at isRow isOther
        have same := alike_of_joins isRow.1 isOther.1
        rw [alike_grown context grown edge other known (drawnKnown other isDrawn)] at same
        exact List.find?_eq_none.mp drawn other isDrawn same

end After

theorem weightAt_materialize (context : BatchContext) (db : GraphDb) (issued : EndsIssued db)
    (clear : Unobstructed context db) (edge : Edge) (known : KnownEdge db edge) :
    weightAt context (materialize context db).1 edge =
      (weightAt context db edge).or (weightIn context db (planOf context db) edge) := by
  have through := (materialize_unobstructed context db issued clear).1
  rcases materialize_cases context db with ⟨-, failed⟩ |
    ⟨middle, relationships, ran, inserted, result, -⟩
  · rw [failed] at through
    cases through
  · obtain ⟨follows, traces⟩ := run_traces (begin_follows issued) (traces_begin context db) issued
      (planOf context db) clear.1 (planOf_known context db) clear.2 ran
    obtain ⟨flushed, isFlush, -, -, follows_flushed⟩ := follows_flush follows
    rw [Session.flush, inserted, Option.map_some] at isFlush
    cases Option.some.inj isFlush
    have grown := grown_run (planOf context db) ran
    rw [result]
    refine (weightAt_of_traces follows_flushed (traces_flush follows traces relationships inserted)
      issued grown edge known).trans ?_
    cases before : weightAt context db edge with
    | some weight => rw [Option.some_or, Option.some_or]
    | none =>
      have unjoined : db.relationships.rows.any (isEdge context db edge) = false := by
        rw [List.any_eq_false]
        intro row member
        rw [(weightAt_eq_none_iff edge).mp before row member]
        exact Bool.false_ne_true
      have found := find?_scanAll context db edge unjoined ⟨[], [], []⟩ (planOf context db) clear.2
      rw [weightIn, Option.none_or, Option.none_or]
      exact congrArg _ found

end Ukip.Graph.Content
