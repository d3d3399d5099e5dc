import Ukip.Foundation.Filling
import Ukip.Graph.Content

/-!
# Materializing after each enrichment

The worker materializes a batch again after each of its publications is enriched.  Nodes and
edges once stored are neither removed nor rewritten, so the graph shows what the first call
asked for, where a single call at the end shows what the last state asks for.
-/

namespace Ukip.Graph.Increments

open Foundation.EventRun Foundation.Filling Foundation.Relational Analytics.Corpus Entities.Table
open Plan Materializer Batches Content

/-- The columns that `enrich_single_record` writes where a provider answered. -/
structure Enrichment where
  publication : Nat
  doi : Option String
  citationCount : Option String
  workType : Option String
  concepts : Option String
  source : String
  /-- Where the journal's metrics were found. -/
  issnL : Option String
  attributesJson : Option String

def Enrichment.columns (enrichment : Enrichment) (row : RawEntity) : RawEntity :=
  { row with
    enrichmentDoi := enrichment.doi
    enrichmentCitationCount := enrichment.citationCount
    enrichmentWorkType := enrichment.workType
    enrichmentConcepts := enrichment.concepts
    enrichmentSource := some enrichment.source
    enrichmentStatus := some "completed"
    enrichmentIssnL := enrichment.issnL.or row.enrichmentIssnL
    attributesJson := enrichment.attributesJson }

def Enrichment.clause (enrichment : Enrichment) : SetClause entitySchema where
  apply := enrichment.columns
  key_apply := fun _ => rfl
  clash_apply := fun _ _ => rfl

variable (context : BatchContext)

def isPublication (row : RawEntity) : Bool :=
  row.orgId == context.orgId && row.importBatchId == context.batch &&
    match row.source with
    | some source => source != "graph_materializer"
    | none => false

def Enrichment.meets (enrichment : Enrichment) (row : RawEntity) : Bool :=
  row.id == enrichment.publication && isPublication context row

def enrich (db : GraphDb) (enrichment : Enrichment) : GraphDb :=
  { db with entities := db.entities.updateWhere (enrichment.meets context) enrichment.clause }

def enrichAll (db : GraphDb) (group : List Enrichment) : GraphDb := group.foldl (enrich context) db

def step (db : GraphDb) (group : List Enrichment) : GraphDb :=
  (materialize context (enrichAll context db group)).1

def incremental (start : GraphDb) (groups : List (List Enrichment)) : GraphDb :=
  runEvents (step context) start groups

def atOnce (start : GraphDb) (groups : List (List Enrichment)) : GraphDb :=
  step context start groups.flatten

/-- The same nodes under the same labels, and the same edges with the same weights between
nodes and entities that were there at the start. -/
structure SameGraph (start first second : GraphDb) : Prop where
  nodes : ∀ key, labelsAt context first key = labelsAt context second key
  edges : ∀ edge, KnownEdge start edge → weightAt context first edge = weightAt context second edge

/-- The call after the group meets no integrity error. -/
def Unhindered (db : GraphDb) (group : List Enrichment) : Prop :=
  Unobstructed context (enrichAll context db group)

/-- What the call after the group adds, the last state asks for alike. -/
def AsksAs (start last db : GraphDb) (group : List Enrichment) : Prop :=
  (∀ demand ∈ nodesOf (planOf context (enrichAll context db group)),
    labelsAt context db demand.key = none →
      labelsIn (planOf context last) demand.key =
        labelsIn (planOf context (enrichAll context db group)) demand.key) ∧
  ∀ edge ∈ offered [] (planOf context (enrichAll context db group)),
    weightAt context db edge = none →
      ∀ weight ∈ weightIn context start (planOf context (enrichAll context db group)) edge,
        weightIn context start (planOf context last) edge = some weight

section Enrich

variable {context} {db : GraphDb}

variable (enrichment : Enrichment) (key : NodeKey)

theorem onRow_isNode (row : RawEntity) :
    isNode context key (enrichment.clause.onRow (enrichment.meets context) row) =
      isNode context key row := by
  unfold SetClause.onRow
  split <;> rfl

theorem find?_enrich :
    (enrich context db enrichment).entities.rows.find? (isNode context key) =
      (db.entities.rows.find? (isNode context key)).map
        (enrichment.clause.onRow (enrichment.meets context)) := by
  change (db.entities.rows.map _).find? _ = _
  rw [List.find?_map]
  congr 2
  funext row
  exact onRow_isNode enrichment key row

theorem labelsAt_enrich :
    labelsAt context (enrich context db enrichment) key = labelsAt context db key := by
  rw [labelsAt, labelsAt, find?_enrich, Option.map_map]
  congr 1
  funext row
  simp only [Function.comp_apply, SetClause.onRow]
  split <;> rfl

theorem siteOf_enrich (endpoint : Endpoint) :
    siteOf context (enrich context db enrichment) endpoint = siteOf context db endpoint := by
  cases endpoint with
  | publication id => rfl
  | node key =>
    simp only [siteOf]
    rw [find?_enrich]
    cases db.entities.rows.find? (isNode context key) with
    | none => rfl
    | some row =>
      have sameId := enrichment.clause.key_onRow (enrichment.meets context) row
      exact congrArg Site.stored sameId

theorem joins_enrich (edge : Edge) (row : GraphRelationship) :
    joins context (enrich context db enrichment) edge row = joins context db edge row := by
  unfold joins
  rw [siteOf_enrich, siteOf_enrich]

theorem weightAt_enrich (edge : Edge) :
    weightAt context (enrich context db enrichment) edge = weightAt context db edge := by
  have sameEdge : isEdge context (enrich context db enrichment) edge = isEdge context db edge := by
    funext row
    rw [isEdge, isEdge, joins_enrich]
  unfold weightAt
  rw [sameEdge]
  rfl

theorem enrichAll_view {View : Type} (view : GraphDb → View) (group : List Enrichment)
    (same : ∀ db enrichment, view (enrich context db enrichment) = view db) :
    view (enrichAll context db group) = view db := by
  unfold enrichAll
  induction group generalizing db with
  | nil => rfl
  | cons enrichment rest ih => exact ih.trans (same db enrichment)

variable (group : List Enrichment)

theorem labelsAt_enrichAll (key : NodeKey) :
    labelsAt context (enrichAll context db group) key = labelsAt context db key :=
  enrichAll_view (fun other => labelsAt context other key) group
    fun _ enrichment => labelsAt_enrich enrichment key

theorem weightAt_enrichAll (edge : Edge) :
    weightAt context (enrichAll context db group) edge = weightAt context db edge :=
  enrichAll_view (fun other => weightAt context other edge) group
    fun _ enrichment => weightAt_enrich enrichment edge

theorem siteOf_enrichAll (endpoint : Endpoint) :
    siteOf context (enrichAll context db group) endpoint = siteOf context db endpoint :=
  enrichAll_view (fun other => siteOf context other endpoint) group
    fun _ enrichment => siteOf_enrich enrichment endpoint

theorem nextKey_enrichAll : (enrichAll context db group).entities.nextKey = db.entities.nextKey :=
  enrichAll_view (fun other => other.entities.nextKey) group fun _ _ => rfl

theorem relationships_enrichAll : (enrichAll context db group).relationships = db.relationships :=
  enrichAll_view (fun other => other.relationships) group fun _ _ => rfl

theorem mayDraw_enrichAll (edge other : Edge) :
    mayDraw context (enrichAll context db group) edge other = mayDraw context db edge other := by
  unfold mayDraw alike
  simp only [siteOf_enrichAll]

theorem enrichAll_append (first second : List Enrichment) :
    enrichAll context db (first ++ second) = enrichAll context (enrichAll context db first) second :=
  List.foldl_append

theorem issued_enrichAll (issued : EndsIssued db) (group : List Enrichment) :
    EndsIssued (enrichAll context db group) := by
  intro row member id named
  rw [relationships_enrichAll] at member
  rw [nextKey_enrichAll]
  exact issued row member id named

theorem knownEdge_enrichAll (edge : Edge) :
    KnownEdge (enrichAll context db group) edge ↔ KnownEdge db edge := by
  unfold KnownEdge Known
  rw [nextKey_enrichAll]

end Enrich

section Beside

variable {context} {written db : GraphDb}

theorem isPublication_derived (row : RawEntity) (derived : row.source = some "graph_materializer") :
    isPublication context row = false := by
  unfold isPublication
  rw [derived]
  simp

theorem grown_enrich (grown : Grown written db) (enrichment : Enrichment) :
    Grown (enrich context written enrichment) (enrich context db enrichment) := by
  obtain ⟨larger, derived, rows, each⟩ := grown
  refine ⟨larger, derived, ?_, each⟩
  change db.entities.rows.map _ = written.entities.rows.map _ ++ derived
  rw [rows, List.map_append]
  congr 1
  refine (List.map_congr_left fun row member => ?_).trans (List.map_id _)
  rw [SetClause.onRow, if_neg]
  · rfl
  · rw [Enrichment.meets, isPublication_derived row (each row member).1, Bool.and_false]
    exact Bool.false_ne_true

theorem grown_enrichAll (grown : Grown written db) (group : List Enrichment) :
    Grown (enrichAll context written group) (enrichAll context db group) := by
  unfold enrichAll
  induction group generalizing written db with
  | nil => exact grown
  | cons enrichment rest ih => exact ih (grown_enrich grown enrichment)

theorem planOf_grown (grown : Grown written db) : planOf context db = planOf context written := by
  obtain ⟨-, derived, rows, each⟩ := grown
  have samePublications : publicationsOf context db = publicationsOf context written := by
    change context.listing.visit (db.entities.rows.filter (isPublication context)) =
      context.listing.visit (written.entities.rows.filter (isPublication context))
    have none : derived.filter (isPublication context) = [] := by
      refine List.filter_eq_nil_iff.mpr fun row member => ?_
      rw [isPublication_derived row (each row member).1]
      exact Bool.false_ne_true
    rw [rows, List.filter_append, none, List.append_nil]
  rw [planOf, planOf, samePublications]

theorem grown_step (grown : Grown written db) (group : List Enrichment) :
    Grown (enrichAll context written group) (step context db group) :=
  grown_trans (grown_enrichAll grown group) (grown_materialize context _)

theorem grown_incremental (grown : Grown written db) (groups : List (List Enrichment)) :
    Grown (enrichAll context written groups.flatten) (runEvents (step context) db groups) := by
  induction groups generalizing written db with
  | nil => exact grown
  | cons group rest ih =>
    rw [List.flatten_cons, enrichAll_append, runEvents]
    exact ih (grown_step grown group)

end Beside

/-- The start with some enrichments, then derived rows. -/
def Reached (start db : GraphDb) : Prop := ∃ group, Grown (enrichAll context start group) db

section Layers

variable {context} {start db : GraphDb}

theorem reached_start (start : GraphDb) : Reached context start start :=
  ⟨[], grown_refl start⟩

theorem reached_enrichAll (reached : Reached context start db) (group : List Enrichment) :
    Reached context start (enrichAll context db group) := by
  obtain ⟨before, grown⟩ := reached
  refine ⟨before ++ group, ?_⟩
  rw [enrichAll_append]
  exact grown_enrichAll grown group

theorem reached_step (reached : Reached context start db) (group : List Enrichment) :
    Reached context start (step context db group) := by
  obtain ⟨before, grown⟩ := reached_enrichAll reached group
  exact ⟨before, grown_trans grown (grown_materialize context _)⟩

theorem knownEdge_reached (reached : Reached context start db) {edge : Edge}
    (known : KnownEdge start edge) : KnownEdge db edge := by
  obtain ⟨group, larger, -⟩ := reached
  rw [nextKey_enrichAll] at larger
  exact ⟨fun id is => Nat.lt_of_lt_of_le (known.1 id is) larger,
    fun id is => Nat.lt_of_lt_of_le (known.2 id is) larger⟩

theorem mem_offered (asked : List NodeKey) (actions : List Action) (edge : Edge)
    (member : edge ∈ offered asked actions) : Action.relate edge ∈ actions := by
  induction actions generalizing asked with
  | nil => cases member
  | cons action rest ih =>
    cases action with
    | node demand => exact List.mem_cons_of_mem _ (ih _ member)
    | relate other =>
      rw [offered] at member
      split at member
      · rcases List.mem_cons.mp member with rfl | later
        · exact List.mem_cons_self
        · exact List.mem_cons_of_mem _ (ih _ later)
      · exact List.mem_cons_of_mem _ (ih _ member)

theorem knownEdge_offered (reached : Reached context start db) (edge : Edge)
    (member : edge ∈ offered [] (planOf context db)) : KnownEdge start edge := by
  obtain ⟨group, grown⟩ := reached
  rw [planOf_grown grown] at member
  exact (knownEdge_enrichAll group edge).mp
    (planOf_known context _ edge (mem_offered [] _ edge member))

theorem mayDraw_reached (reached : Reached context start db) (edge other : Edge)
    (edgeKnown : KnownEdge start edge) (otherKnown : KnownEdge start other) :
    mayDraw context db edge other = mayDraw context start edge other := by
  obtain ⟨group, grown⟩ := reached
  rw [mayDraw_grown context grown edge other ((knownEdge_enrichAll group edge).mpr edgeKnown)
    ((knownEdge_enrichAll group other).mpr otherKnown), mayDraw_enrichAll]

theorem find?_congr {Item : Type} (items : List Item) (first second : Item → Bool)
    (same : ∀ item ∈ items, first item = second item) : items.find? first = items.find? second := by
  induction items with
  | nil => rfl
  | cons item rest ih =>
    rw [List.find?_cons, List.find?_cons, same item List.mem_cons_self,
      ih fun other member => same other (List.mem_cons_of_mem item member)]

theorem weightIn_reached (reached : Reached context start db) (edge : Edge)
    (known : KnownEdge start edge) :
    weightIn context db (planOf context db) edge =
      weightIn context start (planOf context db) edge := by
  unfold weightIn
  rw [find?_congr _ _ _ fun other member =>
    mayDraw_reached reached edge other known (knownEdge_offered reached other member)]

def nodeLayer (context : BatchContext) (db : GraphDb) (group : List Enrichment) (key : NodeKey) :
    Option Labels :=
  labelsIn (planOf context (enrichAll context db group)) key

def edgeLayer (context : BatchContext) (start db : GraphDb) (group : List Enrichment)
    (edge : { edge // KnownEdge start edge }) : Option Rat :=
  weightIn context start (planOf context (enrichAll context db group)) edge.1

def edgeView (context : BatchContext) (start db : GraphDb)
    (edge : { edge // KnownEdge start edge }) : Option Rat :=
  weightAt context db edge.1

theorem step_fills_nodes (issued : EndsIssued db) (group : List Enrichment)
    (clear : Unhindered context db group) :
    Fills (step context) (labelsAt context) (nodeLayer context) db group := by
  intro key
  have through := (materialize_unobstructed context _ (issued_enrichAll issued group) clear).1
  rw [step, labelsAt_materialize context _ through, labelsAt_enrichAll, nodeLayer]

theorem step_fills_edges (reached : Reached context start db) (issued : EndsIssued db)
    (group : List Enrichment) (clear : Unhindered context db group) :
    Fills (step context) (edgeView context start) (edgeLayer context start) db group := by
  rintro ⟨edge, known⟩
  have later := reached_enrichAll reached group
  rw [edgeView, step, weightAt_materialize context _ (issued_enrichAll issued group) clear edge
    (knownEdge_reached later known), weightAt_enrichAll, weightIn_reached later edge known]
  rfl

theorem step_issued_group (issued : EndsIssued db) (group : List Enrichment)
    (clear : Unhindered context db group) : EndsIssued (step context db group) :=
  (materialize_unobstructed context _ (issued_enrichAll issued group) clear).2.1

theorem weightIn_congr (actions : List Action) {first second : Edge}
    (same : alike context db first second = true) :
    weightIn context db actions first = weightIn context db actions second := by
  have sameDraws : mayDraw context db first = mayDraw context db second := by
    funext other
    rw [mayDraw, mayDraw, alike_left_congr context db same other]
  rw [weightIn, weightIn, sameDraws]

theorem weightAt_congr {first second : Edge} (same : alike context db first second = true) :
    weightAt context db first = weightAt context db second := by
  have sameRows : isEdge context db first = isEdge context db second := by
    funext row
    rw [isEdge, isEdge, joins_congr context db same row]
  rw [weightAt, weightAt, sameRows]

theorem alike_reached (reached : Reached context start db) (first second : Edge)
    (firstKnown : KnownEdge start first) (secondKnown : KnownEdge start second) :
    alike context db first second = alike context start first second := by
  obtain ⟨group, grown⟩ := reached
  rw [alike_grown context grown first second ((knownEdge_enrichAll group first).mpr firstKnown)
    ((knownEdge_enrichAll group second).mpr secondKnown)]
  unfold alike
  simp only [siteOf_enrichAll]

theorem asksAs_iff (reached : Reached context start db) (last : GraphDb) (group : List Enrichment) :
    AsksAs context start last db group ↔
      FillsAs (labelsAt context) (nodeLayer context) (labelsIn (planOf context last)) db group ∧
        FillsAs (edgeView context start) (edgeLayer context start)
          (fun edge => weightIn context start (planOf context last) edge.1) db group := by
  have later := reached_enrichAll reached group
  refine and_congr ?_ ?_
  · constructor
    · intro each key labels absent offers
      obtain ⟨demand, found, -⟩ := Option.map_eq_some_iff.mp offers
      have isKey : demand.key = key := by simpa using List.find?_some found
      subst isKey
      rw [each demand (List.mem_of_find?_eq_some found) absent]
      exact offers
    · intro fills demand member absent
      have found : ((nodesOf (planOf context (enrichAll context db group))).find?
          fun other => other.key == demand.key).isSome = true := by
        rw [List.find?_isSome]
        exact ⟨demand, member, beq_self_eq_true demand.key⟩
      obtain ⟨first, isFirst⟩ := Option.isSome_iff_exists.mp found
      have offers : labelsIn (planOf context (enrichAll context db group)) demand.key =
          some (some first.primaryLabel, first.secondaryLabel) := by
        rw [labelsIn, isFirst, Option.map_some]
      rw [offers]
      exact fills demand.key _ absent offers
  · constructor
    · rintro each ⟨edge, known⟩ weight absent offers
      obtain ⟨other, found, -⟩ := Option.map_eq_some_iff.mp offers
      have member := List.mem_of_find?_eq_some found
      have otherKnown := knownEdge_offered later other member
      have same : alike context start edge other = true := by
        have draws := List.find?_some found
        rw [mayDraw, Bool.and_eq_true] at draws
        exact draws.2
      have sameHere := (alike_reached reached edge other known otherKnown).trans same
      change weightAt context db edge = none at absent
      change weightIn context start _ edge = some weight at offers
      rw [weightAt_congr sameHere] at absent
      rw [weightIn_congr _ same] at offers
      exact (weightIn_congr _ same).trans (each other member absent weight offers)
    · intro fills edge member absent weight offers
      exact fills ⟨edge, knownEdge_offered later edge member⟩ weight absent offers

end Layers

section Runs

variable {context} {start : GraphDb}

/-- The states of a run whose calls meet no integrity error. -/
def Sound (context : BatchContext) (start db : GraphDb) : Prop :=
  Reached context start db ∧ EndsIssued db

theorem sound_start (issued : EndsIssued start) : Sound context start start :=
  ⟨reached_start start, issued⟩

theorem sound_step (db : GraphDb) (group : List Enrichment) (sound : Sound context start db)
    (clear : Unhindered context db group) : Sound context start (step context db group) :=
  ⟨reached_step sound.1 group, step_issued_group sound.2 group clear⟩

theorem run_fills (groups : List (List Enrichment)) (issued : EndsIssued start)
    (clear : EveryStep (step context) (Unhindered context) start groups) :
    EveryStep (step context)
        (Fills (step context) (labelsAt context) (nodeLayer context)) start groups ∧
      EveryStep (step context)
        (Fills (step context) (edgeView context start) (edgeLayer context start)) start groups :=
  (everyStep_and start groups).mp
    (everyStep_of_guard sound_step (fun _ group sound meets =>
      ⟨step_fills_nodes sound.2 group meets, step_fills_edges sound.1 sound.2 group meets⟩)
      start groups (sound_start issued) clear)

theorem everyStep_asksAs_iff (last : GraphDb) (groups : List (List Enrichment)) :
    EveryStep (step context) (AsksAs context start last) start groups ↔
      EveryStep (step context)
          (FillsAs (labelsAt context) (nodeLayer context) (labelsIn (planOf context last)))
          start groups ∧
        EveryStep (step context)
          (FillsAs (edgeView context start) (edgeLayer context start)
            fun edge => weightIn context start (planOf context last) edge.1) start groups := by
  rw [← everyStep_and]
  have decides := fun db group (reached : Reached context start db) => asksAs_iff reached last group
  refine everyStep_iff_everyStep ?_ decides start groups (reached_start start)
  intro db group reached _
  exact reached_step reached group

theorem sameGraph_iff (first second : GraphDb) :
    SameGraph context start first second ↔
      (∀ key, labelsAt context first key = labelsAt context second key) ∧
        ∀ edge, edgeView context start first edge = edgeView context start second edge :=
  ⟨fun same => ⟨same.nodes, fun edge => same.edges edge.1 edge.2⟩,
    fun same => ⟨same.1, fun edge known => same.2 ⟨edge, known⟩⟩⟩

end Runs

/-- Where no call meets an integrity error, the graph after the last group is the graph of one
call for all of them exactly if what the earlier calls add the last state asks for alike. -/
theorem incremental_eq_at_once_iff (start : GraphDb) (earlier : List (List Enrichment))
    (last : List Enrichment) (issued : EndsIssued start)
    (clear : EveryStep (step context) (Unhindered context) start (earlier ++ [last]))
    (clearOnce : Unhindered context start (earlier ++ [last]).flatten) :
    SameGraph context start (incremental context start (earlier ++ [last]))
        (atOnce context start (earlier ++ [last])) ↔
      EveryStep (step context)
        (AsksAs context start (enrichAll context start (earlier ++ [last]).flatten)) start
        earlier := by
  obtain ⟨earlierClear, lastClear, -⟩ := (everyStep_append start earlier [last]).mp clear
  obtain ⟨nodes, edges⟩ := run_fills earlier issued earlierClear
  have grown : Grown (enrichAll context start earlier.flatten)
      (runEvents (step context) start earlier) := grown_incremental (grown_refl start) earlier
  have reached : Reached context start (runEvents (step context) start earlier) := ⟨_, grown⟩
  have lastIssued : EndsIssued (runEvents (step context) start earlier) := by
    have every := everyState_of_guard sound_step start earlier (sound_start issued) earlierClear
    exact ((everyState_iff_front start earlier).mp every earlier [] (List.append_nil _).symm).2
  -- The last call reads the plan of the single one.
  have samePlan : planOf context (enrichAll context (runEvents (step context) start earlier) last) =
      planOf context (enrichAll context start (earlier ++ [last]).flatten) := by
    rw [List.flatten_append, List.flatten_singleton, enrichAll_append]
    exact planOf_grown (grown_enrichAll grown last)
  have lastNodes := step_fills_nodes lastIssued last lastClear
  have lastEdges := step_fills_edges reached lastIssued last lastClear
  have onceNodes := step_fills_nodes issued (earlier ++ [last]).flatten clearOnce
  have onceEdges := step_fills_edges (reached_start start) issued (earlier ++ [last]).flatten clearOnce
  rw [everyStep_asksAs_iff, ← run_or_iff _ nodes, ← run_or_iff _ edges, sameGraph_iff, incremental,
    atOnce, runEvents_append, runEvents, runEvents]
  refine and_congr (forall_congr' fun key => ?_) (forall_congr' fun edge => ?_)
  · rw [lastNodes key, onceNodes key, nodeLayer, nodeLayer, samePlan]
  · rw [lastEdges edge, onceEdges edge, edgeLayer, edgeLayer, samePlan]

instance (db : GraphDb) (group : List Enrichment) : Decidable (Unhindered context db group) :=
  inferInstanceAs (Decidable (Unobstructed _ _))

instance (start last db : GraphDb) (group : List Enrichment) :
    Decidable (AsksAs context start last db group) :=
  inferInstanceAs (Decidable (_ ∧ _))

def foundIn (title : String) (publication : Nat) : Enrichment where
  publication := publication
  doi := none
  citationCount := some "0"
  workType := some "article"
  concepts := none
  source := "openalex"
  issnL := none
  attributesJson := some (journalText title)

def importOf (articles : List RawEntity) : GraphDb :=
  { emptyGraph with entities := emptyGraph.entities.insertAllOrIgnore articles }

theorem importOf_issued (articles : List RawEntity) : EndsIssued (importOf articles) :=
  fun _ member => absurd member List.not_mem_nil

def untitled : RawEntity := { article 1 "" with attributesJson := none }

/-- Two articles imported without a journal and enriched in turn. -/
theorem journals_found_in_turn :
    SameGraph (forBatch journalContext 1) (importOf [untitled, untitled])
      (incremental (forBatch journalContext 1) (importOf [untitled, untitled])
        ([[foundIn "Nature" 1]] ++ [[foundIn "Science" 2]]))
      (atOnce (forBatch journalContext 1) (importOf [untitled, untitled])
        ([[foundIn "Nature" 1]] ++ [[foundIn "Science" 2]])) :=
  (incremental_eq_at_once_iff (forBatch journalContext 1) (importOf [untitled, untitled])
    [[foundIn "Nature" 1]] [foundIn "Science" 2] (importOf_issued _) (by decide +kernel)
    (by decide +kernel)).mpr (by decide +kernel)

/-- Two articles imported under one journal and found in another: the call after the second
article's enrichment stores the first one's old journal, which no later call removes. -/
theorem old_journal_stays :
    ¬ SameGraph (forBatch journalContext 1) (importOf [article 1 "Nature", article 1 "Nature"])
      (incremental (forBatch journalContext 1) (importOf [article 1 "Nature", article 1 "Nature"])
        [[foundIn "Science" 2], [foundIn "Science" 1]])
      (atOnce (forBatch journalContext 1) (importOf [article 1 "Nature", article 1 "Nature"])
        [[foundIn "Science" 2], [foundIn "Science" 1]]) := by
  intro same
  have nature := same.nodes ⟨"science", "journal", "journal:nature"⟩
  revert nature
  decide +kernel

end Ukip.Graph.Increments
