import Ukip.Analytics.Engine

/-!
# Delegated analytics

`try_engine_analytics` of `engine_delegation.py` and the conversion of the engine's
message, which lacks three of the fields that the conversion reads: each then has its
default.  Whatever the engine has counted, a delegated answer therefore equals the
local one only where there is nothing to count.
-/

namespace Ukip.Analytics.Delegation

open Foundation.Tally Corpus Correlation Analytics.Engine TopicModeling

inductive AnalyzerResult (Number : Type) where
  | topics (result : TopicsResult Number)
  | cooccurrence (result : CooccurrenceResult Number)
  | clusters (result : ClustersResult)
  | correlation (result : CorrelationResult)

structure EngineClient (Number : Type) where
  order : HashOrder
  rowOrder : RowOrder
  arithmetic : EngineArithmetic Number

variable {Number : Type} (arithmetic : Arithmetic Number)

/-- `getattr(ar, "domain_id", "")`: the message has no such field. -/
def messageDomainId (_message : AnalyticsResponse Number) : String := ""

/-- `getattr(ar, "total_enriched", 0)`: the message has no such field. -/
def messageTotalEnriched (_message : AnalyticsResponse Number) : Nat := 0

/-- `getattr(p, "count", 0)`: the message calls it `co_count`. -/
def messagePairCount (_pair : CooccurrencePair Number) : Nat := 0

def convertTopics (message : AnalyticsResponse Number) : TopicsResult Number :=
  let total := messageTotalEnriched message
  { domainId := messageDomainId message
    totalEnriched := total
    totalDistinctConcepts := none
    topics := message.topics.map fun entry =>
      { concept := entry.concept
        count := entry.count
        pct := if 0 < total then arithmetic.percentage entry.count total else arithmetic.zero } }

def convertCooccurrence (message : AnalyticsResponse Number) : CooccurrenceResult Number where
  domainId := messageDomainId message
  totalEnriched := messageTotalEnriched message
  pairs := message.cooccurrences.map fun pair =>
    { conceptA := pair.conceptA
      conceptB := pair.conceptB
      count := messagePairCount pair
      pmi := arithmetic.tenThousandths pair.pmi
      semanticScore := none }
  normalization := none

def convertClusters (message : AnalyticsResponse Number) : ClustersResult where
  domainId := messageDomainId message
  nClusters := message.clusters.length
  clusters := message.clusters.zipIdx.map fun entry =>
    { id := entry.2
      seed := entry.1.seedConcept
      size := entry.1.members.length
      members := entry.1.members.map fun concept => ⟨concept, 0⟩ }

def convertCorrelation (message : AnalyticsResponse Number) : CorrelationResult where
  domainId := messageDomainId message
  nEntities := 0
  fieldsAnalyzed := 0
  correlations := message.correlations

def convertAnalytics (message : AnalyticsResponse Number) : Mode → AnalyzerResult Number
  | .topics => .topics (convertTopics arithmetic message)
  | .cooccurrence => .cooccurrence (convertCooccurrence arithmetic message)
  | .clusters => .clusters (convertClusters message)
  | .correlation => .correlation (convertCorrelation message)

/-- `try_engine_analytics`; no client, and any error, give nothing.  The request has no
place for `org_id`. -/
def tryEngineAnalytics (client : Option (EngineClient Number)) (rows : List RawEntity)
    (domainId : String) (mode : Mode) (topN : Nat) (_orgId : Option Int) :
    Option (AnalyzerResult Number) :=
  client.bind fun engine =>
    (processAnalytics engine.order engine.arithmetic engine.rowOrder rows
      ⟨domainId, mode, topN, []⟩).toOption.map fun message => convertAnalytics arithmetic message mode

variable (lists : List (List String))

theorem countConcepts_eq_nil_iff :
    countConcepts lists = [] ↔ ∀ concepts ∈ lists, concepts = [] := by
  have general : ∀ counter : Counter String,
      lists.foldl update counter = [] ↔ counter = [] ∧ ∀ concepts ∈ lists, concepts = [] := by
    induction lists with
    | nil => simp
    | cons concepts rest ih =>
      intro counter
      rw [List.foldl_cons, ih, update_eq_nil_iff, List.forall_mem_cons, and_assoc]
  simpa [countConcepts] using general []

theorem effectiveLimit_pos (limit : Nat) : 0 < effectiveLimit limit := by
  unfold effectiveLimit
  split <;> omega

variable (order : HashOrder)

theorem visit_eq_nil_iff {Entry : Type} (entries : List Entry) :
    order.visit entries = [] ↔ entries = [] := by
  constructor
  · intro empty
    have perm := order.perm entries
    rw [empty] at perm
    exact perm.nil_eq.symm
  · rintro rfl
    exact List.perm_nil.mp (order.perm [])

theorem engineTopics_eq_nil_iff (lists : List (List String)) (limit : Nat) :
    Engine.topTopics order lists (effectiveLimit limit) = [] ↔
      ∀ concepts ∈ lists, concepts = [] := by
  have positive := effectiveLimit_pos limit
  rw [Engine.topTopics, List.take_eq_nil_iff, sortedBy_eq_nil_iff, visit_eq_nil_iff,
    countConcepts_eq_nil_iff]
  constructor
  · rintro (zero | empty)
    · omega
    · exact empty
  · exact .inr

theorem countPairs_of_empty (empty : ∀ concepts ∈ lists, concepts = []) :
    countPairs lists = [] := by
  have general : lists.foldl (fun counter concepts =>
      update counter (combinations (sortedSet concepts))) ([] : Counter (String × String)) = [] := by
    induction lists with
    | nil => rfl
    | cons concepts rest ih =>
      rw [List.foldl_cons, empty concepts List.mem_cons_self]
      exact ih fun other member => empty other (List.mem_cons_of_mem concepts member)
  exact general

theorem countRows_of_empty (empty : ∀ concepts ∈ lists, concepts = []) : countRows lists = [] := by
  rw [countRows, countConcepts_eq_nil_iff]
  intro concepts member
  obtain ⟨origin, originMember, rfl⟩ := List.mem_map.mp member
  rw [empty origin originMember]
  rfl

theorem enginePairs_of_empty (engine : EngineClient Number) (lists : List (List String))
    (limit : Nat) (empty : ∀ concepts ∈ lists, concepts = []) :
    cooccurrencePmi engine.order engine.arithmetic lists limit = [] := by
  have none := (visit_eq_nil_iff engine.order (countPairs lists)).mpr
    (countPairs_of_empty lists empty)
  simp [cooccurrencePmi, none, sortedBy]

theorem engineClusters_of_empty (lists : List (List String)) (nClusters : Nat)
    (empty : ∀ concepts ∈ lists, concepts = []) :
    Engine.topicClusters order lists nClusters = [] := by
  have none := (visit_eq_nil_iff order (countRows lists)).mpr (countRows_of_empty lists empty)
  simp [Engine.topicClusters, none, sortedBy]

section Comparison

variable (python : Python) (engine : EngineClient Number) (registry : Registry)
  (rows : List RawEntity) (domainId : String) (key : String → String) (minSimilarity : Number)
  (topN pairsN nClusters : Nat) (scope : Option Int)

/-- The same topics with the same counts and shares, of the same total. -/
def TopicsEqual (delegated computed : TopicsResult Number) : Prop :=
  delegated.topics = computed.topics ∧ delegated.totalEnriched = computed.totalEnriched

def pairColumns (pair : ConceptPair Number) : String × String × Nat × Number :=
  (pair.conceptA, pair.conceptB, pair.count, pair.pmi)

def PairsEqual (delegated computed : CooccurrenceResult Number) : Prop :=
  delegated.pairs.map pairColumns = computed.pairs.map pairColumns ∧
    delegated.totalEnriched = computed.totalEnriched

/-- For one corpus, domain and limits, both paths answer all three analyses and their
answers are equal. -/
def DelegatedEqualsLocal : Prop :=
  (∃ delegated computed,
    tryEngineAnalytics arithmetic (some engine) rows domainId .topics topN scope =
        some (.topics delegated) ∧
      TopicModeling.topTopics python arithmetic registry rows domainId topN scope = .ok computed ∧
      TopicsEqual delegated computed) ∧
  (∃ delegated computed,
    tryEngineAnalytics arithmetic (some engine) rows domainId .cooccurrence pairsN scope =
        some (.cooccurrence delegated) ∧
      cooccurrence python arithmetic registry rows domainId pairsN scope false key minSimilarity =
        .ok computed ∧
      PairsEqual delegated computed) ∧
  ∃ delegated computed,
    tryEngineAnalytics arithmetic (some engine) rows domainId .clusters nClusters scope =
        some (.clusters delegated) ∧
      TopicModeling.topicClusters python registry rows domainId nClusters scope = .ok computed ∧
      delegated.clusters = computed.clusters

/-- The domain is known, no row of the scope is in its corpus, and no row of any
organization gives the engine a concept of it. -/
def NothingToCount : Prop :=
  knownDomain registry rows domainId scope = true ∧ loadConcepts rows domainId scope = [] ∧
    ∀ concepts ∈ loadConceptLists rows domainId, concepts = []

theorem loadCorpus_total (corpus : Nat × List (List String))
    (loaded : loadCorpus python registry rows domainId scope = .ok corpus) :
    knownDomain registry rows domainId scope = true ∧
      corpus.1 = (loadConcepts rows domainId scope).length := by
  unfold loadCorpus at loaded
  cases known : knownDomain registry rows domainId scope with
  | false => simp [known] at loaded
  | true =>
    simp only [known, Bool.not_true, Bool.false_eq_true, if_false] at loaded
    cases parsed : conceptLists python (loadConcepts rows domainId scope) with
    | none => simp [parsed] at loaded
    | some lists =>
      simp only [parsed, Except.ok.injEq] at loaded
      rw [← loaded]
      exact ⟨rfl, rfl⟩

theorem delegated_topics :
    ∃ delegated, tryEngineAnalytics arithmetic (some engine) rows domainId .topics topN scope =
        some (.topics delegated) ∧
      delegated.totalEnriched = 0 ∧
      (delegated.topics = [] ↔ ∀ concepts ∈ loadConceptLists rows domainId, concepts = []) := by
  refine ⟨_, rfl, rfl, ?_⟩
  rw [← engineTopics_eq_nil_iff engine.order _ topN]
  simp only [convertTopics, List.map_eq_nil_iff]

theorem delegated_pairs
    (noConcepts : ∀ concepts ∈ loadConceptLists rows domainId, concepts = []) :
    ∃ delegated, tryEngineAnalytics arithmetic (some engine) rows domainId .cooccurrence pairsN
        scope = some (.cooccurrence delegated) ∧
      delegated.totalEnriched = 0 ∧ delegated.pairs = [] := by
  refine ⟨_, rfl, rfl, ?_⟩
  have none := enginePairs_of_empty engine _ (effectiveLimit pairsN) noConcepts
  simp only [convertCooccurrence, none, List.map_nil]

theorem delegated_clusters
    (noConcepts : ∀ concepts ∈ loadConceptLists rows domainId, concepts = []) :
    ∃ delegated, tryEngineAnalytics arithmetic (some engine) rows domainId .clusters nClusters
        scope = some (.clusters delegated) ∧ delegated.clusters = [] := by
  refine ⟨_, rfl, ?_⟩
  have none := engineClusters_of_empty engine.order _ (min (effectiveLimit nClusters) 20) noConcepts
  simp only [convertClusters, none, List.map_nil, List.zipIdx_nil]

theorem loadCorpus_of_no_rows (known : knownDomain registry rows domainId scope = true)
    (noRows : loadConcepts rows domainId scope = []) :
    loadCorpus python registry rows domainId scope = .ok (0, []) := by
  rw [loadCorpus, known, noRows]
  rfl

theorem topicsOf_none (total : Nat) : (topicsOf arithmetic domainId topN total []).topics = [] := by
  simp [topicsOf, countConcepts, mostCommon, sortedBy]

theorem pairsOf_none (total : Nat) : pairsOf arithmetic pairsN total [] = [] := by
  simp [pairsOf, countPairs, mostCommon, sortedBy]

theorem clustersOf_none : clustersOf nClusters [] = [] := by
  simp [clustersOf, countConcepts, mostCommon, sortedBy]

theorem nothingToCount_of_topicsEqual
    (equal : ∃ delegated computed,
      tryEngineAnalytics arithmetic (some engine) rows domainId .topics topN scope =
          some (.topics delegated) ∧
        TopicModeling.topTopics python arithmetic registry rows domainId topN scope = .ok computed ∧
        TopicsEqual delegated computed) :
    NothingToCount registry rows domainId scope := by
  obtain ⟨delegated, computed, sent, answered, sameTopics, sameTotal⟩ := equal
  obtain ⟨message, messageSent, noTotal, noTopicsIff⟩ :=
    delegated_topics arithmetic engine rows domainId topN scope
  obtain rfl : message = delegated := by
    rw [messageSent] at sent
    exact AnalyzerResult.topics.inj (Option.some.inj sent)
  cases loaded : loadCorpus python registry rows domainId scope with
  | error reason => simp [TopicModeling.topTopics, loaded, Except.map] at answered
  | ok corpus =>
    simp only [TopicModeling.topTopics, loaded, Except.map, Except.ok.injEq] at answered
    obtain ⟨known, total⟩ := loadCorpus_total python registry rows domainId scope corpus loaded
    have zero : corpus.1 = 0 := by
      rw [noTotal, ← answered] at sameTotal
      exact sameTotal.symm
    have noRows : loadConcepts rows domainId scope = [] := by
      rw [zero] at total
      exact List.length_eq_zero_iff.mp total.symm
    have parsed : corpus = (0, []) := by
      have empty := loadCorpus_of_no_rows python registry rows domainId scope known noRows
      rw [loaded] at empty
      exact Except.ok.inj empty
    refine ⟨known, noRows, noTopicsIff.mp ?_⟩
    rw [sameTopics, ← answered, parsed]
    exact topicsOf_none arithmetic domainId topN 0

/-- The delegated analyses equal the local ones exactly where there is nothing to
count. -/
theorem delegated_equals_local_iff_nothing_to_count :
    DelegatedEqualsLocal arithmetic python engine registry rows domainId key minSimilarity topN
        pairsN nClusters scope ↔
      NothingToCount registry rows domainId scope := by
  constructor
  · intro equal
    exact nothingToCount_of_topicsEqual arithmetic python engine registry rows domainId topN scope
      equal.1
  · rintro ⟨known, noRows, noConcepts⟩
    have loaded := loadCorpus_of_no_rows python registry rows domainId scope known noRows
    obtain ⟨topics, topicsSent, noTotal, noTopicsIff⟩ :=
      delegated_topics arithmetic engine rows domainId topN scope
    obtain ⟨pairs, pairsSent, noPairTotal, noPairs⟩ :=
      delegated_pairs arithmetic engine rows domainId pairsN scope noConcepts
    obtain ⟨clusters, clustersSent, noClusters⟩ :=
      delegated_clusters arithmetic engine rows domainId nClusters scope noConcepts
    refine ⟨⟨topics, _, topicsSent, by rw [TopicModeling.topTopics, loaded]; rfl, ?_, noTotal⟩,
      ⟨pairs, _, pairsSent, by rw [cooccurrence, loaded]; rfl, ?_, noPairTotal⟩,
      ⟨clusters, _, clustersSent, by rw [TopicModeling.topicClusters, loaded]; rfl, ?_⟩⟩
    · rw [noTopicsIff.mpr noConcepts, topicsOf_none]
    · rw [noPairs]
      simp [pairsOf_none]
    · rw [noClusters]
      exact (clustersOf_none nClusters).symm

end Comparison

def plainPython : Python where
  loads := fun _ => none
  shown := fun _ => ""
  casefold := String.toLower

def centArithmetic : Arithmetic Nat where
  zero := 0
  percentage := fun count total => (count * 20000 / total + 1) / 2
  pmi := fun _ _ _ _ => 0
  semanticScore := fun _ pmi => pmi
  similarity := fun first second => if first = second then 1 else 0
  atMost := fun first second => first ≤ second
  thousandths := id
  tenThousandths := id

def plainEngine : EngineClient Nat where
  order :=
    { visit := id
      perm := fun _ => List.Perm.refl _ }
  rowOrder :=
    { list := fun _ rows => rows
      perm := fun _ _ => List.Perm.refl _ }
  arithmetic :=
    { zero := 0
      frequency := fun count total => (count * 20000 / total + 1) / 2
      pmi := fun _ _ _ _ => 0 }

def plainRegistry : Registry := fun domainId => if domainId = "science" then some [] else none

def aiRow : RawEntity where
  id := 1
  orgId := some 1
  domain := some "science"
  attributesJson := none
  validationStatus := none
  enrichmentCitationCount := none
  enrichmentConcepts := some "AI"
  enrichmentStatus := none
  source := none

/-- The engine's answer counts no enriched row, the local one counts one. -/
theorem one_row_answered_differently :
    ¬ DelegatedEqualsLocal centArithmetic plainPython plainEngine plainRegistry [aiRow] "science" id
      0 10 10 2 (some 1) := by
  intro equal
  have nothing := nothingToCount_of_topicsEqual centArithmetic plainPython plainEngine plainRegistry
    [aiRow] "science" 10 (some 1) equal.1
  exact absurd nothing.2.1 (by decide)

end Ukip.Analytics.Delegation
