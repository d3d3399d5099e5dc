import Ukip.Analytics.Corpus
import Ukip.Foundation.Tally

/-!
# The topic analyzer

`TopicAnalyzer` of `topic_modeling.py`.  What it computes in floating point, it
computes from counts; these computations are the fields of `Arithmetic`, so that the
counts themselves are exact.
-/

namespace Ukip.Analytics.TopicModeling

open Foundation.Tally Corpus

structure Arithmetic (Number : Type) where
  zero : Number
  /-- `round(count / total * 100, 2)` -/
  percentage (count total : Nat) : Number
  /-- `round(log2(p_ab / (p_a * p_b)), 3)` -/
  pmi (coCount countA countB total : Nat) : Number
  /-- `round(co_count * max(pmi, 0.0), 3)` -/
  semanticScore (coCount : Nat) (pmi : Number) : Number
  /-- `_concept_similarity` -/
  similarity (first second : String) : Number
  atMost (first second : Number) : Bool
  /-- `round(value, 3)` -/
  thousandths (value : Number) : Number
  /-- `round(value, 4)` -/
  tenThousandths (value : Number) : Number

inductive AnalyzerError where
  /-- answered 404 -/
  | valueError (detail : String)
  /-- answered 500 -/
  | other

def domainNotFound (domainId : String) : AnalyzerError :=
  .valueError ("Domain '" ++ domainId ++ "' not found")

structure Topic (Number : Type) where
  concept : String
  count : Nat
  pct : Number

structure TopicsResult (Number : Type) where
  domainId : String
  totalEnriched : Nat
  /-- the engine's result lacks it -/
  totalDistinctConcepts : Option Nat
  topics : List (Topic Number)

structure ConceptPair (Number : Type) where
  conceptA : String
  conceptB : String
  count : Nat
  pmi : Number
  /-- the engine's result lacks it -/
  semanticScore : Option Number

structure MergedTerm (Number : Type) where
  source : String
  target : String
  score : Number

structure Normalization (Number : Type) where
  enabled : Bool
  minSimilarity : Number
  mergedTerms : List (MergedTerm Number)

structure CooccurrenceResult (Number : Type) where
  domainId : String
  totalEnriched : Nat
  pairs : List (ConceptPair Number)
  /-- the engine's result lacks it -/
  normalization : Option (Normalization Number)

structure ClusterMember where
  concept : String
  count : Nat

structure TopicCluster where
  id : Nat
  seed : String
  size : Nat
  members : List ClusterMember

structure ClustersResult where
  domainId : String
  nClusters : Nat
  clusters : List TopicCluster

/-- `sorted(set(concepts))` -/
def sortedSet (concepts : List String) : List String :=
  sortedBy (fun first second => decide (first ≤ second)) concepts.dedup

def countConcepts (lists : List (List String)) : Counter String :=
  lists.foldl update []

def countPairs (lists : List (List String)) : Counter (String × String) :=
  lists.foldl (fun counter concepts => update counter (combinations (sortedSet concepts))) []

variable {Number : Type} (python : Python) (arithmetic : Arithmetic Number) (registry : Registry)
  (rows : List RawEntity) (domainId : String)

/-- The corpus and its concepts, behind `_validate_domain`. -/
def loadCorpus (scope : Option Int) : Except AnalyzerError (Nat × List (List String)) :=
  if !knownDomain registry rows domainId scope then .error (domainNotFound domainId)
  else
    let corpus := loadConcepts rows domainId scope
    match conceptLists python corpus with
    | none => .error .other
    | some lists => .ok (corpus.length, lists)

def topicsOf (topN total : Nat) (lists : List (List String)) : TopicsResult Number where
  domainId := domainId
  totalEnriched := total
  totalDistinctConcepts := some (countConcepts lists).length
  topics := ((mostCommon (countConcepts lists)).take topN).map fun entry =>
    { concept := entry.1
      count := entry.2
      pct := if total = 0 then arithmetic.zero else arithmetic.percentage entry.2 total }

def topTopics (topN : Nat) (scope : Option Int) : Except AnalyzerError (TopicsResult Number) :=
  (loadCorpus python registry rows domainId scope).map fun corpus =>
    topicsOf arithmetic domainId topN corpus.1 corpus.2

/-- The best candidate and its score; only a strictly better one displaces it, and a
score has to exceed zero. -/
def bestCandidate (concept : String) (candidates : List String) : Option String × Number :=
  candidates.foldl (fun best candidate =>
    let score := arithmetic.similarity concept candidate
    if arithmetic.atMost score best.2 then best else (some candidate, score))
    (none, arithmetic.zero)

structure Canonicalization (Number : Type) where
  canonicals : List String
  counts : Counter String
  concepts : List String
  merges : List (MergedTerm Number)

/-- One turn of the loop of `_canonicalize_similar_concepts`; `key` is
`_concept_key`. -/
def canonicalizeConcept (key : String → String) (minSimilarity : Number)
    (state : Canonicalization Number) (concept : String) : Canonicalization Number :=
  let best := bestCandidate arithmetic concept state.canonicals
  match best.1 with
  | some canonical =>
    if arithmetic.atMost minSimilarity best.2 then
      { canonicals := state.canonicals
        counts := bump state.counts canonical
        concepts := state.concepts ++ [canonical]
        merges := state.merges ++
          if key concept ≠ key canonical then
            [⟨concept, canonical, arithmetic.thousandths best.2⟩]
          else [] }
    else
      { canonicals := state.canonicals ++ [concept]
        counts := bump state.counts concept
        concepts := state.concepts ++ [concept]
        merges := state.merges }
  | none =>
    { canonicals := state.canonicals ++ [concept]
      counts := bump state.counts concept
      concepts := state.concepts ++ [concept]
      merges := state.merges }

/-- `_canonicalize_similar_concepts` row by row, with the counts carried along. -/
def canonicalizeLists (key : String → String) (minSimilarity : Number) :
    Counter String → List (List String) → List (List String) × List (MergedTerm Number)
  | _, [] => ([], [])
  | counts, concepts :: rest =>
    let row := concepts.foldl (canonicalizeConcept arithmetic key minSimilarity)
      ⟨(mostCommon counts).map Prod.fst, counts, [], []⟩
    let after := canonicalizeLists key minSimilarity row.counts rest
    (row.concepts :: after.1, row.merges ++ after.2)

def uniqueMerges (merges : List (MergedTerm Number)) : List (MergedTerm Number) :=
  (merges.foldl (fun kept merge =>
    if kept.any fun other =>
        python.casefold other.source == python.casefold merge.source &&
          python.casefold other.target == python.casefold merge.target then kept
    else kept ++ [merge]) []).take 25

/-- `(count, semantic_score)` descending -/
def pairPrecedes (first second : ConceptPair Number) : Bool :=
  second.count < first.count ||
    second.count == first.count &&
      arithmetic.atMost (second.semanticScore.getD arithmetic.zero)
        (first.semanticScore.getD arithmetic.zero)

def pairsOf (topN total : Nat) (lists : List (List String)) : List (ConceptPair Number) :=
  let concepts := countConcepts lists
  let candidates := ((mostCommon (countPairs lists)).take (topN * 5)).map fun entry =>
    let pmi :=
      if total = 0 then arithmetic.zero
      else arithmetic.pmi entry.2 (counted concepts entry.1.1) (counted concepts entry.1.2) total
    { conceptA := entry.1.1
      conceptB := entry.1.2
      count := entry.2
      pmi := pmi
      semanticScore := some (arithmetic.semanticScore entry.2 pmi) }
  (sortedBy (pairPrecedes arithmetic) candidates).take topN

def cooccurrence (topN : Nat) (scope : Option Int) (normalizeSimilar : Bool)
    (key : String → String) (minSimilarity : Number) :
    Except AnalyzerError (CooccurrenceResult Number) :=
  (loadCorpus python registry rows domainId scope).map fun corpus =>
    let canonical :=
      if normalizeSimilar then canonicalizeLists arithmetic key minSimilarity [] corpus.2
      else (corpus.2, [])
    { domainId := domainId
      totalEnriched := corpus.1
      pairs := pairsOf arithmetic topN corpus.1 canonical.1
      normalization := some
        { enabled := normalizeSimilar
          minSimilarity := arithmetic.thousandths minSimilarity
          mergedTerms := uniqueMerges python canonical.2 } }

/-- The pair's key: `tuple(sorted([concept, seed]))` -/
def orderedPair (concept seed : String) : String × String :=
  if concept ≤ seed then (concept, seed) else (seed, concept)

/-- The seed that `concept` occurs with most, the first of equals: with no co-occurrence
at all, the first seed. -/
def bestSeed (pairs : Counter (String × String)) (seeds : List String) (concept : String) :
    Option String :=
  (seeds.foldl (fun best seed =>
    let score := counted pairs (orderedPair concept seed)
    match best with
    | none => some (seed, score)
    | some (_, bestScore) => if bestScore < score then some (seed, score) else best)
    none).map Prod.fst

def clustersOf (nClusters : Nat) (lists : List (List String)) : List TopicCluster :=
  let concepts := countConcepts lists
  let pairs := countPairs lists
  let top := (mostCommon concepts).map Prod.fst
  let seeds := top.take nClusters
  let assigned := seeds.map (fun seed => (seed, seed)) ++
    (top.drop nClusters).filterMap fun concept =>
      (bestSeed pairs seeds concept).map fun seed => (concept, seed)
  seeds.zipIdx.map fun entry =>
    let members := sortedBy (fun first second => decide (second.count ≤ first.count))
      ((assigned.filter fun pair => pair.2 == entry.1).map fun pair =>
        ⟨pair.1, counted concepts pair.1⟩)
    { id := entry.2
      seed := entry.1
      size := members.length
      members := members }

def topicClusters (nClusters : Nat) (scope : Option Int) : Except AnalyzerError ClustersResult :=
  (loadCorpus python registry rows domainId scope).map fun corpus =>
    let clusters := clustersOf nClusters corpus.2
    { domainId := domainId
      nClusters := clusters.length
      clusters := clusters }

end Ukip.Analytics.TopicModeling
