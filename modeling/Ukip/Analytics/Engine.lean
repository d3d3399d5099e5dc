import Ukip.Analytics.Correlation

/-!
# The analytics pipeline of the engine

`pipelines/analytics` of the Rust engine.  It reads `raw_entities` by domain only.  A
`HashMap` lists its entries in an order of its own, which `HashOrder` stands for, and so does
each of the field queries, none of which has an `ORDER BY`.
-/

namespace Ukip.Analytics.Engine

open Foundation.SqlTruth Foundation.Tally Corpus Correlation TopicModeling

structure HashOrder where
  visit : {Entry : Type} → List Entry → List Entry
  perm : ∀ {Entry : Type} (entries : List Entry), (visit entries).Perm entries

/-- The rows as the query of a field lists them. -/
structure RowOrder where
  list : String → List RawEntity → List RawEntity
  perm : ∀ field rows, (list field rows).Perm rows

inductive Mode where
  | topics
  | cooccurrence
  | clusters
  | correlation

structure AnalyticsRequest where
  domainId : String
  mode : Mode
  limit : Nat
  fieldFilters : List String

structure TopicEntry (Number : Type) where
  concept : String
  count : Nat
  frequency : Number

structure CooccurrencePair (Number : Type) where
  conceptA : String
  conceptB : String
  coCount : Nat
  pmi : Number

structure EngineCluster where
  seedConcept : String
  members : List String
  totalCount : Nat

structure AnalyticsResponse (Number : Type) where
  topics : List (TopicEntry Number)
  cooccurrences : List (CooccurrencePair Number)
  clusters : List EngineCluster
  correlations : List CorrelationPair

structure EngineArithmetic (Number : Type) where
  zero : Number
  frequency (count total : Nat) : Number
  pmi (coCount countA countB total : Nat) : Number

/-- A validation or a database error; the client makes nothing of either. -/
inductive PipelineError where
  | validation
  | database

/-- `load_concepts` -/
def loadConceptLists (rows : List RawEntity) (domainId : String) : List (List String) :=
  let selected := rows.filter fun row =>
    (domainId == "all" || selects (compare (fun stored wanted => stored == wanted) row.domain
      (some domainId))) && hasConceptText row
  selected.filterMap fun row => row.enrichmentConcepts.map (parseParts isWhiteSpace)

def countThenName (first second : String × Nat) : Bool :=
  second.2 < first.2 || second.2 == first.2 && decide (first.1 ≤ second.1)

variable {Number : Type} (order : HashOrder) (arithmetic : EngineArithmetic Number)

def topTopics (lists : List (List String)) (topN : Nat) : List (String × Nat) :=
  (sortedBy countThenName (order.visit (countConcepts lists))).take topN

def countRows (lists : List (List String)) : Counter String :=
  countConcepts (lists.map sortedSet)

def cooccurrencePrecedes (first second : CooccurrencePair Number) : Bool :=
  second.coCount < first.coCount ||
    second.coCount == first.coCount && decide (first.conceptA ≤ second.conceptA)

def cooccurrencePmi (lists : List (List String)) (topN : Nat) : List (CooccurrencePair Number) :=
  let concepts := countRows lists
  let entries := (order.visit (countPairs lists)).map fun entry =>
    { conceptA := entry.1.1
      conceptB := entry.1.2
      coCount := entry.2
      pmi := arithmetic.pmi entry.2 (counted concepts entry.1.1) (counted concepts entry.1.2)
        lists.length }
  (sortedBy cooccurrencePrecedes entries).take topN

def bestScoringSeed (pairs : Counter (String × String)) (seeds : List String)
    (concept : String) : Option String :=
  (seeds.foldl (fun best seed =>
    let score := counted pairs (orderedPair concept seed)
    if best.2 < score then (some seed, score) else best) (none, 0)).1

def topicClusters (lists : List (List String)) (nClusters : Nat) : List (String × List (String × Nat)) :=
  let concepts := countRows lists
  let pairs := countPairs lists
  let top := (sortedBy countThenName (order.visit concepts)).map Prod.fst
  let seeds := top.take nClusters
  let clusterMap := seeds.map (fun seed => (seed, seed)) ++
    (top.drop seeds.length).filterMap fun concept =>
      (bestScoringSeed pairs seeds concept).map fun seed => (concept, seed)
  let clusters := seeds.map fun seed =>
    (seed, sortedBy countThenName
      (((order.visit clusterMap).filter fun pair => pair.2 == seed).map fun pair =>
        (pair.1, counted concepts pair.1)))
  sortedBy (fun first second => decide (counted concepts second.1 ≤ counted concepts first.1))
    clusters

def allowedColumns : List String :=
  ["primary_label", "secondary_label", "entity_type", "entity_name", "brand_capitalized",
    "enrichment_concepts", "enrichment_source", "enrichment_status", "enrichment_doi",
    "enrichment_citation_count", "domain", "validation_status", "sku", "gtin", "barcode",
    "title", "doi", "nct_id", "source", "branches", "creation_date", "normalized_json", "status"]

/-- `SKIP_FIELDS` -/
def engineSkipFields : List String :=
  ["entity_name", "title", "sku", "gtin", "doi", "nct_id", "enrichment_concepts",
    "normalized_json", "enrichment_doi", "id", "enrichment_citation_count", "enrichment_status",
    "enrichment_source", "validation_status", "creation_date", "barcode", "branches"]

def candidateFields (fieldFilters : List String) : Except PipelineError (List String) :=
  if fieldFilters = [] then
    .ok ["secondary_label", "entity_type", "enrichment_source", "domain", "enrichment_status",
      "validation_status"]
  else if fieldFilters.all fun field => field ∈ allowedColumns then .ok fieldFilters
  else .error .validation

/-- `SELECT "field" FROM raw_entities WHERE domain = $1 AND "field" IS NOT NULL` -/
def selectField (rowOrder : RowOrder) (rows : List RawEntity) (domainId field : String) :
    Except PipelineError (List String) :=
  match column field with
  | none => .error .database
  | some cell =>
    .ok ((rowOrder.list field (rows.filter fun row => row.domain == some domainId)).filterMap cell)

def queriedFields (fields : List String) : List String :=
  (fields.filter fun field => field ∉ engineSkipFields && field ∈ allowedColumns).dedup

/-- `load_field_data`, without the columns that have no value. -/
def loadFieldData (rowOrder : RowOrder) (rows : List RawEntity) (domainId : String)
    (fieldFilters : List String) : Except PipelineError (List (String × List String)) := do
  let fields ← candidateFields fieldFilters
  let data ← (queriedFields fields).mapM fun field =>
    (selectField rowOrder rows domainId field).map fun values => (field, values)
  .ok (data.filter fun entry => !entry.2.isEmpty)

def engineCorrelations (fieldData : List (String × List String)) (topN : Nat) :
    List CorrelationPair :=
  let usable := (order.visit fieldData).filter fun entry =>
    entry.1 ∉ engineSkipFields && entry.2.dedup.length ≤ maxCardinality &&
      1 < entry.2.dedup.length
  let entries := (combinations usable).filterMap fun pair =>
    -- columns of different lengths are skipped
    if pair.1.2.length = pair.2.2.length then
      correlationEntry pair.1.1 pair.2.1 pair.1.2 pair.2.2
    else none
  (strongestFirst entries).take topN

def effectiveLimit (limit : Nat) : Nat := if 0 < limit then limit else 30

/-- `process` -/
def processAnalytics (rowOrder : RowOrder) (rows : List RawEntity) (request : AnalyticsRequest) :
    Except PipelineError (AnalyticsResponse Number) := do
  let limit := effectiveLimit request.limit
  let lists := loadConceptLists rows request.domainId
  match request.mode with
  | .topics =>
    .ok
      { topics := (topTopics order lists limit).map fun entry =>
          { concept := entry.1
            count := entry.2
            frequency :=
              if lists.length = 0 then arithmetic.zero
              else arithmetic.frequency entry.2 lists.length }
        cooccurrences := []
        clusters := []
        correlations := [] }
  | .cooccurrence =>
    .ok
      { topics := []
        cooccurrences := cooccurrencePmi order arithmetic lists limit
        clusters := []
        correlations := [] }
  | .clusters =>
    .ok
      { topics := []
        cooccurrences := []
        clusters := (topicClusters order lists (min limit 20)).map fun cluster =>
          { seedConcept := cluster.1
            members := cluster.2.map Prod.fst
            totalCount := (cluster.2.map Prod.snd).sum }
        correlations := [] }
  | .correlation => do
    let fieldData ← loadFieldData rowOrder rows request.domainId request.fieldFilters
    .ok
      { topics := []
        cooccurrences := []
        clusters := []
        correlations := engineCorrelations order fieldData limit }

end Ukip.Analytics.Engine
