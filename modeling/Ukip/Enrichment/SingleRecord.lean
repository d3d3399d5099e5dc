import Ukip.Coauthorship.Identity
import Ukip.Enrichment.Requeue

/-!
# The enrichment of one record

`enrich_single_record`: the cascade of providers, the persistence of what one of them found,
the web scrapers behind them, and the record of a failure.  A failure is written down twice:
as `enrichment_failure` in the attributes and as a reason in a column of its own.
-/

namespace Ukip.Enrichment.SingleRecord

open Foundation.JsonValue
open Coauthorship.Identity (Python authorsFromAttrs firstTruthy stripText)
open Enrichment.Requeue (EnrichmentStatus)

/-- An exception; `dataError` for the three classes of the first handler. -/
structure Raised where
  type : String
  message : String
  dataError : Bool

/-- The column holds a provider's number, or the text a scraper wrote there. -/
inductive CitationCount where
  | count (value : Int)
  | scraped (text : String)

/-- The columns of `raw_entities` that an enrichment reads or writes. -/
structure RawEntity where
  id : Nat
  domain : Option String
  primaryLabel : Option String
  canonicalId : Option String := none
  attributesJson : JsonColumn
  enrichmentDoi : Option String := none
  enrichmentCitationCount : Option CitationCount
  enrichmentConcepts : Option String := none
  enrichmentSource : Option String := none
  enrichmentStatus : Option EnrichmentStatus
  enrichmentFailureReason : Option String := none
  enrichmentIssnL : Option String := none
  enrichmentWorkType : Option String := none

/-- What `setattr` does with an attribute that is none of the columns above. -/
inductive OtherAttribute where
  | absent
  | written
  | refused (raised : Raised)

/-- The parts of the process that stay the same from call to call. -/
structure Environment where
  python : Python
  /-- the text of a column as `json.loads` reads it -/
  loads : String → JsonColumn
  /-- what `json.loads` says of a text it cannot read -/
  decodeMessage : String → String
  extractCountry : String → Option String
  otherAttribute : String → OtherAttribute

def parseAttrs : JsonColumn → Entries
  | .parsed (.object entries) => entries
  | _ => []

/-- `json.loads(raw) if raw else {}` -/
def loadedAttrs (environment : Environment) : JsonColumn → Except Raised Json
  | .null => .ok (.object [])
  | .malformed text =>
    if text = "" then .ok (.object [])
    else .error ⟨"JSONDecodeError", environment.decodeMessage text, true⟩
  | .parsed value => .ok value

/-- `json.loads(raw or "{}") or {}`, `none` for a text it cannot read. -/
def looseAttrs : JsonColumn → Option Json
  | .null => some (.object [])
  | .malformed text => if text = "" then some (.object []) else none
  | .parsed value => some (if value.truthy then value else .object [])

def typeName : Json → String
  | .null => "NoneType"
  | .bool _ => "bool"
  | .integer _ => "int"
  | .decimal _ _ => "float"
  | .text _ => "str"
  | .array _ => "list"
  | .object _ => "dict"

/-- `value.get(…)` of a value that is no dictionary. -/
def noGet (value : Json) : Raised where
  type := "AttributeError"
  message := "'" ++ typeName value ++ "' object has no attribute 'get'"
  dataError := true

/-- `value[key] = …` of a value that is no dictionary. -/
def noItemAssignment (value : Json) : Raised where
  type := "TypeError"
  message :=
    match value with
    | .array _ => "list indices must be integers or slices, not str"
    | other => "'" ++ typeName other ++ "' object does not support item assignment"
  dataError := false

/-- One `attrs[key] = …` after the other. -/
def assignAll : Json → Entries → Except Raised Json
  | attrs, [] => .ok attrs
  | .object attrs, entries => .ok (.object (mergeEntries attrs entries))
  | other, _ :: _ => .error (noItemAssignment other)

def failureKey : String := "enrichment_failure"

/-- `_clear_enrichment_failure`: the column of the reason is not touched, and an entry that
is `null` stays. -/
def clearEnrichmentFailure (entity : RawEntity) : RawEntity :=
  match get? (parseAttrs entity.attributesJson) failureKey with
  | none => entity
  | some .null => entity
  | some _ =>
    { entity with
      attributesJson := .parsed (.object (without (parseAttrs entity.attributesJson) failureKey)) }

def makeMessageRef (key : String) (params : Entries) : Json :=
  .object [("type", .text "i18n_ref"), ("key", .text key), ("params", .object params)]

inductive FailureCode where
  | missingTitle
  | noProviderMatch
  | dataError
  | unexpectedError

def FailureCode.value : FailureCode → String
  | .missingTitle => "missing_title"
  | .noProviderMatch => "no_provider_match"
  | .dataError => "data_error"
  | .unexpectedError => "unexpected_error"

def failureRecommendations : FailureCode → List Json
  | .missingTitle =>
    [makeMessageRef "validation.enrichment_failure.recommendation.missing_title.0" [],
      makeMessageRef "validation.enrichment_failure.recommendation.missing_title.1" []]
  | .noProviderMatch =>
    [makeMessageRef "validation.enrichment_failure.recommendation.no_provider_match.0" [],
      makeMessageRef "validation.enrichment_failure.recommendation.no_provider_match.1" [],
      makeMessageRef "validation.enrichment_failure.recommendation.no_provider_match.2" []]
  | .dataError =>
    [makeMessageRef "validation.enrichment_failure.recommendation.data_error.0" [],
      makeMessageRef "validation.enrichment_failure.recommendation.data_error.1" []]
  | .unexpectedError =>
    [makeMessageRef "validation.enrichment_failure.recommendation.unexpected_error.0" [],
      makeMessageRef "validation.enrichment_failure.recommendation.unexpected_error.1" []]

namespace EnrichmentFailureReason

def noMatch : String := "no_match"
def apiError : String := "api_error"
def circuitOpen : String := "circuit_open"
def allSourcesFailed : String := "all_sources_failed"

end EnrichmentFailureReason

structure Failure where
  code : FailureCode
  evidence : Json
  providerAttempts : List String
  exceptionType : Option String
  failureReason : Option String

def optionalText : Option String → Json
  | none => .null
  | some text => .text text

def failureRecord (entity : RawEntity) (failure : Failure) (failedAt : String) : Json :=
  .object
    [("code", .text failure.code.value),
      ("evidence", failure.evidence),
      ("recommendations", .array (failureRecommendations failure.code)),
      ("provider_attempts", .array (failure.providerAttempts.map .text)),
      ("exception_type", optionalText failure.exceptionType),
      ("record_snapshot", .object
        [("primary_label", optionalText entity.primaryLabel),
          ("canonical_id", optionalText entity.canonicalId),
          ("enrichment_doi", optionalText entity.enrichmentDoi),
          ("domain", optionalText entity.domain)]),
      ("failed_at", .text failedAt)]

/-- `_set_enrichment_failed`: without a reason of its own the old one stays. -/
def setEnrichmentFailed (entity : RawEntity) (failure : Failure) (failedAt : String) : RawEntity :=
  { entity with
    attributesJson := .parsed (.object
      (assign (parseAttrs entity.attributesJson) failureKey (failureRecord entity failure failedAt)))
    enrichmentStatus := some .failed
    enrichmentFailureReason := failure.failureReason.or entity.enrichmentFailureReason }

def missingTitle : Failure where
  code := .missingTitle
  evidence := makeMessageRef "validation.enrichment_failure.evidence.missing_title" []
  providerAttempts := []
  exceptionType := none
  failureReason := none

def noProviderMatch (query : String) (attempts : List String) (reason : String) : Failure where
  code := .noProviderMatch
  evidence := makeMessageRef "validation.enrichment_failure.evidence.no_provider_match"
    [("query", .text query)]
  providerAttempts := attempts
  exceptionType := none
  failureReason := some reason

def raisedFailure (raised : Raised) (attempts : List String) : Failure :=
  if raised.dataError then
    { code := .dataError
      evidence := makeMessageRef "validation.enrichment_failure.evidence.data_error"
        [("error", .text raised.message)]
      providerAttempts := attempts
      exceptionType := some raised.type
      failureReason := some EnrichmentFailureReason.apiError }
  else
    { code := .unexpectedError
      evidence := makeMessageRef "validation.enrichment_failure.evidence.unexpected_error"
        [("error_type", .text raised.type), ("error", .text raised.message)]
      providerAttempts := attempts
      exceptionType := some raised.type
      failureReason := some EnrichmentFailureReason.allSourcesFailed }

structure JournalMetrics where
  issnL : Option String
  sourceId : Option String
  displayName : Option String

/-- The affiliations come as `model_dump` gives them. -/
structure EnrichedRecord where
  doi : Option String := none
  authors : List String := []
  authorOrcids : List (Option String) := []
  citationCount : Int := 0
  concepts : List String := []
  conceptIds : List (Option String) := []
  affiliations : List String := []
  canonicalAffiliations : List Json := []
  authorAffiliations : List Json := []
  funding : Option (List String) := none
  referencesCount : Option Int := none
  tldr : Option String := none
  influentialCitationCount : Option Int := none
  license : Option String := none
  meshTerms : Option (List String) := none
  venue : Option String := none
  journal : Option JournalMetrics := none
  workType : Option String := none

inductive Answer (α : Type) where
  | returned (value : α)
  | circuitOpen
  | raised (exception : Raised)

structure Adapter where
  isActive : Bool
  searchByTitle : String → Answer (List EnrichedRecord)

/-- One name of `_ACTIVE_CASCADE`, with its adapter if it has one. -/
structure Provider where
  name : String
  adapter : Option Adapter

def Provider.active (provider : Provider) : Option Adapter :=
  provider.adapter.filter Adapter.isActive

inductive Searched where
  | found (record : EnrichedRecord) (source : String) (attempts : List String)
  | noMatch (attempts : List String) (circuitOpenCount : Nat)
  | raised (exception : Raised) (attempts : List String)

def searchCascade (query : String) : List Provider → List String → Nat → Searched
  | [], attempts, circuitOpenCount => .noMatch attempts circuitOpenCount
  | provider :: rest, attempts, circuitOpenCount =>
    match provider.active with
    | none => searchCascade query rest attempts circuitOpenCount
    | some adapter =>
      match adapter.searchByTitle query with
      | .returned (record :: _) => .found record provider.name (attempts ++ [provider.name])
      | .returned [] =>
        searchCascade query rest (attempts ++ [provider.name]) circuitOpenCount
      | .circuitOpen =>
        searchCascade query rest (attempts ++ [provider.name]) (circuitOpenCount + 1)
      | .raised exception => .raised exception (attempts ++ [provider.name])

def textArray (items : List String) : Json := .array (items.map .text)

def optionalTextArray (items : List (Option String)) : Json := .array (items.map optionalText)

def optionalArray : Option (List String) → Json
  | none => .null
  | some items => textArray items

/-- `if value: attrs[key] = value` -/
def ifTruthy (key : String) (value : Json) : Entries :=
  if value.truthy then [(key, value)] else []

/-- `if value is not None: attrs[key] = value` -/
def ifPresent (key : String) : Option Int → Entries
  | none => []
  | some value => [(key, .integer value)]

/-- `any(texts)` -/
def anyText (texts : List (Option String)) : Bool :=
  texts.any fun text => (optionalText text).truthy

def journalName (record : EnrichedRecord) : Json :=
  let displayName := (record.journal.bind JournalMetrics.displayName).filter (· ≠ "")
  optionalText ((displayName.or record.venue).map stripText)

def recordAttrs (record : EnrichedRecord) : Entries :=
  (if record.authors = [] then []
    else ("enrichment_authors", textArray record.authors) ::
      if anyText record.authorOrcids then
        [("enrichment_author_orcids", optionalTextArray record.authorOrcids)]
      else []) ++
  (if anyText record.conceptIds then
      [("enrichment_concept_ids", optionalTextArray record.conceptIds)]
    else []) ++
  (if record.affiliations = [] then []
    else [("affiliation", .text ("; ".intercalate record.affiliations)),
      ("affiliations", textArray record.affiliations)]) ++
  ifTruthy "canonical_affiliations" (.array record.canonicalAffiliations) ++
  ifTruthy "author_affiliations" (.array record.authorAffiliations) ++
  ifTruthy "funding" (optionalArray record.funding) ++
  ifTruthy "tldr" (optionalText record.tldr) ++
  ifTruthy "mesh_terms" (optionalArray record.meshTerms) ++
  ifPresent "influential_citation_count" record.influentialCitationCount ++
  ifPresent "references_count" record.referencesCount ++
  ifTruthy "license" (optionalText record.license) ++
  ifTruthy "venue" (optionalText record.venue) ++
  ifTruthy "journal" (journalName record)

/-- The dictionary that `scrape` returns. -/
structure ScrapedFields where
  entries : List (String × String)
  keysDistinct : (entries.map Prod.fst).Nodup

inductive ScrapeAnswer where
  | fields (scraped : ScrapedFields)
  | circuitOpen
  | scrapeError
  | raised (exception : Raised)

/-- An active `WebScraperConfig` in the scope of the entity. -/
structure Scraper where
  name : String
  scrape : String → ScrapeAnswer

/-- What one call meets: the providers and the scrapers, the journal services, the domain's
classifier and the clock. -/
structure Answers where
  cascade : List Provider
  scrapers : List Scraper
  fetchSourceMetrics : String → Except Raised (Option JournalMetrics)
  /-- `upsert_journal_metric` does not raise -/
  upsertSucceeds : JournalMetrics → Bool
  /-- the profile that `classify_entity` stores -/
  epistemicProfile : RawEntity → Option Json
  failedAt : String

/-- The linking ISSN that the journal step stores; whatever it raises is only logged. -/
def journalIssnL (answers : Answers) (record : EnrichedRecord) : Option String :=
  match record.journal with
  | none => none
  | some journal =>
    match journal.sourceId.filter (· ≠ "") with
    | none => none
    | some sourceId =>
      match answers.fetchSourceMetrics sourceId with
      | .error _ => none
      | .ok fetched =>
        let full := fetched.getD journal
        let issnL := (full.issnL.filter (· ≠ "")).or journal.issnL
        if answers.upsertSucceeds { full with issnL := issnL } then issnL.filter (· ≠ "")
        else none

/-- `attrs["issn_l"] = …` inside the journal step, with the value for the column. -/
def assignIssnL : Json → Option String → Json × Option String
  | .object attrs, some issnL => (.object (assign attrs "issn_l" (.text issnL)), some issnL)
  | attrs, _ => (attrs, none)

def recordColumns (entity : RawEntity) (record : EnrichedRecord) (source : String) : RawEntity :=
  { entity with
    enrichmentDoi := record.doi
    enrichmentCitationCount := some (.count record.citationCount)
    enrichmentWorkType := record.workType
    enrichmentConcepts :=
      if record.concepts = [] then none else some (", ".intercalate record.concepts)
    enrichmentSource := some source
    enrichmentStatus := some .completed }

def cachedCountry (environment : Environment) (attrs : Entries) : Option String :=
  if (firstTruthy [get? attrs "extracted_country"]).truthy then none
  else
    let affiliation := firstTruthy
      [get? attrs "affiliation", get? attrs "affiliations", get? attrs "institution"]
    if affiliation.truthy then
      (environment.extractCountry (environment.python.str affiliation)).filter (· ≠ "")
    else none

def extractAndCacheCountry (environment : Environment) (entity : RawEntity) :
    Except Raised RawEntity :=
  match looseAttrs entity.attributesJson with
  | none => .ok entity
  | some (.object attrs) =>
    match cachedCountry environment attrs with
    | none => .ok entity
    | some country =>
      .ok { entity with
        attributesJson := .parsed (.object (assign attrs "extracted_country" (.text country))) }
  | some other => .error (noGet other)

/-- `_try_epistemic_classify`, which logs what it raises. -/
def tryEpistemicClassify (answers : Answers) (entity : RawEntity) : RawEntity :=
  match answers.epistemicProfile entity, (looseAttrs entity.attributesJson).getD (.object []) with
  | some profile, .object attrs =>
    { entity with
      attributesJson := .parsed (.object (assign attrs "epistemic_profile" profile)) }
  | _, _ => entity

/-- The branch of a found record.  What it raises leaves the entity as it was at that point. -/
def persistRecord (environment : Environment) (answers : Answers) (entity : RawEntity)
    (record : EnrichedRecord) (source : String) : Except (Raised × RawEntity) RawEntity :=
  let cleared := clearEnrichmentFailure (recordColumns entity record source)
  match loadedAttrs environment cleared.attributesJson with
  | .error raised => .error (raised, cleared)
  | .ok attrs =>
    match assignAll attrs (recordAttrs record) with
    | .error raised => .error (raised, cleared)
    | .ok filled =>
      let (final, issnL) := assignIssnL filled (journalIssnL answers record)
      let stored := { cleared with
        attributesJson := .parsed final
        enrichmentIssnL := issnL.or cleared.enrichmentIssnL }
      match extractAndCacheCountry environment stored with
      | .error raised => .error (raised, stored)
      | .ok cached =>
        -- the co-author edges are rows of another table
        match authorsFromAttrs environment.python cached.attributesJson with
        | .error _ => .error (noGet final, cached)
        | .ok _ => .ok (tryEpistemicClassify answers cached)

/-- The columns by name; a status or a source is overwritten before anything reads it. -/
def columnWriters (environment : Environment) : List (String × (RawEntity → String → RawEntity)) :=
  [("domain", fun entity value => { entity with domain := some value }),
    ("primary_label", fun entity value => { entity with primaryLabel := some value }),
    ("canonical_id", fun entity value => { entity with canonicalId := some value }),
    ("attributes_json", fun entity value =>
      { entity with attributesJson := environment.loads value }),
    ("enrichment_doi", fun entity value => { entity with enrichmentDoi := some value }),
    ("enrichment_citation_count", fun entity value =>
      { entity with enrichmentCitationCount := some (.scraped value) }),
    ("enrichment_concepts", fun entity value =>
      { entity with enrichmentConcepts := some value }),
    ("enrichment_source", fun entity value => { entity with enrichmentSource := some value }),
    ("enrichment_status", fun entity _ => entity),
    ("enrichment_failure_reason", fun entity value =>
      { entity with enrichmentFailureReason := some value }),
    ("enrichment_issn_l", fun entity value => { entity with enrichmentIssnL := some value }),
    ("enrichment_work_type", fun entity value =>
      { entity with enrichmentWorkType := some value })]

def columnWriter (environment : Environment) (field : String) :
    Option (RawEntity → String → RawEntity) :=
  (columnWriters environment).lookup field

/-- The exception of a `setattr` that does not go through. -/
def refusal (environment : Environment) (field : String) : Option Raised :=
  match columnWriter environment field, environment.otherAttribute field with
  | none, .refused raised => some raised
  | _, _ => none

/-- `if hasattr(entity, field): setattr(entity, field, value)` -/
def setField (environment : Environment) (entity : RawEntity) (field value : String) :
    Except Raised RawEntity :=
  match columnWriter environment field with
  | some write => .ok (write entity value)
  | none =>
    match environment.otherAttribute field with
    | .refused raised => .error raised
    | _ => .ok entity

def setFields (environment : Environment) :
    List (String × String) → RawEntity → Except (Raised × RawEntity) RawEntity
  | [], entity => .ok entity
  | (field, value) :: rest, entity =>
    match setField environment entity field value with
    | .error raised => .error (raised, entity)
    | .ok written => setFields environment rest written

inductive Scraped where
  | fields (scraper : String) (scraped : ScrapedFields)
  | nothing
  | raised (exception : Raised)

def searchScrapers (query : String) : List Scraper → Scraped
  | [] => .nothing
  | scraper :: rest =>
    match scraper.scrape query with
    | .fields scraped =>
      if scraped.entries = [] then searchScrapers query rest else .fields scraper.name scraped
    | .circuitOpen => searchScrapers query rest
    | .scrapeError => searchScrapers query rest
    | .raised exception => .raised exception

/-- `enrich_with_web_scrapers` of an entity with a label, `none` for `False`. -/
def enrichWithWebScrapers (environment : Environment) (answers : Answers) (query : String)
    (entity : RawEntity) : Except (Raised × RawEntity) (Option RawEntity) :=
  match searchScrapers query answers.scrapers with
  | .nothing => .ok none
  | .raised exception => .error (exception, entity)
  | .fields scraper scraped =>
    match setFields environment scraped.entries entity with
    | .error (raised, written) => .error (raised, written)
    | .ok written =>
      .ok (some { written with
        enrichmentSource := some scraper
        enrichmentStatus := some .completed })

def activeProviders (cascade : List Provider) : List Provider :=
  cascade.filter fun provider => provider.active.isSome

def noMatchReason (answers : Answers) (circuitOpenCount : Nat) : String :=
  let active := activeProviders answers.cascade
  if active ≠ [] ∧ active.length ≤ circuitOpenCount then EnrichmentFailureReason.circuitOpen
  else EnrichmentFailureReason.noMatch

/-- `enrich_single_record`, up to its commit. -/
def enrichSingleRecord (environment : Environment) (answers : Answers) (entity : RawEntity) :
    RawEntity :=
  match entity.primaryLabel.filter (· ≠ "") with
  | none => setEnrichmentFailed entity missingTitle answers.failedAt
  | some query =>
    match searchCascade query answers.cascade [] 0 with
    | .raised exception attempts =>
      setEnrichmentFailed entity (raisedFailure exception attempts) answers.failedAt
    | .found record source attempts =>
      match persistRecord environment answers entity record source with
      | .ok enriched => enriched
      | .error (raised, touched) =>
        setEnrichmentFailed touched (raisedFailure raised attempts) answers.failedAt
    | .noMatch attempts circuitOpenCount =>
      match enrichWithWebScrapers environment answers query entity with
      | .ok (some scraped) => scraped
      | .ok none =>
        setEnrichmentFailed { entity with enrichmentSource := some "None" }
          (noProviderMatch query attempts (noMatchReason answers circuitOpenCount))
          answers.failedAt
      | .error (raised, touched) =>
        setEnrichmentFailed touched (raisedFailure raised attempts) answers.failedAt

end Ukip.Enrichment.SingleRecord
