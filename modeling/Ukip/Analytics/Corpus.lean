import Mathlib
import Ukip.Tenancy.Access

/-!
# The corpus of the analyzers

The columns of `raw_entities` that the analyzers read, the concepts of one record, and
the rows that `_load_concepts_df` selects.  A result set lists its rows in the order in
which the table stores them.
-/

namespace Ukip.Analytics.Corpus

open Foundation.SqlTruth Tenancy.Access

/-- A row of `raw_entities`; a column of another type than text holds its text. -/
structure RawEntity where
  id : Nat
  orgId : Option Int := none
  domain : Option String
  entityType : Option String := none
  primaryLabel : Option String := none
  secondaryLabel : Option String := none
  canonicalId : Option String := none
  attributesJson : Option String
  validationStatus : Option String
  normalizedJson : Option String := none
  enrichmentDoi : Option String := none
  enrichmentCitationCount : Option String
  enrichmentConcepts : Option String := none
  enrichmentSource : Option String := none
  enrichmentStatus : Option String
  enrichmentFailureReason : Option String := none
  enrichmentIssnL : Option String := none
  enrichmentWorkType : Option String := none
  qualityScore : Option String := none
  updatedAt : Option String := none
  source : Option String
  importBatchId : Option String := none
  deriving DecidableEq

def column (name : String) : Option (RawEntity → Option String) :=
  match name with
  | "id" => some fun row => some (toString row.id)
  | "org_id" => some fun row => row.orgId.map toString
  | "domain" => some RawEntity.domain
  | "entity_type" => some RawEntity.entityType
  | "primary_label" => some RawEntity.primaryLabel
  | "secondary_label" => some RawEntity.secondaryLabel
  | "canonical_id" => some RawEntity.canonicalId
  | "attributes_json" => some RawEntity.attributesJson
  | "validation_status" => some RawEntity.validationStatus
  | "normalized_json" => some RawEntity.normalizedJson
  | "enrichment_doi" => some RawEntity.enrichmentDoi
  | "enrichment_citation_count" => some RawEntity.enrichmentCitationCount
  | "enrichment_concepts" => some RawEntity.enrichmentConcepts
  | "enrichment_source" => some RawEntity.enrichmentSource
  | "enrichment_status" => some RawEntity.enrichmentStatus
  | "enrichment_failure_reason" => some RawEntity.enrichmentFailureReason
  | "enrichment_issn_l" => some RawEntity.enrichmentIssnL
  | "enrichment_work_type" => some RawEntity.enrichmentWorkType
  | "quality_score" => some RawEntity.qualityScore
  | "updated_at" => some RawEntity.updatedAt
  | "source" => some RawEntity.source
  | "import_batch_id" => some RawEntity.importBatchId
  | _ => none

/-- `[;,|]` -/
def isSeparator (char : Char) : Bool := char ∈ [';', ',', '|']

/-- The characters that Rust's `trim` removes: the Unicode property White_Space. -/
def isWhiteSpace (char : Char) : Bool :=
  let code := char.toNat
  (0x09 ≤ code && code ≤ 0x0d) || code ∈ [0x20, 0x85, 0xa0, 0x1680] ||
    (0x2000 ≤ code && code ≤ 0x200a) || code ∈ [0x2028, 0x2029, 0x202f, 0x205f, 0x3000]

/-- `str.isspace` also counts the four information separators. -/
def isPythonSpace (char : Char) : Bool :=
  isWhiteSpace char || (0x1c ≤ char.toNat && char.toNat ≤ 0x1f)

def strip (isSpace : Char → Bool) (text : List Char) : List Char :=
  ((text.dropWhile isSpace).reverse.dropWhile isSpace).reverse

def parseParts (isSpace : Char → Bool) (raw : String) : List String :=
  (((raw.toList.splitOnP isSeparator).map (strip isSpace)).filter (· ≠ [])).map String.ofList

def parseConcepts : Option String → List String
  | none => []
  | some raw => parseParts isPythonSpace raw

inductive Json where
  | null
  | bool (value : Bool)
  /-- `zero` is its truth value -/
  | number (zero : Bool)
  | text (value : String)
  | array (items : List Json)
  | object (entries : List (String × Json))

/-- The parts of the language's standard library that the analyzers call. -/
structure Python where
  /-- `json.loads`; `none` is the ValueError -/
  loads : String → Option Json
  /-- `str` of a value that is no text -/
  shown : Json → String
  casefold : String → String

def Json.truthy : Json → Bool
  | .null => false
  | .bool value => value
  | .number zero => !zero
  | .text value => value ≠ ""
  | .array items => !items.isEmpty
  | .object entries => !entries.isEmpty

/-- `mapping.get(key)`; a repeated key has its last value. -/
def lookup (entries : List (String × Json)) (key : String) : Json :=
  ((entries.reverse.find? fun entry => entry.1 == key).map Prod.snd).getD .null

variable (python : Python)

def Python.str : Json → String
  | .text value => value
  | other => python.shown other

/-- `value.get("display_name") or value.get("name") or ...` -/
def conceptLabel (entries : List (String × Json)) : Json :=
  (((["display_name", "name", "label", "concept"].map (lookup entries)).find?
    Json.truthy).getD .null)

/-- `_parse_concepts(str(label)) if label else []` -/
def labelConcepts (entries : List (String × Json)) : List String :=
  let label := conceptLabel entries
  if label.truthy then parseConcepts (some (python.str label)) else []

def parseConceptsFromValue : Json → List String
  | .null => []
  | .text value => parseConcepts (some value)
  | .array items => items.flatMap fun item =>
    match item with
    | .text value => parseConcepts (some value)
    | .object entries => labelConcepts python entries
    | _ => []
  | .object entries => labelConcepts python entries
  | other => parseConcepts (some (python.str other))

/-- `json.loads(attributes_json) or {}`, `{}` also for a text that does not parse;
`none` is a value without `get`. -/
def loadAttributes (attributesJson : Option String) : Option (List (String × Json)) :=
  match attributesJson with
  | none => some []
  | some raw =>
    if raw = "" then some []
    else
      match python.loads raw with
      | none => some []
      | some parsed =>
        if !parsed.truthy then some []
        else
          match parsed with
          | .object entries => some entries
          | _ => none

def dedupeConcepts : List String → List String → List String
  | _, [] => []
  | seen, concept :: rest =>
    let normalized := String.ofList (strip isPythonSpace concept.toList)
    if normalized = "" then dedupeConcepts seen rest
    else if python.casefold normalized ∈ seen then dedupeConcepts seen rest
    else normalized :: dedupeConcepts (python.casefold normalized :: seen) rest

/-- `_parse_record_concepts`; `none` is an AttributeError. -/
def parseRecordConcepts (raw attributesJson : Option String) : Option (List String) :=
  let direct := parseConcepts raw
  if direct ≠ [] then some direct
  else
    (loadAttributes python attributesJson).map fun attrs =>
      dedupeConcepts python [] (["concepts", "keywords", "topics", "topic", "subjects"].flatMap
        fun key => parseConceptsFromValue python (lookup attrs key))

/-- `attributes_json LIKE '%"key"%'` -/
def mentions (key : String) (attributesJson : Option String) : Bool :=
  selects (attributesJson.map fun text => decide (("\"" ++ key ++ "\"").toList <:+: text.toList))

def hasConceptText (row : RawEntity) : Bool :=
  selects (both (isNotNull row.enrichmentConcepts)
    (compare (fun stored empty => stored != empty) row.enrichmentConcepts (some "")))

def hasConceptSource (row : RawEntity) : Bool :=
  hasConceptText row || mentions "keywords" row.attributesJson ||
    mentions "concepts" row.attributesJson || mentions "topics" row.attributesJson ||
    mentions "subjects" row.attributesJson

def inDomain (domainId : String) (row : RawEntity) : Bool :=
  if domainId = "all" then true
  else if domainId = "default" then row.domain == some domainId || row.domain.isNone
  else row.domain == some domainId

/-- `_load_concepts_df` -/
def loadConcepts (rows : List RawEntity) (domainId : String) (scope : Option Int) :
    List RawEntity :=
  rows.filter fun row => hasConceptSource row && inDomain domainId row && inScope scope row.orgId

def conceptLists (rows : List RawEntity) : Option (List (List String)) :=
  rows.mapM fun row => parseRecordConcepts python row.enrichmentConcepts row.attributesJson

/-- Domains by id, each with the names of its attributes. -/
abbrev Registry := String → Option (List String)

/-- `_validate_domain` does not raise. -/
def knownDomain (registry : Registry) (rows : List RawEntity) (domainId : String)
    (scope : Option Int) : Bool :=
  domainId ∈ ["all", "default"] || (registry domainId).isSome ||
    rows.any fun row => row.domain == some domainId && inScope scope row.orgId

end Ukip.Analytics.Corpus
