import Mathlib
import Ukip.Foundation.Tally
import Ukip.Tenancy.Access

/-!
# Keyword signals of a corpus

The first half of `materialize_keyword_signals` in `semantic_keyword_signal_engine.py`:
the corpus, the terms of its entities and the ranked signals.  Text is a list of
characters.
-/

namespace Ukip.Signals.Keywords

open Foundation.Tally (sortedBy)
open Tenancy.Access

abbrev Text := List Char

local instance : LawfulBEq Text := inferInstance

/-- What `json.loads` gives. -/
inductive Json where
  | null
  | bool (value : Bool)
  | number (literal : Text) (isZero : Bool)
  | text (value : Text)
  | array (items : List Json)
  | object (fields : List (Text × Json))

abbrev Attributes := List (Text × Json)

def text (word : String) : Text := word.toList

def isWordChar (char : Char) : Bool :=
  ('a' ≤ char && char ≤ 'z') || ('0' ≤ char && char ≤ '9') || char ∈ "áéíóúüñ".toList

structure Python where
  lower : Text → Text
  isSpace : Char → Bool
  /-- `str` of what is neither a string nor a list -/
  str : Json → Text
  /-- `int`, none where it raises -/
  int : Json → Option Int
  isSpace_blank : isSpace ' ' = true
  isSpace_word : ∀ char, isWordChar char = true → isSpace char = false
  lower_words : ∀ words : Text, (∀ char ∈ words, isWordChar char = true ∨ char = ' ') →
    lower words = words

def isTruthy : Json → Bool
  | .null => false
  | .bool value => value
  | .number _ isZero => !isZero
  | .text value => value != []
  | .array items => !items.isEmpty
  | .object fields => !fields.isEmpty

/-- `first or second or …` -/
def firstTruthy : List Json → Json
  | [] => .null
  | [last] => last
  | value :: rest => if isTruthy value then value else firstTruthy rest

def get (attributes : Attributes) (key : String) : Json :=
  ((attributes.find? fun entry => entry.1 == text key).map Prod.snd).getD .null

/-- `value if isinstance(value, dict) else {}` -/
def asObject : Json → Attributes
  | .object fields => fields
  | _ => []

/-- `items[:limit]` -/
def upTo {Item : Type} (limit : Int) (items : List Item) : List Item :=
  if 0 ≤ limit then items.take limit.toNat else items.take (items.length - limit.natAbs)

/-- `re.sub` of the maximal runs of `isOut` by one character. -/
def subRuns (isOut : Char → Bool) (new : Char) : Bool → Text → Text
  | _, [] => []
  | inRun, char :: rest =>
    if isOut char then
      if inRun then subRuns isOut new true rest else new :: subRuns isOut new true rest
    else char :: subRuns isOut new false rest

def strip (isOut : Char → Bool) (value : Text) : Text :=
  ((value.dropWhile isOut).reverse.dropWhile isOut).reverse

def joined (parts : List Text) : Text := [' '].intercalate parts

/-- `part in whole` -/
def isPartOf (part whole : Text) : Bool := whole.tails.any part.isPrefixOf

variable (python : Python)

def str : Json → Text
  | .text value => value
  | other => python.str other

/-- A match of `https?://\S+` starts here. -/
def startsUrl (isSpace : Char → Bool) (value : Text) : Bool :=
  ["http://", "https://"].any fun scheme =>
    (text scheme).isPrefixOf value &&
      match value.drop scheme.length with
      | [] => false
      | char :: _ => !isSpace char

def dropUrls (isSpace : Char → Bool) : Bool → Text → Text
  | _, [] => []
  | true, char :: rest =>
    if isSpace char then char :: dropUrls isSpace false rest else dropUrls isSpace true rest
  | false, char :: rest =>
    if startsUrl isSpace (char :: rest) then ' ' :: dropUrls isSpace true rest
    else char :: dropUrls isSpace false rest

def clean (value : Text) : Text :=
  let lowered := python.lower value
  let withoutUrls := dropUrls python.isSpace false lowered
  let allowed := subRuns
    (fun char => !(isWordChar char || python.isSpace char || char == '-')) ' ' false withoutUrls
  strip python.isSpace (subRuns python.isSpace ' ' false allowed)

def normalizeText : Json → Text
  | .null => []
  | .array items =>
    clean python (joined ((items.filter fun item =>
      match item with
      | .null => false
      | _ => true).map (str python)))
  | value => clean python (str python value)

def stopwords : List Text :=
  ["a", "an", "and", "are", "as", "at", "be", "by", "de", "del", "el", "en", "for", "from",
    "in", "is", "la", "las", "los", "of", "on", "or", "para", "por", "the", "to", "un", "una",
    "with", "y"].map text

def isToken (token : Text) : Bool := 3 ≤ token.length && token ∉ stopwords

def tokens (value : Json) : List Text :=
  ((normalizeText python value).splitOnP fun char => python.isSpace char || char == '-').filter
    isToken

def ngrams (words : List Text) : List Text :=
  [1, 2, 3, 4].flatMap fun n =>
    (List.range (words.length + 1 - n)).filterMap fun index =>
      let phrase := (words.drop index).take n
      if phrase.all (fun token => token ∈ stopwords) then none else some (joined phrase)

def slug (label : Text) : Text :=
  let dashed := subRuns (fun char =>
    !(('a' ≤ char && char ≤ 'z') || ('0' ≤ char && char ≤ '9'))) '-' false (clean python label)
  let short := (strip (fun char => char == '-') dashed).take 96
  if short = [] then text "keyword" else short

inductive Classification where
  | longTail
  | midTail
  | shortTail
  deriving DecidableEq

def Classification.rank : Classification → Nat
  | longTail => 0
  | midTail => 1
  | shortTail => 2

structure SemanticSignal where
  keyword : Text
  classification : Classification
  supportCount : Nat
  externalSupport : Int
  opportunityScore : Int
  sourceFields : List String
  externalSourceTypes : List Text

structure ExternalSupport where
  keyword : Text
  externalSupport : Int
  externalSourceTypes : List Text

/-- A row of `raw_entities`: `attributes` is the object in `attributes_json` without the
keys that a run writes, which are the last two fields. -/
structure SignalEntity where
  id : Nat
  orgId : Option Int
  domain : Option String
  entityType : Option String
  primaryLabel : Option Text
  canonicalId : Option Text
  source : Option String
  enrichmentConcepts : Option Text
  attributes : Attributes
  semanticSignal : Option SemanticSignal
  externalSupport : Option ExternalSupport

structure Request where
  domainId : String
  orgId : Option Int
  persist : Bool
  limit : Int

def inDomain (domainId : String) (column : Option String) : Bool :=
  if domainId = "" ∨ domainId = "all" then true
  else if domainId = "default" then column == some "default" || column.isNone
  else column == some domainId

def inQuery (request : Request) (row : SignalEntity) : Bool :=
  inScope request.orgId row.orgId && inDomain request.domainId row.domain

/-- `LIMIT 2000` without an order. -/
structure Page where
  pick : List SignalEntity → List SignalEntity
  pick_subset : ∀ rows, pick rows ⊆ rows
  pick_perm : ∀ rows, rows.length ≤ 2000 → (pick rows).Perm rows

def corpus (page : Page) (request : Request) (rows : List SignalEntity) : List SignalEntity :=
  page.pick (rows.filter (inQuery request))

def textOrEmpty (column : Option Text) : Json := .text (column.getD [])

def extractTextSources (entity : SignalEntity) : List (String × Json) :=
  let attrs := entity.attributes
  let rawRecord := asObject (get attrs "raw_record")
  let empty : Json := .text []
  [("abstract", firstTruthy [get attrs "abstract", get attrs "summary", get attrs "resumen",
      get attrs "description", get rawRecord "abstract", get rawRecord "AB", empty]),
    ("document_type", firstTruthy [get attrs "document_type", get attrs "type", empty]),
    ("enrichment_concepts", textOrEmpty entity.enrichmentConcepts),
    ("journal", firstTruthy [get attrs "journal", get attrs "source_title", get attrs "venue",
      empty]),
    ("keywords", firstTruthy [get attrs "keywords", get rawRecord "keywords",
      get rawRecord "DE", empty]),
    ("title", textOrEmpty entity.primaryLabel)]

def fieldTerms (value : Json) : List Text := ngrams (tokens python value)

def terms (entity : SignalEntity) : List Text :=
  (extractTextSources entity).flatMap fun field => fieldTerms python field.2

def observationText (observation : Attributes) : Text :=
  let fields := ["title", "description", "snippet", "summary", "source_name", "url"].map
    (get observation)
  clean python (joined ((fields.filter isTruthy).map (str python)))

def observations (attrs : Attributes) : List Attributes :=
  let raw := firstTruthy [get attrs "external_attention_observations",
    get attrs "external_attention", get attrs "attention_observations", .array []]
  let items := match raw with
    | .object fields => firstTruthy [get fields "observations", get fields "mentions", .array []]
    | other => other
  match items with
  | .array items => items.filterMap fun item =>
    match item with
    | .object fields => some fields
    | _ => none
  | _ => []

def mentionCount (observation : Attributes) : Int :=
  max 1 ((python.int (firstTruthy [get observation "mention_count", get observation "mentions",
    get observation "count", .number (text "1") false])).getD 1)

def sourceType (observation : Attributes) : Text :=
  let raw := str python (firstTruthy [get observation "source_type", .text (text "other")])
  let named := (python.lower (strip python.isSpace raw)).map fun char =>
    if char = '-' then '_' else char
  if named = [] then text "other" else named

def mentioning (attrs : Attributes) (keyword : Text) : List Attributes :=
  (observations attrs).filter fun observation =>
    clean python keyword != [] && isPartOf (clean python keyword) (observationText python observation)

structure Scoring where
  /-- `tfidf >= 1.0` -/
  isDistinctive : (tf support totalDocs : Nat) → Bool
  opportunity : (tf support totalDocs words : Nat) → (externalSupport : Int) → Int

structure Signal where
  keyword : Text
  classification : Classification
  supportCount : Nat
  externalSupport : Int
  externalSourceTypes : List Text
  opportunityScore : Int
  sourceFields : List String
  entityIds : List Nat

variable (scoring : Scoring)

def documents (entities : List SignalEntity) (term : Text) : List SignalEntity :=
  entities.filter fun entity => term ∈ terms python entity

def entityIds (entities : List SignalEntity) (term : Text) : List Nat :=
  sortedBy (fun first second => first ≤ second)
    ((documents python entities term).map fun entity => entity.id).dedup

def totalDocs (entities : List SignalEntity) : Nat :=
  max 1 (entities.filter fun entity => terms python entity != []).length

def wordCount (term : Text) : Nat := (term.splitOn ' ').length

def tailClassification (term : Text) (tf support totalDocs : Nat) : Classification :=
  if 2 ≤ wordCount term ∧ (support ≤ 3 ∨ scoring.isDistinctive tf support totalDocs = true) then
    .longTail
  else if 10 ≤ support ∨ totalDocs ≤ 4 * support then .shortTail
  else .midTail

def signalOf (entities : List SignalEntity) (term : Text) : Signal :=
  let docs := documents python entities term
  let ids := entityIds python entities term
  let mentions := docs.flatMap fun entity => mentioning python entity.attributes term
  let externalSupport := (mentions.map (mentionCount python)).sum
  { keyword := term
    classification :=
      tailClassification scoring term docs.length ids.length (totalDocs python entities)
    supportCount := ids.length
    externalSupport := externalSupport
    externalSourceTypes := sortedBy (fun first second => first ≤ second)
      (mentions.map (sourceType python)).dedup
    opportunityScore := scoring.opportunity docs.length ids.length (totalDocs python entities)
      (wordCount term) externalSupport
    sourceFields := ["abstract", "document_type", "enrichment_concepts", "journal", "keywords",
      "title"].filter fun name => entities.any fun entity =>
        (extractTextSources entity).any fun field =>
          field.1 == name && (fieldTerms python field.2).contains term
    entityIds := ids }

/-- The key of `signals.sort`. -/
def ranksBefore (first second : Signal) : Bool :=
  if first.opportunityScore ≠ second.opportunityScore then
    second.opportunityScore < first.opportunityScore
  else if first.classification ≠ second.classification then
    first.classification.rank < second.classification.rank
  else first.keyword ≤ second.keyword

def allTerms (entities : List SignalEntity) : List Text := (entities.flatMap (terms python)).dedup

def signals (entities : List SignalEntity) : List Signal :=
  sortedBy ranksBefore ((allTerms python entities).map (signalOf python scoring entities))

def topSignals (request : Request) (entities : List SignalEntity) : List Signal :=
  upTo request.limit (signals python scoring entities)

end Ukip.Signals.Keywords
