import Ukip.Authority.EntityWriteback
import Ukip.Authority.HierarchicalFallback
import Ukip.Foundation.Draining

/-!
# Batch resolution of author names

`authority/batch_resolution.py`.  Neither scan has an order: a scan is what the database
chooses to answer.
-/

namespace Ukip.Authority.BatchResolution

open Foundation.Grouping (firsts)
open Foundation.JsonValue
open Analytics.Corpus (RawEntity)
open Authority.EntityWriteback (strip)
open Tenancy.Access

def valueSourcePubAuthors : String := "publication_authors"

def valueSourcePubAffiliations : String := "publication_affiliations"

def pubScanLimit : Nat := 2000

/-- What a loop over `value or []` goes through; `none` where Python raises.  A text gives its
characters and a mapping its keys, which are texts. -/
def iterated : Option Json → Option (List Json)
  | none => some []
  | some value =>
    if value.truthy then
      match value with
      | .array items => some items
      | .text text => some (text.toList.map fun c => .text (String.singleton c))
      | .object entries => some (entries.map fun entry => .text entry.1)
      | _ => none
    else some []

def strippedText : Option Json → Option String
  | some (.text text) => if strip text = "" then none else some (strip text)
  | _ => none

def nameUnder (key : String) : Json → Option String
  | .object entries => strippedText (get? entries key)
  | _ => none

def namesFromAttrs (attrs : Entries) (valueSource : String) : Option (List String) :=
  if valueSource = valueSourcePubAuthors then
    (iterated (get? attrs "author_affiliations")).map (List.filterMap (nameUnder "author_name"))
  else if valueSource = valueSourcePubAffiliations then
    (iterated (get? attrs "canonical_affiliations")).map (List.filterMap (nameUnder "name"))
  else some []

section Scans

-- `json.loads` on a text, `none` for `JSONDecodeError`
variable (loads : String → Option Json)

/-- The attributes of a row; `none` if the loop passes over it. -/
def attrsOf (row : RawEntity) : Option Entries :=
  match row.attributesJson with
  | none => some []
  | some raw =>
    if raw = "" then some []
    else
      match loads raw with
      | some (.object attrs) => some attrs
      | _ => none

def namesOfRow (valueSource : String) (row : RawEntity) : Option (List String) :=
  match attrsOf loads row with
  | none => some []
  | some attrs => namesFromAttrs attrs valueSource

def publications (orgId : Option Int) (rows : List RawEntity) : List RawEntity :=
  rows.filter fun row =>
    inScope orgId row.orgId && row.entityType == some "publication" && row.attributesJson.isSome

/-- Without `ORDER BY`, a limited query answers any rows up to the limit, in any order. -/
def IsScan (matched : List RawEntity) (limit : Nat) (scan : List RawEntity) : Prop :=
  ∃ order : List RawEntity, order.Perm matched ∧ scan = order.take limit

def distinctValuesFromPublicationAttrs (valueSource : String) (scan : List RawEntity) :
    Option (List String) :=
  (scan.mapM (namesOfRow loads valueSource)).map fun names => firsts id names.flatten

structure Hint where
  orcidHint : Option String
  affiliation : Option String

/-- `insts and isinstance(insts[0], dict)`, and the name; the outer `none` where Python
raises. -/
def firstInstitution (aa : Entries) : Option (Option String) :=
  match get? aa "institutions" with
  | none => some none
  | some insts =>
    if insts.truthy then
      match insts with
      | .array (first :: _) => some (nameUnder "name" first)
      | .array [] => some none
      | .text _ => some none
      | _ => none
    else some none

def noteAuthor (hints : List (String × Hint)) (aa : Json) : Option (List (String × Hint)) :=
  match aa with
  | .object entries =>
    match strippedText (get? entries "author_name") with
    | none => some hints
    | some name =>
      let entry := (hints.lookup name).getD { orcidHint := none, affiliation := none }
      let orcidHint := entry.orcidHint.or (strippedText (get? entries "author_orcid"))
      let others := hints.filter fun hint => hint.1 ≠ name
      match entry.affiliation with
      | some affiliation =>
        some ((name, { orcidHint := orcidHint, affiliation := some affiliation }) :: others)
      | none =>
        (firstInstitution entries).map fun affiliation =>
          (name, { orcidHint := orcidHint, affiliation := affiliation }) :: others
  | _ => some hints

def noteRow (hints : List (String × Hint)) (row : RawEntity) : Option (List (String × Hint)) :=
  match attrsOf loads row with
  | none => some hints
  | some attrs =>
    (iterated (get? attrs "author_affiliations")).bind fun authors => authors.foldlM noteAuthor hints

def publicationAuthorHints (scan : List RawEntity) : Option (List (String × Hint)) :=
  scan.foldlM (noteRow loads) []

end Scans

/-- A row of `authority_records`; the columns that the batch copies from a candidate are kept
as the candidate. -/
structure AuthorityRecord (Score : Type) where
  orgId : Option Int
  fieldName : Option String
  originalValue : Option String
  status : Option String
  columns : AuthorityCandidate Score

structure Request where
  orgId : Option Int
  field : String
  entityType : String
  limit : Nat
  skipExisting : Bool
  entityTypeFilter : Option String
  valueSource : Option String

/-- `record_org_id`, as every caller passes it. -/
def Request.recordOrgId (request : Request) : Option Int := persistedOrgId request.orgId

/-- `resolve_fn`: the candidates for a value, an entity type and an `orcid_hint`. -/
abbrev Resolver (Score : Type) := String → String → Option String → List (AuthorityCandidate Score)

structure Answering (Score : Type) where
  scan : List RawEntity
  hintScan : List RawEntity
  resolve : Resolver Score

structure Summary where
  fieldName : String
  entityType : String
  resolvedCount : Nat
  skippedCount : Nat
  alreadyExistedCount : Nat
  recordsCreated : Nat

/-- What a batch runs with: the columns of the table of entities, the parser of JSON, the
Unicode database and the score 0.35. -/
structure Setting (Score : Type) where
  columns : String → Option (RawEntity → Option String)
  loads : String → Option Json
  unicode : Unicode
  floor : Score

section Batch

variable {Score : Type} [LinearOrder Score]
variable (setting : Setting Score)

def fromPublications (valueSource : Option String) : Bool :=
  valueSource == some valueSourcePubAuthors || valueSource == some valueSourcePubAffiliations

/-- `_distinct_values`; `SELECT DISTINCT` gives the values in any order. -/
def distinctValues (field : String) (scan : List RawEntity) : Option (List String) :=
  (setting.columns field).map fun column =>
    firsts id ((scan.filterMap column).filter fun value => value ≠ "")

def allValues (request : Request) (scan : List RawEntity) : Option (List String) :=
  match request.valueSource with
  | some source =>
    if fromPublications (some source) then
      distinctValuesFromPublicationAttrs setting.loads source scan
    else distinctValues setting request.field scan
  | none => distinctValues setting request.field scan

def valueHints (request : Request) (hintScan : List RawEntity) : Option (List (String × Hint)) :=
  if request.valueSource = some valueSourcePubAuthors then
    publicationAuthorHints setting.loads hintScan
  else some []

/-- The records that `skip_existing` looks for. -/
def covers (request : Request) (record : AuthorityRecord Score) : Bool :=
  inScope request.orgId record.orgId && record.fieldName == some request.field &&
    ["pending", "confirmed"].any fun status => record.status == some status

def existingValues (request : Request) (records : List (AuthorityRecord Score)) : List String :=
  (records.filter (covers request)).filterMap AuthorityRecord.originalValue

/-- The values that are left after `skip_existing`. -/
def newValues (request : Request) (records : List (AuthorityRecord Score)) (values : List String) :
    List String :=
  if request.skipExisting then values.filter fun value => value ∉ existingValues request records
  else values

/-- `hint.get("orcid_hint")` of the value's hint. -/
def orcidHintOf (hints : List (String × Hint)) (value : String) : Option String :=
  (hints.lookup value).bind Hint.orcidHint

def candidatesFor (request : Request) (resolve : Resolver Score) (hints : List (String × Hint))
    (value : String) : List (AuthorityCandidate Score) :=
  applyHierarchicalFallback setting.unicode setting.floor value request.entityType
    (resolve value request.entityType (orcidHintOf hints value))

def recordOf (request : Request) (value : String) (candidate : AuthorityCandidate Score) :
    AuthorityRecord Score where
  orgId := request.recordOrgId
  fieldName := some request.field
  originalValue := some value
  status := some "pending"
  columns := candidate

/-- A batch: the values that it resolves, what it reports, and its records. -/
structure Batch (Score : Type) where
  toResolve : List String
  summary : Summary
  newRecords : List (AuthorityRecord Score)

/-- `execute_batch_resolution`; `none` where it raises, before it writes anything. -/
def executeBatchResolution (request : Request) (records : List (AuthorityRecord Score))
    (answering : Answering Score) : Option (Batch Score) :=
  (allValues setting request answering.scan).bind fun values =>
    (valueHints setting request answering.hintScan).map fun hints =>
      let filtered := newValues request records values
      let toResolve := filtered.take request.limit
      let newRecords := toResolve.flatMap fun value =>
        (candidatesFor setting request answering.resolve hints value).map (recordOf request value)
      { toResolve := toResolve
        summary :=
          { fieldName := request.field
            entityType := request.entityType
            resolvedCount := toResolve.length
            skippedCount := filtered.length - toResolve.length
            alreadyExistedCount := values.length - filtered.length
            recordsCreated := newRecords.length }
        newRecords := newRecords }

def presented (request : Request) (records : List (AuthorityRecord Score))
    (answering : Answering Score) : List String :=
  match executeBatchResolution setting request records answering with
  | some batch => batch.toResolve
  | none => []

def afterBatch (request : Request) (records : List (AuthorityRecord Score))
    (answering : Answering Score) : List (AuthorityRecord Score) :=
  match executeBatchResolution setting request records answering with
  | some batch => records ++ batch.newRecords
  | none => records

def presentedAt (request : Request) (records : List (AuthorityRecord Score))
    (answerings : Nat → Answering Score) : Nat → List String
  | 0 => presented setting request records (answerings 0)
  | time + 1 =>
    presentedAt request (afterBatch setting request records (answerings 0))
      (fun later => answerings (later + 1)) time

end Batch

end Ukip.Authority.BatchResolution
