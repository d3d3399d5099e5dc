import Ukip.Foundation.CountedRun
import Ukip.Foundation.Rewriting
import Ukip.Tenancy.Access

/-!
# Applying the normalization rules

`apply_rules` of `routers/disambiguation.py`, with the bulk path through the engine's
normalization pipeline (`engine_delegation.py`, `pipelines/normalization/mod.rs`) and the
local path, which runs the rules in the order in which they were read.

The session does not flush before its queries, so an attribute that a rule has assigned
is a pending change: a later rule reads it from the object, and an UPDATE statement does
not see it.
-/

namespace Ukip.Normalization.Rules

open Foundation.CountedRun Foundation.Rewriting Tenancy.Access

inductive ColumnType where
  | integer
  | float
  | moment
  | text
  deriving DecidableEq

/-- The columns of `raw_entities`. -/
def columns : List (String × ColumnType) :=
  [("id", .integer), ("org_id", .integer), ("import_batch_id", .integer), ("domain", .text),
    ("entity_type", .text), ("primary_label", .text), ("secondary_label", .text),
    ("canonical_id", .text), ("attributes_json", .text), ("validation_status", .text),
    ("normalized_json", .text), ("enrichment_doi", .text),
    ("enrichment_citation_count", .integer), ("enrichment_concepts", .text),
    ("enrichment_source", .text), ("enrichment_status", .text),
    ("enrichment_failure_reason", .text), ("enrichment_issn_l", .text),
    ("enrichment_work_type", .text), ("quality_score", .float), ("updated_at", .moment),
    ("source", .text)]

def columnType (name : String) : Option ColumnType :=
  (columns.find? fun column => column.1 == name).map Prod.snd

inductive Value where
  | integer (value : Int)
  | float (value : Rat)
  | moment (value : Int)
  | text (value : String)
  deriving DecidableEq

/-- `if original:` -/
def Value.truthy : Value → Bool
  | .integer value => value != 0
  | .float value => value != 0
  | .moment _ => true
  | .text value => value != ""

/-- A row of `raw_entities`, by column; NULL is nothing. -/
abbrev RawEntity := String → Option Value

/-- A row as the session has it: what the table holds, and the assigned attributes that
are not flushed yet. -/
structure SessionRow where
  stored : RawEntity
  pending : String → Option Value

structure NormalizationRule where
  orgId : Option Int
  fieldName : String
  originalValue : String
  canonicalValue : String
  ruleType : String

def NormalizationRule.normalizedValue (rule : NormalizationRule) : String := rule.canonicalValue

def NormalizationRule.isRegex (rule : NormalizationRule) : Bool := rule.ruleType == "regex"

/-- What `re.sub` does: the text, an `re.error`, or another exception. -/
inductive Substitution where
  | text (value : String)
  | error
  | raised

/-- The database driver, Python's `re` and `json`, and SQLAlchemy. -/
structure Platform where
  /-- The value of a bound text beside a column of another type, unless it is refused. -/
  readInteger : String → Option Int
  readFloat : String → Option Rat
  readMoment : String → Option Int
  /-- `hasattr` of the mapped class, for a name that is no column. -/
  classAttribute : String → Bool
  sub : String → String → String → Substitution
  /-- What a regex rule on such an attribute counts for one row, unless it raises. -/
  subAttribute : NormalizationRule → Option Nat
  /-- `json.loads(text).get(field)`, where it is a text. -/
  jsonField : String → String → Option String
  /-- `json.dumps` of the object with the field set. -/
  jsonWith : String → String → String → String
  /-- What an UPDATE of a column leaves of a pending change of the same column. -/
  synchronize : Rewrite String Value → Option Value → Value → Option Value

variable (platform : Platform) (scope : Option Int)

def Platform.read : ColumnType → String → Option Value
  | .integer, text => (platform.readInteger text).map Value.integer
  | .float, text => (platform.readFloat text).map Value.float
  | .moment, text => (platform.readMoment text).map Value.moment
  | .text, text => some (.text text)

inductive FieldKind where
  | column (type : ColumnType)
  | classMember
  | json
  deriving DecidableEq

def Platform.fieldKind (name : String) : FieldKind :=
  match columnType name with
  | some type => .column type
  | none => if platform.classAttribute name then .classMember else .json

/-- `hasattr(models.RawEntity, rule.field_name)` -/
def Platform.hasAttribute (name : String) : Bool := platform.fieldKind name != .json

def RawEntity.orgId (row : RawEntity) : Option Int :=
  match row "org_id" with
  | some (.integer value) => some value
  | _ => none

def SessionRow.current (row : SessionRow) (column : String) : Option Value :=
  (row.pending column).or (row.stored column)

/-- The rows of `entity_base_q(db, "all", org_id)`; a NULL source passes no comparison. -/
def visible (row : SessionRow) : Bool :=
  (match row.stored "source" with
    | some source => source != .text "graph_materializer"
    | none => false) && inScope scope row.stored.orgId

/-- `setattr`, where there is a new value. -/
def SessionRow.assign (row : SessionRow) (column : String) : Option Value → SessionRow × Nat
  | none => (row, 0)
  | some value => ({ row with pending := Function.update row.pending column (some value) }, 1)

def Platform.columnRewrite (rule : NormalizationRule) : Option (Rewrite String Value) :=
  (columnType rule.fieldName).bind fun type =>
    (platform.read type rule.originalValue).bind fun original =>
      (platform.read type rule.normalizedValue).map fun normalized =>
        ⟨rule.fieldName, original, normalized⟩

/-- `update(models.RawEntity).where(...).values(...)` -/
def executeUpdate (rewrite : Rewrite String Value) (row : SessionRow) : SessionRow × Nat :=
  if inScope scope row.stored.orgId then
    let applied := applyRewrite rewrite row.stored
    ({ stored := applied.1
       pending := Function.update row.pending rewrite.key
         ((row.pending rewrite.key).bind
           (platform.synchronize rewrite (row.stored rewrite.key))) }, applied.2)
  else (row, 0)

def exactStep (rule : NormalizationRule) : Counted SessionRow := fun row =>
  (platform.columnRewrite rule).map fun rewrite => executeUpdate platform scope rewrite row

def assignStep (column : String) (change : Option Value → Option Value → Option (Option Value)) :
    Counted SessionRow := fun row =>
  if visible scope row then
    (change (row.stored column) (row.pending column)).map (row.assign column)
  else some (row, 0)

/-- `re.sub` over a column: an `re.error` is passed over, any other exception is not. -/
def regexChange (rule : NormalizationRule) (stored pending : Option Value) :
    Option (Option Value) :=
  if stored.isNone then some none
  else
    match pending.or stored with
    | none => some none
    | some value =>
      if value.truthy then
        match value with
        | .text original =>
          match platform.sub rule.originalValue rule.normalizedValue original with
          | .text changed => some (if changed = original then none else some (.text changed))
          | .error => some none
          | .raised => none
        | _ => none
      else some none

/-- `json.loads(entity.normalized_json or "{}").get(rule.field_name)`, where it is a text and
not empty: any other value stays as it is. -/
def Platform.getField (json field : String) : Option String :=
  if json = "" then none else (platform.jsonField json field).filter fun value => value != ""

def jsonText (rule : NormalizationRule) (original : String) : Option String :=
  if rule.isRegex then
    match platform.sub rule.originalValue rule.normalizedValue original with
    | .text changed => if changed = original then none else some changed
    | _ => none
  else if original = rule.originalValue ∧ rule.normalizedValue ≠ original then
    some rule.normalizedValue
  else none

/-- A rule on a field of `normalized_json`. -/
def jsonChange (rule : NormalizationRule) (stored pending : Option Value) :
    Option (Option Value) :=
  if stored.isNone then some none
  else
    match pending.or stored with
    | some (.text json) =>
      some ((platform.getField json rule.fieldName).bind fun original =>
        (jsonText platform rule original).map fun changed =>
          .text (platform.jsonWith json rule.fieldName changed))
    | _ => some none

def attributeStep (rule : NormalizationRule) : Counted SessionRow := fun row =>
  if visible scope row then (platform.subAttribute rule).map fun count => (row, count)
  else some (row, 0)

def ruleStep (rule : NormalizationRule) : Counted SessionRow :=
  match platform.fieldKind rule.fieldName with
  | .column _ =>
    if rule.isRegex then assignStep scope rule.fieldName (regexChange platform rule)
    else exactStep platform scope rule
  | .classMember =>
    if rule.isRegex then attributeStep platform scope rule
    -- Unconsumed column names.
    else fun _ => none
  | .json => assignStep scope "normalized_json" (jsonChange platform rule)

def refused (rule : NormalizationRule) : Bool :=
  !rule.isRegex && platform.hasAttribute rule.fieldName && (platform.columnRewrite rule).isNone

/-- An engine that answers: Rust's `Regex::new` and `Regex::replace_all`. -/
structure EngineClient where
  compiles : String → Bool
  replaceAll : String → String → String → String

/-- `apply_rules` of the pipeline, over the patterns that compile. -/
def EngineClient.applyRules (engine : EngineClient) (rules : List (String × String))
    (value : String) : String :=
  (rules.filter fun rule => engine.compiles rule.1).foldl
    (fun result rule => engine.replaceAll rule.1 rule.2 result) value

/-- `validate`, then `process`, in mode `rules`. -/
def EngineClient.processNormalization (engine : EngineClient) (values : List String)
    (rules : List (String × String)) : Option (List String) :=
  if values.isEmpty then none
  else if 50000 < values.length then none
  else if rules.isEmpty then none
  else if 1000 < rules.length then none
  else some (values.map (engine.applyRules rules))

def maxDelegationValues : Nat := 50000

/-- `mapping[key] = value` -/
def setItem (mapping : List (String × String)) (key value : String) : List (String × String) :=
  if mapping.any fun item => item.1 == key then
    mapping.map fun item => if item.1 == key then (key, value) else item
  else mapping ++ [(key, value)]

def tryEngineNormalization (client : Option EngineClient) (values : List String)
    (rules : List (String × String)) : Option (List (String × String)) :=
  client.bind fun engine =>
    let values :=
      if maxDelegationValues < values.length then values.take maxDelegationValues else values
    (engine.processNormalization values rules).map fun normalized =>
      (values.zip normalized).foldl
        (fun mapping pair => if pair.2 != pair.1 then setItem mapping pair.1 pair.2 else mapping) []

def engineRules (mapping : List (String × String)) (exactRules : List NormalizationRule) :
    List NormalizationRule :=
  mapping.flatMap fun item =>
    (exactRules.filter fun rule =>
      rule.originalValue == item.1 && platform.hasAttribute rule.fieldName).map fun rule =>
        { rule with canonicalValue := item.2 }

structure ApplyResponse where
  message : String
  rulesApplied : Nat
  recordsUpdated : Nat

def selectRules (fieldName : Option String) (rules : List NormalizationRule) :
    List NormalizationRule :=
  rules.filter fun rule => inScope scope rule.orgId &&
    match fieldName with
    | none => true
    | some name => name == "" || rule.fieldName == name

def delegation (client : Option EngineClient) (threshold : Int)
    (exactRules : List NormalizationRule) : Option (List (String × String)) :=
  if exactRules ≠ [] ∧ threshold < (exactRules.length : Int) then
    tryEngineNormalization client (exactRules.map NormalizationRule.originalValue)
      (exactRules.map fun rule => (rule.originalValue, rule.normalizedValue))
  else none

def load (entity : RawEntity) : SessionRow := ⟨entity, fun _ => none⟩

def flush (row : SessionRow) : RawEntity := row.current

def runOn (rules : List NormalizationRule) (rows : List SessionRow) :
    Option (List SessionRow × Nat) :=
  runTable (refused platform) (ruleStep platform scope) rules rows

/-- `POST /rules/apply`: the table that it leaves, and its response.  An exception leaves
the table as it was. -/
def applyRules (client : Option EngineClient) (threshold : Int) (fieldName : Option String)
    (rules : List NormalizationRule) (entities : List RawEntity) :
    List RawEntity × Option ApplyResponse :=
  let selected := selectRules scope fieldName rules
  let exactRules := selected.filter fun rule => !rule.isRegex
  let regexRules := selected.filter NormalizationRule.isRegex
  match delegation client threshold exactRules with
  | none =>
    match runOn platform scope selected (entities.map load) with
    | none => (entities, none)
    | some (rows, totalUpdated) =>
      (rows.map flush, some
        { message := "Applied " ++ toString selected.length ++ " rules"
          rulesApplied := selected.length
          recordsUpdated := totalUpdated })
  | some mapping =>
    match runOn platform scope (engineRules platform mapping exactRules) (entities.map load) with
    | none => (entities, none)
    | some (rows, engineUpdated) =>
      if regexRules = [] then
        (rows.map flush, some
          { message := "Applied " ++ toString exactRules.length ++ " rules (engine) + " ++
              toString regexRules.length ++ " rules (python)"
            rulesApplied := exactRules.length + regexRules.length
            recordsUpdated := engineUpdated })
      else
        match runOn platform scope regexRules rows with
        | none => (entities, none)
        | some (rows, totalUpdated) =>
          (rows.map flush, some
            { message := "Applied " ++ toString regexRules.length ++ " rules"
              rulesApplied := regexRules.length
              recordsUpdated := engineUpdated + totalUpdated })

end Ukip.Normalization.Rules
