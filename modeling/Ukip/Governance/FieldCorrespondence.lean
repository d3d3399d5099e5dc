import Ukip.Analytics.Corpus
import Ukip.Foundation.EventRun
import Ukip.Foundation.SerialTable

/-!
# Field correspondence rules

Create, preventive seed and apply of `routers/governance_field_correspondence.py` and
`routers/governance_field_correspondence_ops.py`.  The scope of the request is stored as
it is resolved, and an applied rule may assign any attribute of an entity.
-/

namespace Ukip.Governance.FieldCorrespondence

open Foundation.Relational Foundation.SqlTruth Analytics.Corpus Tenancy.Access

structure FieldCorrespondenceRule where
  id : Nat
  orgId : Option Int
  sourceSchema : Option String
  sourceField : String
  canonicalTarget : Option String
  semanticConcept : Option String
  identifierScheme : Option String
  confidence : Rat
  evidence : List String
  isActive : Bool
  createdById : Option Nat

/-- `uq_field_correspondence_rule_scope`; NULLs are all different. -/
def ruleClash (first second : FieldCorrespondenceRule) : Bool :=
  first.orgId.isSome && first.sourceSchema.isSome && decide (first.orgId = second.orgId ∧
    first.sourceSchema = second.sourceSchema ∧ first.sourceField = second.sourceField)

theorem ruleClash_comm (first second : FieldCorrespondenceRule) :
    ruleClash first second = ruleClash second first := by
  unfold ruleClash
  by_cases same : first.orgId = second.orgId ∧ first.sourceSchema = second.sourceSchema ∧
      first.sourceField = second.sourceField
  · obtain ⟨org, schema, field⟩ := same
    simp [org, schema, field]
  · have other : ¬ (second.orgId = first.orgId ∧ second.sourceSchema = first.sourceSchema ∧
        second.sourceField = first.sourceField) := fun ⟨org, schema, field⟩ =>
      same ⟨org.symm, schema.symm, field.symm⟩
    rw [decide_eq_false same, decide_eq_false other, Bool.and_false, Bool.and_false]

def ruleSchema : Schema FieldCorrespondenceRule where
  key := FieldCorrespondenceRule.id
  withKey := fun value row => { row with id := value }
  key_withKey := fun _ _ => rfl
  clash := ruleClash
  clash_comm := ruleClash_comm
  clash_withKey := fun _ _ _ => rfl

abbrev RuleTable := SerialTable ruleSchema

/-- What an `org_id` of `raw_entities` can hold.  A database that does not check the type
keeps a text that is no integer. -/
inductive OrgValue where
  | id (value : Int)
  | text (raw : String)
  deriving DecidableEq

/-- A row of `raw_entities`, with its other columns by name, as texts. -/
structure Entity where
  id : Int
  orgId : Option OrgValue
  cell : String → Option String

/-- The columns of `raw_entities` except `id` and `org_id`. -/
def textColumns : List String :=
  ["import_batch_id", "domain", "entity_type", "primary_label", "secondary_label", "canonical_id",
    "attributes_json", "validation_status", "normalized_json", "enrichment_doi",
    "enrichment_citation_count", "enrichment_concepts", "enrichment_source", "enrichment_status",
    "enrichment_failure_reason", "enrichment_issn_l", "enrichment_work_type", "quality_score",
    "updated_at", "source"]

/-- A row of `harmonization_logs` with the counts of its details. -/
structure HarmonizationLog where
  id : Nat
  orgId : Option Int
  ruleId : Nat
  recordsUpdated : Nat
  fieldsModified : List String
  affectedRecords : Nat
  skippedExisting : Nat
  skippedMissingValue : Nat
  overwriteExisting : Bool

structure HarmonizationChangeRecord where
  logId : Nat
  recordId : Int
  field : String
  oldValue : Option String
  newValue : String

structure GovernanceDb where
  directory : Directory
  rules : RuleTable
  entities : List Entity
  logs : List HarmonizationLog
  nextLogId : Nat
  changes : List HarmonizationChangeRecord

structure Platform where
  python : Python
  /-- PostgreSQL checks foreign keys, SQLite does not unless it is told to -/
  enforcesForeignKeys : Bool
  /-- the integer that the database reads in a text for an integer column -/
  readInteger : String → Option Int
  /-- `LIKE` -/
  like : (text pattern : String) → Bool
  /-- an attribute of the class that is no column, and its value -/
  classAttribute : String → Option (Option String)

variable (platform : Platform)

def namesOrganization (organizations : List Organization) : Option Int → Bool
  | none => true
  | some value => organizations.any fun org => (org.id : Int) == value

def namesOrganizationValue (organizations : List Organization) : Option OrgValue → Bool
  | none => true
  | some (.id value) => namesOrganization organizations (some value)
  | some (.text _) => false

/-- The foreign key of a stored `org_id` refuses it. -/
def refusesOrg (organizations : List Organization) (orgId : Option Int) : Bool :=
  platform.enforcesForeignKeys && !namesOrganization organizations orgId

structure RulePayload where
  sourceSchema : Option String
  sourceField : String
  canonicalTarget : Option String
  semanticConcept : Option String
  identifierScheme : Option String
  confidence : Rat
  evidence : List String

/-- The constraints of `FieldCorrespondenceRulePayload`. -/
def RulePayload.valid (payload : RulePayload) : Bool :=
  let within := fun (text : Option String) => (text.getD "").length ≤ 100
  within payload.sourceSchema && within payload.canonicalTarget &&
    within payload.semanticConcept && within payload.identifierScheme &&
    1 ≤ payload.sourceField.length && payload.sourceField.length ≤ 255 &&
    0 ≤ payload.confidence && payload.confidence ≤ 1 && payload.evidence.length ≤ 20

structure ApplyPayload where
  dryRun : Bool
  overwriteExisting : Bool
  limit : Nat

def ApplyPayload.valid (payload : ApplyPayload) : Bool :=
  1 ≤ payload.limit && payload.limit ≤ 50000

/-- A request; `commits` is false where the transaction fails for a reason of its own. -/
inductive GovernanceRequest where
  | create (user : User) (payload : RulePayload) (commits : Bool)
  | seed (user : User) (commits : Bool)
  | apply (user : User) (ruleId : Nat) (payload : ApplyPayload) (commits : Bool)

inductive Outcome where
  | created (rule : Option FieldCorrespondenceRule)
  | seeded (created updated totalCandidates : Nat)
  | applied (jobId : Option Nat) (affected updated skippedExisting skippedMissing : Nat)

def roleText : Role → String
  | .superAdmin => "super_admin"
  | .admin => "admin"
  | .editor => "editor"
  | .viewer => "viewer"

/-- `require_role("super_admin", "admin")` -/
def mayGovern (role : Role) : Bool := role ∈ [.superAdmin, .admin]

def roleRefused (role : Role) : HttpError where
  statusCode := 403
  detail := "Role '" ++ roleText role ++ "' is not authorized for this action"

def unprocessable : HttpError where
  statusCode := 422
  detail := "Unprocessable Entity"

def internalServerError : HttpError where
  statusCode := 500
  detail := "Internal Server Error"

def ruleNotFound (ruleId : Nat) : HttpError where
  statusCode := 404
  detail := "Rule '" ++ toString ruleId ++ "' not found"

def onlyActiveRules : HttpError where
  statusCode := 409
  detail := "Only active rules can be applied"

def targetNotAField : HttpError where
  statusCode := 422
  detail := "Rule target is not an entity field"

def authorized (directory : Directory) (user : User) : Except HttpError (Option Int) :=
  if !mayGovern user.role then .error (roleRefused user.role) else requestScope directory user

structure RuleValues where
  canonicalTarget : Option String
  semanticConcept : Option String
  identifierScheme : Option String
  confidence : Rat
  evidence : List String
  /-- `none` leaves it as it is -/
  isActive : Option Bool

def assignRule (values : RuleValues) : SetClause ruleSchema where
  apply := fun rule =>
    { rule with
      canonicalTarget := values.canonicalTarget
      semanticConcept := values.semanticConcept
      identifierScheme := values.identifierScheme
      confidence := values.confidence
      evidence := values.evidence
      isActive := values.isActive.getD rule.isActive }
  key_apply := fun _ => rfl
  clash_apply := fun _ _ => rfl

/-- `org_id == scope`, `source_schema == schema` and `source_field == field`, where a
comparison with None is IS NULL. -/
def isRuleOf (scope : Option Int) (schema : Option String) (field : String)
    (rule : FieldCorrespondenceRule) : Bool :=
  decide (rule.orgId = scope ∧ rule.sourceSchema = schema ∧ rule.sourceField = field)

def freshRule (scope : Option Int) (schema : Option String) (field : String) (userId : Nat)
    (isActive : Bool) : FieldCorrespondenceRule where
  id := 0
  orgId := scope
  sourceSchema := schema
  sourceField := field
  canonicalTarget := none
  semanticConcept := none
  identifierScheme := none
  confidence := 1
  evidence := []
  isActive := isActive
  createdById := some userId

/-- The rule found and changed, or a new one; `none` is an integrity error. -/
def upsertRule (organizations : List Organization) (rules : RuleTable) (scope : Option Int)
    (schema : Option String) (field : String) (values : RuleValues)
    (fresh : FieldCorrespondenceRule) : Option RuleTable :=
  match rules.rows.find? (isRuleOf scope schema field) with
  | some existing =>
    some (rules.updateWhere (fun rule => rule.id == existing.id) (assignRule values))
  | none =>
    if refusesOrg platform organizations scope then none
    else rules.insert ((assignRule values).apply fresh)

def stripText (text : String) : String := String.ofList (strip isPythonSpace text.toList)

/-- `value.strip() if value else None` -/
def strippedOrNone : Option String → Option String
  | none => none
  | some text => if text = "" then none else some (stripText text)

def createFieldCorrespondenceRule (db : GovernanceDb) (user : User) (payload : RulePayload)
    (commits : Bool) : Except HttpError (Outcome × GovernanceDb) :=
  match authorized db.directory user with
  | .error error => .error error
  | .ok scope =>
    if !payload.valid then .error unprocessable
    else
      let schema := strippedOrNone payload.sourceSchema
      let field := stripText payload.sourceField
      let values :=
        { canonicalTarget := strippedOrNone payload.canonicalTarget
          semanticConcept := strippedOrNone payload.semanticConcept
          identifierScheme := strippedOrNone payload.identifierScheme
          confidence := payload.confidence
          evidence := if payload.evidence = [] then ["manual_admin_rule"] else payload.evidence
          isActive := some true : RuleValues }
      match upsertRule platform db.directory.organizations db.rules scope schema field values
          (freshRule scope schema field user.id true) with
      | none => .error internalServerError
      | some rules =>
        if commits then
          .ok (.created (rules.rows.find? (isRuleOf scope schema field)),
            { db with rules := rules })
        else .error internalServerError

structure RuleCandidate where
  sourceSchema : Option String
  sourceField : String
  canonicalTarget : String
  semanticConcept : String
  identifierScheme : Option String

def candidateSchemas : List (Option String) :=
  [none, some "csv", some "wos", some "ris", some "bibtex", some "openalex", some "crossref",
    some "orcid", some "ror"]

def identifierAliases : List (String × List String) :=
  [("doi", ["DOI", "doi", "DI", "DO", "doi_url", "external_doi"]),
    ("orcid", ["ORCID", "orcid", "author_orcid", "researcher_id", "researcher_orcid"]),
    ("ror", ["ROR", "ror", "affiliation_ror", "institution_ror", "organization_ror"]),
    ("local", ["ID", "id", "source_id", "record_id", "UT", "UID", "EID", "Accession Number"])]

def entityTypeAliases : List String :=
  ["type", "Type", "entity_type", "document_type", "publication_type", "resource_type",
    "item_type", "TY"]

def preventiveRuleCandidates : List RuleCandidate :=
  candidateSchemas.flatMap fun schema =>
    (identifierAliases.flatMap fun aliases => aliases.2.map fun field =>
      ⟨schema, field, "canonical_id", "persistent_identifier", some aliases.1⟩) ++
    entityTypeAliases.map fun field => ⟨schema, field, "entity_type", "entity_type", none⟩

def candidateValues (candidate : RuleCandidate) : RuleValues where
  canonicalTarget := some candidate.canonicalTarget
  semanticConcept := some candidate.semanticConcept
  identifierScheme := candidate.identifierScheme
  confidence := 55 / 100
  evidence := ["preventive_candidate_rule"]
  isActive := none

def seedRules (organizations : List Organization) (scope : Option Int) (userId : Nat) :
    List RuleCandidate → RuleTable → Nat → Option (RuleTable × Nat)
  | [], rules, created => some (rules, created)
  | candidate :: rest, rules, created =>
    match upsertRule platform organizations rules scope candidate.sourceSchema
        candidate.sourceField (candidateValues candidate)
        (freshRule scope candidate.sourceSchema candidate.sourceField userId false) with
    | none => none
    | some next =>
      seedRules organizations scope userId rest next
        (if rules.rows.any (isRuleOf scope candidate.sourceSchema candidate.sourceField) then
          created
        else created + 1)

def seedPreventiveFieldCorrespondenceRules (db : GovernanceDb) (user : User) (commits : Bool) :
    Except HttpError (Outcome × GovernanceDb) :=
  match authorized db.directory user with
  | .error error => .error error
  | .ok scope =>
    match seedRules platform db.directory.organizations scope user.id preventiveRuleCandidates
        db.rules 0 with
    | none => .error internalServerError
    | some (rules, created) =>
      if commits then
        .ok (.seeded created (preventiveRuleCandidates.length - created)
          preventiveRuleCandidates.length, { db with rules := rules })
      else .error internalServerError

/-- `str` of an attribute; `none` where there is no such attribute, `some none` for None. -/
def attributeText (entity : Entity) (name : String) : Option (Option String) :=
  if name = "id" then some (some (toString entity.id))
  else if name = "org_id" then
    some (entity.orgId.map fun value =>
      match value with
      | .id number => toString number
      | .text raw => raw)
  else if name ∈ textColumns then some (entity.cell name)
  else platform.classAttribute name

/-- `hasattr(models.RawEntity, name)` -/
def isEntityAttribute (name : String) : Bool :=
  name ∈ "id" :: "org_id" :: textColumns || (platform.classAttribute name).isSome

/-- What `org_id` holds after a text is written to it. -/
def storedOrgValue (text : String) : OrgValue :=
  match platform.readInteger text with
  | some number => .id number
  | none => .text text

/-- The row after `setattr` and the flush; `none` where the database refuses it. -/
def storeAttribute (organizations : List Organization) (name text : String) (entity : Entity) :
    Option Entity :=
  if name = "id" then
    (platform.readInteger text).map fun value => { entity with id := value }
  else if name = "org_id" then
    let value := some (storedOrgValue platform text)
    if platform.enforcesForeignKeys && !namesOrganizationValue organizations value then none
    else some { entity with orgId := value }
  else if name ∈ textColumns then
    some { entity with
      cell := fun other => if other = name then some text else entity.cell other }
  else some entity

def jsonObject (value : Option String) : List (String × Json) :=
  match value with
  | none => []
  | some text =>
    if text = "" then []
    else
      match platform.python.loads text with
      | some (.object entries) => entries
      | _ => []

def hasKey (entries : List (String × Json)) (key : String) : Bool :=
  entries.any fun entry => entry.1 == key

/-- The items that a loop over the value meets; `none` is the TypeError. -/
def iterate : Json → Option (List Json)
  | .array items => some items
  | .text value => some (value.toList.map fun char => .text (String.ofList [char]))
  | .object entries => some (entries.map fun entry => .text entry.1)
  | _ => none

/-- `_field_correspondence_matches`; `none` is a TypeError. -/
def fieldCorrespondenceMatches (attrs : List (String × Json)) (sourceField : String)
    (sourceSchema : Option String) : Option Bool :=
  match lookup attrs "_field_correspondence" with
  | .object correspondence =>
    if !hasKey correspondence sourceField then some false
    else
      match sourceSchema with
      | none => some true
      | some schema =>
        if schema = "" then some true
        else
          match lookup correspondence sourceField with
          | .object metadata =>
            let evidence := lookup metadata "evidence"
            if !evidence.truthy then some false
            else
              (iterate evidence).map fun items => items.any fun item =>
                (schema ++ "_").toList.isPrefixOf (platform.python.str item).toList
          | _ => some false
  | _ => some false

/-- Whether the entity has the field, and `str` of its value; `none` is a TypeError. -/
def extractRuleValue (entity : Entity) (rule : FieldCorrespondenceRule) :
    Option (Bool × Option String) :=
  let normalized := jsonObject platform (entity.cell "normalized_json")
  let attrs := jsonObject platform (entity.cell "attributes_json")
  if hasKey normalized rule.sourceField then
    match lookup normalized rule.sourceField with
    | .null => some (true, none)
    | value => some (true, some (platform.python.str value))
  else
    (fieldCorrespondenceMatches platform attrs rule.sourceField rule.sourceSchema).map fun found =>
      if found then
        match rule.canonicalTarget with
        | some target => (true, (attributeText platform entity target).getD none)
        | none => (true, none)
      else (false, none)

/-- `_rule_candidate_query` -/
def isCandidate (scope : Option Int) (sourceField : String) (entity : Entity) : Bool :=
  let pattern := "%\"" ++ sourceField ++ "\"%"
  let mentioned := fun (text : Option String) =>
    selects (text.map fun stored => platform.like stored pattern)
  (mentioned (entity.cell "normalized_json") || mentioned (entity.cell "attributes_json")) &&
    match scope with
    | none => entity.orgId.isNone
    | some orgId => entity.orgId == some (.id orgId)

inductive CandidateOutcome where
  | absent
  | missingValue
  | existing
  | write (text : String)
  deriving DecidableEq

def candidateOutcome (rule : FieldCorrespondenceRule) (target : String) (overwrite : Bool)
    (entity : Entity) : Option CandidateOutcome :=
  (extractRuleValue platform entity rule).map fun extracted =>
    if !extracted.1 then .absent
    else
      match extracted.2 with
      | none => .missingValue
      | some text =>
        if stripText text = "" then .missingValue
        else if (attributeText platform entity target).getD none ∉ [none, some ""] ∧
            overwrite = false then .existing
        else .write text

/-- The first `limit` candidates with what becomes of each; `none` where one raises. -/
def candidateOutcomes (scope : Option Int) (rule : FieldCorrespondenceRule) (target : String)
    (payload : ApplyPayload) (entities : List Entity) : Option (List (Entity × CandidateOutcome)) :=
  ((entities.filter (isCandidate platform scope rule.sourceField)).take payload.limit).mapM
    fun entity => (candidateOutcome platform rule target payload.overwriteExisting entity).map
      fun outcome => (entity, outcome)

def storeCandidate (organizations : List Organization) (rule : FieldCorrespondenceRule)
    (target : String) (overwrite : Bool) (entity : Entity) : Option Entity :=
  (candidateOutcome platform rule target overwrite entity).bind fun outcome =>
    match outcome with
    | .write text => storeAttribute platform organizations target text entity
    | _ => some entity

/-- The flush of the entities: the first `limit` candidates are written. -/
def storeWrites (organizations : List Organization) (scope : Option Int)
    (rule : FieldCorrespondenceRule) (target : String) (overwrite : Bool) :
    Nat → List Entity → Option (List Entity)
  | _, [] => some []
  | 0, rest => some rest
  | limit + 1, entity :: rest =>
    if isCandidate platform scope rule.sourceField entity then
      (storeCandidate platform organizations rule target overwrite entity).bind fun stored =>
        (storeWrites organizations scope rule target overwrite limit rest).map fun others =>
          stored :: others
    else
      (storeWrites organizations scope rule target overwrite (limit + 1) rest).map fun others =>
        entity :: others

def applicableRule (db : GovernanceDb) (user : User) (ruleId : Nat) :
    Except HttpError (Option Int × FieldCorrespondenceRule × String) :=
  match authorized db.directory user with
  | .error error => .error error
  | .ok scope =>
    match db.rules.get? ruleId with
    | none => .error (ruleNotFound ruleId)
    | some rule =>
      if rule.orgId ≠ scope then .error (ruleNotFound ruleId)
      else if !rule.isActive then .error onlyActiveRules
      else
        match rule.canonicalTarget with
        | none => .error targetNotAField
        | some target =>
          if target = "" ∨ isEntityAttribute platform target = false then
            .error targetNotAField
          else .ok (scope, rule, target)

def applyFieldCorrespondenceRule (db : GovernanceDb) (user : User) (ruleId : Nat)
    (payload : ApplyPayload) (commits : Bool) : Except HttpError (Outcome × GovernanceDb) :=
  if !payload.valid then .error unprocessable
  else
    match applicableRule platform db user ruleId with
    | .error error => .error error
    | .ok (scope, rule, target) =>
      match candidateOutcomes platform scope rule target payload db.entities with
      | none => .error internalServerError
      | some outcomes =>
        let affected := outcomes.countP fun entry => entry.2 != .absent
        let skippedExisting := outcomes.countP fun entry => entry.2 == .existing
        let skippedMissing := outcomes.countP fun entry => entry.2 == .missingValue
        let updated := affected - skippedExisting - skippedMissing
        if payload.dryRun then
          .ok (.applied none affected updated skippedExisting skippedMissing, db)
        else if refusesOrg platform db.directory.organizations scope then
          .error internalServerError
        else
          match storeWrites platform db.directory.organizations scope rule target
              payload.overwriteExisting payload.limit db.entities with
          | none => .error internalServerError
          | some entities =>
            if commits then
              .ok (.applied (some db.nextLogId) affected updated skippedExisting skippedMissing,
                { db with
                  entities := entities
                  logs := db.logs ++
                    [{ id := db.nextLogId
                       orgId := scope
                       ruleId := rule.id
                       recordsUpdated := updated
                       fieldsModified := [target]
                       affectedRecords := affected
                       skippedExisting := skippedExisting
                       skippedMissingValue := skippedMissing
                       overwriteExisting := payload.overwriteExisting }]
                  nextLogId := db.nextLogId + 1
                  changes := db.changes ++ outcomes.filterMap fun entry =>
                    match entry.2 with
                    | .write text =>
                      some
                        { logId := db.nextLogId
                          recordId := entry.1.id
                          field := target
                          oldValue := (attributeText platform entry.1 target).getD none
                          newValue := text }
                    | _ => none })
            else .error internalServerError

def respond (db : GovernanceDb) : GovernanceRequest → Except HttpError (Outcome × GovernanceDb)
  | .create user payload commits => createFieldCorrespondenceRule platform db user payload commits
  | .seed user commits => seedPreventiveFieldCorrespondenceRules platform db user commits
  | .apply user ruleId payload commits =>
    applyFieldCorrespondenceRule platform db user ruleId payload commits

def step (db : GovernanceDb) (request : GovernanceRequest) : GovernanceDb :=
  match respond platform db request with
  | .error _ => db
  | .ok outcome => outcome.2

end Ukip.Governance.FieldCorrespondence
