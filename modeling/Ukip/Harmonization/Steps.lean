import Ukip.Governance.Rollback

/-!
# The harmonization pipeline

`routers/harmonization.py`: four steps that clean the fields of the entities in scope, the
endpoints that apply them and log every value they change, and the endpoints that write the
logged values back and forth.
-/

namespace Ukip.Harmonization.Steps

open Analytics.Corpus (strip isPythonSpace)
open Tenancy.Access
open Governance.FieldCorrespondence (roleRefused unprocessable)
open Governance.Rollback (mayHarmonize logNotFound alreadyUndone noUndoRecords)

abbrev Text := List Char

inductive Field where
  | primaryLabel
  | secondaryLabel
  | canonicalId
  | entityType
  | validationStatus
  deriving DecidableEq

/-- A row of `raw_entities` with the fields that the steps write. -/
structure RawEntity where
  id : Nat
  orgId : Option Int
  primaryLabel : Option Text
  secondaryLabel : Option Text
  canonicalId : Option Text
  entityType : Option Text
  validationStatus : Option Text

/-- `getattr` -/
def RawEntity.get (entity : RawEntity) : Field → Option Text
  | .primaryLabel => entity.primaryLabel
  | .secondaryLabel => entity.secondaryLabel
  | .canonicalId => entity.canonicalId
  | .entityType => entity.entityType
  | .validationStatus => entity.validationStatus

/-- `setattr` -/
def RawEntity.set (entity : RawEntity) (field : Field) (value : Option Text) : RawEntity :=
  match field with
  | .primaryLabel => { entity with primaryLabel := value }
  | .secondaryLabel => { entity with secondaryLabel := value }
  | .canonicalId => { entity with canonicalId := value }
  | .entityType => { entity with entityType := value }
  | .validationStatus => { entity with validationStatus := value }

variable (entity : RawEntity)

@[simp] theorem RawEntity.set_id (field : Field) (value : Option Text) :
    (entity.set field value).id = entity.id := by
  cases field <;> rfl

@[simp] theorem RawEntity.set_orgId (field : Field) (value : Option Text) :
    (entity.set field value).orgId = entity.orgId := by
  cases field <;> rfl

theorem RawEntity.get_set (field other : Field) (value : Option Text) :
    (entity.set field value).get other = if other = field then value else entity.get other := by
  cases field <;> cases other <;> rfl

def setField (entities : List RawEntity) (id : Nat) (field : Field) (value : Option Text) :
    List RawEntity :=
  entities.map fun entity => if entity.id = id then entity.set field value else entity

/-- `re.sub(r"\s+", " ", text)`; within a run of spaces the later ones are dropped. -/
def collapseSpaces (inRun : Bool) : Text → Text
  | [] => []
  | char :: rest =>
    if isPythonSpace char then
      if inRun then collapseSpaces true rest else ' ' :: collapseSpaces true rest
    else char :: collapseSpaces false rest

def cleanLabel : Option Text → Option Text
  | none => none
  | some value => some (strip isPythonSpace (collapseSpaces false value))

/-- `val.strip() or None` -/
def cleanCanonicalId : Option Text → Option Text
  | none => none
  | some value =>
    if strip isPythonSpace value = [] then none else some (strip isPythonSpace value)

/-- `lower` is `str.lower`. -/
def cleanEntityType (lower : Text → Text) : Option Text → Option Text
  | none => none
  | some value => some (lower (strip isPythonSpace value))

def cleanValidationStatus : Option Text → Option Text
  | none => some "pending".toList
  | some [] => some "pending".toList
  | some value => some value

structure FieldChange where
  recordId : Nat
  field : Field
  oldValue : Option Text
  newValue : Option Text

/-- The changes of one step: for each entity in scope, the fields that cleaning changes.  A
field that is NULL is passed over where cleaning leaves NULL. -/
def fieldStep (fields : List Field) (clean : Option Text → Option Text) (scope : Option Int)
    (entities : List RawEntity) : List FieldChange :=
  (entities.filter fun entity => inScope scope entity.orgId).flatMap fun entity =>
    fields.filterMap fun field =>
      if clean (entity.get field) ≠ entity.get field then
        some ⟨entity.id, field, entity.get field, clean (entity.get field)⟩
      else none

def stepNormalizeLabels := fieldStep [.primaryLabel, .secondaryLabel] cleanLabel

def stepNormalizeCanonicalIds := fieldStep [.canonicalId] cleanCanonicalId

def stepNormalizeEntityTypes (lower : Text → Text) := fieldStep [.entityType] (cleanEntityType lower)

def stepSetDefaultValidation := fieldStep [.validationStatus] cleanValidationStatus

structure HarmonizationStep where
  stepId : String
  name : String
  function : Option Int → List RawEntity → List FieldChange

variable (lower : Text → Text)

/-- `HARMONIZATION_STEPS` with `STEP_FUNCTIONS` -/
def harmonizationSteps : List HarmonizationStep :=
  [⟨"normalize_labels", "Normalize Labels", stepNormalizeLabels⟩,
    ⟨"normalize_canonical_ids", "Normalize Canonical IDs", stepNormalizeCanonicalIds⟩,
    ⟨"normalize_entity_types", "Normalize Entity Types", stepNormalizeEntityTypes lower⟩,
    ⟨"set_default_validation", "Set Default Validation Status", stepSetDefaultValidation⟩]

structure HarmonizationLog where
  id : Nat
  orgId : Option Int
  stepId : String
  stepName : String
  recordsUpdated : Nat
  fieldsModified : List Field
  /-- the first changes, which apply-all does not keep -/
  sample : Option (List FieldChange)
  reverted : Bool

structure HarmonizationChangeRecord where
  logId : Nat
  change : FieldChange

structure HarmonizationDb where
  entities : List RawEntity
  logs : List HarmonizationLog
  /-- the sequence behind the ids of the logs -/
  lastLogId : Nat
  changes : List HarmonizationChangeRecord

def recordsOf (db : HarmonizationDb) (logId : Nat) : List FieldChange :=
  (db.changes.filter fun record => record.logId = logId).map HarmonizationChangeRecord.change

structure StepResult where
  stepId : String
  stepName : String
  recordsUpdated : Nat
  fieldsModified : List Field
  logId : Nat

def logStep (scope : Option Int) (withSample : Bool) (db : HarmonizationDb)
    (step : HarmonizationStep) : StepResult × HarmonizationDb :=
  let changes := step.function scope db.entities
  let log : HarmonizationLog :=
    { id := db.lastLogId + 1
      orgId := persistedOrgId scope
      stepId := step.stepId
      stepName := step.name
      recordsUpdated := changes.length
      fieldsModified := (changes.map FieldChange.field).eraseDups
      sample := if withSample then some (changes.take 20) else none
      reverted := false }
  (⟨step.stepId, step.name, log.recordsUpdated, log.fieldsModified, log.id⟩,
    { entities := changes.foldl
        (fun entities change => setField entities change.recordId change.field change.newValue)
        db.entities
      logs := db.logs ++ [log]
      lastLogId := log.id
      changes := db.changes ++ changes.map fun change => ⟨log.id, change⟩ })

def unknownStep (stepId : String) : HttpError where
  statusCode := 400
  detail := "Unknown step: " ++ stepId

def applyHarmonizationStep (scope : Option Int) (db : HarmonizationDb) (stepId : String) :
    Except HttpError (List StepResult × HarmonizationDb) :=
  match (harmonizationSteps lower).find? fun step => step.stepId == stepId with
  | none => .error (unknownStep stepId)
  | some step =>
    let (result, next) := logStep scope true db step
    .ok ([result], next)

def applyAllHarmonizationSteps (scope : Option Int) (db : HarmonizationDb) :
    List StepResult × HarmonizationDb :=
  (harmonizationSteps lower).foldl
    (fun (results, db) step =>
      let (result, next) := logStep scope false db step
      (results ++ [result], next)) ([], db)

/-- `get_scoped_record` over `raw_entities` -/
def scopedEntity (entities : List RawEntity) (scope : Option Int) (recordId : Nat) :
    Option RawEntity :=
  entities.find? fun entity => inScope scope entity.orgId && entity.id == recordId

/-- `get_scoped_record` over `harmonization_logs` -/
def scopedLog (db : HarmonizationDb) (scope : Option Int) (logId : Nat) : Option HarmonizationLog :=
  db.logs.find? fun log => inScope scope log.orgId && log.id == logId

def replay (scope : Option Int) (value : FieldChange → Option Text) (records : List FieldChange)
    (entities : List RawEntity) : List RawEntity × Nat :=
  records.foldl
    (fun (entities, restored) record =>
      match scopedEntity entities scope record.recordId with
      | none => (entities, restored)
      | some _ => (setField entities record.recordId record.field (value record), restored + 1))
    (entities, 0)

def markReverted (logs : List HarmonizationLog) (logId : Nat) (reverted : Bool) :
    List HarmonizationLog :=
  logs.map fun log => if log.id = logId then { log with reverted := reverted } else log

def notReverted : HttpError where
  statusCode := 400
  detail := "This operation has not been reverted, cannot redo"

structure ReplayResult where
  logId : Nat
  action : String
  recordsRestored : Nat
  stepId : String
  stepName : String

def undoHarmonization (scope : Option Int) (db : HarmonizationDb) (logId : Nat) :
    Except HttpError (ReplayResult × HarmonizationDb) :=
  match scopedLog db scope logId with
  | none => .error logNotFound
  | some log =>
    if log.reverted then .error alreadyUndone
    else if recordsOf db logId = [] ∧ 0 < log.recordsUpdated then .error noUndoRecords
    else
      let (entities, restored) :=
        replay scope FieldChange.oldValue (recordsOf db logId) db.entities
      .ok (⟨logId, "undo", restored, log.stepId, log.stepName⟩,
        { db with entities := entities, logs := markReverted db.logs logId true })

def redoHarmonization (scope : Option Int) (db : HarmonizationDb) (logId : Nat) :
    Except HttpError (ReplayResult × HarmonizationDb) :=
  match scopedLog db scope logId with
  | none => .error logNotFound
  | some log =>
    if !log.reverted then .error notReverted
    else
      let (entities, restored) :=
        replay scope FieldChange.newValue (recordsOf db logId) db.entities
      .ok (⟨logId, "redo", restored, log.stepId, log.stepName⟩,
        { db with entities := entities, logs := markReverted db.logs logId false })

inductive Operation where
  | apply (stepId : String)
  | applyAll
  | undo (logId : Nat)
  | redo (logId : Nat)

/-- A request meets the organizations and members of its time. -/
structure Request where
  directory : Directory
  user : User
  operation : Operation

inductive Response where
  | applied (results : List StepResult)
  | replayed (result : ReplayResult)

/-- `require_role("super_admin", "admin", "editor")` and `resolve_request_org_id` -/
def authorized (request : Request) : Except HttpError (Option Int) :=
  if !mayHarmonize request.user.role then .error (roleRefused request.user.role)
  else requestScope request.directory request.user

def respond (db : HarmonizationDb) (request : Request) :
    Except HttpError (Response × HarmonizationDb) :=
  match authorized request with
  | .error error => .error error
  | .ok scope =>
    match request.operation with
    | .apply stepId =>
      (applyHarmonizationStep lower scope db stepId).map fun (results, next) =>
        (.applied results, next)
    | .applyAll =>
      let (results, next) := applyAllHarmonizationSteps lower scope db
      .ok (.applied results, next)
    | .undo logId =>
      if logId = 0 then .error unprocessable
      else (undoHarmonization scope db logId).map fun (result, next) => (.replayed result, next)
    | .redo logId =>
      if logId = 0 then .error unprocessable
      else (redoHarmonization scope db logId).map fun (result, next) => (.replayed result, next)

def step (db : HarmonizationDb) (request : Request) : HarmonizationDb :=
  match respond lower db request with
  | .error _ => db
  | .ok (_, next) => next

end Ukip.Harmonization.Steps
