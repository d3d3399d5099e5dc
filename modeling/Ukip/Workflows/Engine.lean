import Ukip.Foundation.JsonValue
import Ukip.Analytics.Corpus

/-!
# Workflow automation

`workflow_engine.py`: conditions, actions and runs, and the manual run of the router.  A
session carries the tables, the posts that left the platform and the rows that were
touched on the way.
-/

namespace Ukip.Workflows.Engine

open Foundation.JsonValue
open Analytics.Corpus (strip isPythonSpace)
open Tenancy.Access (inScope legacyGlobalOrgId HttpError)

/-- A row of `raw_entities` as an object of the session. -/
structure RawEntity where
  id : Nat
  orgId : Option Nat
  primaryLabel : Option String
  domain : Option String
  enrichmentConcepts : Option String
  enrichmentStatus : Option String
  attributesJson : JsonColumn
  /-- whatever else `getattr` finds on the object -/
  others : Entries

structure AlertChannel where
  id : Nat
  orgId : Option Nat
  webhookUrl : String
  isActive : Option Bool
  lastFireStatus : Option String
  totalFired : Option Nat

inductive ConditionType where
  | fieldEquals
  | fieldContains
  | fieldEmpty
  | enrichmentStatusIs
  | other (name : String)

structure Condition where
  type : ConditionType
  field : String
  value : String

inductive ActionType where
  | sendWebhook
  | tagEntity
  | sendAlert
  | logOnly
  | other (name : String)

/-- The configuration is free-form: `dict[str, Any]`. -/
structure Action where
  type : ActionType
  config : Entries

inductive RunStatus where
  | running
  | success
  | error
  | skipped

structure Workflow where
  id : Nat
  orgId : Option Nat
  isActive : Option Bool
  triggerType : String
  conditions : List Condition
  actions : List Action
  runCount : Option Nat
  lastRunStatus : Option RunStatus

/-- What an action reports: `ok` and the other fields. -/
structure StepResult where
  ok : Bool
  details : Entries

inductive LogEntry where
  | conditionsNotMet
  | step (action : ActionType) (result : StepResult)

structure TriggerData where
  trigger : String
  entityId : Nat

structure WorkflowRun where
  id : Nat
  orgId : Option Nat
  workflowId : Nat
  status : RunStatus
  triggerData : TriggerData
  stepsLog : List LogEntry
  error : Option String

inductive Raised where
  | attributeError
  | typeError
  | statementError

structure Post where
  url : Json
  payload : Entries

structure Response where
  isSuccess : Bool
  statusCode : Nat

/-- The language's library, the driver, the cipher and the network. -/
structure Services where
  lower : String → String
  /-- `str` of a value that is no text -/
  shown : Json → String
  /-- `str` of an exception -/
  message : Raised → String
  /-- `AlertChannel.id == value`; `none` is a value that the driver refuses -/
  idTest : Json → Option (Nat → Bool)
  /-- `decrypt_value`; `none` is an exception -/
  decryptValue : String → Option String
  /-- the outcome of a post after the earlier ones; an error is an exception's text -/
  reply : List Post → Post → Except String Response

variable (services : Services)

def Services.str : Json → String
  | .text value => value
  | other => services.shown other

def stripText (text : String) : String := String.ofList (strip isPythonSpace text.toList)

inductive Operation where
  | reads
  | sendsThrough
  | changes
  deriving DecidableEq

inductive Table where
  | alertChannels
  | rawEntities
  | workflowRuns
  | workflows
  deriving DecidableEq

/-- One use of one row, with the organization the row belongs to. -/
structure Access where
  operation : Operation
  table : Table
  id : Nat
  orgId : Option Nat
  deriving DecidableEq

structure Session where
  alertChannels : List AlertChannel
  rawEntities : List RawEntity
  workflows : List Workflow
  workflowRuns : List WorkflowRun
  posts : List Post
  accesses : List Access

def Session.noting (session : Session) (access : Access) : Session :=
  { session with accesses := session.accesses ++ [access] }

def entityAccess (operation : Operation) (entity : RawEntity) : Access :=
  ⟨operation, .rawEntities, entity.id, entity.orgId⟩

def channelAccess (operation : Operation) (channel : AlertChannel) : Access :=
  ⟨operation, .alertChannels, channel.id, channel.orgId⟩

/-- An UPDATE of the columns that the caller assigned; the same for the tables below. -/
def saveEntity (session : Session) (entity : RawEntity) : Session :=
  Session.noting { session with rawEntities := session.rawEntities.map fun row : RawEntity =>
    if row.id = entity.id then { row with enrichmentConcepts := entity.enrichmentConcepts }
    else row } (entityAccess .changes entity)

def firedRow (channel row : AlertChannel) : AlertChannel :=
  if row.id = channel.id then
    { row with lastFireStatus := channel.lastFireStatus, totalFired := channel.totalFired }
  else row

def saveChannel (session : Session) (channel : AlertChannel) : Session :=
  Session.noting { session with alertChannels := session.alertChannels.map (firedRow channel) }
    (channelAccess .changes channel)

def saveRun (session : Session) (run : WorkflowRun) : Session :=
  Session.noting { session with
    workflowRuns := session.workflowRuns.map fun row : WorkflowRun =>
      if row.id = run.id then
        { row with status := run.status, stepsLog := run.stepsLog, error := run.error }
      else row } ⟨.changes, .workflowRuns, run.id, run.orgId⟩

def saveWorkflow (session : Session) (workflow : Workflow) : Session :=
  Session.noting { session with workflows := session.workflows.map fun row : Workflow =>
    if row.id = workflow.id then
      { row with runCount := workflow.runCount, lastRunStatus := workflow.lastRunStatus }
    else row } ⟨.changes, .workflows, workflow.id, workflow.orgId⟩

/-- `hasattr` and `getattr` -/
def getattr (entity : RawEntity) (field : String) : Option Json :=
  let column : Option String → Json := fun value => (value.map Json.text).getD .null
  match field with
  | "id" => some (.integer entity.id)
  | "org_id" => some ((entity.orgId.map fun orgId => Json.integer orgId).getD .null)
  | "primary_label" => some (column entity.primaryLabel)
  | "domain" => some (column entity.domain)
  | "enrichment_concepts" => some (column entity.enrichmentConcepts)
  | "enrichment_status" => some (column entity.enrichmentStatus)
  | other => get? entity.others other

def getEntityField (entity : RawEntity) (field : String) : Except Raised Json :=
  match getattr entity field with
  | some value => .ok value
  | none =>
    match entity.attributesJson with
    | .null => .ok .null
    | .malformed _ => .ok .null
    | .parsed (.object attrs) => .ok ((get? attrs field).getD .null)
    | .parsed _ => .error .attributeError

def isNone : Json → Bool
  | .null => true
  | _ => false

def evaluateCondition (entity : RawEntity) (condition : Condition) : Except Raised Bool :=
  match getEntityField entity condition.field with
  | .error raised => .error raised
  | .ok raw =>
    .ok (match condition.type with
      | .fieldEquals =>
        services.lower (stripText (services.str raw)) =
          services.lower (stripText condition.value)
      | .fieldContains =>
        decide ((services.lower condition.value).toList <:+:
          (services.lower (if raw.truthy then services.str raw else "")).toList)
      | .fieldEmpty => isNone raw || stripText (services.str raw) = ""
      | .enrichmentStatusIs => entity.enrichmentStatus.getD "" = condition.value
      | .other _ => false)

/-- `_evaluate_conditions`: `all` stops at the first that does not hold. -/
def evaluateConditions (entity : RawEntity) : List Condition → Except Raised Bool
  | [] => .ok true
  | condition :: rest =>
    match evaluateCondition services entity condition with
    | .error raised => .error raised
    | .ok false => .ok false
    | .ok true => evaluateConditions entity rest

def failed (text : String) : StepResult := ⟨false, [("error", .text text)]⟩

def replied (response : Response) : StepResult :=
  ⟨response.isSuccess, [("status_code", .integer response.statusCode)]⟩

/-- An action's effect: the session, the entity as the session now holds it, the report. -/
structure Outcome where
  session : Session
  entity : RawEntity
  result : Except Raised StepResult

def columnJson (value : Option String) : Json := (value.map Json.text).getD .null

def actionSendWebhook (session : Session) (entity : RawEntity) (config : Entries) : Outcome :=
  let url := (get? config "url").getD (.text "")
  if !url.truthy then ⟨session, entity, .ok (failed "No URL configured")⟩
  else
    let session := session.noting (entityAccess .reads entity)
    let extra := (get? config "extra_payload").getD .null
    match if extra.truthy then extra else .object [] with
    | .object extras =>
      let post : Post := ⟨url, mergeEntries
        [("event", .text "workflow.action"), ("entity_id", .integer entity.id),
          ("primary_label", columnJson entity.primaryLabel), ("domain", columnJson entity.domain)]
        extras⟩
      let sent := { session with posts := session.posts ++ [post] }
      match services.reply session.posts post with
      | .ok response => ⟨sent, entity, .ok (replied response)⟩
      | .error text => ⟨sent, entity, .ok (failed text)⟩
    | _ => ⟨session, entity, .error .typeError⟩

/-- `[t.strip() for t in current.split(",") if t.strip()]` -/
def currentTags (entity : RawEntity) : List String :=
  (((entity.enrichmentConcepts.getD "").toList.splitOn ',').map fun part =>
    stripText (String.ofList part)).filter (· ≠ "")

def actionTagEntity (session : Session) (entity : RawEntity) (config : Entries) : Outcome :=
  match (get? config "tag").getD (.text "") with
  | .text given =>
    let tag := stripText given
    if tag = "" then ⟨session, entity, .ok (failed "No tag specified")⟩
    else
      let session := session.noting (entityAccess .reads entity)
      let tags := currentTags entity
      let result : Except Raised StepResult := .ok ⟨true, [("tag", .text tag)]⟩
      if tag ∈ tags then ⟨session, entity, result⟩
      else
        let tagged := { entity with enrichmentConcepts := some (", ".intercalate (tags ++ [tag])) }
        ⟨saveEntity session tagged, tagged, result⟩
  | _ => ⟨session, entity, .error .attributeError⟩

/-- `db.query(AlertChannel).filter(id == channel_id, is_active == True).first()` -/
def selectedChannel (channels : List AlertChannel) (matchesId : Nat → Bool) :
    Option AlertChannel :=
  channels.find? fun channel => matchesId channel.id && channel.isActive == some true

def actionSendAlert (session : Session) (entity : RawEntity) (config : Entries) : Outcome :=
  let channelId := (get? config "channel_id").getD .null
  if !channelId.truthy then ⟨session, entity, .ok (failed "No channel_id specified")⟩
  else
    match services.idTest channelId with
    | none => ⟨session, entity, .error .statementError⟩
    | some matchesId =>
      match selectedChannel session.alertChannels matchesId with
      | none =>
        ⟨session, entity, .ok (failed
          ("AlertChannel " ++ services.str channelId ++ " not found or inactive"))⟩
      | some channel =>
        let session := (session.noting (channelAccess .reads channel)).noting
          (entityAccess .reads entity)
        let url := (services.decryptValue channel.webhookUrl).getD channel.webhookUrl
        let label := services.str (columnJson entity.primaryLabel)
        let message := (get? config "message").getD
          (.text ("Workflow triggered for entity: " ++ label))
        let post : Post :=
          ⟨.text url, [("text", message), ("entity_id", .integer entity.id)]⟩
        let sent := Session.noting { session with posts := session.posts ++ [post] }
          (channelAccess .sendsThrough channel)
        match services.reply session.posts post with
        | .ok response =>
          let fired := { channel with
            lastFireStatus := some (if response.isSuccess then "ok" else "error"),
            totalFired := some (channel.totalFired.getD 0 + 1) }
          ⟨saveChannel sent fired, entity, .ok (replied response)⟩
        | .error text =>
          ⟨saveChannel sent { channel with lastFireStatus := some "error" }, entity,
            .ok (failed text)⟩

def actionLogOnly (session : Session) (entity : RawEntity) : Outcome :=
  ⟨session.noting (entityAccess .reads entity), entity,
    .ok ⟨true, [("logged", .bool true), ("entity_id", .integer entity.id)]⟩⟩

def performAction (session : Session) (entity : RawEntity) (action : Action) : Outcome :=
  match action.type with
  | .sendWebhook => actionSendWebhook services session entity action.config
  | .tagEntity => actionTagEntity session entity action.config
  | .sendAlert => actionSendAlert services session entity action.config
  | .logOnly => actionLogOnly session entity
  | .other name => ⟨session, entity, .ok (failed ("Unknown action type: " ++ name))⟩

/-- `_dispatch_action`: what an action raises is reported as its failure. -/
def reportOf : Except Raised StepResult → StepResult
  | .ok result => result
  | .error raised => failed (services.message raised)

def dispatchActions (session : Session) (entity : RawEntity) :
    List Action → Session × RawEntity × List LogEntry × Bool
  | [] => (session, entity, [], true)
  | action :: rest =>
    let outcome := performAction services session entity action
    let result := reportOf services outcome.result
    let later := dispatchActions outcome.session outcome.entity rest
    (later.1, later.2.1, .step action.type result :: later.2.2.1, result.ok && later.2.2.2)

def nextRunId (runs : List WorkflowRun) : Nat := (runs.map WorkflowRun.id).foldr max 0 + 1

def updateWorkflowStats (session : Session) (workflow : Workflow) (status : RunStatus) : Session :=
  saveWorkflow session { workflow with
    runCount := some (workflow.runCount.getD 0 + 1), lastRunStatus := some status }

def finishRun (session : Session) (workflow : Workflow) (run : WorkflowRun) : Session :=
  updateWorkflowStats (saveRun session run) workflow run.status

/-- The row that `run_workflow` adds first. -/
def startedRun (session : Session) (workflow : Workflow) (triggerData : TriggerData) :
    WorkflowRun where
  id := nextRunId session.workflowRuns
  orgId := workflow.orgId
  workflowId := workflow.id
  status := .running
  triggerData := triggerData
  stepsLog := []
  error := none

def insertRun (session : Session) (run : WorkflowRun) : Session :=
  Session.noting { session with workflowRuns := session.workflowRuns ++ [run] }
    ⟨.changes, .workflowRuns, run.id, run.orgId⟩

def conditionsRead (session : Session) (workflow : Workflow) (entity : RawEntity) : Session :=
  if workflow.conditions.isEmpty then session else session.noting (entityAccess .reads entity)

structure RunOutcome where
  session : Session
  entity : RawEntity
  run : WorkflowRun

def runWorkflow (session : Session) (workflow : Workflow) (entity : RawEntity)
    (triggerData : TriggerData) : RunOutcome :=
  let run := startedRun session workflow triggerData
  let ready := conditionsRead (insertRun session run) workflow entity
  match evaluateConditions services entity workflow.conditions with
  | .error raised =>
    let ended := { run with status := .error, error := some (services.message raised) }
    ⟨finishRun ready workflow ended, entity, ended⟩
  | .ok false =>
    let ended := { run with status := .skipped, stepsLog := [.conditionsNotMet] }
    ⟨finishRun ready workflow ended, entity, ended⟩
  | .ok true =>
    let (session, entity, stepsLog, allOk) :=
      dispatchActions services ready entity workflow.actions
    let ended := { run with
      status := if allOk then .success else .error, stepsLog := stepsLog }
    ⟨finishRun session workflow ended, entity, ended⟩

/-- `scope_org_id` of an entity's organization, with the sentinel for none. -/
def entityScope (entity : RawEntity) : Option Int :=
  some ((entity.orgId.map fun orgId => (orgId : Int)).getD legacyGlobalOrgId)

def storedOrg (orgId : Option Nat) : Option Int := orgId.map fun orgId => (orgId : Int)

def triggeredWorkflows (session : Session) (triggerType : String) (entity : RawEntity) :
    List Workflow :=
  session.workflows.filter fun workflow =>
    workflow.triggerType == triggerType && workflow.isActive == some true &&
      inScope (entityScope entity) (storedOrg workflow.orgId)

def runWorkflows (triggerData : TriggerData) (session : Session) (entity : RawEntity) :
    List Workflow → Session × List WorkflowRun
  | [] => (session, [])
  | workflow :: rest =>
    let outcome := runWorkflow services session workflow entity triggerData
    let later := runWorkflows triggerData outcome.session outcome.entity rest
    (later.1, outcome.run :: later.2)

/-- `fire_trigger`: the session and the runs that it returns. -/
def fireTrigger (session : Session) (triggerType : String) (entity : RawEntity) :
    Session × List WorkflowRun :=
  runWorkflows services ⟨triggerType, entity.id⟩ session entity
    (triggeredWorkflows session triggerType entity)

end Ukip.Workflows.Engine
