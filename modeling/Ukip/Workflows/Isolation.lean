import Ukip.Workflows.Engine

/-!
# Isolation of workflows

The rows that a run of a workflow reads, sends through and changes, and whose they are.
The entity is handed in and the workflow and its run are of one organization, so what is
left is the channel that an alert action names by its id.
-/

namespace Ukip.Workflows.Engine

open Foundation.JsonValue Foundation.SqlTruth Tenancy.Access

variable {services : Services} {session : Session} {workflow : Workflow} {entity : RawEntity}
  {orgId : Option Nat} {triggerData : TriggerData}

/-- Every row that was touched belongs to the organization. -/
def Within (orgId : Option Nat) (accesses : List Access) : Prop :=
  ∀ access ∈ accesses, access.orgId = orgId

instance decidableWithin (orgId : Option Nat) (accesses : List Access) :
    Decidable (Within orgId accesses) :=
  inferInstanceAs (Decidable (∀ access ∈ accesses, access.orgId = orgId))

def alertedChannel (services : Services) (channels : List AlertChannel) (config : Entries) :
    Option AlertChannel :=
  let channelId := (get? config "channel_id").getD .null
  if channelId.truthy then (services.idTest channelId).bind (selectedChannel channels) else none

def readsEntity (services : Services) (channels : List AlertChannel) (action : Action) : Bool :=
  match action.type with
  | .sendWebhook => ((get? action.config "url").getD (.text "")).truthy
  | .tagEntity =>
    match (get? action.config "tag").getD (.text "") with
    | .text given => stripText given ≠ ""
    | _ => false
  | .sendAlert => (alertedChannel services channels action.config).isSome
  | .logOnly => true
  | .other _ => false

/-- The rows that the action uses belong to the organization. -/
structure OwnAction (services : Services) (orgId : Option Nat) (channels : List AlertChannel)
    (entityOrg : Option Nat) (action : Action) : Prop where
  entity : readsEntity services channels action = true → entityOrg = orgId
  channel : action.type = .sendAlert → ∀ channel,
    alertedChannel services channels action.config = some channel → channel.orgId = orgId

@[simp] theorem within_noting (access : Access) :
    Within orgId (session.noting access).accesses ↔
      Within orgId session.accesses ∧ access.orgId = orgId := by
  simp only [Within, Session.noting, List.mem_append, List.mem_singleton]
  constructor
  · intro all
    exact ⟨fun other member => all other (.inl member), all access (.inr rfl)⟩
  · rintro ⟨earlier, here⟩ other (member | rfl)
    · exact earlier other member
    · exact here

@[simp] theorem within_saveEntity :
    Within orgId (saveEntity session entity).accesses ↔
      Within orgId session.accesses ∧ entity.orgId = orgId :=
  within_noting _

@[simp] theorem within_saveChannel (channel : AlertChannel) :
    Within orgId (saveChannel session channel).accesses ↔
      Within orgId session.accesses ∧ channel.orgId = orgId :=
  within_noting _

variable (run : WorkflowRun)

@[simp] theorem within_finishRun (same : run.orgId = workflow.orgId) :
    Within orgId (finishRun session workflow run).accesses ↔
      Within orgId session.accesses ∧ workflow.orgId = orgId := by
  have saved : Within orgId (saveRun session run).accesses ↔
      Within orgId session.accesses ∧ run.orgId = orgId := within_noting _
  have stats : Within orgId (finishRun session workflow run).accesses ↔
      Within orgId (saveRun session run).accesses ∧ workflow.orgId = orgId := within_noting _
  rw [stats, saved, same, and_assoc, and_self]

variable (config : Entries)

theorem within_actionSendWebhook :
    Within orgId (actionSendWebhook services session entity config).session.accesses ↔
      Within orgId session.accesses ∧
        (((get? config "url").getD (.text "")).truthy = true → entity.orgId = orgId) := by
  have noted : Within orgId (session.noting (entityAccess .reads entity)).accesses ↔
      Within orgId session.accesses ∧ entity.orgId = orgId := within_noting _
  unfold actionSendWebhook
  by_cases filled : ((get? config "url").getD (.text "")).truthy = true
  · simp only [filled, Bool.not_true, Bool.false_eq_true, if_false, forall_const]
    rw [← noted]
    split
    · split <;> rfl
    · rfl
  · simp [filled]

theorem within_actionTagEntity :
    Within orgId (actionTagEntity session entity config).session.accesses ↔
      Within orgId session.accesses ∧
        (∀ given, (get? config "tag").getD (.text "") = .text given → stripText given ≠ "" →
          entity.orgId = orgId) := by
  unfold actionTagEntity
  cases tag : (get? config "tag").getD (.text "") with
  | text given =>
    by_cases blank : stripText given = ""
    · simp [blank]
    · simp only [blank, if_false]
      split
      · simp [blank, entityAccess]
      · simp [blank, entityAccess]
  | _ => simp

theorem within_actionSendAlert :
    Within orgId (actionSendAlert services session entity config).session.accesses ↔
      Within orgId session.accesses ∧
        (∀ channel, alertedChannel services session.alertChannels config = some channel →
          channel.orgId = orgId ∧ entity.orgId = orgId) := by
  unfold actionSendAlert alertedChannel
  by_cases given : ((get? config "channel_id").getD .null).truthy = true
  · simp only [given, Bool.not_true, Bool.false_eq_true, if_false, if_true]
    cases test : services.idTest ((get? config "channel_id").getD .null) with
    | none => simp
    | some matchesId =>
      cases found : selectedChannel session.alertChannels matchesId with
      | none => simp [found]
      | some channel =>
        simp only [Option.bind_some, found, Option.some.injEq, forall_eq']
        split
        · simp [channelAccess, entityAccess, and_assoc]
          tauto
        · simp [channelAccess, entityAccess, and_assoc]
          tauto
  · simp [given]

theorem within_performAction (action : Action) :
    Within orgId (performAction services session entity action).session.accesses ↔
      Within orgId session.accesses ∧
        OwnAction services orgId session.alertChannels entity.orgId action := by
  obtain ⟨type, config⟩ := action
  cases type with
  | sendWebhook =>
    refine (within_actionSendWebhook config).trans (and_congr_right fun _ => ?_)
    exact ⟨fun own => ⟨own, nofun⟩, fun own => own.entity⟩
  | tagEntity =>
    refine (within_actionTagEntity config).trans (and_congr_right fun _ => ?_)
    constructor
    · intro own
      refine ⟨fun reads => ?_, nofun⟩
      unfold readsEntity at reads
      dsimp only at reads
      split at reads
      · rename_i given tag
        exact own given tag (by simpa using reads)
      · cases reads
    · intro own given tag filled
      exact own.entity (by simp [readsEntity, tag, filled])
  | sendAlert =>
    refine (within_actionSendAlert config).trans (and_congr_right fun _ => ?_)
    constructor
    · intro own
      refine ⟨fun reads => ?_, fun _ channel selected => (own channel selected).1⟩
      obtain ⟨channel, selected⟩ := Option.isSome_iff_exists.mp reads
      exact (own channel selected).2
    · intro own channel selected
      refine ⟨own.channel rfl channel selected, own.entity ?_⟩
      exact Option.isSome_iff_exists.mpr ⟨channel, selected⟩
  | logOnly =>
    refine (within_noting _).trans (and_congr_right fun _ => ?_)
    exact ⟨fun own => ⟨fun _ => own, nofun⟩, fun own => own.entity rfl⟩
  | other name =>
    have own : OwnAction services orgId session.alertChannels entity.orgId ⟨.other name, config⟩ :=
      ⟨nofun, nofun⟩
    exact (and_iff_left own).symm

/-- The channels after an action select as before, and the entity stays whose it is. -/
structure Undisturbed (session : Session) (entity : RawEntity) (outcome : Outcome) : Prop where
  entityOrg : outcome.entity.orgId = entity.orgId
  selects : ∀ matchesId, (selectedChannel outcome.session.alertChannels matchesId).map
    AlertChannel.orgId = (selectedChannel session.alertChannels matchesId).map AlertChannel.orgId

theorem selectedChannel_fired (channels : List AlertChannel) (channel : AlertChannel)
    (matchesId : Nat → Bool) :
    (selectedChannel (channels.map (firedRow channel)) matchesId).map AlertChannel.orgId =
      (selectedChannel channels matchesId).map AlertChannel.orgId := by
  unfold selectedChannel
  have keeps : ∀ row, (firedRow channel row).id = row.id ∧
      (firedRow channel row).isActive = row.isActive ∧
      (firedRow channel row).orgId = row.orgId := by
    intro row
    unfold firedRow
    split <;> exact ⟨rfl, rfl, rfl⟩
  rw [List.find?_map, Option.map_map]
  have sameTest : ((fun row : AlertChannel => matchesId row.id && row.isActive == some true) ∘
      firedRow channel) = fun row => matchesId row.id && row.isActive == some true := by
    funext row
    simp only [Function.comp, (keeps row).1, (keeps row).2.1]
  have sameOrg : AlertChannel.orgId ∘ firedRow channel = AlertChannel.orgId := by
    funext row
    exact (keeps row).2.2
  rw [sameTest, sameOrg]

theorem performAction_undisturbed (action : Action) :
    Undisturbed session entity (performAction services session entity action) := by
  unfold performAction
  split
  · unfold actionSendWebhook
    dsimp only
    split
    · exact ⟨rfl, fun _ => rfl⟩
    · split
      · split <;> exact ⟨rfl, fun _ => rfl⟩
      · exact ⟨rfl, fun _ => rfl⟩
  · unfold actionTagEntity
    split
    · dsimp only
      split
      · exact ⟨rfl, fun _ => rfl⟩
      · split <;> exact ⟨rfl, fun _ => rfl⟩
    · exact ⟨rfl, fun _ => rfl⟩
  · unfold actionSendAlert
    dsimp only
    split
    · exact ⟨rfl, fun _ => rfl⟩
    · split
      · exact ⟨rfl, fun _ => rfl⟩
      · split
        · exact ⟨rfl, fun _ => rfl⟩
        · split <;> exact ⟨rfl, selectedChannel_fired session.alertChannels _⟩
  · exact ⟨rfl, fun _ => rfl⟩
  · exact ⟨rfl, fun _ => rfl⟩

theorem alertedChannel_map (channels : List AlertChannel) (config : Entries) :
    (alertedChannel services channels config).map AlertChannel.orgId =
      if ((get? config "channel_id").getD .null).truthy then
        (services.idTest ((get? config "channel_id").getD .null)).bind fun matchesId =>
          (selectedChannel channels matchesId).map AlertChannel.orgId
      else none := by
  unfold alertedChannel
  dsimp only
  split
  · cases services.idTest ((get? config "channel_id").getD .null) <;> rfl
  · rfl

theorem ownAction_congr {first second : List AlertChannel}
    (selects : ∀ matchesId, (selectedChannel second matchesId).map AlertChannel.orgId =
      (selectedChannel first matchesId).map AlertChannel.orgId)
    (entityOrg : Option Nat) (action : Action) :
    OwnAction services orgId second entityOrg action ↔
      OwnAction services orgId first entityOrg action := by
  have alerts : ∀ config, (alertedChannel services second config).map AlertChannel.orgId =
      (alertedChannel services first config).map AlertChannel.orgId := by
    intro config
    rw [alertedChannel_map, alertedChannel_map]
    simp only [selects]
  have reads : readsEntity services second action = readsEntity services first action := by
    unfold readsEntity
    have found := congrArg Option.isSome (alerts action.config)
    simp only [Option.isSome_map] at found
    rw [found]
  have channels : (∀ channel, alertedChannel services second action.config = some channel →
      channel.orgId = orgId) ↔
      ∀ channel, alertedChannel services first action.config = some channel →
        channel.orgId = orgId := by
    have viaMap : ∀ found : Option AlertChannel,
        (∀ channel, found = some channel → channel.orgId = orgId) ↔
          ∀ channelOrg, found.map AlertChannel.orgId = some channelOrg → channelOrg = orgId := by
      intro found
      cases found <;> simp
    rw [viaMap, viaMap, alerts]
  constructor
  · intro own
    exact ⟨reads ▸ own.entity, fun alert => channels.mp (own.channel alert)⟩
  · intro own
    exact ⟨reads ▸ own.entity, fun alert => channels.mpr (own.channel alert)⟩

theorem within_dispatchActions (actions : List Action) (session : Session) (entity : RawEntity) :
    Within orgId (dispatchActions services session entity actions).1.accesses ↔
      Within orgId session.accesses ∧
        ∀ action ∈ actions,
          OwnAction services orgId session.alertChannels entity.orgId action := by
  induction actions generalizing session entity with
  | nil => simp [dispatchActions]
  | cons action rest ih =>
    have same : Undisturbed session entity (performAction services session entity action) :=
      performAction_undisturbed action
    rw [dispatchActions, ih, within_performAction, List.forall_mem_cons, and_assoc, same.entityOrg]
    refine and_congr_right fun _ => and_congr_right fun _ => ?_
    exact forall₂_congr fun other _ => ownAction_congr same.selects entity.orgId other

/-- The workflow's own rows: what it may touch of the entity and of the channels. -/
structure OwnInputs (services : Services) (session : Session) (workflow : Workflow)
    (entity : RawEntity) : Prop where
  conditions : workflow.conditions ≠ [] → entity.orgId = workflow.orgId
  actions : evaluateConditions services entity workflow.conditions = .ok true →
    ∀ action ∈ workflow.actions,
      OwnAction services workflow.orgId session.alertChannels entity.orgId action

theorem within_conditionsRead :
    Within orgId (conditionsRead session workflow entity).accesses ↔
      Within orgId session.accesses ∧ (workflow.conditions ≠ [] → entity.orgId = orgId) := by
  unfold conditionsRead
  cases workflow.conditions with
  | nil => simp
  | cons condition rest => simp [entityAccess]

theorem within_insertRun :
    Within orgId (insertRun session run).accesses ↔
      Within orgId session.accesses ∧ run.orgId = orgId :=
  within_noting _

theorem conditionsRead_alertChannels :
    (conditionsRead (insertRun session run) workflow entity).alertChannels =
      session.alertChannels := by
  unfold conditionsRead
  split <;> rfl

theorem within_runWorkflow :
    Within workflow.orgId (runWorkflow services session workflow entity triggerData).session.accesses
      ↔ Within workflow.orgId session.accesses ∧ OwnInputs services session workflow entity := by
  have ready : Within workflow.orgId (conditionsRead (insertRun session
      (startedRun session workflow triggerData)) workflow entity).accesses ↔
      Within workflow.orgId session.accesses ∧
        (workflow.conditions ≠ [] → entity.orgId = workflow.orgId) := by
    have own : (startedRun session workflow triggerData).orgId = workflow.orgId := rfl
    rw [within_conditionsRead, within_insertRun, and_iff_left own]
  unfold runWorkflow
  cases met : evaluateConditions services entity workflow.conditions with
  | error raised =>
    dsimp only
    rw [within_finishRun _ rfl, and_iff_left rfl, ready]
    refine and_congr_right fun _ => ⟨fun read => ⟨read, ?_⟩, fun own => own.conditions⟩
    intro passed
    rw [met] at passed
    cases passed
  | ok held =>
    cases held with
    | false =>
      dsimp only
      rw [within_finishRun _ rfl, and_iff_left rfl, ready]
      refine and_congr_right fun _ => ⟨fun read => ⟨read, ?_⟩, fun own => own.conditions⟩
      intro passed
      rw [met] at passed
      cases passed
    | true =>
      dsimp only
      rw [within_finishRun _ rfl, and_iff_left rfl, within_dispatchActions, ready,
        conditionsRead_alertChannels, and_assoc]
      refine and_congr_right fun _ => ?_
      exact ⟨fun own => ⟨own.1, fun _ => own.2⟩, fun own => ⟨own.conditions, own.actions met⟩⟩

theorem inScope_entityScope (stored : Option Nat) :
    inScope (entityScope entity) (storedOrg stored) = true ↔ stored = entity.orgId := by
  unfold entityScope storedOrg
  cases entity.orgId with
  | none => cases stored <;> simp [inScope, isLegacyGlobalScope]
  | some orgId =>
    change inScope (some (orgId : Int)) _ = true ↔ _
    rw [inScope_organization, beq_iff_eq]
    cases stored <;> simp

theorem runWorkflow_run :
    (runWorkflow services session workflow entity triggerData).run.orgId = workflow.orgId ∧
      (runWorkflow services session workflow entity triggerData).run.workflowId = workflow.id := by
  unfold runWorkflow
  dsimp only
  split <;> exact ⟨rfl, rfl⟩

theorem runWorkflows_runs (workflows : List Workflow) (session : Session) (entity : RawEntity) :
    ∀ run ∈ (runWorkflows services triggerData session entity workflows).2,
      ∃ workflow ∈ workflows, run.workflowId = workflow.id ∧ run.orgId = workflow.orgId := by
  induction workflows generalizing session entity with
  | nil => simp [runWorkflows]
  | cons workflow rest ih =>
    intro run member
    rcases List.mem_cons.mp member with rfl | later
    · exact ⟨workflow, List.mem_cons_self, runWorkflow_run.2, runWorkflow_run.1⟩
    · obtain ⟨other, listed, ran⟩ := ih _ _ run later
      exact ⟨other, List.mem_cons_of_mem workflow listed, ran⟩

theorem fireTrigger_runs (triggerType : String) :
    ∀ run ∈ (fireTrigger services session triggerType entity).2,
      ∃ workflow ∈ session.workflows, run.workflowId = workflow.id ∧
        run.orgId = workflow.orgId ∧ workflow.orgId = entity.orgId := by
  intro run member
  obtain ⟨workflow, triggered, ran, orgId⟩ := runWorkflows_runs _ _ _ run member
  obtain ⟨stored, passes⟩ := List.mem_filter.mp triggered
  simp only [Bool.and_eq_true] at passes
  exact ⟨workflow, stored, ran, orgId, (inScope_entityScope workflow.orgId).mp passes.2⟩

def runAccesses (services : Services) (session : Session) (workflow : Workflow)
    (entity : RawEntity) (triggerData : TriggerData) : List Access :=
  (runWorkflow services { session with accesses := [] } workflow entity
    triggerData).session.accesses

/-- A run stays within the workflow's organization exactly on an entity of it and with alert
actions that select channels of it; a trigger runs workflows of the entity's organization. -/
theorem workflows_isolated_iff (services : Services) (session : Session) (workflow : Workflow)
    (entity : RawEntity) (triggerData : TriggerData) (triggerType : String) :
    (Within workflow.orgId (runAccesses services session workflow entity triggerData) ↔
      OwnInputs services session workflow entity) ∧
    ∀ run ∈ (fireTrigger services session triggerType entity).2,
      ∃ fired ∈ session.workflows, run.workflowId = fired.id ∧
        run.orgId = fired.orgId ∧ fired.orgId = entity.orgId := by
  refine ⟨?_, fireTrigger_runs triggerType⟩
  have fresh : Within workflow.orgId ({ session with accesses := [] } : Session).accesses :=
    fun access member => nomatch member
  have inputs : OwnInputs services { session with accesses := [] } workflow entity ↔
      OwnInputs services session workflow entity :=
    ⟨fun own => ⟨own.conditions, own.actions⟩, fun own => ⟨own.conditions, own.actions⟩⟩
  unfold runAccesses
  rw [within_runWorkflow, and_iff_right fresh, inputs]

def plainServices : Services where
  lower := String.toLower
  shown := fun _ => ""
  message := fun _ => ""
  idTest
    | .integer value => some fun id => (id : Int) == value
    | _ => none
  decryptValue := some
  reply := fun _ _ => .ok ⟨true, 200⟩

def alertingWorkflow : Workflow where
  id := 1
  orgId := some 1
  isActive := some true
  triggerType := "entity.enriched"
  conditions := []
  actions := [⟨.sendAlert, [("channel_id", .integer 7)]⟩]
  runCount := some 0
  lastRunStatus := none

def enrichedEntity : RawEntity where
  id := 5
  orgId := some 1
  primaryLabel := some "label"
  domain := none
  enrichmentConcepts := none
  enrichmentStatus := some "completed"
  attributesJson := .null
  others := []

def twoTenants : Session where
  alertChannels := [⟨7, some 2, "https://hooks.example", some true, none, some 0⟩]
  rawEntities := [enrichedEntity]
  workflows := [alertingWorkflow]
  workflowRuns := []
  posts := []
  accesses := []

/-- The workflow of organization 1 posts through the channel of organization 2. -/
theorem alert_crosses_tenants :
    alertingWorkflow.orgId = enrichedEntity.orgId ∧
      (⟨.sendsThrough, .alertChannels, 7, some 2⟩ : Access) ∈
        runAccesses plainServices twoTenants alertingWorkflow enrichedEntity
          ⟨"entity.enriched", 5⟩ ∧
      ¬ Within alertingWorkflow.orgId
        (runAccesses plainServices twoTenants alertingWorkflow enrichedEntity
          ⟨"entity.enriched", 5⟩) := by
  decide

end Ukip.Workflows.Engine
