import Ukip.Foundation.EventRun
import Ukip.Jobs.Migration
import Ukip.Jobs.Sessions

/-!
# Re-queueing stale entities

`_requeue_domain` of the enrichment scheduler.  In process it marks the entities it
picks as pending, and a pending entity is not picked again.  In queue mode the mark
is skipped: the entity stays eligible until a worker has finished its job, and the
only thing between two passes is an idempotency key built from the pass's own clock.
-/

namespace Ukip.Enrichment.Requeue

open Core.Clock Jobs.States Jobs.Envelope Jobs.Service Jobs.Migration
open Jobs.Sessions (JobEvent flushOf insertOf)
open Foundation.Relational Foundation.Relational.SerialTable Foundation.SqlTruth Foundation.EventRun

/-- The values of `enrichment_status`; `derived` is the graph materializer's. -/
inductive EnrichmentStatus where
  | none
  | pending
  | processing
  | completed
  | failed
  | derived
  deriving DecidableEq

/-- The columns of `raw_entities` that the scheduler reads. -/
structure RawEntity where
  id : Nat
  orgId : Option Nat
  domain : Option String
  enrichmentStatus : Option EnrichmentStatus
  source : Option String
  deriving DecidableEq

def entitySchema : Schema RawEntity where
  key := RawEntity.id
  withKey value entity := { entity with id := value }
  key_withKey _ _ := rfl
  clash _ _ := false
  clash_comm _ _ := rfl
  clash_withKey _ _ _ := rfl

abbrev EntityTable := SerialTable entitySchema

def setStatus (status : EnrichmentStatus) : SetClause entitySchema where
  apply entity := { entity with enrichmentStatus := some status }
  key_apply _ := rfl
  clash_apply _ _ := rfl

/-- `enrichment_status IN ('none', 'failed')` -/
def isStale (entity : RawEntity) : Bool :=
  selects (isIn entity.enrichmentStatus [.none, .failed])

def isEligible (domainId : String) (entity : RawEntity) : Bool :=
  selects (both
    (both (compare (fun source excluded => source != excluded) entity.source
        (some "graph_materializer"))
      (isIn entity.enrichmentStatus [.none, .failed]))
    (compare (fun domain wanted => domain == wanted) entity.domain (some domainId)))

/-- `LIMIT budget` without ORDER BY: any `budget` of the eligible rows, in any order. -/
def LimitReturns (eligible : List RawEntity) (budget : Nat) (returned : List RawEntity) : Prop :=
  returned.Nodup ∧ (∀ entity ∈ returned, entity ∈ eligible) ∧
    returned.length = min budget eligible.length

instance decidableLimitReturns (eligible : List RawEntity) (budget : Nat)
    (returned : List RawEntity) : Decidable (LimitReturns eligible budget returned) :=
  inferInstanceAs (Decidable (_ ∧ _ ∧ _))

def passOccurrence (now : Time) : Option Occurrence := some ⟨now, "+00:00"⟩

def requeueRequest (mode : JobMode) (now : Time) (entity : RawEntity) : EnqueueRequest :=
  occurrenceRequest .enrichment entity.id entity.orgId (passOccurrence now) mode (some entity.id)

def enqueueEntity (mode : JobMode) (uuid : Nat → String) (now : Time) (jobs : JobTable)
    (entity : RawEntity) : JobTable :=
  bestEffort jobs (enqueueOccurrence jobs .enrichment entity.id entity.orgId (passOccurrence now)
    mode (some entity.id) (uuid entity.id) now)

def enqueueAll (mode : JobMode) (uuid : Nat → String) (now : Time) :
    List RawEntity → JobTable → JobTable
  | [], jobs => jobs
  | entity :: rest, jobs => enqueueAll mode uuid now rest (enqueueEntity mode uuid now jobs entity)

def isPicked (picked : List RawEntity) (entity : RawEntity) : Bool :=
  decide (entity.id ∈ picked.map RawEntity.id) && isStale entity

structure Requeued where
  jobs : JobTable
  entities : EntityTable
  queuedCount : Nat

/-- `_requeue_domain`, from the rows its SELECT has returned. -/
def requeueDomain (mode : JobMode) (jobs : JobTable) (entities : EntityTable)
    (eligible : List RawEntity) (uuid : Nat → String) (now : Time) : Requeued :=
  if eligible = [] then ⟨jobs, entities, 0⟩
  else if !shouldRunInprocess mode then
    ⟨enqueueAll mode uuid now eligible jobs, entities, eligible.length⟩
  else
    let updated := entities.rows.countP (isPicked eligible)
    ⟨enqueueAll mode uuid now eligible jobs,
      entities.updateWhere (isPicked eligible) (setStatus .pending),
      -- `result.rowcount or len(eligible_ids)`
      if updated = 0 then eligible.length else updated⟩

structure EnrichmentWorld where
  jobs : Jobs.Sessions.World
  entities : EntityTable

inductive EnrichmentEvent where
  /-- workers, operators and other producers; a pass overtaken between a look-up
  and its commit shows as the `insertQueued` of its rows -/
  | job (event : JobEvent)
  | create (entity : RawEntity)
  /-- a worker, an operator or an import writes the status -/
  | setStatus (entityId : Nat) (status : EnrichmentStatus)
  | delete (entityId : Nat)
  /-- one pass over a stale domain; `uuid` gives each new job its id -/
  | requeue (domainId : String) (budget : Nat) (returned : List RawEntity) (now : Time)
      (uuid : Nat → String)

def EnrichmentWorld.start : EnrichmentWorld where
  jobs := .start
  entities := .empty entitySchema

def eligibleEntities (world : EnrichmentWorld) (domainId : String) : List RawEntity :=
  world.entities.rows.filter (isEligible domainId)

def step (world : EnrichmentWorld) : EnrichmentEvent → EnrichmentWorld
  | .job event => { world with jobs := Jobs.Sessions.step world.jobs event }
  | .create entity => { world with entities := (world.entities.insert entity).getD world.entities }
  | .setStatus entityId status =>
    { world with
      entities := world.entities.updateWhere (fun entity => entity.id == entityId)
        (setStatus status) }
  | .delete entityId =>
    { world with entities := world.entities.deleteWhere fun entity => entity.id == entityId }
  | .requeue domainId budget returned now uuid =>
    if LimitReturns (eligibleEntities world domainId) budget returned then
      let result := requeueDomain .queue world.jobs.db.jobs world.entities returned uuid now
      { jobs := world.jobs.withJobs result.jobs, entities := result.entities }
    else world

def entityOf (job : BackgroundJob) : Option Nat :=
  if job.jobType = domainJobType .enrichment then job.payload.bind JobPayload.entityId else none

def openEntity (job : BackgroundJob) : Option Nat :=
  if isTerminal job.status then none else entityOf job

/-- No entity has two non-terminal jobs. -/
def OneOpenJobEach (world : EnrichmentWorld) : Prop :=
  OnePerLabel openEntity world.jobs.db.jobs

def HasOpenJob (jobs : JobTable) (entityId : Nat) : Prop :=
  ∃ job ∈ jobs.rows, openEntity job = some entityId

/-- The entity for which a job event opens a job: it inserts one, or a flush from an
overtaken copy takes a finished one back to `retry_wait`. -/
def openedBy (world : Jobs.Sessions.World) (event : JobEvent) : Option Nat :=
  match insertOf world event with
  | some row => if world.db.jobs.rejects row then none else entityOf row
  | none =>
    (flushOf world event).bind fun flush =>
      if flush.current.status = .retryWait then
        (world.db.jobs.get? flush.copy.loaded.id).bind fun stored =>
          if isTerminal stored.status then entityOf stored else none
      else none

/-- An event opens no second job: a pass that picks an entity with an open job finds
the key of its own second taken. -/
def OpensNoSecond (world : EnrichmentWorld) : EnrichmentEvent → Prop
  | .job event => ∀ entityId, openedBy world.jobs event = some entityId →
      ¬ HasOpenJob world.jobs.db.jobs entityId
  | .requeue domainId budget returned now _ =>
    LimitReturns (eligibleEntities world domainId) budget returned →
      ∀ entity ∈ returned, HasOpenJob world.jobs.db.jobs entity.id →
        KeyHeld world.jobs.db.jobs (requeueRequest .queue now entity)
  | _ => True

theorem openEntity_eq_some_iff (job : BackgroundJob) (entityId : Nat) :
    openEntity job = some entityId ↔ isTerminal job.status = false ∧ entityOf job = some entityId := by
  unfold openEntity
  split
  · rename_i ended
    simp [ended]
  · rename_i unfinished
    simp [unfinished]

theorem oneOpen_updateWhere (jobs : JobTable) (matched : BackgroundJob → Bool)
    (set : SetClause jobSchema) (sameEntity : ∀ job, entityOf (set.apply job) = entityOf job)
    (unfinished : ∀ job, matched job = true → isTerminal job.status = false)
    (unique : OnePerLabel openEntity jobs) :
    OnePerLabel openEntity (jobs.updateWhere matched set) := by
  refine onePerLabel_updateWhere jobs matched set (fun job _ shown after => ?_) unique
  rw [openEntity_eq_some_iff] at after ⊢
  unfold SetClause.onRow at after
  split at after
  · rename_i hit
    rw [sameEntity job] at after
    exact ⟨unfinished job hit, after.2⟩
  · exact after

theorem quietChange_oneOpen (before after : JobTable)
    (change : Jobs.Sessions.QuietChange before after)
    (unique : OnePerLabel openEntity before) : OnePerLabel openEntity after := by
  cases change with
  | same => exact unique
  | claimed attempt =>
    refine oneOpen_updateWhere before _ _ (fun _ => rfl) (fun job hit => ?_) unique
    simp only [claimMatches, Bool.and_eq_true, beq_iff_eq] at hit
    rw [hit.2]
    rfl
  | renewed jobId leaseOwner expires =>
    refine oneOpen_updateWhere before _ _ (fun _ => rfl) (fun job hit => ?_) unique
    simp only [renewMatches, Bool.and_eq_true, beq_iff_eq] at hit
    rw [hit.1.2]
    rfl
  | promoted now =>
    refine oneOpen_updateWhere before _ _ (fun _ => rfl) (fun job hit => ?_) unique
    simp only [isRetryReady, Bool.and_eq_true, beq_iff_eq] at hit
    rw [hit.1]
    rfl
  | purged olderThan => exact onePerLabel_deleteWhere before _ unique

theorem insert_oneOpen_iff (jobs : JobTable) (row : BackgroundJob) (fresh : FreshRow row)
    (unique : OnePerLabel openEntity jobs) :
    OnePerLabel openEntity ((jobs.insert row).getD jobs) ↔
      ∀ entityId, (if jobs.rejects row then none else entityOf row) = some entityId →
        ¬ HasOpenJob jobs entityId := by
  have shows : openEntity (jobs.keyed row) = entityOf row := by
    rw [openEntity, (fresh.keyed jobs).queued]
    rfl
  cases inserted : jobs.insert row with
  | none =>
    rw [(insert_eq_none_iff jobs row).mp inserted]
    simpa using unique
  | some after =>
    obtain ⟨accepted, rfl⟩ := (insert_eq_some_iff jobs after row).mp inserted
    rw [Option.getD_some, onePerLabel_append_iff, accepted, shows]
    constructor
    · rintro ⟨_, apart⟩ entityId named ⟨job, member, here⟩
      exact apart entityId named job member here
    · intro free
      exact ⟨unique, fun entityId named job member here =>
        free entityId named ⟨job, member, here⟩⟩

variable (world : Jobs.Sessions.World)

theorem flush_oneOpen_iff (event : JobEvent) (flush : Jobs.Sessions.Flush)
    (sent : flushOf world event = some flush) (unique : OnePerLabel openEntity world.db.jobs) :
    OnePerLabel openEntity (flush.onto world.db.jobs) ↔
      ∀ entityId, (if flush.current.status = .retryWait then
          (world.db.jobs.get? flush.copy.loaded.id).bind fun stored =>
            if isTerminal stored.status then entityOf stored else none
        else none) = some entityId → ¬ HasOpenJob world.db.jobs entityId := by
  unfold Jobs.Sessions.Flush.onto flushCopy
  cases found : world.db.jobs.get? flush.copy.loaded.id with
  | none =>
    have gone : ∀ row ∈ world.db.jobs.rows, (row.id == flush.copy.loaded.id) = false :=
      fun row member => beq_eq_false_iff_ne.mpr ((get?_eq_none_iff _ _).mp found row member)
    rw [updateWhere_of_unmatched _ _ _ gone]
    simpa using unique
  | some stored =>
    obtain ⟨member, here⟩ := (world.db.jobs.get?_eq_some_iff _ stored).mp found
    have only : ∀ row ∈ world.db.jobs.rows,
        (row.id == flush.copy.loaded.id) = true ↔ row = stored := by
      intro row rowMember
      rw [beq_iff_eq]
      constructor
      · intro sameId
        exact world.db.jobs.eq_of_key_eq rowMember member (sameId.trans here.symm)
      · rintro rfl
        exact here
    rw [onePerLabel_updateKey_iff world.db.jobs _ _ stored member only unique]
    have written := Jobs.Sessions.flush_writes_status world event flush sent stored
    have sameEntity : entityOf ((flushJob flush.copy flush.current).apply stored) =
        entityOf stored := rfl
    by_cases waits : flush.current.status = .retryWait
    · have shows : openEntity ((flushJob flush.copy flush.current).apply stored) =
          entityOf stored := by
        rw [openEntity, written, waits, sameEntity]
        rfl
      rw [shows, if_pos waits, Option.bind_some]
      by_cases ended : isTerminal stored.status = true
      · rw [if_pos ended]
        constructor
        · rintro apart entityId named ⟨job, jobMember, opened⟩
          rw [apart entityId named job jobMember opened, openEntity_eq_some_iff, ended] at opened
          exact absurd opened.1 (by decide)
        · intro free entityId named job jobMember opened
          exact absurd ⟨job, jobMember, opened⟩ (free entityId named)
      · rw [if_neg ended]
        constructor
        · intro _ entityId named
          cases named
        · intro _ entityId named job jobMember opened
          refine unique job jobMember stored member entityId opened ?_
          exact (openEntity_eq_some_iff stored entityId).mpr ⟨by simpa using ended, named⟩
    · have ends : isTerminal flush.current.status = true := by
        rcases Jobs.Sessions.flushOf_shape world event flush sent with
          ⟨_, done | done | done⟩ | ⟨_, done⟩
        · rw [done]; rfl
        · exact absurd done waits
        · rw [done]; rfl
        · rw [done]; rfl
      have shows : openEntity ((flushJob flush.copy flush.current).apply stored) = none := by
        rw [openEntity, written, if_pos ends]
      rw [shows, if_neg waits]
      simp

theorem job_oneOpen_iff (event : JobEvent) (unique : OnePerLabel openEntity world.db.jobs) :
    OnePerLabel openEntity (Jobs.Sessions.step world event).db.jobs ↔
      ∀ entityId, openedBy world event = some entityId → ¬ HasOpenJob world.db.jobs entityId := by
  unfold openedBy
  cases inserting : insertOf world event with
  | some row =>
    rw [Jobs.Sessions.step_jobs_of_insert world event row inserting]
    exact insert_oneOpen_iff world.db.jobs row
      (Jobs.Sessions.insertOf_fresh world event row inserting) unique
  | none =>
    cases sent : flushOf world event with
    | some flush =>
      rw [Jobs.Sessions.step_jobs_of_flush world event flush sent]
      exact flush_oneOpen_iff world event flush sent unique
    | none =>
      have quiet := Jobs.Sessions.step_jobs_quiet world event sent inserting
      have kept := quietChange_oneOpen _ _ quiet unique
      simpa using kept

variable (uuid : Nat → String) (now : Time) (jobs : JobTable) (entity : RawEntity)

theorem enqueueEntity_cases :
    (KeyHeld jobs (requeueRequest .queue now entity) ∧
        enqueueEntity .queue uuid now jobs entity = jobs) ∨
      (¬ KeyHeld jobs (requeueRequest .queue now entity) ∧
        ∃ accepted : jobs.rejects (newJob (requeueRequest .queue now entity) (uuid entity.id) now) =
            false,
          enqueueEntity .queue uuid now jobs entity = jobs.append _ accepted) :=
  bestEffort_cases jobs .enrichment entity.id entity.orgId (passOccurrence now) (some entity.id)
    (uuid entity.id) now

theorem openEntity_requeued (uuid : String) (now : Time) (jobs : JobTable) (entity : RawEntity) :
    openEntity (jobs.keyed (newJob (requeueRequest .queue now entity) uuid now)) =
      some entity.id := rfl

theorem enqueueEntity_oneOpen_iff :
    OnePerLabel openEntity (enqueueEntity .queue uuid now jobs entity) ↔
      OnePerLabel openEntity jobs ∧
        (HasOpenJob jobs entity.id → KeyHeld jobs (requeueRequest .queue now entity)) := by
  rcases enqueueEntity_cases uuid now jobs entity with ⟨held, same⟩ | ⟨free, accepted, stored⟩
  · rw [same]
    exact ⟨fun unique => ⟨unique, fun _ => held⟩, fun both => both.1⟩
  · rw [stored, onePerLabel_append_iff, openEntity_requeued]
    refine and_congr_right fun _ => ⟨?_, ?_⟩
    · rintro apart ⟨job, member, here⟩
      exact absurd here (apart entity.id rfl job member)
    · intro heldIfOpen shown named job member here
      cases Option.some.inj named
      exact free (heldIfOpen ⟨job, member, here⟩)

theorem hasOpenJob_enqueueEntity (otherId : Nat) (different : entity.id ≠ otherId) :
    HasOpenJob (enqueueEntity .queue uuid now jobs entity) otherId ↔ HasOpenJob jobs otherId := by
  rcases enqueueEntity_cases uuid now jobs entity with ⟨_, same⟩ | ⟨_, accepted, stored⟩
  · rw [same]
  · rw [stored]
    constructor
    · rintro ⟨job, member, here⟩
      rcases (mem_append jobs _ job accepted).mp member with old | rfl
      · exact ⟨job, old, here⟩
      · rw [openEntity_requeued] at here
        exact absurd (Option.some.inj here) different
    · rintro ⟨job, member, here⟩
      exact ⟨job, (mem_append jobs _ job accepted).mpr (.inl member), here⟩

theorem enqueueAll_oneOpen_iff (picked : List RawEntity) (jobs : JobTable)
    (distinct : picked.Pairwise fun first second => first.id ≠ second.id) :
    OnePerLabel openEntity (enqueueAll .queue uuid now picked jobs) ↔
      OnePerLabel openEntity jobs ∧ ∀ entity ∈ picked,
        HasOpenJob jobs entity.id → KeyHeld jobs (requeueRequest .queue now entity) := by
  induction picked generalizing jobs with
  | nil => simp [enqueueAll]
  | cons entity rest ih =>
    obtain ⟨apart, restDistinct⟩ := List.pairwise_cons.mp distinct
    have sameRest : ∀ other ∈ rest,
        ((HasOpenJob (enqueueEntity .queue uuid now jobs entity) other.id →
            KeyHeld (enqueueEntity .queue uuid now jobs entity)
              (requeueRequest .queue now other)) ↔
          (HasOpenJob jobs other.id → KeyHeld jobs (requeueRequest .queue now other))) := by
      intro other member
      have keys := keyHeld_bestEffort jobs .enrichment entity.id entity.orgId (passOccurrence now)
        (some entity.id) (uuid entity.id) now other.id other.orgId (passOccurrence now)
        (some other.id) (apart other member)
      rw [hasOpenJob_enqueueEntity uuid now jobs entity other.id (apart other member)]
      exact imp_congr_right fun _ => keys
    rw [enqueueAll, ih _ restDistinct, enqueueEntity_oneOpen_iff, List.forall_mem_cons, and_assoc]
    refine and_congr_right fun _ => and_congr_right fun _ => ?_
    exact forall₂_congr sameRest

theorem requeueDomain_jobs (entities : EntityTable) (picked : List RawEntity) (mode : JobMode)
    (uuid : Nat → String) (now : Time) :
    (requeueDomain mode jobs entities picked uuid now).jobs = enqueueAll mode uuid now picked jobs := by
  unfold requeueDomain
  split
  · rename_i nothing
    rw [nothing]
    rfl
  · split <;> rfl

theorem returned_distinct (entities : EntityTable) (domainId : String) (budget : Nat)
    (returned : List RawEntity)
    (limited : LimitReturns (entities.rows.filter (isEligible domainId)) budget returned) :
    returned.Pairwise fun first second => first.id ≠ second.id := by
  refine List.Pairwise.imp_of_mem ?_ limited.1
  intro first second firstMember secondMember different same
  have stored : ∀ entity ∈ returned, entity ∈ entities.rows := fun entity member =>
    (List.mem_filter.mp (limited.2.1 entity member)).1
  exact different (entities.eq_of_key_eq (stored first firstMember) (stored second secondMember) same)

theorem oneOpenJobEach_iff_opensNoSecond (world : EnrichmentWorld) (event : EnrichmentEvent)
    (unique : OneOpenJobEach world) :
    OneOpenJobEach (step world event) ↔ OpensNoSecond world event := by
  cases event with
  | job event => exact job_oneOpen_iff world.jobs event unique
  | create entity => exact iff_of_true unique trivial
  | setStatus entityId status => exact iff_of_true unique trivial
  | delete entityId => exact iff_of_true unique trivial
  | requeue domainId budget returned now uuid =>
    by_cases limited : LimitReturns (eligibleEntities world domainId) budget returned
    · have distinct := returned_distinct world.entities domainId budget returned limited
      have pass := enqueueAll_oneOpen_iff uuid now returned world.jobs.db.jobs distinct
      simp only [step, OneOpenJobEach, OpensNoSecond, if_pos limited,
        Jobs.Sessions.World.withJobs_jobs, requeueDomain_jobs, pass]
      exact ⟨fun both _ => both.2, fun guarded => ⟨unique, guarded limited⟩⟩
    · simp only [step, if_neg limited, OpensNoSecond]
      exact iff_of_true unique fun here => absurd here limited

/-- In a run of the queue mode every state has at most one open job for each entity if
and only if no event of the run opens a second one. -/
theorem one_open_job_iff_opens_no_second (events : List EnrichmentEvent) :
    EveryState step OneOpenJobEach EnrichmentWorld.start events ↔
      EveryStep step OpensNoSecond EnrichmentWorld.start events :=
  everyState_iff_everyStep oneOpenJobEach_iff_opensNoSecond EnrichmentWorld.start events
    onePerLabel_empty

def staleEntity : RawEntity where
  id := 1
  orgId := some 7
  domain := some "science"
  enrichmentStatus := some .none
  source := some "user"

def twoPasses : List EnrichmentEvent :=
  [ .create staleEntity,
    .requeue "science" 100 [staleEntity] 0 (fun _ => "u"),
    .requeue "science" 100 [staleEntity] (minutes 1) (fun _ => "v") ]

theorem two_passes_two_jobs :
    ¬ EveryState step OneOpenJobEach EnrichmentWorld.start twoPasses := by
  intro every
  have last := (everyState_iff_front _ _).mp every twoPasses [] rfl
  have stored : ∀ jobId ∈ [1, 2],
      ∃ job ∈ (runEvents step EnrichmentWorld.start twoPasses).jobs.db.jobs.rows,
        job.id = jobId ∧ openEntity job = some 1 := by decide
  obtain ⟨first, firstMember, firstId, firstOpen⟩ := stored 1 (by decide)
  obtain ⟨second, secondMember, secondId, secondOpen⟩ := stored 2 (by decide)
  have same := last first firstMember second secondMember 1 firstOpen secondOpen
  rw [same, secondId] at firstId
  cases firstId

end Ukip.Enrichment.Requeue
