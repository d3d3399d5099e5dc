import Ukip.Core.Clock
import Ukip.Foundation.SerialTable
import Ukip.Foundation.UnitOfWork
import Ukip.Jobs.States

/-!
# The `background_jobs` table

The row of `models.BackgroundJob`, its unique constraint
`uq_background_job_idempotency` and the UPDATE a flush of a loaded row sends.
`job_id` is a fresh uuid4 of the producer; its unique index never fires and is
not part of the clash.
-/

namespace Ukip.Jobs.Envelope

open Core.Clock States Foundation.Relational Foundation.UnitOfWork

inductive JobMode where
  | off
  | shadow
  | queue
  deriving DecidableEq

/-- The references a payload carries, as the handlers read them back from the
JSON text. -/
structure JobPayload where
  scheduleId : Option Nat
  mode : Option JobMode
  entityId : Option Nat
  deriving DecidableEq

structure BackgroundJob where
  id : Nat
  jobId : String
  jobType : String
  orgId : Option Nat
  requestedBy : Option Nat := none
  idempotencyKey : String
  payloadVersion : Int
  payload : Option JobPayload
  status : JobStatus
  priority : Int
  attempt : Int
  maxAttempts : Int
  availableAt : Time
  leaseOwner : Option String := none
  leaseExpiresAt : Option Time := none
  createdAt : Time
  startedAt : Option Time := none
  finishedAt : Option Time := none
  errorCode : Option String := none
  errorDetail : Option String := none
  correlationId : Option String := none
  replayOf : Option String := none
  deriving DecidableEq

/-- The columns of `uq_background_job_idempotency`. -/
def idempotencyColumns (job : BackgroundJob) : Option Nat × String × String :=
  (job.orgId, job.jobType, job.idempotencyKey)

/-- In a unique constraint a NULL `org_id` is distinct from every other value,
another NULL included. -/
def idempotencyClash (first second : BackgroundJob) : Bool :=
  first.orgId.isSome && idempotencyColumns first == idempotencyColumns second

theorem idempotencyClash_iff (first second : BackgroundJob) :
    idempotencyClash first second = true ↔
      first.orgId ≠ none ∧ idempotencyColumns first = idempotencyColumns second := by
  simp [idempotencyClash, Option.isSome_iff_ne_none]

def jobSchema : Schema BackgroundJob where
  key := BackgroundJob.id
  withKey value job := { job with id := value }
  key_withKey _ _ := rfl
  clash := idempotencyClash
  clash_comm first second := by
    rw [Bool.eq_iff_iff, idempotencyClash_iff, idempotencyClash_iff]
    constructor <;>
      · rintro ⟨named, same⟩
        have sameOrg := congrArg Prod.fst same
        simp only [idempotencyColumns] at sameOrg
        exact ⟨by rw [← sameOrg]; exact named, same.symm⟩
  clash_withKey _ _ _ := rfl

abbrev JobTable := SerialTable jobSchema

def setColumns (assign : BackgroundJob → BackgroundJob)
    (sameId : ∀ job, (assign job).id = job.id)
    (sameColumns : ∀ job, idempotencyColumns (assign job) = idempotencyColumns job) :
    SetClause jobSchema where
  apply := assign
  key_apply := sameId
  clash_apply job other := by
    have sameOrg : (assign job).orgId = job.orgId := congrArg Prod.fst (sameColumns job)
    simp only [jobSchema, idempotencyClash, sameColumns, sameOrg]

/-- A row as a session's identity map holds it.  `assigned` records that the
error and lease columns were set while the object was expired. -/
structure OrmCopy where
  loaded : BackgroundJob
  assigned : Bool

/-- `UPDATE background_jobs SET ... WHERE id = ...` of a flush: `current` is the
copy after the operation's assignments. -/
def flushJob (copy : OrmCopy) (current : BackgroundJob) : SetClause jobSchema :=
  setColumns
    (fun stored =>
      { stored with
        status := flushColumn copy.loaded.status current.status stored.status
        availableAt := flushColumn copy.loaded.availableAt current.availableAt stored.availableAt
        finishedAt := flushColumn copy.loaded.finishedAt current.finishedAt stored.finishedAt
        leaseOwner := flushAssigned copy.assigned copy.loaded.leaseOwner current.leaseOwner
          stored.leaseOwner
        leaseExpiresAt := flushAssigned copy.assigned copy.loaded.leaseExpiresAt
          current.leaseExpiresAt stored.leaseExpiresAt
        errorCode := flushAssigned copy.assigned copy.loaded.errorCode current.errorCode
          stored.errorCode
        errorDetail := flushAssigned copy.assigned copy.loaded.errorDetail current.errorDetail
          stored.errorDetail })
    (fun _ => rfl) (fun _ => rfl)

@[simp] theorem flushJob_status (copy : OrmCopy) (current stored : BackgroundJob) :
    ((flushJob copy current).apply stored).status =
      flushColumn copy.loaded.status current.status stored.status := rfl

end Ukip.Jobs.Envelope
