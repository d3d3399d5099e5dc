import Ukip.Foundation.SqlTruth
import Ukip.Jobs.Envelope

/-!
# Durable job services

`jobs/service.py`, one definition per operation: enqueue, claim, lease renewal,
complete, fail, promotion, recovery, cancel, replay and retention.  Operations
that the source writes as one UPDATE or DELETE act on the table; those that go
through a loaded row take the session's copy of it, check the transition on the
copy and flush by primary key.
-/

namespace Ukip.Jobs.Service

open Core.Clock States Envelope Foundation.Relational Foundation.SqlTruth

def defaultMaxAttempts : Int := 3
def backoffBaseSeconds : Int := 10
def backoffCapSeconds : Int := 3600

inductive JobError where
  /-- `idempotency_key is required` -/
  | keyRequired
  /-- `only failed jobs can be replayed` -/
  | onlyFailedReplayed (status : JobStatus)
  /-- the re-raised integrity error -/
  | integrity
  deriving DecidableEq

def truncated (limit : Nat) (text : String) : String :=
  String.ofList (text.toList.take limit)

def sanitize (detail : Option String) : Option String :=
  detail.map (truncated 2000)

def backoff (attempt : Int) : Int :=
  min (backoffBaseSeconds * Int.pow 2 (max (attempt - 1) 0).toNat) backoffCapSeconds

structure AuditDetails where
  jobId : String
  jobType : String
  orgId : Option Nat
  status : JobStatus
  errorCode : Option String
  replayJobId : Option String

structure AuditLog where
  action : String
  entityType : String
  entityId : Nat
  userId : Option Nat
  details : AuditDetails

structure Db where
  jobs : JobTable
  auditLogs : List AuditLog

def Db.empty : Db where
  jobs := .empty jobSchema
  auditLogs := []

def audit (action : String) (job : BackgroundJob) (actorId : Option Nat)
    (replayJobId : Option String) : AuditLog where
  action := action
  entityType := "background_job"
  entityId := job.id
  userId := actorId
  details :=
    { jobId := job.jobId
      jobType := job.jobType
      orgId := job.orgId
      status := job.status
      -- an empty code is left out like a missing one
      errorCode := job.errorCode.filter (· ≠ "")
      replayJobId := replayJobId }

structure EnqueueRequest where
  jobType : String
  orgId : Option Nat
  idempotencyKey : String
  payload : Option JobPayload := none
  requestedBy : Option Nat := none
  priority : Int := 100
  maxAttempts : Int := defaultMaxAttempts
  availableAt : Option Time := none
  correlationId : Option String := none
  payloadVersion : Int := 1

def newJob (request : EnqueueRequest) (uuid : String) (now : Time) : BackgroundJob where
  id := 0
  jobId := uuid
  jobType := request.jobType
  orgId := request.orgId
  requestedBy := request.requestedBy
  idempotencyKey := request.idempotencyKey
  payloadVersion := request.payloadVersion
  payload := request.payload
  status := .queued
  priority := request.priority
  attempt := 0
  maxAttempts := request.maxAttempts
  availableAt := request.availableAt.getD now
  createdAt := now
  correlationId := request.correlationId

/-- A row as an INSERT leaves it: waiting for its first claim. -/
structure FreshRow (job : BackgroundJob) : Prop where
  queued : job.status = .queued
  unattempted : job.attempt = 0
  unowned : job.leaseOwner = none
  unleased : job.leaseExpiresAt = none
  unfinished : job.finishedAt = none

theorem newJob_fresh (request : EnqueueRequest) (uuid : String) (now : Time) :
    FreshRow (newJob request uuid now) :=
  ⟨rfl, rfl, rfl, rfl, rfl⟩

theorem FreshRow.keyed {job : BackgroundJob} (fresh : FreshRow job) (jobs : JobTable) :
    FreshRow (jobs.keyed job) :=
  ⟨fresh.queued, fresh.unattempted, fresh.unowned, fresh.unleased, fresh.unfinished⟩

/-- NULL is looked up with IS NULL, any other `org_id` with equality. -/
def findByKey (jobs : JobTable) (orgId : Option Nat) (jobType idempotencyKey : String) :
    Option BackgroundJob :=
  jobs.rows.find? fun job => idempotencyColumns job == (orgId, jobType, idempotencyKey)

def enqueue (jobs : JobTable) (request : EnqueueRequest) (uuid : String) (now : Time) :
    Except JobError (JobTable × BackgroundJob) :=
  if request.idempotencyKey = "" then .error .keyRequired
  else
    match findByKey jobs request.orgId request.jobType request.idempotencyKey with
    | some existing => .ok (jobs, existing)
    | none =>
      match jobs.insert (newJob request uuid now) with
      | some after => .ok (after, jobs.keyed (newJob request uuid now))
      | none =>
        -- integrity error: roll back and look the duplicate up again
        match findByKey jobs request.orgId request.jobType request.idempotencyKey with
        | some dup => .ok (jobs, dup)
        | none => .error .integrity

def firstInOrder (before : BackgroundJob → BackgroundJob → Bool) :
    List BackgroundJob → Option BackgroundJob
  | [] => none
  | job :: rest =>
    match firstInOrder before rest with
    | none => some job
    | some best => if before best job then some best else some job

/-- `ORDER BY priority, available_at, id` -/
def claimOrder (first second : BackgroundJob) : Bool :=
  first.priority < second.priority ||
    (first.priority == second.priority &&
      (first.availableAt < second.availableAt ||
        (first.availableAt == second.availableAt && first.id < second.id)))

def isClaimable (jobType : Option String) (now : Time) (job : BackgroundJob) : Bool :=
  job.status == .queued && job.availableAt ≤ now && jobType.all (· == job.jobType)

/-- `locked` are the rows that PostgreSQL's SKIP LOCKED passes over; on SQLite
there are none. -/
def selectCandidateId (jobs : JobTable) (jobType : Option String) (now : Time)
    (locked : List Nat) : Option Nat :=
  (firstInOrder claimOrder
    (jobs.rows.filter fun job => isClaimable jobType now job && job.id ∉ locked)).map
      BackgroundJob.id

structure ClaimAttempt where
  candidateId : Nat
  leaseOwner : String
  leaseSeconds : Int
  now : Time

def claimMatches (attempt : ClaimAttempt) (job : BackgroundJob) : Bool :=
  job.id == attempt.candidateId && job.status == .queued

def claimSet (attempt : ClaimAttempt) : SetClause jobSchema :=
  setColumns
    (fun job =>
      { job with
        status := .running
        leaseOwner := some attempt.leaseOwner
        leaseExpiresAt := some (attempt.now + seconds attempt.leaseSeconds)
        startedAt := some attempt.now
        attempt := job.attempt + 1 })
    (fun _ => rfl) (fun _ => rfl)

/-- The compare-and-set UPDATE of `claim`; `none` when its row count is not 1. -/
def claimUpdate (jobs : JobTable) (attempt : ClaimAttempt) : Option JobTable :=
  if jobs.rows.any (claimMatches attempt) then
    some (jobs.updateWhere (claimMatches attempt) (claimSet attempt))
  else none

def renewMatches (jobId : Nat) (leaseOwner : String) (job : BackgroundJob) : Bool :=
  job.id == jobId && job.status == .running && job.leaseOwner == some leaseOwner

def renewSet (expires : Time) : SetClause jobSchema :=
  setColumns (fun job => { job with leaseExpiresAt := some expires })
    (fun _ => rfl) (fun _ => rfl)

def renewLease (jobs : JobTable) (jobId : Nat) (leaseOwner : String) (leaseSeconds : Int)
    (now : Time) : JobTable × Bool :=
  (jobs.updateWhere (renewMatches jobId leaseOwner) (renewSet (now + seconds leaseSeconds)),
    jobs.rows.any (renewMatches jobId leaseOwner))

/-- `db.add(job); db.commit()` -/
def flushCopy (jobs : JobTable) (copy : OrmCopy) (current : BackgroundJob) : JobTable :=
  jobs.updateWhere (fun job => job.id == copy.loaded.id) (flushJob copy current)

def completed (job : BackgroundJob) (now : Time) : BackgroundJob :=
  { job with
    status := .succeeded
    finishedAt := some now
    leaseOwner := none
    leaseExpiresAt := none }

def complete (jobs : JobTable) (copy : OrmCopy) (now : Time) :
    Except InvalidTransition JobTable := do
  assertTransition copy.loaded.status .succeeded
  return flushCopy jobs copy (completed copy.loaded now)

structure Failure where
  errorCode : String
  errorDetail : Option String
  terminal : Bool
  deriving DecidableEq

def failTarget (job : BackgroundJob) (terminal : Bool) : JobStatus :=
  if !terminal && job.attempt < job.maxAttempts then .retryWait else .failed

def failed (job : BackgroundJob) (failure : Failure) (now : Time) : BackgroundJob :=
  let cleared :=
    { job with
      errorCode := some (truncated 60 failure.errorCode)
      errorDetail := sanitize failure.errorDetail
      leaseOwner := none
      leaseExpiresAt := none
      status := failTarget job failure.terminal }
  if failTarget job failure.terminal = .retryWait then
    { cleared with availableAt := now + seconds (backoff job.attempt) }
  else
    { cleared with finishedAt := some now }

def fail (jobs : JobTable) (copy : OrmCopy) (failure : Failure) (now : Time) :
    Except InvalidTransition (JobTable × JobStatus) := do
  assertTransition copy.loaded.status (failTarget copy.loaded failure.terminal)
  return (flushCopy jobs copy (failed copy.loaded failure now),
    failTarget copy.loaded failure.terminal)

def isRetryReady (now : Time) (job : BackgroundJob) : Bool :=
  job.status == .retryWait && job.availableAt ≤ now

def promoteSet : SetClause jobSchema :=
  setColumns (fun job => { job with status := .queued }) (fun _ => rfl) (fun _ => rfl)

def promoteRetryReady (jobs : JobTable) (now : Time) : JobTable × Nat :=
  (jobs.updateWhere (isRetryReady now) promoteSet, jobs.rows.countP (isRetryReady now))

def leaseExpired (now : Time) (job : BackgroundJob) : Bool :=
  job.status == .running &&
    selects (both (isNotNull job.leaseExpiresAt)
      (compare (fun expires limit => expires < limit) job.leaseExpiresAt (some now)))

def staleJobs (jobs : JobTable) (now : Time) : List BackgroundJob :=
  jobs.rows.filter (leaseExpired now)

def leaseExpiredFailure : Failure where
  errorCode := "lease_expired"
  errorDetail := some "worker lease expired; recovered by supervisor"
  terminal := false

def cancelledJob (job : BackgroundJob) (now : Time) : BackgroundJob :=
  { job with status := .cancelled, finishedAt := some now }

def cancel (db : Db) (copy : OrmCopy) (actorId : Option Nat) (now : Time) :
    Except InvalidTransition Db := do
  assertTransition copy.loaded.status .cancelled
  let job := cancelledJob copy.loaded now
  return { jobs := flushCopy db.jobs copy job
           auditLogs := db.auditLogs ++ [audit "job.cancel" job actorId none] }

def replayJob (job : BackgroundJob) (actorId : Option Nat) (uuid suffix : String)
    (now : Time) : BackgroundJob where
  id := 0
  jobId := uuid
  jobType := job.jobType
  orgId := job.orgId
  requestedBy := if actorId.isSome then actorId else job.requestedBy
  idempotencyKey := job.idempotencyKey ++ ":replay:" ++ suffix
  payloadVersion := job.payloadVersion
  payload := job.payload
  status := .queued
  priority := job.priority
  attempt := 0
  maxAttempts := job.maxAttempts
  availableAt := now
  createdAt := now
  correlationId := job.correlationId
  replayOf := some job.jobId

theorem replayJob_fresh (job : BackgroundJob) (actorId : Option Nat) (uuid suffix : String)
    (now : Time) : FreshRow (replayJob job actorId uuid suffix now) :=
  ⟨rfl, rfl, rfl, rfl, rfl⟩

def replay (db : Db) (copy : OrmCopy) (actorId : Option Nat) (uuid suffix : String)
    (now : Time) : Except JobError Db :=
  if copy.loaded.status ≠ .failed then .error (.onlyFailedReplayed copy.loaded.status)
  else
    match db.jobs.insert (replayJob copy.loaded actorId uuid suffix now) with
    | some after =>
      .ok { jobs := after
            auditLogs := db.auditLogs ++ [audit "job.replay" copy.loaded actorId (some uuid)] }
    | none => .error .integrity

def isPurgeable (olderThan : Time) (job : BackgroundJob) : Bool :=
  isTerminal job.status &&
    selects (both (isNotNull job.finishedAt)
      (compare (fun finished limit => finished < limit) job.finishedAt (some olderThan)))

def purgeTerminalJobs (jobs : JobTable) (olderThan : Time) : JobTable × Nat :=
  (jobs.deleteWhere (isPurgeable olderThan), jobs.rows.countP (isPurgeable olderThan))

end Ukip.Jobs.Service
