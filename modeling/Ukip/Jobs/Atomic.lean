import Ukip.Foundation.EventRun
import Ukip.Jobs.Sessions

/-!
# Operations on the fresh row

Each service operation as one atomic step: it loads the row it works on and
commits before anybody else moves.  A raised error leaves the database as it was.
A run of such steps is a run of the session system in which one session at a time
makes its calls (`operations_are_session_run`).

Of the five columns the nine operations write, three tell how far a job is:
`RowConsistent` says that the two lease columns are set exactly while the job
runs, and `finished_at` exactly once it is over.
-/

namespace Ukip.Jobs.Atomic

open Core.Clock States Envelope Service Sessions Foundation.Relational
open Foundation.Relational.SerialTable Foundation.EventRun Foundation.SqlTruth Foundation.UnitOfWork

inductive JobOperation where
  | enqueue (request : EnqueueRequest) (uuid : String) (now : Time)
  | claim (leaseOwner : String) (jobType : Option String) (leaseSeconds : Int) (now : Time)
      (locked : List Nat)
  | renewLease (jobId : Nat) (leaseOwner : String) (leaseSeconds : Int) (now : Time)
  | complete (jobId : Nat) (now : Time)
  | fail (jobId : Nat) (failure : Failure) (now : Time)
  | promoteRetryReady (now : Time)
  | recoverAbandonedLeases (now : Time)
  | cancel (jobId : Nat) (actorId : Option Nat) (now : Time)
  | replay (jobId : Nat) (actorId : Option Nat) (uuid suffix : String) (now : Time)
  | purgeTerminalJobs (olderThan : Time)

def orUnchanged {Error Table : Type} (before : Table) (outcome : Except Error Table) : Table :=
  match outcome with
  | .ok after => after
  | .error _ => before

def claim (jobs : JobTable) (leaseOwner : String) (jobType : Option String) (leaseSeconds : Int)
    (now : Time) (locked : List Nat) : JobTable :=
  match selectCandidateId jobs jobType now locked with
  | none => jobs
  | some candidateId =>
    (claimUpdate jobs ⟨candidateId, leaseOwner, leaseSeconds, now⟩).getD jobs

def completeFresh (jobs : JobTable) (jobId : Nat) (now : Time) : JobTable :=
  match jobs.get? jobId with
  | none => jobs
  | some job => orUnchanged jobs (complete jobs ⟨job, false⟩ now)

def failFresh (jobs : JobTable) (jobId : Nat) (failure : Failure) (now : Time) : JobTable :=
  match jobs.get? jobId with
  | none => jobs
  | some job => orUnchanged jobs ((fail jobs ⟨job, false⟩ failure now).map Prod.fst)

/-- The loop of `recover_abandoned_leases`; a job's row is reloaded when its turn
comes, since the commit before has expired it. -/
def failEach (now : Time) : List Nat → JobTable → JobTable
  | [], jobs => jobs
  | jobId :: rest, jobs => failEach now rest (failFresh jobs jobId leaseExpiredFailure now)

def recoverAbandonedLeases (jobs : JobTable) (now : Time) : JobTable :=
  failEach now ((staleJobs jobs now).map BackgroundJob.id) jobs

def cancelFresh (db : Db) (jobId : Nat) (actorId : Option Nat) (now : Time) : Db :=
  match db.jobs.get? jobId with
  | none => db
  | some job => orUnchanged db (cancel db ⟨job, false⟩ actorId now)

def replayFresh (db : Db) (jobId : Nat) (actorId : Option Nat) (uuid suffix : String)
    (now : Time) : Db :=
  match db.jobs.get? jobId with
  | none => db
  | some job => orUnchanged db (replay db ⟨job, false⟩ actorId uuid suffix now)

def runOperation (db : Db) : JobOperation → Db
  | .enqueue request uuid now =>
    { db with jobs := orUnchanged db.jobs ((enqueue db.jobs request uuid now).map Prod.fst) }
  | .claim leaseOwner jobType leaseSeconds now locked =>
    { db with jobs := claim db.jobs leaseOwner jobType leaseSeconds now locked }
  | .renewLease jobId leaseOwner leaseSeconds now =>
    { db with jobs := (renewLease db.jobs jobId leaseOwner leaseSeconds now).1 }
  | .complete jobId now => { db with jobs := completeFresh db.jobs jobId now }
  | .fail jobId failure now => { db with jobs := failFresh db.jobs jobId failure now }
  | .promoteRetryReady now => { db with jobs := (promoteRetryReady db.jobs now).1 }
  | .recoverAbandonedLeases now => { db with jobs := recoverAbandonedLeases db.jobs now }
  | .cancel jobId actorId now => cancelFresh db jobId actorId now
  | .replay jobId actorId uuid suffix now => replayFresh db jobId actorId uuid suffix now
  | .purgeTerminalJobs olderThan => { db with jobs := (purgeTerminalJobs db.jobs olderThan).1 }

structure RowConsistent (job : BackgroundJob) : Prop where
  owner : job.status = .running ↔ job.leaseOwner.isSome = true
  expiry : job.status = .running ↔ job.leaseExpiresAt.isSome = true
  finish : isTerminal job.status = true ↔ job.finishedAt.isSome = true

def AllConsistent (jobs : JobTable) : Prop := ∀ job ∈ jobs.rows, RowConsistent job

variable (job : BackgroundJob)

theorem rowConsistent_fresh (fresh : FreshRow job) : RowConsistent job := by
  obtain ⟨queued, _, unowned, unleased, unfinished⟩ := fresh
  constructor
  · simp [queued, unowned]
  · simp [queued, unleased]
  · simp [queued, unfinished, isTerminal, terminalStates]

theorem rowConsistent_congr {first second : BackgroundJob} (status : first.status = second.status)
    (owner : first.leaseOwner = second.leaseOwner)
    (expiry : first.leaseExpiresAt = second.leaseExpiresAt)
    (finish : first.finishedAt = second.finishedAt) (consistent : RowConsistent second) :
    RowConsistent first := by
  obtain ⟨ownerIff, expiryIff, finishIff⟩ := consistent
  constructor
  · rw [status, owner]
    exact ownerIff
  · rw [status, expiry]
    exact expiryIff
  · rw [status, finish]
    exact finishIff

theorem quietChange_consistent (before after : JobTable) (change : QuietChange before after)
    (consistent : AllConsistent before) : AllConsistent after := by
  cases change with
  | same => exact consistent
  | claimed attempt =>
    refine (forall_updateWhere_iff RowConsistent before _ _).mpr fun job member => ?_
    refine SetClause.onRow_holds _ _ job (consistent job member) fun hit => ?_
    simp only [claimMatches, Bool.and_eq_true, beq_iff_eq] at hit
    have unfinished := (consistent job member).finish
    rw [hit.2] at unfinished
    exact ⟨⟨fun _ => rfl, fun _ => rfl⟩, ⟨fun _ => rfl, fun _ => rfl⟩, unfinished⟩
  | renewed jobId leaseOwner expires =>
    refine (forall_updateWhere_iff RowConsistent before _ _).mpr fun job member => ?_
    refine SetClause.onRow_holds _ _ job (consistent job member) fun hit => ?_
    simp only [renewMatches, Bool.and_eq_true, beq_iff_eq] at hit
    obtain ⟨ownerIff, _, finishIff⟩ := consistent job member
    exact ⟨ownerIff, ⟨fun _ => rfl, fun _ => hit.1.2⟩, finishIff⟩
  | promoted now =>
    refine (forall_updateWhere_iff RowConsistent before _ _).mpr fun job member => ?_
    refine SetClause.onRow_holds _ _ job (consistent job member) fun hit => ?_
    simp only [isRetryReady, Bool.and_eq_true, beq_iff_eq] at hit
    obtain ⟨ownerIff, expiryIff, finishIff⟩ := consistent job member
    rw [hit.1] at ownerIff expiryIff finishIff
    exact ⟨⟨JobStatus.noConfusion, fun owned => JobStatus.noConfusion (ownerIff.mpr owned)⟩,
      ⟨JobStatus.noConfusion, fun leased => JobStatus.noConfusion (expiryIff.mpr leased)⟩,
      finishIff⟩
  | purged olderThan =>
    intro job member
    exact consistent job ((before.mem_deleteWhere _ job).mp member).1

theorem forall_flushCopy (holds : BackgroundJob → Prop) (jobs : JobTable) (job : BackgroundJob)
    (assigned : Bool) (current : BackgroundJob) (member : job ∈ jobs.rows)
    (others : ∀ row ∈ jobs.rows, holds row)
    (here : holds ((flushJob ⟨job, assigned⟩ current).apply job)) :
    ∀ row ∈ (flushCopy jobs ⟨job, assigned⟩ current).rows, holds row := by
  refine (forall_updateWhere_iff holds jobs _ _).mpr fun row rowMember => ?_
  refine SetClause.onRow_holds _ _ row (others row rowMember) fun hit => ?_
  have sameId : row.id = job.id := by simpa using hit
  rw [jobs.eq_of_key_eq rowMember member sameId]
  exact here

theorem rowConsistent_flushJob (assigned : Bool) (current : BackgroundJob)
    (consistent : RowConsistent current) :
    RowConsistent ((flushJob ⟨job, assigned⟩ current).apply job) :=
  rowConsistent_congr (flushColumn_fresh job.status current.status)
    (flushAssigned_fresh assigned job.leaseOwner current.leaseOwner)
    (flushAssigned_fresh assigned job.leaseExpiresAt current.leaseExpiresAt)
    (flushColumn_fresh job.finishedAt current.finishedAt) consistent

variable (jobs : JobTable)

theorem flushCopy_consistent (job : BackgroundJob) (assigned : Bool) (current : BackgroundJob)
    (member : job ∈ jobs.rows) (consistent : AllConsistent jobs) (written : RowConsistent current) :
    AllConsistent (flushCopy jobs ⟨job, assigned⟩ current) :=
  forall_flushCopy RowConsistent jobs job assigned current member consistent
    (rowConsistent_flushJob job assigned current written)

variable (now : Time)

theorem completed_consistent : RowConsistent (completed job now) := by
  constructor
  · simp [completed]
  · simp [completed]
  · simp [completed, isTerminal, terminalStates]

theorem failed_consistent (failure : Failure) (now : Time) (running : job.status = .running)
    (consistent : RowConsistent job) : RowConsistent (failed job failure now) := by
  -- a running row has no finish time, so a retry leaves none behind
  have unfinished : job.finishedAt.isSome = false := by
    have := consistent.finish
    rw [running] at this
    simpa [isTerminal, terminalStates] using this
  unfold failed
  rcases failTarget_cases job failure.terminal with target | target <;> rw [target]
  · rw [if_pos rfl]
    exact ⟨by simp, by simp, by simpa [isTerminal, terminalStates] using unfinished⟩
  · rw [if_neg (by decide)]
    exact ⟨by simp, by simp, by simp [isTerminal, terminalStates]⟩

theorem cancelledJob_consistent (waiting : isWaiting job.status = true)
    (consistent : RowConsistent job) : RowConsistent (cancelledJob job now) := by
  have notRunning : job.status ≠ .running := by
    intro running
    rw [running] at waiting
    exact absurd waiting (by decide)
  obtain ⟨ownerIff, expiryIff, _⟩ := consistent
  refine ⟨⟨JobStatus.noConfusion, fun owned => ?_⟩, ⟨JobStatus.noConfusion, fun leased => ?_⟩,
    ⟨fun _ => rfl, fun _ => rfl⟩⟩
  · exact absurd (ownerIff.mpr owned) notRunning
  · exact absurd (expiryIff.mpr leased) notRunning

variable (jobId : Nat)

theorem completeFresh_consistent (now : Time) (consistent : AllConsistent jobs) :
    AllConsistent (completeFresh jobs jobId now) := by
  unfold completeFresh
  cases found : jobs.get? jobId with
  | none => exact consistent
  | some job =>
    obtain ⟨member, _⟩ := (jobs.get?_eq_some_iff jobId job).mp found
    simp only [complete_eq, completeFlush]
    by_cases running : job.status = .running
    · rw [if_pos running]
      exact flushCopy_consistent jobs job false _ member consistent (completed_consistent job now)
    · rw [if_neg running]
      exact consistent

theorem forall_failFresh (holds : BackgroundJob → Prop) (jobs : JobTable) (jobId : Nat)
    (failure : Failure) (now : Time) (others : ∀ row ∈ jobs.rows, holds row)
    (moved : ∀ job ∈ jobs.rows, job.id = jobId → job.status = .running →
      holds ((flushJob ⟨job, false⟩ (failed job failure now)).apply job)) :
    ∀ row ∈ (failFresh jobs jobId failure now).rows, holds row := by
  unfold failFresh
  cases found : jobs.get? jobId with
  | none => exact others
  | some job =>
    obtain ⟨member, here⟩ := (jobs.get?_eq_some_iff jobId job).mp found
    simp only [fail_eq, failFlush]
    by_cases running : job.status = .running
    · rw [if_pos running]
      exact forall_flushCopy holds jobs job false _ member others (moved job member here running)
    · rw [if_neg running]
      exact others

variable (failure : Failure)

theorem failFresh_consistent (now : Time) (consistent : AllConsistent jobs) :
    AllConsistent (failFresh jobs jobId failure now) :=
  forall_failFresh RowConsistent jobs jobId failure now consistent fun job member _ running =>
    rowConsistent_flushJob job false _
      (failed_consistent job failure now running (consistent job member))

variable (jobIds : List Nat)

theorem failEach_consistent (jobs : JobTable) (consistent : AllConsistent jobs) :
    AllConsistent (failEach now jobIds jobs) := by
  induction jobIds generalizing jobs with
  | nil => exact consistent
  | cons jobId rest ih =>
    exact ih _ (failFresh_consistent jobs jobId leaseExpiredFailure now consistent)

theorem cancelFresh_consistent (db : Db) (jobId : Nat) (actorId : Option Nat) (now : Time)
    (consistent : AllConsistent db.jobs) :
    AllConsistent (cancelFresh db jobId actorId now).jobs := by
  unfold cancelFresh
  cases found : db.jobs.get? jobId with
  | none => exact consistent
  | some job =>
    obtain ⟨member, _⟩ := (db.jobs.get?_eq_some_iff jobId job).mp found
    simp only [cancel_eq, cancelFlush]
    by_cases waiting : isWaiting job.status = true
    · rw [if_pos waiting]
      exact flushCopy_consistent db.jobs job false _ member consistent
        (cancelledJob_consistent job now waiting (consistent job member))
    · rw [if_neg waiting]
      exact consistent

theorem insert_consistent (jobs after : JobTable) (job : BackgroundJob) (fresh : FreshRow job)
    (inserted : jobs.insert job = some after) (consistent : AllConsistent jobs) :
    AllConsistent after := by
  obtain ⟨accepted, rfl⟩ := (insert_eq_some_iff jobs after job).mp inserted
  refine (forall_append_iff RowConsistent jobs job accepted).mpr ⟨consistent, ?_⟩
  exact rowConsistent_fresh _ (fresh.keyed jobs)

theorem replayFresh_consistent (db : Db) (jobId : Nat) (actorId : Option Nat)
    (uuid suffix : String) (now : Time) (consistent : AllConsistent db.jobs) :
    AllConsistent (replayFresh db jobId actorId uuid suffix now).jobs := by
  unfold replayFresh
  cases db.jobs.get? jobId with
  | none => exact consistent
  | some job =>
    by_cases failedRow : job.status = .failed
    · cases inserted : db.jobs.insert (replayJob job actorId uuid suffix now) with
      | none => simpa [replay, failedRow, inserted, orUnchanged] using consistent
      | some after =>
        simpa [replay, failedRow, inserted, orUnchanged] using
          insert_consistent db.jobs after _ (replayJob_fresh job actorId uuid suffix now)
            inserted consistent
    · simpa [replay, failedRow, orUnchanged] using consistent

theorem enqueue_consistent (request : EnqueueRequest) (uuid : String) (now : Time)
    (consistent : AllConsistent jobs) :
    AllConsistent (orUnchanged jobs ((enqueue jobs request uuid now).map Prod.fst)) := by
  unfold enqueue
  split
  · exact consistent
  · split
    · exact consistent
    · cases inserted : jobs.insert (newJob request uuid now) with
      | some after =>
        exact insert_consistent jobs after _ (newJob_fresh request uuid now) inserted consistent
      | none =>
        -- the second look-up meets the table that the first one searched
        rename_i absent
        simpa [absent, orUnchanged, Except.map] using consistent

theorem claim_consistent (leaseOwner : String) (jobType : Option String) (leaseSeconds : Int)
    (now : Time) (locked : List Nat) (consistent : AllConsistent jobs) :
    AllConsistent (claim jobs leaseOwner jobType leaseSeconds now locked) := by
  unfold claim
  cases selectCandidateId jobs jobType now locked with
  | none => exact consistent
  | some candidateId =>
    dsimp only [claimUpdate]
    split
    · exact quietChange_consistent jobs _ (.claimed _) consistent
    · exact consistent

theorem runOperation_consistent (db : Db) (operation : JobOperation)
    (consistent : AllConsistent db.jobs) : AllConsistent (runOperation db operation).jobs := by
  cases operation with
  | enqueue request uuid now => exact enqueue_consistent db.jobs request uuid now consistent
  | claim leaseOwner jobType leaseSeconds now locked =>
    exact claim_consistent db.jobs leaseOwner jobType leaseSeconds now locked consistent
  | renewLease jobId leaseOwner leaseSeconds now =>
    exact quietChange_consistent db.jobs _ (.renewed jobId leaseOwner _) consistent
  | complete jobId now => exact completeFresh_consistent db.jobs jobId now consistent
  | fail jobId failure now => exact failFresh_consistent db.jobs jobId failure now consistent
  | promoteRetryReady now => exact quietChange_consistent db.jobs _ (.promoted now) consistent
  | recoverAbandonedLeases now => exact failEach_consistent now _ db.jobs consistent
  | cancel jobId actorId now => exact cancelFresh_consistent db jobId actorId now consistent
  | replay jobId actorId uuid suffix now =>
    exact replayFresh_consistent db jobId actorId uuid suffix now consistent
  | purgeTerminalJobs olderThan =>
    exact quietChange_consistent db.jobs _ (.purged olderThan) consistent

/-- The rows of a job after its failure: waiting for a retry, or given up. -/
def MovedOn (jobId : Nat) (jobs : JobTable) : Prop :=
  ∀ row ∈ jobs.rows, row.id = jobId → row.status = .retryWait ∨ row.status = .failed

theorem failed_movedOn (now : Time) :
    ((flushJob ⟨job, false⟩ (failed job failure now)).apply job).status = .retryWait ∨
      ((flushJob ⟨job, false⟩ (failed job failure now)).apply job).status = .failed := by
  rw [flushJob_status, flushColumn_fresh, failed_status]
  exact failTarget_cases job failure.terminal

theorem failFresh_keeps_movedOn (jobId other : Nat) (failure : Failure) (now : Time)
    (moved : MovedOn jobId jobs) : MovedOn jobId (failFresh jobs other failure now) :=
  forall_failFresh (fun row => row.id = jobId → row.status = .retryWait ∨ row.status = .failed)
    jobs other failure now moved fun job _ _ _ _ => failed_movedOn job failure now

theorem failEach_keeps_movedOn (jobs : JobTable) (moved : MovedOn jobId jobs) :
    MovedOn jobId (failEach now jobIds jobs) := by
  induction jobIds generalizing jobs with
  | nil => exact moved
  | cons other rest ih =>
    exact ih _ (failFresh_keeps_movedOn jobs jobId other leaseExpiredFailure now moved)

theorem failFresh_moves (now : Time)
    (running : ∀ row ∈ jobs.rows, row.id = jobId → row.status = .running) :
    MovedOn jobId (failFresh jobs jobId failure now) := by
  unfold failFresh
  cases found : jobs.get? jobId with
  | none =>
    intro row member same
    exact absurd same ((jobs.get?_eq_none_iff jobId).mp found row member)
  | some job =>
    obtain ⟨member, here⟩ := (jobs.get?_eq_some_iff jobId job).mp found
    simp only [fail_eq, failFlush, running job member here, if_true]
    intro row rowMember same
    obtain ⟨old, oldMember, rfl⟩ := (mem_updateWhere _ _ _ row).mp rowMember
    have sameOld : old.id = jobId := Eq.trans
      ((flushJob ⟨job, false⟩ (failed job failure now)).key_onRow _ old).symm same
    have sameJob : old = job := jobs.eq_of_key_eq oldMember member (sameOld.trans here.symm)
    subst sameJob
    rw [SetClause.onRow, if_pos (by simp)]
    exact failed_movedOn old failure now

theorem failEach_moves (jobs : JobTable) (listed : jobId ∈ jobIds)
    (running : ∀ row ∈ jobs.rows, row.id = jobId → row.status = .running) :
    MovedOn jobId (failEach now jobIds jobs) := by
  induction jobIds generalizing jobs with
  | nil => simp at listed
  | cons head rest ih =>
    by_cases here : head = jobId
    · subst here
      exact failEach_keeps_movedOn now head rest _
        (failFresh_moves jobs head leaseExpiredFailure now running)
    · apply ih
      · exact (List.mem_cons.mp listed).resolve_left (Ne.symm here)
      · apply forall_failFresh (fun row => row.id = jobId → row.status = .running) jobs head
          leaseExpiredFailure now running
        intro job _ sameHead _ sameId
        exact absurd (sameHead.symm.trans sameId) here

theorem recovery_moves (job : BackgroundJob) (expires now : Time) (member : job ∈ jobs.rows)
    (running : job.status = .running) (leased : job.leaseExpiresAt = some expires)
    (late : expires < now) :
    job ∈ staleJobs jobs now ∧ MovedOn job.id (recoverAbandonedLeases jobs now) := by
  have stale : job ∈ staleJobs jobs now := by
    refine List.mem_filter.mpr ⟨member, ?_⟩
    simp [leaseExpired, running, leased, late]
  refine ⟨stale, failEach_moves now job.id _ jobs (List.mem_map_of_mem stale) ?_⟩
  intro row rowMember same
  rw [jobs.eq_of_key_eq rowMember member same]
  exact running

theorem purge_deletes (job : BackgroundJob) (finished olderThan : Time)
    (terminal : isTerminal job.status = true) (stamped : job.finishedAt = some finished)
    (late : finished < olderThan) : job ∉ (purgeTerminalJobs jobs olderThan).1.rows := by
  intro member
  have kept := ((jobs.mem_deleteWhere _ job).mp member).2
  simp [isPurgeable, terminal, stamped, late] at kept

/-- Calls of the session system lead from `world` to the database `db`. -/
def Reaches (world : World) (db : Db) : Prop :=
  ∃ calls, (runEvents step world calls).db = db

theorem reaches_call (world : World) (call : JobEvent) (db : Db)
    (next : Reaches (step world call) db) : Reaches world db := by
  obtain ⟨calls, reached⟩ := next
  exact ⟨call :: calls, reached⟩

theorem reaches_here {world : World} {db : Db} (here : world.db = db) : Reaches world db :=
  ⟨[], here⟩

theorem orUnchanged_jobs {Error : Type} (db : Db) (outcome : Except Error JobTable) :
    orUnchanged db (outcome.map fun jobs => { db with jobs := jobs }) =
      { db with jobs := orUnchanged db.jobs outcome } := by
  cases outcome <;> rfl

theorem settle_db (world : World) (actor : Actor) (after : Session)
    (outcome : Except InvalidTransition Db) :
    (settle world actor after outcome).db = orUnchanged world.db outcome := by
  cases outcome <;> rfl

section OneSession

variable (world : World) (actor : Actor) (jobId : Nat)

theorem load_copies (clear : (world.sessions actor).copies jobId = none) :
    ((step world (.load actor jobId false)).sessions actor).copies jobId =
      (world.db.jobs.get? jobId).map fun job => ⟨job, false⟩ := by
  simp [step, Session.hold, clear]

theorem complete_db (now : Time) (held : (world.sessions actor).copies jobId =
      (world.db.jobs.get? jobId).map fun job => ⟨job, false⟩) :
    (step world (.complete actor jobId now)).db =
      { world.db with jobs := completeFresh world.db.jobs jobId now } := by
  unfold completeFresh
  cases found : world.db.jobs.get? jobId with
  | none => simp [step, held, found]
  | some job => simp only [step, held, found, Option.map_some, settle_db, orUnchanged_jobs]

theorem fail_db (failure : Failure) (now : Time) (held : (world.sessions actor).copies jobId =
      (world.db.jobs.get? jobId).map fun job => ⟨job, false⟩) :
    (step world (.fail actor jobId failure now)).db =
      { world.db with jobs := failFresh world.db.jobs jobId failure now } := by
  unfold failFresh
  cases found : world.db.jobs.get? jobId with
  | none => simp [step, held, found]
  | some job =>
    simp only [step, held, found, Option.map_some, settle_db, ← orUnchanged_jobs]
    cases fail world.db.jobs ⟨job, false⟩ failure now <;> rfl

theorem cancel_db (actorId : Option Nat) (now : Time)
    (held : (world.sessions actor).copies jobId =
      (world.db.jobs.get? jobId).map fun job => ⟨job, false⟩) :
    (step world (.cancel actor jobId actorId now)).db = cancelFresh world.db jobId actorId now := by
  unfold cancelFresh
  cases found : world.db.jobs.get? jobId with
  | none => simp [step, held, found]
  | some job => simp only [step, held, found, Option.map_some, settle_db]

theorem replay_db (actorId : Option Nat) (uuid suffix : String) (now : Time)
    (held : (world.sessions actor).copies jobId =
      (world.db.jobs.get? jobId).map fun job => ⟨job, false⟩) :
    (step world (.replay actor jobId actorId uuid suffix now)).db =
      replayFresh world.db jobId actorId uuid suffix now := by
  unfold replayFresh
  cases found : world.db.jobs.get? jobId with
  | none => simp [step, held, found]
  | some job =>
    simp only [step, held, found, Option.map_some]
    cases replay world.db ⟨job, false⟩ actorId uuid suffix now <;> rfl

end OneSession

variable (world : World)

theorem enqueue_reaches (request : EnqueueRequest) (uuid : String) (now : Time) :
    Reaches world
      { world.db with
        jobs := orUnchanged world.db.jobs
          ((enqueue world.db.jobs request uuid now).map Prod.fst) } := by
  unfold enqueue
  split
  · exact reaches_here rfl
  · cases findByKey world.db.jobs request.orgId request.jobType request.idempotencyKey with
    | some existing => exact reaches_here rfl
    | none =>
      refine reaches_call world (.insertQueued request uuid now) _ (reaches_here ?_)
      simp only [step]
      cases world.db.jobs.insert (newJob request uuid now) <;> rfl

theorem claim_reaches (actor : Actor) (leaseOwner : String) (jobType : Option String)
    (leaseSeconds : Int) (now : Time) (locked : List Nat) :
    Reaches world
      { world.db with
        jobs := claim world.db.jobs leaseOwner jobType leaseSeconds now locked } := by
  refine reaches_call world (.claimSelect actor leaseOwner jobType leaseSeconds now locked) _ ?_
  refine reaches_call _ (.claimUpdate actor) _ (reaches_here ?_)
  unfold claim
  cases selected : selectCandidateId world.db.jobs jobType now locked with
  | none => simp [step, selected]
  | some candidateId =>
    cases updated : claimUpdate world.db.jobs ⟨candidateId, leaseOwner, leaseSeconds, now⟩ <;>
      simp [step, selected, updated, World.withJobs]

structure BetweenRows (world : World) (actor : Actor) (jobIds : List Nat) (now : Time) : Prop where
  listed : (world.sessions actor).recovering = jobIds
  clock : (world.sessions actor).recoveryClock = now
  clear : ∀ jobId, (world.sessions actor).copies jobId = none

theorem recoverNext_row (actor : Actor) (jobId : Nat) (rest : List Nat) (now : Time)
    (between : BetweenRows world actor (jobId :: rest) now) (job : BackgroundJob)
    (found : world.db.jobs.get? jobId = some job) (running : job.status = .running) :
    (step (step world (.load actor jobId false)) (.recoverNext actor)).db =
        { world.db with jobs := failFresh world.db.jobs jobId leaseExpiredFailure now } ∧
      BetweenRows (step (step world (.load actor jobId false)) (.recoverNext actor)) actor rest
        now := by
  have passes : failFlush ⟨job, false⟩ leaseExpiredFailure now =
      some ⟨⟨job, false⟩, failed job leaseExpiredFailure now⟩ := if_pos running
  have held := load_copies world actor jobId (between.clear jobId)
  rw [found, Option.map_some] at held
  have listed : ((step world (.load actor jobId false)).sessions actor).recovering =
      jobId :: rest := by simpa [step, Session.hold] using between.listed
  have clock : ((step world (.load actor jobId false)).sessions actor).recoveryClock = now := by
    simpa [step, Session.hold] using between.clock
  have sameDb : (step world (.load actor jobId false)).db = world.db := rfl
  generalize step world (.load actor jobId false) = loaded at held listed clock sameDb ⊢
  have stepped : step loaded (.recoverNext actor) =
      { loaded with
        db := { world.db with jobs := failFresh world.db.jobs jobId leaseExpiredFailure now }
        }.withSession actor { (loaded.sessions actor).expired with recovering := rest } := by
    simp only [step, listed, held, clock, fail_eq, passes, sameDb, failFresh, found]
    rfl
  rw [stepped]
  refine ⟨rfl, ?_, ?_, ?_⟩
  · simp
  · simpa [Session.expired] using clock
  · simp [Session.expired]

theorem get?_failFresh_other (jobId otherId : Nat) (failure : Failure) (now : Time)
    (job : BackgroundJob) (different : otherId ≠ jobId) (found : jobs.get? otherId = some job) :
    (failFresh jobs jobId failure now).get? otherId = some job := by
  obtain ⟨member, here⟩ := (jobs.get?_eq_some_iff otherId job).mp found
  refine (get?_eq_some_iff _ _ _).mpr ⟨?_, here⟩
  unfold failFresh
  cases failingFound : jobs.get? jobId with
  | none => exact member
  | some failing =>
    have failingIs : failing.id = jobId := ((jobs.get?_eq_some_iff jobId failing).mp failingFound).2
    have unmatched : job.id ≠ failing.id := by
      rw [failingIs]
      exact fun same => different (here.symm.trans same)
    simp only [fail_eq, failFlush]
    by_cases running : failing.status = .running
    · rw [if_pos running]
      refine (mem_updateWhere _ _ _ _).mpr ⟨job, member, ?_⟩
      rw [SetClause.onRow, if_neg (by simpa using unmatched)]
    · rw [if_neg running]
      exact member

theorem failEach_reaches (actor : Actor) (now : Time) (jobIds : List Nat) (world : World)
    (distinct : jobIds.Nodup)
    (running : ∀ jobId ∈ jobIds, ∃ job, world.db.jobs.get? jobId = some job ∧ job.status = .running)
    (between : BetweenRows world actor jobIds now) :
    Reaches world { world.db with jobs := failEach now jobIds world.db.jobs } := by
  induction jobIds generalizing world with
  | nil => exact reaches_here rfl
  | cons jobId rest ih =>
    obtain ⟨job, found, isRunning⟩ := running jobId List.mem_cons_self
    obtain ⟨notLater, restDistinct⟩ := List.nodup_cons.mp distinct
    obtain ⟨moved, next⟩ := recoverNext_row world actor jobId rest now between job found isRunning
    refine reaches_call world (.load actor jobId false) _ (reaches_call _ (.recoverNext actor) _ ?_)
    have later := ih _ restDistinct ?_ next
    · rw [moved] at later
      exact later
    · intro otherId member
      obtain ⟨other, otherFound, otherRunning⟩ := running otherId (List.mem_cons_of_mem jobId member)
      refine ⟨other, ?_, otherRunning⟩
      rw [moved]
      exact get?_failFresh_other world.db.jobs jobId otherId leaseExpiredFailure now other
        (fun same => notLater (same ▸ member)) otherFound

theorem recovery_reaches (actor : Actor) (now : Time) :
    Reaches world { world.db with jobs := recoverAbandonedLeases world.db.jobs now } := by
  refine reaches_call world (.recoverScan actor now) _ (reaches_call _ (.expire actor) _ ?_)
  have distinct : ((staleJobs world.db.jobs now).map BackgroundJob.id).Nodup := by
    rw [List.Nodup, List.pairwise_map]
    exact world.db.jobs.distinct.filter _
  refine failEach_reaches actor now _ _ distinct (fun jobId member => ?_) ⟨?_, ?_, ?_⟩
  · obtain ⟨job, stale, rfl⟩ := List.mem_map.mp member
    obtain ⟨stored, expired⟩ := List.mem_filter.mp stale
    refine ⟨job, (get?_eq_some_iff _ _ _).mpr ⟨stored, rfl⟩, ?_⟩
    simp only [leaseExpired, Bool.and_eq_true, beq_iff_eq] at expired
    exact expired.1
  · simp [step, Session.expired]
  · simp [step, Session.expired]
  · simp [step, Session.expired]

theorem operation_reaches (actor : Actor) (idle : world.sessions actor = .idle)
    (operation : JobOperation) : Reaches world (runOperation world.db operation) := by
  have loaded := fun jobId => load_copies world actor jobId (by rw [idle]; rfl)
  cases operation with
  | enqueue request uuid now => exact enqueue_reaches world request uuid now
  | claim leaseOwner jobType leaseSeconds now locked =>
    exact claim_reaches world actor leaseOwner jobType leaseSeconds now locked
  | renewLease jobId leaseOwner leaseSeconds now =>
    exact reaches_call world (.renewLease actor jobId leaseOwner leaseSeconds now) _
      (reaches_here rfl)
  | complete jobId now =>
    refine reaches_call world (.load actor jobId false) _ ?_
    exact reaches_call _ (.complete actor jobId now) _
      (reaches_here (complete_db _ actor jobId now (loaded jobId)))
  | fail jobId failure now =>
    refine reaches_call world (.load actor jobId false) _ ?_
    exact reaches_call _ (.fail actor jobId failure now) _
      (reaches_here (fail_db _ actor jobId failure now (loaded jobId)))
  | promoteRetryReady now =>
    exact reaches_call world (.promoteRetryReady actor now) _ (reaches_here rfl)
  | recoverAbandonedLeases now => exact recovery_reaches world actor now
  | cancel jobId actorId now =>
    refine reaches_call world (.load actor jobId false) _ ?_
    exact reaches_call _ (.cancel actor jobId actorId now) _
      (reaches_here (cancel_db _ actor jobId actorId now (loaded jobId)))
  | replay jobId actorId uuid suffix now =>
    refine reaches_call world (.load actor jobId false) _ ?_
    exact reaches_call _ (.replay actor jobId actorId uuid suffix now) _
      (reaches_here (replay_db _ actor jobId actorId uuid suffix now (loaded jobId)))
  | purgeTerminalJobs olderThan =>
    exact reaches_call world (.purgeTerminalJobs actor olderThan) _ (reaches_here rfl)

theorem operations_are_session_run (operations : List JobOperation) (world : World)
    (actor : Actor) (idle : world.sessions actor = .idle) :
    Reaches world (runEvents runOperation world.db operations) := by
  induction operations generalizing world with
  | nil => exact reaches_here rfl
  | cons operation rest ih =>
    obtain ⟨calls, reached⟩ := operation_reaches world actor idle operation
    -- the session ends between two operations
    have closed := ih (step (runEvents step world calls) (.close actor)) (by simp [step])
    obtain ⟨later, ended⟩ := closed
    refine ⟨calls ++ .close actor :: later, ?_⟩
    rw [runEvents_append, runEvents, ended]
    have sameDb : (step (runEvents step world calls) (.close actor)).db =
        runOperation world.db operation := reached
    rw [sameDb]
    rfl

def failedAndRecovered : List JobOperation :=
  [ .enqueue { jobType := "report.execute", orgId := some 7, idempotencyKey := "k1" } "u1" 0,
    .enqueue { jobType := "import.run", orgId := some 7, idempotencyKey := "k2" } "u2" 0,
    .claim "w1" none 60 (seconds 5) [],
    .claim "w2" none 60 (seconds 6) [],
    .fail 1 leaseExpiredFailure (seconds 7),
    .recoverAbandonedLeases (seconds 90) ]

/-- The first claimed job fails, the lease of the second one runs out. -/
theorem operations_are_session_run_start :
    (runEvents runOperation Db.empty failedAndRecovered).jobs.rows.map
        (fun job => (job.id, job.status, job.attempt)) =
      [(1, .retryWait, 1), (2, .retryWait, 1)] ∧
    Reaches World.start (runEvents runOperation Db.empty failedAndRecovered) :=
  ⟨by decide, operations_are_session_run failedAndRecovered World.start (.worker 0) rfl⟩

theorem empty_consistent : AllConsistent Db.empty.jobs := by
  intro job member
  simp [Db.empty, SerialTable.empty] at member

/-- After every sequence of operations, at any clock values: a job is running
exactly while both lease columns are set, and terminal exactly when its finish
time is; so a pass over expired leases moves every running job on, and retention
reaches every terminal one. -/
theorem progress_columns_consistent (operations : List JobOperation) :
    ∀ job ∈ (runEvents runOperation Db.empty operations).jobs.rows,
      (job.status = .running ↔
        job.leaseOwner.isSome = true ∧ job.leaseExpiresAt.isSome = true) ∧
      (isTerminal job.status = true ↔ job.finishedAt.isSome = true) ∧
      (job.status = .running → ∃ expires, job.leaseExpiresAt = some expires ∧
        ∀ now, expires < now →
          job ∈ staleJobs (runEvents runOperation Db.empty operations).jobs now ∧
          MovedOn job.id
            (runOperation (runEvents runOperation Db.empty operations)
              (.recoverAbandonedLeases now)).jobs) ∧
      (isTerminal job.status = true → ∃ finished, job.finishedAt = some finished ∧
        ∀ olderThan, finished < olderThan →
          job ∉ (runOperation (runEvents runOperation Db.empty operations)
            (.purgeTerminalJobs olderThan)).jobs.rows) := by
  intro job member
  have consistent := runEvents_of_invariant runOperation_consistent Db.empty operations
    empty_consistent
  obtain ⟨ownerIff, expiryIff, finishIff⟩ := consistent job member
  refine ⟨⟨fun running => ⟨ownerIff.mp running, expiryIff.mp running⟩,
    fun both => ownerIff.mpr both.1⟩, finishIff, fun running => ?_, fun terminal => ?_⟩
  · obtain ⟨expires, leased⟩ := Option.isSome_iff_exists.mp (expiryIff.mp running)
    exact ⟨expires, leased, fun now late =>
      recovery_moves _ job expires now member running leased late⟩
  · obtain ⟨finished, stamped⟩ := Option.isSome_iff_exists.mp (finishIff.mp terminal)
    exact ⟨finished, stamped, fun olderThan late =>
      purge_deletes _ job finished olderThan terminal stamped late⟩

def claimedJob : List JobOperation :=
  [ .enqueue { jobType := "report.execute", orgId := some 7, idempotencyKey := "k" } "u" 0,
    .claim "w1" none 60 (seconds 5) [] ]

theorem claimed_job_recovered :
    ∃ job ∈ (runEvents runOperation Db.empty claimedJob).jobs.rows,
      job.leaseExpiresAt = some (seconds 65) ∧
        MovedOn job.id
          (runOperation (runEvents runOperation Db.empty claimedJob)
            (.recoverAbandonedLeases (seconds 66))).jobs := by
  obtain ⟨job, member, running, leased⟩ :
      ∃ job ∈ (runEvents runOperation Db.empty claimedJob).jobs.rows,
        job.status = .running ∧ job.leaseExpiresAt = some (seconds 65) := by decide
  obtain ⟨_, _, moves, _⟩ := progress_columns_consistent claimedJob job member
  obtain ⟨expires, same, recovered⟩ := moves running
  rw [leased] at same
  cases Option.some.inj same
  exact ⟨job, member, leased, (recovered (seconds 66) (by decide)).2⟩

end Ukip.Jobs.Atomic
