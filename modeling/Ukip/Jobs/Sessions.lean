import Ukip.Jobs.Service

/-!
# Interleaved sessions over the job table

Any number of workers, schedulers and operators share the table, each through a
session of its own.  A session keeps the rows it has loaded until its next commit
or rollback expires them, so every operation that goes through a loaded row may
act on a copy somebody else has overtaken.  One event is one SELECT or one
committed write; the order of events is the interleaving.

`flushOf` names the UPDATE an event sends through a loaded copy, and
`step_jobs_of_flush` with its siblings say once what each event does to the
table.
-/

namespace Ukip.Jobs.Sessions

open Core.Clock States Envelope Service Foundation.Relational Foundation.UnitOfWork

inductive Actor where
  | worker (number : Nat)
  | scheduler (number : Nat)
  | operator (number : Nat)
  deriving DecidableEq

/-- What a successful claim hands its worker: the job and the number of the
attempt that the claim started. -/
structure Lease where
  jobId : Nat
  attempt : Int
  leaseOwner : String
  deriving DecidableEq

structure Session where
  /-- the identity map: rows loaded and not yet expired -/
  copies : Nat → Option OrmCopy
  /-- a claim whose SELECT has run -/
  candidate : Option ClaimAttempt
  /-- rows a recovery pass has selected and not failed yet -/
  recovering : List Nat
  recoveryClock : Time
  /-- the claim this session is working on -/
  lease : Option Lease

namespace Session

def idle : Session where
  copies := fun _ => none
  candidate := none
  recovering := []
  recoveryClock := 0
  lease := none

def expired (session : Session) : Session :=
  { session with copies := fun _ => none }

def hold (session : Session) (jobId : Nat) (copy : Option OrmCopy) : Session :=
  { session with
    copies := Function.update session.copies jobId ((session.copies jobId).or copy) }

end Session

structure World where
  db : Db
  sessions : Actor → Session

namespace World

def start : World where
  db := .empty
  sessions := fun _ => .idle

def withJobs (world : World) (jobs : JobTable) : World :=
  { world with db := { world.db with jobs := jobs } }

def withSession (world : World) (actor : Actor) (session : Session) : World :=
  { world with sessions := Function.update world.sessions actor session }

variable (world : World)

@[simp] theorem withJobs_jobs (jobs : JobTable) : (world.withJobs jobs).db.jobs = jobs := rfl

@[simp] theorem withJobs_sessions (jobs : JobTable) :
    (world.withJobs jobs).sessions = world.sessions := rfl

@[simp] theorem withSession_db (actor : Actor) (session : Session) :
    (world.withSession actor session).db = world.db := rfl

@[simp] theorem withSession_sessions (actor : Actor) (session : Session) :
    (world.withSession actor session).sessions =
      Function.update world.sessions actor session := rfl

end World

inductive JobEvent where
  /-- the INSERT of a producer that found no row under its key -/
  | insertQueued (request : EnqueueRequest) (uuid : String) (now : Time)
  | claimSelect (actor : Actor) (leaseOwner : String) (jobType : Option String)
      (leaseSeconds : Int) (now : Time) (locked : List Nat)
  | claimUpdate (actor : Actor)
  /-- a SELECT of one row; `assigned` when `fail` refreshes an expired copy -/
  | load (actor : Actor) (jobId : Nat) (assigned : Bool)
  | renewLease (actor : Actor) (jobId : Nat) (leaseOwner : String) (leaseSeconds : Int)
      (now : Time)
  | complete (actor : Actor) (jobId : Nat) (now : Time)
  | fail (actor : Actor) (jobId : Nat) (failure : Failure) (now : Time)
  | promoteRetryReady (actor : Actor) (now : Time)
  /-- the SELECT of `recover_abandoned_leases` -/
  | recoverScan (actor : Actor) (now : Time)
  /-- the loop body of `recover_abandoned_leases` -/
  | recoverNext (actor : Actor)
  | cancel (actor : Actor) (jobId : Nat) (actorId : Option Nat) (now : Time)
  | replay (actor : Actor) (jobId : Nat) (actorId : Option Nat) (uuid suffix : String)
      (now : Time)
  | purgeTerminalJobs (actor : Actor) (olderThan : Time)
  /-- a commit or rollback of other work in the session, such as a handler's -/
  | expire (actor : Actor)
  /-- the session ends: request done, loop iteration over, or process lost -/
  | close (actor : Actor)

def holdAll (session : Session) (jobs : List BackgroundJob) : Session :=
  jobs.foldl (fun held job => held.hold job.id (some ⟨job, false⟩)) session

def leaseOf (jobs : JobTable) (attempt : ClaimAttempt) : Option Lease :=
  (jobs.get? attempt.candidateId).map fun job =>
    ⟨attempt.candidateId, job.attempt + 1, attempt.leaseOwner⟩

/-- The outcome of an operation on a loaded row: committed, or an exception
that ends the session. -/
def settle (world : World) (actor : Actor) (after : Session)
    (outcome : Except InvalidTransition Db) : World :=
  match outcome with
  | .ok db => { world with db := db }.withSession actor after
  | .error _ => world.withSession actor .idle

def step (world : World) : JobEvent → World
  | .insertQueued request uuid now =>
    match world.db.jobs.insert (newJob request uuid now) with
    | some jobs => world.withJobs jobs
    | none => world
  | .claimSelect actor leaseOwner jobType leaseSeconds now locked =>
    world.withSession actor
      { world.sessions actor with
        candidate := (selectCandidateId world.db.jobs jobType now locked).map fun candidateId =>
          ⟨candidateId, leaseOwner, leaseSeconds, now⟩ }
  | .claimUpdate actor =>
    match (world.sessions actor).candidate with
    | none => world
    | some attempt =>
      match claimUpdate world.db.jobs attempt with
      | some jobs =>
        (world.withJobs jobs).withSession actor
          { Session.idle with lease := leaseOf world.db.jobs attempt }
      | none => world.withSession actor .idle
  | .load actor jobId assigned =>
    world.withSession actor
      ((world.sessions actor).hold jobId
        ((world.db.jobs.get? jobId).map fun job => ⟨job, assigned⟩))
  | .renewLease actor jobId leaseOwner leaseSeconds now =>
    (world.withJobs (renewLease world.db.jobs jobId leaseOwner leaseSeconds now).1).withSession
      actor (world.sessions actor).expired
  | .complete actor jobId now =>
    match (world.sessions actor).copies jobId with
    | none => world
    | some copy =>
      settle world actor .idle
        ((complete world.db.jobs copy now).map fun jobs => { world.db with jobs := jobs })
  | .fail actor jobId failure now =>
    match (world.sessions actor).copies jobId with
    | none => world
    | some copy =>
      settle world actor .idle
        ((fail world.db.jobs copy failure now).map fun result =>
          { world.db with jobs := result.1 })
  | .promoteRetryReady actor now =>
    (world.withJobs (promoteRetryReady world.db.jobs now).1).withSession actor
      (world.sessions actor).expired
  | .recoverScan actor now =>
    world.withSession actor
      { holdAll (world.sessions actor) (staleJobs world.db.jobs now) with
        recovering := (staleJobs world.db.jobs now).map BackgroundJob.id
        recoveryClock := now }
  | .recoverNext actor =>
    match (world.sessions actor).recovering with
    | [] => world
    | jobId :: rest =>
      match (world.sessions actor).copies jobId with
      -- expired by the commit of the row before: refreshed by a `load`
      | none => world
      | some copy =>
        settle world actor { (world.sessions actor).expired with recovering := rest }
          ((fail world.db.jobs copy leaseExpiredFailure
            (world.sessions actor).recoveryClock).map fun result =>
              { world.db with jobs := result.1 })
  | .cancel actor jobId actorId now =>
    match (world.sessions actor).copies jobId with
    | none => world
    | some copy =>
      settle world actor (world.sessions actor).expired (cancel world.db copy actorId now)
  | .replay actor jobId actorId uuid suffix now =>
    match (world.sessions actor).copies jobId with
    | none => world
    | some copy =>
      match replay world.db copy actorId uuid suffix now with
      | .ok db => { world with db := db }.withSession actor (world.sessions actor).expired
      | .error _ => world.withSession actor .idle
  | .purgeTerminalJobs actor olderThan =>
    (world.withJobs (purgeTerminalJobs world.db.jobs olderThan).1).withSession actor
      (world.sessions actor).expired
  | .expire actor => world.withSession actor (world.sessions actor).expired
  | .close actor => world.withSession actor .idle

structure Flush where
  copy : OrmCopy
  current : BackgroundJob

def Flush.onto (flush : Flush) (jobs : JobTable) : JobTable :=
  flushCopy jobs flush.copy flush.current

def completeFlush (copy : OrmCopy) (now : Time) : Option Flush :=
  if copy.loaded.status = .running then some ⟨copy, completed copy.loaded now⟩ else none

def failFlush (copy : OrmCopy) (failure : Failure) (now : Time) : Option Flush :=
  if copy.loaded.status = .running then some ⟨copy, failed copy.loaded failure now⟩ else none

def cancelFlush (copy : OrmCopy) (now : Time) : Option Flush :=
  if isWaiting copy.loaded.status then some ⟨copy, cancelledJob copy.loaded now⟩ else none

/-- The flush that an event sends: there is one when the session holds the row
and the transition check passes on the copy it holds. -/
def flushOf (world : World) : JobEvent → Option Flush
  | .complete actor jobId now =>
    ((world.sessions actor).copies jobId).bind fun copy => completeFlush copy now
  | .fail actor jobId failure now =>
    ((world.sessions actor).copies jobId).bind fun copy => failFlush copy failure now
  | .recoverNext actor =>
    ((world.sessions actor).recovering.head?.bind (world.sessions actor).copies).bind
      fun copy => failFlush copy leaseExpiredFailure (world.sessions actor).recoveryClock
  | .cancel actor jobId _ now =>
    ((world.sessions actor).copies jobId).bind fun copy => cancelFlush copy now
  | _ => none

theorem failTarget_cases (job : BackgroundJob) (terminal : Bool) :
    failTarget job terminal = .retryWait ∨ failTarget job terminal = .failed := by
  unfold failTarget
  split
  · exact .inl rfl
  · exact .inr rfl

@[simp] theorem failed_status (job : BackgroundJob) (failure : Failure) (now : Time) :
    (failed job failure now).status = failTarget job failure.terminal := by
  unfold failed
  split <;> rfl

theorem complete_eq (jobs : JobTable) (copy : OrmCopy) (now : Time) :
    complete jobs copy now =
      match completeFlush copy now with
      | some flush => .ok (flush.onto jobs)
      | none => .error ⟨copy.loaded.status, .succeeded⟩ := by
  have checked : complete jobs copy now = _ := assertTransition_then copy.loaded.status .succeeded
    (flushCopy jobs copy (completed copy.loaded now))
  have source := finish_source copy.loaded.status .succeeded (.inl rfl)
  rw [checked]
  unfold completeFlush
  by_cases running : copy.loaded.status = .running
  · rw [if_pos (source.mpr running), if_pos running]
    rfl
  · rw [if_neg (mt source.mp running), if_neg running]

theorem fail_eq (jobs : JobTable) (copy : OrmCopy) (failure : Failure) (now : Time) :
    fail jobs copy failure now =
      match failFlush copy failure now with
      | some flush => .ok (flush.onto jobs, failTarget copy.loaded failure.terminal)
      | none => .error ⟨copy.loaded.status, failTarget copy.loaded failure.terminal⟩ := by
  have checked : fail jobs copy failure now = _ := assertTransition_then copy.loaded.status
    (failTarget copy.loaded failure.terminal)
    (flushCopy jobs copy (failed copy.loaded failure now),
      failTarget copy.loaded failure.terminal)
  have source := finish_source copy.loaded.status (failTarget copy.loaded failure.terminal)
    (.inr (failTarget_cases copy.loaded failure.terminal))
  rw [checked]
  unfold failFlush
  by_cases running : copy.loaded.status = .running
  · rw [if_pos (source.mpr running), if_pos running]
    rfl
  · rw [if_neg (mt source.mp running), if_neg running]

theorem cancel_eq (db : Db) (copy : OrmCopy) (actorId : Option Nat) (now : Time) :
    cancel db copy actorId now =
      match cancelFlush copy now with
      | some flush =>
        .ok { jobs := flush.onto db.jobs
              auditLogs := db.auditLogs ++ [audit "job.cancel" flush.current actorId none] }
      | none => .error ⟨copy.loaded.status, .cancelled⟩ := by
  have checked : cancel db copy actorId now = _ :=
    assertTransition_then copy.loaded.status .cancelled
      ({ jobs := flushCopy db.jobs copy (cancelledJob copy.loaded now)
         auditLogs := db.auditLogs ++
           [audit "job.cancel" (cancelledJob copy.loaded now) actorId none] } : Db)
  have source := cancel_source copy.loaded.status
  rw [checked]
  unfold cancelFlush
  by_cases waiting : isWaiting copy.loaded.status = true
  · rw [if_pos (source.mpr waiting), if_pos waiting]
    rfl
  · rw [if_neg (mt source.mp waiting), if_neg waiting]

variable (world : World) (event : JobEvent) (flush : Flush)

theorem step_jobs_of_flush (sent : flushOf world event = some flush) :
    (step world event).db.jobs = flush.onto world.db.jobs := by
  cases event with
  | complete actor jobId now =>
    obtain ⟨copy, held, passed⟩ := Option.bind_eq_some_iff.mp sent
    simp only [step, held, complete_eq, passed]
    rfl
  | fail actor jobId failure now =>
    obtain ⟨copy, held, passed⟩ := Option.bind_eq_some_iff.mp sent
    simp only [step, held, fail_eq, passed]
    rfl
  | recoverNext actor =>
    obtain ⟨copy, found, passed⟩ := Option.bind_eq_some_iff.mp sent
    obtain ⟨jobId, first, held⟩ := Option.bind_eq_some_iff.mp found
    cases worklist : (world.sessions actor).recovering with
    | nil => simp [worklist] at first
    | cons head rest =>
      rw [worklist] at first
      cases Option.some.inj first
      simp only [step, worklist, held, fail_eq, passed]
      rfl
  | cancel actor jobId actorId now =>
    obtain ⟨copy, held, passed⟩ := Option.bind_eq_some_iff.mp sent
    simp only [step, held, cancel_eq, passed]
    rfl
  | _ => simp [flushOf] at sent

theorem flushOf_shape (sent : flushOf world event = some flush) :
    (flush.copy.loaded.status = .running ∧ (flush.current.status = .succeeded ∨
        flush.current.status = .retryWait ∨ flush.current.status = .failed)) ∨
      (isWaiting flush.copy.loaded.status = true ∧ flush.current.status = .cancelled) := by
  have ofComplete : ∀ copy now, completeFlush copy now = some flush →
      flush.copy.loaded.status = .running ∧ flush.current.status = .succeeded := by
    intro copy now passed
    simp only [completeFlush, Option.ite_none_right_eq_some, Option.some.injEq] at passed
    obtain ⟨running, rfl⟩ := passed
    exact ⟨running, rfl⟩
  have ofFail : ∀ copy failure now, failFlush copy failure now = some flush →
      flush.copy.loaded.status = .running ∧
        (flush.current.status = .retryWait ∨ flush.current.status = .failed) := by
    intro copy failure now passed
    simp only [failFlush, Option.ite_none_right_eq_some, Option.some.injEq] at passed
    obtain ⟨running, rfl⟩ := passed
    exact ⟨running, by simpa using failTarget_cases copy.loaded failure.terminal⟩
  cases event with
  | complete actor jobId now =>
    obtain ⟨copy, _, passed⟩ := Option.bind_eq_some_iff.mp sent
    obtain ⟨running, done⟩ := ofComplete copy now passed
    exact .inl ⟨running, .inl done⟩
  | fail actor jobId failure now =>
    obtain ⟨copy, _, passed⟩ := Option.bind_eq_some_iff.mp sent
    obtain ⟨running, done⟩ := ofFail copy failure now passed
    exact .inl ⟨running, .inr done⟩
  | recoverNext actor =>
    obtain ⟨copy, _, passed⟩ := Option.bind_eq_some_iff.mp sent
    obtain ⟨running, done⟩ := ofFail copy leaseExpiredFailure _ passed
    exact .inl ⟨running, .inr done⟩
  | cancel actor jobId actorId now =>
    obtain ⟨copy, _, passed⟩ := Option.bind_eq_some_iff.mp sent
    simp only [cancelFlush, Option.ite_none_right_eq_some, Option.some.injEq] at passed
    obtain ⟨waiting, rfl⟩ := passed
    exact .inr ⟨waiting, rfl⟩
  | _ => simp [flushOf] at sent

theorem flush_writes_status (sent : flushOf world event = some flush) (stored : BackgroundJob) :
    ((flushJob flush.copy flush.current).apply stored).status = flush.current.status := by
  rw [flushJob_status]
  apply flushColumn_changed
  rcases flushOf_shape world event flush sent with ⟨running, done⟩ | ⟨waiting, done⟩
  · rw [running]
    rcases done with done | done | done <;> rw [done] <;> decide
  · intro same
    rw [← same, done] at waiting
    exact absurd waiting (by decide)

theorem flush_status_ne_running (sent : flushOf world event = some flush) (stored : BackgroundJob) :
    ((flushJob flush.copy flush.current).apply stored).status ≠ .running := by
  rw [flush_writes_status world event flush sent]
  rcases flushOf_shape world event flush sent with ⟨_, done | done | done⟩ | ⟨_, done⟩ <;>
    rw [done] <;> decide

def insertOf (world : World) : JobEvent → Option BackgroundJob
  | .insertQueued request uuid now => some (newJob request uuid now)
  | .replay actor jobId actorId uuid suffix now =>
    ((world.sessions actor).copies jobId).bind fun copy =>
      if copy.loaded.status = .failed then
        some (replayJob copy.loaded actorId uuid suffix now)
      else none
  | _ => none

theorem insertOf_fresh (row : BackgroundJob) (inserting : insertOf world event = some row) :
    FreshRow row := by
  cases event with
  | insertQueued request uuid now =>
    cases Option.some.inj inserting
    exact newJob_fresh request uuid now
  | replay actor jobId actorId uuid suffix now =>
    obtain ⟨copy, _, made⟩ := Option.bind_eq_some_iff.mp inserting
    simp only [Option.ite_none_right_eq_some, Option.some.injEq] at made
    obtain ⟨_, rfl⟩ := made
    exact replayJob_fresh copy.loaded actorId uuid suffix now
  | _ => simp [insertOf] at inserting

theorem step_jobs_of_insert (row : BackgroundJob) (inserting : insertOf world event = some row) :
    (step world event).db.jobs = (world.db.jobs.insert row).getD world.db.jobs := by
  cases event with
  | insertQueued request uuid now =>
    cases Option.some.inj inserting
    simp only [step]
    cases world.db.jobs.insert (newJob request uuid now) <;> rfl
  | replay actor jobId actorId uuid suffix now =>
    obtain ⟨copy, held, made⟩ := Option.bind_eq_some_iff.mp inserting
    simp only [Option.ite_none_right_eq_some, Option.some.injEq] at made
    obtain ⟨failedCopy, rfl⟩ := made
    simp only [step, held, replay, failedCopy, ne_eq, not_true_eq_false, if_false]
    cases world.db.jobs.insert (replayJob copy.loaded actorId uuid suffix now) <;> rfl
  | _ => simp [insertOf] at inserting

/-- What an event that sends no flush and inserts no row can do to the table. -/
inductive QuietChange (jobs : JobTable) : JobTable → Prop where
  | same : QuietChange jobs jobs
  | claimed (attempt : ClaimAttempt) :
      QuietChange jobs (jobs.updateWhere (claimMatches attempt) (claimSet attempt))
  | renewed (jobId : Nat) (leaseOwner : String) (expires : Time) :
      QuietChange jobs (jobs.updateWhere (renewMatches jobId leaseOwner) (renewSet expires))
  | promoted (now : Time) : QuietChange jobs (jobs.updateWhere (isRetryReady now) promoteSet)
  | purged (olderThan : Time) : QuietChange jobs (jobs.deleteWhere (isPurgeable olderThan))

inductive PlainChange (jobs : JobTable) : JobTable → Prop where
  | inserted (job : BackgroundJob) (fresh : FreshRow job) (accepted : jobs.rejects job = false) :
      PlainChange jobs (jobs.append job accepted)
  | quiet {after : JobTable} (change : QuietChange jobs after) : PlainChange jobs after

theorem step_jobs_quiet (unsent : flushOf world event = none)
    (uninserted : insertOf world event = none) :
    QuietChange world.db.jobs (step world event).db.jobs := by
  cases event with
  | insertQueued request uuid now => simp [insertOf] at uninserted
  | claimUpdate actor =>
    cases chosen : (world.sessions actor).candidate with
    | none => simpa [step, chosen] using QuietChange.same
    | some attempt =>
      by_cases matched : world.db.jobs.rows.any (claimMatches attempt) = true
      · simpa [step, chosen, claimUpdate, matched] using QuietChange.claimed attempt
      · simpa [step, chosen, claimUpdate, matched] using QuietChange.same
  | renewLease actor jobId leaseOwner leaseSeconds now =>
    exact QuietChange.renewed jobId leaseOwner _
  | promoteRetryReady actor now => exact QuietChange.promoted now
  | purgeTerminalJobs actor olderThan => exact QuietChange.purged olderThan
  | replay actor jobId actorId uuid suffix now =>
    cases held : (world.sessions actor).copies jobId with
    | none => simpa [step, held] using QuietChange.same
    | some copy =>
      have notFailed : copy.loaded.status ≠ .failed := by simpa [insertOf, held] using uninserted
      simpa [step, held, replay, notFailed] using QuietChange.same
  | complete actor jobId now =>
    cases held : (world.sessions actor).copies jobId with
    | none => simpa [step, held] using QuietChange.same
    | some copy =>
      have refused : completeFlush copy now = none := by simpa [flushOf, held] using unsent
      simpa [step, held, complete_eq, refused, settle, Except.map] using QuietChange.same
  | fail actor jobId failure now =>
    cases held : (world.sessions actor).copies jobId with
    | none => simpa [step, held] using QuietChange.same
    | some copy =>
      have refused : failFlush copy failure now = none := by
        simpa [flushOf, held] using unsent
      simpa [step, held, fail_eq, refused, settle, Except.map] using QuietChange.same
  | recoverNext actor =>
    cases worklist : (world.sessions actor).recovering with
    | nil => simpa [step, worklist] using QuietChange.same
    | cons jobId rest =>
      cases held : (world.sessions actor).copies jobId with
      | none => simpa [step, worklist, held] using QuietChange.same
      | some copy =>
        have refused : failFlush copy leaseExpiredFailure
            (world.sessions actor).recoveryClock = none := by
          simpa [flushOf, worklist, held] using unsent
        simpa [step, worklist, held, fail_eq, refused, settle, Except.map] using
          QuietChange.same
  | cancel actor jobId actorId now =>
    cases held : (world.sessions actor).copies jobId with
    | none => simpa [step, held] using QuietChange.same
    | some copy =>
      have refused : cancelFlush copy now = none := by simpa [flushOf, held] using unsent
      simpa [step, held, cancel_eq, refused, settle] using QuietChange.same
  | _ => exact QuietChange.same

theorem step_jobs_of_no_flush (unsent : flushOf world event = none) :
    PlainChange world.db.jobs (step world event).db.jobs := by
  cases inserting : insertOf world event with
  | none => exact PlainChange.quiet (step_jobs_quiet world event unsent inserting)
  | some row =>
    rw [step_jobs_of_insert world event row inserting]
    cases inserted : world.db.jobs.insert row with
    | none => exact PlainChange.quiet QuietChange.same
    | some after =>
      obtain ⟨accepted, rfl⟩ := (SerialTable.insert_eq_some_iff _ _ _).mp inserted
      exact PlainChange.inserted row (insertOf_fresh world event row inserting) accepted

/-- A session after an event: over, keeping its claim and adding at most stored
rows to its identity map, or holding the claim whose UPDATE has just led to the
table `jobs`. -/
inductive SessionChange (world : World) (jobs : JobTable) (actor : Actor) : Session → Prop where
  | ended : SessionChange world jobs actor .idle
  | kept (session : Session) (sameLease : session.lease = (world.sessions actor).lease)
      (copiesFrom : ∀ jobId copy, session.copies jobId = some copy →
        (world.sessions actor).copies jobId = some copy ∨
          (copy.loaded ∈ world.db.jobs.rows ∧ copy.loaded.id = jobId)) :
      SessionChange world jobs actor session
  | claimed (attempt : ClaimAttempt) (updated : claimUpdate world.db.jobs attempt = some jobs) :
      SessionChange world jobs actor { Session.idle with lease := leaseOf world.db.jobs attempt }

variable (jobs : JobTable) (actor : Actor)

theorem sessionChange_same :
    SessionChange world jobs actor (world.sessions actor) :=
  SessionChange.kept _ rfl fun _ _ held => .inl held

theorem sessionChange_expired :
    SessionChange world jobs actor (world.sessions actor).expired :=
  SessionChange.kept _ rfl fun _ _ held => by simp [Session.expired] at held

theorem hold_copies (session : Session) (jobId : Nat) (copy : Option OrmCopy) (other : Nat)
    (found : OrmCopy) (held : (session.hold jobId copy).copies other = some found) :
    session.copies other = some found ∨ (other = jobId ∧ copy = some found) := by
  by_cases same : other = jobId
  · subst same
    cases present : session.copies other with
    | some kept =>
      simp only [Session.hold, Function.update_self, present, Option.some_or] at held
      exact .inl held
    | none =>
      simp only [Session.hold, Function.update_self, present, Option.none_or] at held
      exact .inr ⟨rfl, held⟩
  · simp only [Session.hold, Function.update_of_ne same] at held
    exact .inl held

theorem holdAll_copies (jobs : List BackgroundJob) (session : Session) (jobId : Nat)
    (found : OrmCopy) (held : (holdAll session jobs).copies jobId = some found) :
    session.copies jobId = some found ∨ (found.loaded ∈ jobs ∧ found.loaded.id = jobId) := by
  induction jobs generalizing session with
  | nil => exact .inl held
  | cons job rest ih =>
    rcases ih (session.hold job.id (some ⟨job, false⟩)) held with before | ⟨member, same⟩
    · rcases hold_copies session job.id _ jobId found before with kept | ⟨rfl, loaded⟩
      · exact .inl kept
      · cases Option.some.inj loaded
        exact .inr ⟨List.mem_cons_self, rfl⟩
    · exact .inr ⟨List.mem_cons_of_mem job member, same⟩

theorem holdAll_lease (jobs : List BackgroundJob) (session : Session) :
    (holdAll session jobs).lease = session.lease := by
  induction jobs generalizing session with
  | nil => rfl
  | cons job rest ih => exact ih (session.hold job.id (some ⟨job, false⟩))

theorem withSession_change (world after : World) (actor : Actor) (session : Session)
    (sameSessions : after.sessions = world.sessions)
    (change : SessionChange world after.db.jobs actor session) (other : Actor) :
    SessionChange world after.db.jobs other ((after.withSession actor session).sessions other) := by
  rw [World.withSession_sessions, sameSessions]
  by_cases same : other = actor
  · subst same
    rw [Function.update_self]
    exact change
  · rw [Function.update_of_ne same]
    exact sessionChange_same world after.db.jobs other

theorem withJobs_change (session : Session) (change : SessionChange world jobs actor session)
    (other : Actor) :
    SessionChange world jobs other
      (((world.withJobs jobs).withSession actor session).sessions other) :=
  withSession_change world (world.withJobs jobs) actor session rfl change other

theorem settle_change (after : Session) (outcome : Except InvalidTransition Db)
    (change : ∀ jobs, SessionChange world jobs actor after) (other : Actor) :
    SessionChange world (settle world actor after outcome).db.jobs other
      ((settle world actor after outcome).sessions other) := by
  cases outcome with
  | ok db =>
    exact withSession_change world { world with db := db } actor after rfl (change _) other
  | error _ => exact withSession_change world world actor .idle rfl .ended other

theorem step_session (other : Actor) :
    SessionChange world (step world event).db.jobs other ((step world event).sessions other) := by
  have same := fun jobs => sessionChange_same world jobs other
  cases event with
  | insertQueued request uuid now =>
    simp only [step]
    split
    · exact same _
    · exact same _
  | claimSelect actor leaseOwner jobType leaseSeconds now locked =>
    refine withSession_change world world actor _ rfl ?_ other
    exact SessionChange.kept _ rfl fun _ _ held => .inl held
  | claimUpdate actor =>
    cases chosen : (world.sessions actor).candidate with
    | none => simpa only [step, chosen] using same _
    | some attempt =>
      cases updated : claimUpdate world.db.jobs attempt with
      | some jobs =>
        simp only [step, chosen, updated]
        exact withJobs_change world jobs actor _ (.claimed attempt updated) other
      | none =>
        simp only [step, chosen, updated]
        exact withSession_change world world actor .idle rfl .ended other
  | load actor jobId assigned =>
    refine withSession_change world world actor _ rfl ?_ other
    refine SessionChange.kept _ rfl fun otherId copy held => ?_
    rcases hold_copies _ jobId _ otherId copy held with kept | ⟨rfl, loaded⟩
    · exact .inl kept
    · obtain ⟨job, found, rfl⟩ := Option.map_eq_some_iff.mp loaded
      exact .inr ((world.db.jobs.get?_eq_some_iff _ job).mp found)
  | renewLease actor jobId leaseOwner leaseSeconds now =>
    exact withJobs_change world _ actor _ (sessionChange_expired world _ actor) other
  | promoteRetryReady actor now =>
    exact withJobs_change world _ actor _ (sessionChange_expired world _ actor) other
  | purgeTerminalJobs actor olderThan =>
    exact withJobs_change world _ actor _ (sessionChange_expired world _ actor) other
  | complete actor jobId now =>
    cases held : (world.sessions actor).copies jobId with
    | none => simpa only [step, held] using same _
    | some copy =>
      simp only [step, held]
      exact settle_change world actor .idle _ (fun _ => .ended) other
  | fail actor jobId failure now =>
    cases held : (world.sessions actor).copies jobId with
    | none => simpa only [step, held] using same _
    | some copy =>
      simp only [step, held]
      exact settle_change world actor .idle _ (fun _ => .ended) other
  | recoverScan actor now =>
    refine withSession_change world world actor _ rfl ?_ other
    refine SessionChange.kept _ (holdAll_lease _ _) fun jobId copy held => ?_
    rcases holdAll_copies _ _ jobId copy held with kept | ⟨member, sameId⟩
    · exact .inl kept
    · exact .inr ⟨(List.mem_filter.mp member).1, sameId⟩
  | recoverNext actor =>
    cases worklist : (world.sessions actor).recovering with
    | nil => simpa only [step, worklist] using same _
    | cons jobId rest =>
      cases held : (world.sessions actor).copies jobId with
      | none => simpa only [step, worklist, held] using same _
      | some copy =>
        simp only [step, worklist, held]
        refine settle_change world actor _ _ (fun jobs => ?_) other
        exact SessionChange.kept _ rfl fun _ _ held => by simp [Session.expired] at held
  | cancel actor jobId actorId now =>
    cases held : (world.sessions actor).copies jobId with
    | none => simpa only [step, held] using same _
    | some copy =>
      simp only [step, held]
      exact settle_change world actor _ _ (fun jobs => sessionChange_expired world jobs actor) other
  | replay actor jobId actorId uuid suffix now =>
    cases held : (world.sessions actor).copies jobId with
    | none => simpa only [step, held] using same _
    | some copy =>
      simp only [step, held]
      split
      · rename_i db _
        exact withSession_change world { world with db := db } actor _ rfl
          (sessionChange_expired world _ actor) other
      · exact withSession_change world world actor .idle rfl .ended other
  | expire actor =>
    exact withSession_change world world actor _ rfl (sessionChange_expired world _ actor) other
  | close actor => exact withSession_change world world actor .idle rfl .ended other

def actorOf : JobEvent → Option Actor
  | .insertQueued _ _ _ => none
  | .claimSelect actor _ _ _ _ _ => some actor
  | .claimUpdate actor => some actor
  | .load actor _ _ => some actor
  | .renewLease actor _ _ _ _ => some actor
  | .complete actor _ _ => some actor
  | .fail actor _ _ _ => some actor
  | .promoteRetryReady actor _ => some actor
  | .recoverScan actor _ => some actor
  | .recoverNext actor => some actor
  | .cancel actor _ _ _ => some actor
  | .replay actor _ _ _ _ _ => some actor
  | .purgeTerminalJobs actor _ => some actor
  | .expire actor => some actor
  | .close actor => some actor

theorem settle_other (actor other : Actor) (after : Session) (outcome : Except InvalidTransition Db)
    (apart : other ≠ actor) :
    (settle world actor after outcome).sessions other = world.sessions other := by
  cases outcome with
  | ok db => exact Function.update_of_ne apart _ _
  | error _ => exact Function.update_of_ne apart _ _

theorem step_sessions_other (other : Actor) (apart : actorOf event ≠ some other) :
    (step world event).sessions other = world.sessions other := by
  have distinct : ∀ actor, actorOf event = some actor → other ≠ actor := by
    rintro actor named rfl
    exact apart named
  cases event with
  | insertQueued request uuid now =>
    simp only [step]
    split <;> rfl
  | claimUpdate actor =>
    have named := distinct actor rfl
    simp only [step]
    split
    · rfl
    · split
      · exact Function.update_of_ne named _ _
      · exact Function.update_of_ne named _ _
  | complete actor jobId now =>
    have named := distinct actor rfl
    simp only [step]
    split
    · rfl
    · exact settle_other world actor other _ _ named
  | fail actor jobId failure now =>
    have named := distinct actor rfl
    simp only [step]
    split
    · rfl
    · exact settle_other world actor other _ _ named
  | recoverNext actor =>
    have named := distinct actor rfl
    simp only [step]
    split
    · rfl
    · split
      · rfl
      · exact settle_other world actor other _ _ named
  | cancel actor jobId actorId now =>
    have named := distinct actor rfl
    simp only [step]
    split
    · rfl
    · exact settle_other world actor other _ _ named
  | replay actor jobId actorId uuid suffix now =>
    have named := distinct actor rfl
    simp only [step]
    split
    · rfl
    · split
      · exact Function.update_of_ne named _ _
      · exact Function.update_of_ne named _ _
  | _ => exact Function.update_of_ne (distinct _ rfl) _ _

end Ukip.Jobs.Sessions
