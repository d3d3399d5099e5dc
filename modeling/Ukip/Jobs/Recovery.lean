import Ukip.Jobs.Atomic

/-!
# Refused failures and the recovery pass

`fail` assigns the error and lease columns of its instance before it checks the transition, and
a refused transition leaves them assigned.  `recover_abandoned_leases` calls it for one selected
row after the other; behind the first commit every row is refreshed before its turn, so a row
that another session has moved meanwhile raises, and what raises ends the pass.
-/

namespace Ukip.Jobs.Recovery

open Core.Clock States Envelope Service Sessions Foundation.Relational.SerialTable
open Foundation.EventRun

def touched (job : BackgroundJob) (failure : Failure) : BackgroundJob :=
  { job with
    errorCode := some (truncated 60 failure.errorCode)
    errorDetail := sanitize failure.errorDetail
    leaseOwner := none
    leaseExpiresAt := none }

/-- `fail` statement by statement, up to its commit: what it raises, and the instance as it
leaves it. -/
def failInstance (job : BackgroundJob) (failure : Failure) (now : Time) :
    Except InvalidTransition Unit × BackgroundJob :=
  let job := touched job failure
  if !failure.terminal && job.attempt < job.maxAttempts then
    match assertTransition job.status .retryWait with
    | .error raised => (.error raised, job)
    | .ok () =>
      (.ok (), { job with
        status := .retryWait
        availableAt := now + seconds (backoff job.attempt) })
  else
    match assertTransition job.status .failed with
    | .error raised => (.error raised, job)
    | .ok () => (.ok (), { job with status := .failed, finishedAt := some now })

variable (job : BackgroundJob) (failure : Failure) (now : Time)

theorem failInstance_eq :
    failInstance job failure now =
      if job.status = .running then (.ok (), failed job failure now)
      else (.error ⟨job.status, failTarget job failure.terminal⟩, touched job failure) := by
  have retry := finish_source job.status .retryWait (.inr (.inl rfl))
  have giveUp := finish_source job.status .failed (.inr (.inr rfl))
  unfold failInstance assertTransition failed failTarget
  simp only [touched, retry, giveUp]
  cases terminal : failure.terminal with
  | true => by_cases running : job.status = .running <;> simp [running]
  | false =>
    by_cases remaining : job.attempt < job.maxAttempts
    · by_cases running : job.status = .running <;> simp [remaining, running]
    · by_cases running : job.status = .running <;> simp [remaining, running]

variable (jobs : JobTable)

theorem fail_eq_failInstance (copy : OrmCopy) (failure : Failure) (now : Time) :
    fail jobs copy failure now =
      (failInstance copy.loaded failure now).1.map fun _ =>
        (flushCopy jobs copy (failInstance copy.loaded failure now).2,
          failTarget copy.loaded failure.terminal) := by
  rw [fail_eq, failInstance_eq, failFlush]
  by_cases running : copy.loaded.status = .running
  · rw [if_pos running, if_pos running]
    rfl
  · rw [if_neg running, if_neg running]
    rfl

/-- The columns hold already what `fail` assigns to them. -/
structure AlreadyAssigned (job : BackgroundJob) (failure : Failure) : Prop where
  errorCode : job.errorCode = some (truncated 60 failure.errorCode)
  errorDetail : job.errorDetail = sanitize failure.errorDetail
  leaseOwner : job.leaseOwner = none
  leaseExpiresAt : job.leaseExpiresAt = none

theorem touched_eq_iff :
    touched job failure = job ↔ AlreadyAssigned job failure := by
  constructor
  · intro same
    exact ⟨(congrArg BackgroundJob.errorCode same).symm,
      (congrArg BackgroundJob.errorDetail same).symm,
      (congrArg BackgroundJob.leaseOwner same).symm,
      (congrArg BackgroundJob.leaseExpiresAt same).symm⟩
  · rintro ⟨errorCode, errorDetail, leaseOwner, leaseExpiresAt⟩
    unfold touched
    rw [← errorCode, ← errorDetail, ← leaseOwner]
    obtain ⟨⟩ := job
    cases leaseExpiresAt
    rfl

/-- What raises leaves the instance as it was, exactly if nothing raises or the columns are
assigned already. -/
theorem refused_unchanged_iff :
    (∀ raised, (failInstance job failure now).1 = .error raised →
        (failInstance job failure now).2 = job) ↔
      job.status = .running ∨ AlreadyAssigned job failure := by
  rw [failInstance_eq]
  by_cases running : job.status = .running
  · rw [if_pos running]
    exact iff_of_true (nofun) (.inl running)
  · rw [if_neg running, ← touched_eq_iff]
    constructor
    · intro unchanged
      exact .inr (unchanged _ rfl)
    · rintro (isRunning | same) _ _
      · exact absurd isRunning running
      · exact same

inductive PassError where
  | invalidTransition (raised : InvalidTransition)
  /-- the refresh or the flush finds no row -/
  | rowGone (jobId : Nat)

/-- The loop body on the table as it is committed when the row's turn comes.  The first row
still has the values of the SELECT; a later one is refreshed while `fail` assigns its columns. -/
def recoverRow (now : Time) (jobs : JobTable) (selected : Option BackgroundJob) (jobId : Nat) :
    Except PassError JobTable :=
  match jobs.get? jobId with
  | none => .error (.rowGone jobId)
  | some stored =>
    match fail jobs ⟨selected.getD stored, selected.isNone⟩ leaseExpiredFailure now with
    | .error raised => .error (.invalidTransition raised)
    | .ok (after, _) => .ok after

/-- The loop, with the outcome of every row whose turn has come.  `atTurn` gives the table that
a row's turn meets: the other sessions commit what they like in between. -/
def recoverRows (now : Time) (atTurn : Nat → JobTable) :
    Option BackgroundJob → List Nat → List (Nat × Except PassError JobTable)
  | _, [] => []
  | selected, jobId :: rest =>
    match recoverRow now (atTurn jobId) selected jobId with
    | .error raised => [(jobId, .error raised)]
    | .ok after => (jobId, .ok after) :: recoverRows now atTurn none rest

def recoverAbandonedLeases (jobs : JobTable) (atTurn : Nat → JobTable) (now : Time) :
    List (Nat × Except PassError JobTable) :=
  recoverRows now atTurn (staleJobs jobs now).head? ((staleJobs jobs now).map BackgroundJob.id)

/-- The row is still stored, and running unless the SELECT has just loaded it. -/
def Movable (jobs : JobTable) (selected : Option BackgroundJob) (jobId : Nat) : Prop :=
  ∃ stored, jobs.get? jobId = some stored ∧ (selected.getD stored).status = .running

theorem recoverRow_ok_iff (selected : Option BackgroundJob) (jobId : Nat) :
    (∃ after, recoverRow now jobs selected jobId = .ok after) ↔ Movable jobs selected jobId := by
  unfold recoverRow Movable
  cases jobs.get? jobId with
  | none => simp
  | some stored =>
    dsimp only
    rw [fail_eq_failInstance, failInstance_eq]
    by_cases running : (selected.getD stored).status = .running
    · simp [running, Except.map]
    · simp [running, Except.map]

theorem recoverRows_all_iff (atTurn : Nat → JobTable) (selected : Option BackgroundJob)
    (jobIds : List Nat) :
    (recoverRows now atTurn selected jobIds).map Prod.fst = jobIds ↔
      ∀ before jobId after, jobIds = before ++ jobId :: after → after ≠ [] →
        Movable (atTurn jobId) (if before = [] then selected else none) jobId := by
  induction jobIds generalizing selected with
  | nil => simp [recoverRows]
  | cons first rest ih =>
    rw [recoverRows]
    cases outcome : recoverRow now (atTurn first) selected first with
    | error raised =>
      have stuck : ¬ Movable (atTurn first) selected first := by
        rw [← recoverRow_ok_iff now, outcome]
        rintro ⟨_, wrong⟩
        cases wrong
      constructor
      · intro all
        have last : rest = [] := by simpa using all.symm
        rintro before jobId after split behind
        rw [last] at split
        have length := congrArg List.length split
        have positive := List.length_pos_of_ne_nil behind
        simp only [List.length_cons, List.length_nil, List.length_append] at length
        omega
      · intro movable
        have last : rest = [] := by
          by_contra behind
          exact stuck (movable [] first rest rfl behind)
        rw [last]
        rfl
    | ok written =>
      have moved : Movable (atTurn first) selected first :=
        (recoverRow_ok_iff now (atTurn first) selected first).mp ⟨written, outcome⟩
      simp only [List.map_cons, List.cons.injEq, true_and]
      rw [ih none]
      constructor
      · intro movable before jobId after split behind
        cases before with
        | nil =>
          obtain ⟨rfl, rfl⟩ := List.cons.inj split
          exact moved
        | cons head front =>
          obtain ⟨rfl, tail⟩ := List.cons.inj split
          simpa using movable front jobId after tail behind
      · intro movable before jobId after split behind
        simpa using movable (first :: before) jobId after (by rw [split]; rfl) behind

theorem stale_running {jobs : JobTable} {now : Time} {job : BackgroundJob}
    (stale : job ∈ staleJobs jobs now) : job.status = .running := by
  have expired := (List.mem_filter.mp stale).2
  unfold leaseExpired at expired
  rw [Bool.and_eq_true] at expired
  exact beq_iff_eq.mp expired.1

/-- A pass reaches every selected row exactly if each but the last is still stored when its
turn comes, and still running unless it is the first. -/
theorem pass_reaches_all_iff (atTurn : Nat → JobTable) (now : Time) :
    (recoverAbandonedLeases jobs atTurn now).map Prod.fst =
        (staleJobs jobs now).map BackgroundJob.id ↔
      ∀ before job after, staleJobs jobs now = before ++ job :: after → after ≠ [] →
        ∃ stored, (atTurn job.id).get? job.id = some stored ∧
          (before = [] ∨ stored.status = .running) := by
  unfold recoverAbandonedLeases
  rw [recoverRows_all_iff]
  constructor
  · intro movable before job after split behind
    have idsBehind : after.map BackgroundJob.id ≠ [] := by simpa using behind
    obtain ⟨stored, found, running⟩ := movable (before.map BackgroundJob.id) job.id
      (after.map BackgroundJob.id) (by rw [split]; simp) idsBehind
    refine ⟨stored, found, ?_⟩
    by_cases first : before = []
    · exact .inl first
    · rw [if_neg (by simpa using first)] at running
      exact .inr running
  · intro found before jobId after split behind
    obtain ⟨front, rest, rows, rfl, tail⟩ := List.map_eq_append_iff.mp split
    obtain ⟨job, others, rfl, rfl, rfl⟩ := List.map_eq_cons_iff.mp tail
    have rowsBehind : others ≠ [] := by simpa using behind
    obtain ⟨stored, here, running⟩ := found front job others rows rowsBehind
    refine ⟨stored, here, ?_⟩
    by_cases first : front = []
    · rw [if_pos (by simpa using first), rows, first]
      exact stale_running (by rw [rows]; simp)
    · rw [if_neg (by simpa using first)]
      exact running.resolve_left first

/-- A refused failure leaves its instance alone exactly if the instance runs or holds the
assigned values already; a pass reaches every selected row exactly if no row but the last has
been moved by somebody else. -/
theorem refused_failures_and_passes (failure : Failure) (now : Time) :
    (∀ job, (∀ raised, (failInstance job failure now).1 = .error raised →
        (failInstance job failure now).2 = job) ↔
      job.status = .running ∨ AlreadyAssigned job failure) ∧
    ∀ (jobs : JobTable) (atTurn : Nat → JobTable),
      (recoverAbandonedLeases jobs atTurn now).map Prod.fst =
          (staleJobs jobs now).map BackgroundJob.id ↔
        ∀ before job after, staleJobs jobs now = before ++ job :: after → after ≠ [] →
          ∃ stored, (atTurn job.id).get? job.id = some stored ∧
            (before = [] ∨ stored.status = .running) :=
  ⟨fun job => refused_unchanged_iff job failure now,
    fun jobs atTurn => pass_reaches_all_iff jobs atTurn now⟩

def threeRunning : JobTable :=
  (runEvents Atomic.runOperation Db.empty
    [.enqueue { jobType := "report.execute", orgId := some 7, idempotencyKey := "a" } "u1" 0,
      .enqueue { jobType := "report.execute", orgId := some 7, idempotencyKey := "b" } "u2" 0,
      .enqueue { jobType := "report.execute", orgId := some 7, idempotencyKey := "c" } "u3" 0,
      .claim "w1" none 60 0 [], .claim "w2" none 60 0 [], .claim "w3" none 60 0 []]).jobs

def completedMeanwhile (jobId : Nat) : JobTable :=
  if jobId = 1 then threeRunning
  else Atomic.completeFresh (Atomic.failFresh threeRunning 1 leaseExpiredFailure (seconds 61)) 2
    (seconds 61)

/-- The second row raises with its error columns assigned, and the third one, whose lease has
expired too, is left running. -/
theorem completed_job_ends_the_pass :
    (staleJobs threeRunning (seconds 61)).map BackgroundJob.id = [1, 2, 3] ∧
      (recoverAbandonedLeases threeRunning completedMeanwhile (seconds 61)).map Prod.fst = [1, 2] ∧
      ((completedMeanwhile 3).get? 3).map BackgroundJob.status = some .running ∧
      ∃ job raised, (completedMeanwhile 2).get? 2 = some job ∧
        (failInstance job leaseExpiredFailure (seconds 61)).1 = .error raised ∧
        (failInstance job leaseExpiredFailure (seconds 61)).2 ≠ job := by
  refine ⟨by decide, by decide, by decide, ?_⟩
  obtain ⟨job, found, succeeded, clean⟩ : ∃ job, (completedMeanwhile 2).get? 2 = some job ∧
      job.status = .succeeded ∧ job.errorCode = none := by decide
  have refused : job.status ≠ .running := by
    rw [succeeded]
    decide
  refine ⟨job, ⟨job.status, failTarget job leaseExpiredFailure.terminal⟩, found, ?_⟩
  rw [failInstance_eq, if_neg refused]
  refine ⟨rfl, fun same => ?_⟩
  have assigned := ((touched_eq_iff job leaseExpiredFailure).mp same).errorCode
  rw [clean] at assigned
  cases assigned

end Ukip.Jobs.Recovery
