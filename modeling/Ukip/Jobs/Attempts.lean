import Ukip.Foundation.EventRun
import Ukip.Jobs.Sessions

/-!
# The attempt bound

`claim` counts an attempt without looking at `max_attempts`; the bound rests on
`fail` sending a job back to waiting only while attempts are left.  `fail` decides
this on the attempt of its copy.  The invariant that carries the bound therefore
speaks about waiting rows: each has an attempt to spare (`RowBounded`), and a flush
keeps it exactly when the row it sends back to `retry_wait` has one.
-/

namespace Ukip.Jobs.Attempts

open Core.Clock States Envelope Service Sessions Foundation.Relational
open Foundation.Relational.SerialTable Foundation.EventRun

def WithinMax (job : BackgroundJob) : Prop :=
  1 ≤ job.maxAttempts → job.attempt ≤ job.maxAttempts

/-- A waiting job has an attempt to spare. -/
def RowBounded (job : BackgroundJob) : Prop :=
  1 ≤ job.maxAttempts →
    job.attempt ≤ job.maxAttempts ∧ (isWaiting job.status = true → job.attempt < job.maxAttempts)

def AttemptsWithinMax (world : World) : Prop := ∀ job ∈ world.db.jobs.rows, WithinMax job

def AllBounded (jobs : JobTable) : Prop := ∀ job ∈ jobs.rows, RowBounded job

/-- A flush that sends a stored job back to `retry_wait` finds it with attempts
left. -/
def RetryHasAttemptsLeft (world : World) (event : JobEvent) : Prop :=
  ∀ flush ∈ flushOf world event, flush.current.status = .retryWait →
    ∀ job ∈ world.db.jobs.rows, job.id = flush.copy.loaded.id → 1 ≤ job.maxAttempts →
      job.attempt < job.maxAttempts

instance (job : BackgroundJob) : Decidable (WithinMax job) :=
  inferInstanceAs (Decidable (_ → _))

instance (world : World) : Decidable (AttemptsWithinMax world) :=
  inferInstanceAs (Decidable (∀ job ∈ world.db.jobs.rows, WithinMax job))

instance (world : World) (event : JobEvent) : Decidable (RetryHasAttemptsLeft world event) :=
  inferInstanceAs (Decidable (∀ flush ∈ flushOf world event, flush.current.status = .retryWait →
    ∀ job ∈ world.db.jobs.rows, job.id = flush.copy.loaded.id → 1 ≤ job.maxAttempts →
      job.attempt < job.maxAttempts))

theorem rowBounded_fresh (job : BackgroundJob) (fresh : FreshRow job) : RowBounded job := by
  intro allowed
  have := fresh.unattempted
  exact ⟨by omega, fun _ => by omega⟩

theorem rowBounded_of_leaving {old new : BackgroundJob} (bounded : RowBounded old)
    (sameAttempt : new.attempt = old.attempt) (sameMax : new.maxAttempts = old.maxAttempts)
    (spare : isWaiting new.status = true → 1 ≤ old.maxAttempts → old.attempt < old.maxAttempts) :
    RowBounded new := by
  intro allowed
  rw [sameMax] at allowed
  obtain ⟨within, _⟩ := bounded allowed
  refine ⟨by omega, fun waiting => ?_⟩
  have := spare waiting allowed
  omega

theorem quietChange_bounded (before after : JobTable) (change : QuietChange before after)
    (bounded : AllBounded before) : AllBounded after := by
  cases change with
  | same => exact bounded
  | claimed attempt =>
    refine (forall_updateWhere_iff RowBounded before _ _).mpr fun job member => ?_
    refine SetClause.onRow_holds _ _ job (bounded job member) fun hit allowed => ?_
    simp only [claimMatches, Bool.and_eq_true, beq_iff_eq] at hit
    -- a claimed row was queued, so the attempt it counts was one to spare
    have spare := (bounded job member allowed).2 (by rw [hit.2]; decide)
    have counted : ((claimSet attempt).apply job).attempt = job.attempt + 1 := rfl
    have sameMax : ((claimSet attempt).apply job).maxAttempts = job.maxAttempts := rfl
    have running : ((claimSet attempt).apply job).status = .running := rfl
    refine ⟨by omega, fun waiting => ?_⟩
    rw [running] at waiting
    exact absurd waiting (by decide)
  | renewed jobId leaseOwner expires =>
    refine (forall_updateWhere_iff RowBounded before _ _).mpr fun job member => ?_
    exact SetClause.onRow_holds _ _ job (bounded job member) fun _ => bounded job member
  | promoted now =>
    refine (forall_updateWhere_iff RowBounded before _ _).mpr fun job member => ?_
    refine SetClause.onRow_holds _ _ job (bounded job member) fun hit => ?_
    simp only [isRetryReady, Bool.and_eq_true, beq_iff_eq] at hit
    refine rowBounded_of_leaving (bounded job member) rfl rfl fun _ allowed => ?_
    exact (bounded job member allowed).2 (by rw [hit.1]; decide)
  | purged olderThan =>
    intro job member
    exact bounded job ((before.mem_deleteWhere _ job).mp member).1

theorem plainChange_bounded (before after : JobTable) (change : PlainChange before after)
    (bounded : AllBounded before) : AllBounded after := by
  cases change with
  | inserted job fresh accepted =>
    refine (forall_append_iff RowBounded before job accepted).mpr ⟨bounded, ?_⟩
    exact rowBounded_fresh _ (fresh.keyed before)
  | quiet change => exact quietChange_bounded _ _ change bounded

theorem flush_bounded_iff (world : World) (event : JobEvent) (flush : Flush)
    (sent : flushOf world event = some flush) (bounded : AllBounded world.db.jobs) :
    AllBounded (flush.onto world.db.jobs) ↔
      (flush.current.status = .retryWait → ∀ job ∈ world.db.jobs.rows,
        job.id = flush.copy.loaded.id → 1 ≤ job.maxAttempts → job.attempt < job.maxAttempts) := by
  have writes := flush_writes_status world event flush sent
  unfold AllBounded Flush.onto flushCopy
  rw [forall_updateWhere_iff]
  constructor
  · intro after retried job member here allowed
    have rowAfter := after job member
    rw [SetClause.onRow, if_pos (by simpa using here)] at rowAfter
    refine (rowAfter allowed).2 ?_
    rw [writes job, retried]
    decide
  · intro spare job member
    refine SetClause.onRow_holds _ _ job (bounded job member) fun hit => ?_
    refine rowBounded_of_leaving (bounded job member) rfl rfl fun waiting allowed => ?_
    rw [writes job] at waiting
    have retried : flush.current.status = .retryWait := by
      rcases flushOf_shape world event flush sent with ⟨_, done | done | done⟩ | ⟨_, done⟩
      · rw [done] at waiting
        exact absurd waiting (by decide)
      · exact done
      · rw [done] at waiting
        exact absurd waiting (by decide)
      · rw [done] at waiting
        exact absurd waiting (by decide)
    exact spare retried job member (by simpa using hit) allowed

theorem step_bounded_iff (world : World) (event : JobEvent) (bounded : AllBounded world.db.jobs) :
    AllBounded (step world event).db.jobs ↔ RetryHasAttemptsLeft world event := by
  unfold RetryHasAttemptsLeft
  cases sent : flushOf world event with
  | none =>
    have kept := plainChange_bounded _ _ (step_jobs_of_no_flush world event sent) bounded
    simpa using kept
  | some flush =>
    rw [step_jobs_of_flush world event flush sent, flush_bounded_iff world event flush sent bounded]
    simp

theorem withinMax_of_bounded (world : World) (bounded : AllBounded world.db.jobs) :
    AttemptsWithinMax world :=
  fun job member allowed => (bounded job member allowed).1

/-- In every run whose retries all find an attempt left, no stored attempt exceeds
its `max_attempts`. -/
theorem attempts_within_max_of_retries_left (events : List JobEvent)
    (left : EveryStep step RetryHasAttemptsLeft World.start events) :
    EveryState step AttemptsWithinMax World.start events := by
  have start : AllBounded World.start.db.jobs := by
    intro job member
    simp [World.start, Db.empty, SerialTable.empty] at member
  have every := (everyState_iff_everyStep (fun world => step_bounded_iff world) World.start events
    start).mpr left
  exact everyState_mono withinMax_of_bounded World.start events every

def twoAttempts : List JobEvent :=
  [ .insertQueued { jobType := "report.execute", orgId := some 7, idempotencyKey := "k",
                    maxAttempts := 2 } "u" 0,
    .claimSelect (.worker 0) "w1" none 60 0 [],
    .claimUpdate (.worker 0),
    .load (.worker 0) 1 true,
    .recoverScan (.scheduler 0) (seconds 61),
    .recoverNext (.scheduler 0),
    .promoteRetryReady (.scheduler 0) (seconds 71),
    .claimSelect (.worker 1) "w2" none 60 (seconds 72) [],
    .claimUpdate (.worker 1) ]

theorem two_attempts_within_max :
    EveryState step AttemptsWithinMax World.start twoAttempts :=
  attempts_within_max_of_retries_left twoAttempts (by decide)

/-- The first worker's failure report, decided on attempt 1, lands during the
second attempt. -/
theorem stale_retry_overruns :
    ¬ EveryState step AttemptsWithinMax World.start
      (twoAttempts ++
        [ .fail (.worker 0) 1 ⟨"TimeoutError", none, false⟩ (seconds 73),
          .promoteRetryReady (.scheduler 0) (seconds 83),
          .claimSelect (.worker 2) "w3" none 60 (seconds 84) [],
          .claimUpdate (.worker 2) ]) := by
  decide

end Ukip.Jobs.Attempts
