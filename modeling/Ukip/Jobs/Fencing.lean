import Ukip.Foundation.EventRun
import Ukip.Jobs.Sessions

/-!
# Leases and the calls that finish an attempt

A claim gives its worker a lease: the job, the number of the attempt and the owner
name.  The lease is current while the stored row is running that attempt for that
owner.  Attempt numbers only grow and nothing but a claim makes a row running, so
a lease that is no longer current never becomes current again
(`lost_lease_stays_lost`, in every run).

`complete` and `fail` take no owner.  What keeps a worker whose lease was recovered
away from the row is therefore only the status its loaded copy shows.
-/

namespace Ukip.Jobs.Fencing

open Core.Clock States Envelope Service Sessions Foundation.Relational
open Foundation.Relational.SerialTable Foundation.EventRun

/-- The stored row is running the lease's attempt for the lease's owner. -/
def HoldsLease (lease : Lease) (job : BackgroundJob) : Prop :=
  job.id = lease.jobId ∧ job.status = .running ∧ job.attempt = lease.attempt ∧
    job.leaseOwner = some lease.leaseOwner

def LeaseCurrent (jobs : JobTable) (lease : Lease) : Prop :=
  ∃ job ∈ jobs.rows, HoldsLease lease job

instance (lease : Lease) (job : BackgroundJob) : Decidable (HoldsLease lease job) :=
  inferInstanceAs (Decidable (_ ∧ _ ∧ _ ∧ _))

instance (jobs : JobTable) (lease : Lease) : Decidable (LeaseCurrent jobs lease) :=
  inferInstanceAs (Decidable (∃ job ∈ jobs.rows, HoldsLease lease job))

/-- The session and the job of a call to `complete` or `fail`. -/
def finisher : JobEvent → Option (Actor × Nat)
  | .complete actor jobId _ => some (actor, jobId)
  | .fail actor jobId _ _ => some (actor, jobId)
  | _ => none

/-- The attempt number never falls, and a running attempt was running before, for
the same owner. -/
def AttemptLaw (old new : BackgroundJob) : Prop :=
  old.attempt ≤ new.attempt ∧
    (new.status = .running → new.attempt = old.attempt →
      old.status = .running ∧ new.leaseOwner = old.leaseOwner)

theorem attemptLaw_refl (job : BackgroundJob) : AttemptLaw job job :=
  ⟨Int.le_refl _, fun running _ => ⟨running, rfl⟩⟩

theorem attemptLaw_trans {first second third : BackgroundJob} (earlier : AttemptLaw first second)
    (later : AttemptLaw second third) : AttemptLaw first third := by
  obtain ⟨grown, source⟩ := earlier
  obtain ⟨grownMore, sourceMore⟩ := later
  refine ⟨by omega, fun running same => ?_⟩
  have secondSame : third.attempt = second.attempt := by omega
  have firstSame : second.attempt = first.attempt := by omega
  obtain ⟨secondRunning, secondOwner⟩ := sourceMore running secondSame
  obtain ⟨firstRunning, firstOwner⟩ := source secondRunning firstSame
  exact ⟨firstRunning, secondOwner.trans firstOwner⟩

theorem quietChange_attemptLaw (before after : JobTable) (change : QuietChange before after) :
    RowsStep AttemptLaw before after := by
  cases change with
  | same => exact rowsStep_refl attemptLaw_refl before
  | claimed attempt =>
    rw [rowsStep_updateWhere_iff]
    intro job _
    refine SetClause.onRow_along _ _ job (attemptLaw_refl job) fun _ => ?_
    have counted : ((claimSet attempt).apply job).attempt = job.attempt + 1 := rfl
    refine ⟨by omega, fun _ same => ?_⟩
    omega
  | renewed jobId leaseOwner expires =>
    rw [rowsStep_updateWhere_iff]
    intro job _
    exact SetClause.onRow_along _ _ job (attemptLaw_refl job) fun _ => attemptLaw_refl job
  | promoted now =>
    rw [rowsStep_updateWhere_iff]
    intro job _
    refine SetClause.onRow_along _ _ job (attemptLaw_refl job) fun _ => ?_
    exact ⟨Int.le_refl _, fun running _ => JobStatus.noConfusion running⟩
  | purged olderThan => exact rowsStep_deleteWhere attemptLaw_refl before _

theorem plainChange_attemptLaw (before after : JobTable) (change : PlainChange before after) :
    RowsStep AttemptLaw before after := by
  cases change with
  | inserted job fresh accepted => exact rowsStep_append attemptLaw_refl before job accepted
  | quiet change => exact quietChange_attemptLaw _ _ change

variable (world : World) (event : JobEvent)

theorem step_attemptLaw :
    RowsStep AttemptLaw world.db.jobs (step world event).db.jobs := by
  cases sent : flushOf world event with
  | none => exact plainChange_attemptLaw _ _ (step_jobs_of_no_flush world event sent)
  | some flush =>
    rw [step_jobs_of_flush world event flush sent]
    unfold Flush.onto flushCopy
    rw [rowsStep_updateWhere_iff]
    intro stored _
    refine SetClause.onRow_along _ _ stored (attemptLaw_refl stored) fun _ => ?_
    exact ⟨Int.le_refl _, fun running _ =>
      absurd running (flush_status_ne_running world event flush sent stored)⟩

theorem run_attemptLaw (events : List JobEvent) :
    RowsStep AttemptLaw world.db.jobs (runEvents step world events).db.jobs := by
  apply runEvents_related (fun before after : World =>
    RowsStep AttemptLaw before.db.jobs after.db.jobs)
  · intro state
    exact rowsStep_refl attemptLaw_refl state.db.jobs
  · intro first second third earlier later
    exact earlier.trans attemptLaw_trans later
  · exact step_attemptLaw

/-- The claim behind the lease has run: the table has given the id out, and the
row counts at least this attempt. -/
def Issued (jobs : JobTable) (lease : Lease) : Prop :=
  lease.jobId < jobs.nextKey ∧ ∀ job ∈ jobs.rows, job.id = lease.jobId → lease.attempt ≤ job.attempt

theorem issued_kept {before after : JobTable} (lease : Lease)
    (moved : RowsStep AttemptLaw before after) (issued : Issued before lease) :
    Issued after lease := by
  refine ⟨Nat.lt_of_lt_of_le issued.1 moved.1, fun job member here => ?_⟩
  rcases moved.2 job member with past | ⟨old, oldMember, same, law⟩
  · have := issued.1
    have key : jobSchema.key job = job.id := rfl
    omega
  · have := issued.2 old oldMember (same.trans here)
    have := law.1
    omega

theorem lost_lease_stays_lost (events : List JobEvent) (lease : Lease)
    (issued : Issued world.db.jobs lease) (lost : ¬ LeaseCurrent world.db.jobs lease) :
    ¬ LeaseCurrent (runEvents step world events).db.jobs lease := by
  rintro ⟨job, member, here, running, sameAttempt, owned⟩
  obtain ⟨_, traced⟩ := run_attemptLaw world events
  rcases traced job member with past | ⟨old, oldMember, sameId, grown, source⟩
  · have := issued.1
    have key : jobSchema.key job = job.id := rfl
    omega
  · have oldHere : old.id = lease.jobId := Eq.trans sameId here
    have counted := issued.2 old oldMember oldHere
    have oldAttempt : job.attempt = old.attempt := by omega
    obtain ⟨oldRunning, sameOwner⟩ := source running oldAttempt
    exact lost ⟨old, oldMember, oldHere, oldRunning, by omega, sameOwner.symm.trans owned⟩

/-- Every copy is filed under its own id, and every lease was issued. -/
structure SessionsSound (world : World) : Prop where
  filed : ∀ actor jobId copy, (world.sessions actor).copies jobId = some copy →
    copy.loaded.id = jobId
  issued : ∀ actor lease, (world.sessions actor).lease = some lease → Issued world.db.jobs lease

theorem start_sound : SessionsSound World.start :=
  ⟨fun _ _ _ held => by simp [World.start, Session.idle] at held,
    fun _ _ held => by simp [World.start, Session.idle] at held⟩

theorem claimed_row (jobs : JobTable) (attempt : ClaimAttempt) (lease : Lease)
    (named : leaseOf jobs attempt = some lease) :
    lease.jobId = attempt.candidateId ∧ lease.leaseOwner = attempt.leaseOwner ∧
      ∃ job ∈ jobs.rows, job.id = attempt.candidateId ∧ job.attempt + 1 = lease.attempt := by
  obtain ⟨job, found, rfl⟩ := Option.map_eq_some_iff.mp named
  obtain ⟨member, here⟩ := (jobs.get?_eq_some_iff attempt.candidateId job).mp found
  exact ⟨rfl, rfl, job, member, here, rfl⟩

theorem claim_makes_lease_current (jobs after : JobTable) (attempt : ClaimAttempt) (lease : Lease)
    (claimed : claimUpdate jobs attempt = some after) (named : leaseOf jobs attempt = some lease) :
    LeaseCurrent after lease := by
  obtain ⟨sameId, sameOwner, job, member, here, counted⟩ := claimed_row jobs attempt lease named
  unfold claimUpdate at claimed
  split at claimed
  · rename_i matched
    obtain ⟨hit, hitMember, hitMatches⟩ := List.any_eq_true.mp matched
    have hitId : hit.id = attempt.candidateId := by
      simp only [claimMatches, Bool.and_eq_true, beq_iff_eq] at hitMatches
      exact hitMatches.1
    have same : job = hit := jobs.eq_of_key_eq member hitMember (here.trans hitId.symm)
    subst same
    cases Option.some.inj claimed
    refine ⟨(claimSet attempt).apply job, ?_, ?_⟩
    · rw [mem_updateWhere]
      exact ⟨job, member, by rw [SetClause.onRow, if_pos hitMatches]⟩
    · exact ⟨here.trans sameId.symm, rfl, counted, by rw [sameOwner]; rfl⟩
  · simp at claimed

theorem step_sound (sound : SessionsSound world) :
    SessionsSound (step world event) := by
  have moved := step_attemptLaw world event
  refine ⟨fun actor jobId copy held => ?_, fun actor lease held => ?_⟩
  · have change := step_session world event actor
    generalize (step world event).sessions actor = session at held change
    cases change with
    | ended => simp [Session.idle] at held
    | kept _ _ copiesFrom =>
      rcases copiesFrom jobId copy held with before | ⟨_, here⟩
      · exact sound.filed actor jobId copy before
      · exact here
    | claimed attempt matched => simp [Session.idle] at held
  · have change := step_session world event actor
    generalize after : (step world event).sessions actor = session at held change
    cases change with
    | ended => simp [Session.idle] at held
    | kept _ sameLease _ =>
      exact issued_kept lease moved (sound.issued actor lease (sameLease ▸ held))
    | claimed attempt updated =>
      have current := claim_makes_lease_current _ _ attempt lease updated held
      obtain ⟨job, member, here, _, counted, _⟩ := current
      refine ⟨here ▸ (step world event).db.jobs.key_lt job member, fun other otherMember same => ?_⟩
      have : other = job :=
        (step world event).db.jobs.eq_of_key_eq otherMember member (same.trans here.symm)
      rw [this]
      omega

/-- A call to `complete` or `fail` changes no row unless the caller holds the
current lease on the job. -/
def OnlyHolderFinishes (world : World) (event : JobEvent) : Prop :=
  ∀ actor jobId, finisher event = some (actor, jobId) →
    (step world event).db.jobs.rows = world.db.jobs.rows ∨
      ∃ lease, (world.sessions actor).lease = some lease ∧ lease.jobId = jobId ∧
        LeaseCurrent world.db.jobs lease

/-- Once a lease is not current any more (its job was recovered, claimed again or
finished), no later call for the same claim changes the table. -/
def LostLeaseFenced (start : World) (events : List JobEvent) : Prop :=
  ∀ before middle finish after actor lease,
    events = before ++ (middle ++ finish :: after) →
    ((runEvents step start before).sessions actor).lease = some lease →
    ¬ LeaseCurrent (runEvents step start before).db.jobs lease →
    ((runEvents step start (before ++ middle)).sessions actor).lease = some lease →
    finisher finish = some (actor, lease.jobId) →
    (runEvents step start (before ++ middle ++ [finish])).db.jobs.rows =
      (runEvents step start (before ++ middle)).db.jobs.rows

/-- The caller holds the current lease on the job, or the copy it would finish
does not say running, or the row is gone. -/
def LateFinishRefused (world : World) (event : JobEvent) : Prop :=
  ∀ actor jobId, finisher event = some (actor, jobId) →
    (∃ lease, (world.sessions actor).lease = some lease ∧ lease.jobId = jobId ∧
        LeaseCurrent world.db.jobs lease) ∨
      (∀ copy, (world.sessions actor).copies jobId = some copy → copy.loaded.status ≠ .running) ∨
      ∀ job ∈ world.db.jobs.rows, job.id ≠ jobId

theorem finisher_flush (actor : Actor) (jobId : Nat) (flush : Flush)
    (finishing : finisher event = some (actor, jobId)) (sent : flushOf world event = some flush) :
    (world.sessions actor).copies jobId = some flush.copy ∧
      flush.copy.loaded.status = .running := by
  cases event with
  | complete caller job now =>
    obtain ⟨rfl, rfl⟩ := Prod.mk.inj (Option.some.inj finishing)
    obtain ⟨copy, held, passed⟩ := Option.bind_eq_some_iff.mp sent
    simp only [completeFlush, Option.ite_none_right_eq_some, Option.some.injEq] at passed
    obtain ⟨running, rfl⟩ := passed
    exact ⟨held, running⟩
  | fail caller job failure now =>
    obtain ⟨rfl, rfl⟩ := Prod.mk.inj (Option.some.inj finishing)
    obtain ⟨copy, held, passed⟩ := Option.bind_eq_some_iff.mp sent
    simp only [failFlush, Option.ite_none_right_eq_some, Option.some.injEq] at passed
    obtain ⟨running, rfl⟩ := passed
    exact ⟨held, running⟩
  | _ => simp [finisher] at finishing

theorem unsent_finish_keeps_jobs (actor : Actor) (jobId : Nat)
    (finishing : finisher event = some (actor, jobId)) (unsent : flushOf world event = none) :
    (step world event).db.jobs = world.db.jobs := by
  cases event with
  | complete caller job now =>
    cases held : (world.sessions caller).copies job with
    | none => simp only [step, held]
    | some copy =>
      have refused : completeFlush copy now = none := by simpa [flushOf, held] using unsent
      simp only [step, held, complete_eq, refused]
      rfl
  | fail caller job failure now =>
    cases held : (world.sessions caller).copies job with
    | none => simp only [step, held]
    | some copy =>
      have refused : failFlush copy failure now = none := by
        simpa [flushOf, held] using unsent
      simp only [step, held, fail_eq, refused]
      rfl
  | _ => simp [finisher] at finishing

theorem step_onlyHolderFinishes (sound : SessionsSound world)
    (refused : LateFinishRefused world event) : OnlyHolderFinishes world event := by
  intro actor jobId finishing
  cases sent : flushOf world event with
  | none => exact .inl (by rw [unsent_finish_keeps_jobs world event actor jobId finishing sent])
  | some flush =>
    obtain ⟨held, running⟩ := finisher_flush world event actor jobId flush finishing sent
    rcases refused actor jobId finishing with current | notRunning | gone
    · exact .inr current
    · exact absurd running (notRunning flush.copy held)
    · left
      have here := sound.filed actor jobId flush.copy held
      rw [step_jobs_of_flush world event flush sent, Flush.onto, flushCopy,
        updateWhere_of_unmatched]
      intro job member
      simpa [here] using gone job member

/-- In every run from the empty system in which a caller without the current lease
never finds its copy running, a lost lease is fenced off and only the holder of the
current lease finishes an attempt. -/
theorem leases_fenced_of_late_finish_refused (events : List JobEvent)
    (refused : EveryStep step LateFinishRefused World.start events) :
    EveryStep step OnlyHolderFinishes World.start events ∧
      LostLeaseFenced World.start events := by
  have onlyHolder := everyStep_of_guard (fun state event sound _ => step_sound state event sound)
    step_onlyHolderFinishes World.start events start_sound refused
  refine ⟨onlyHolder, ?_⟩
  intro before middle finish after actor lease split claimed lost still finishing
  have sound := runEvents_of_invariant step_sound World.start before start_sound
  have lostLater : ¬ LeaseCurrent (runEvents step World.start (before ++ middle)).db.jobs lease := by
    rw [runEvents_append]
    exact lost_lease_stays_lost _ middle lease (sound.issued actor lease claimed) lost
  have atFinish := (everyStep_iff_split World.start events).mp onlyHolder (before ++ middle) finish
    after (by rw [split, List.append_assoc])
  rw [runEvents_append]
  rcases atFinish actor lease.jobId finishing with same | ⟨current, heldNow, _, isCurrent⟩
  · exact same
  · rw [still] at heldNow
    cases Option.some.inj heldNow
    exact absurd isCurrent lostLater

def reclaimedJob : List JobEvent :=
  [ .insertQueued { jobType := "report.execute", orgId := some 7, idempotencyKey := "k" } "u" 0,
    .claimSelect (.worker 0) "w1" none 60 0 [],
    .claimUpdate (.worker 0),
    .load (.worker 0) 1 false,
    .recoverScan (.scheduler 0) (seconds 61),
    .recoverNext (.scheduler 0),
    .promoteRetryReady (.scheduler 0) (seconds 71),
    .claimSelect (.worker 1) "w2" none 60 (seconds 72) [],
    .claimUpdate (.worker 1) ]

theorem reclaimed_job_finished_by_first_worker :
    ¬ LostLeaseFenced World.start (reclaimedJob ++ [.complete (.worker 0) 1 (seconds 73)]) := by
  intro fenced
  have unchanged := fenced reclaimedJob [] (.complete (.worker 0) 1 (seconds 73)) [] (.worker 0)
    ⟨1, 1, "w1"⟩ rfl (by decide) (by decide) (by decide) rfl
  revert unchanged
  decide

/-- The second worker's own completion is the one the rule admits. -/
theorem reclaimed_job_finished_by_holder :
    EveryStep step OnlyHolderFinishes World.start
        (reclaimedJob ++ [.load (.worker 1) 1 false, .complete (.worker 1) 1 (seconds 73)]) ∧
      LostLeaseFenced World.start
        (reclaimedJob ++ [.load (.worker 1) 1 false, .complete (.worker 1) 1 (seconds 73)]) := by
  apply leases_fenced_of_late_finish_refused
  rw [everyStep_append]
  constructor
  · simp [reclaimedJob, EveryStep, LateFinishRefused, finisher]
  · refine ⟨by simp [LateFinishRefused, finisher], ?_, trivial⟩
    intro actor jobId finishing
    cases finishing
    exact .inl ⟨⟨1, 2, "w2"⟩, by decide, rfl, by decide⟩

end Ukip.Jobs.Fencing
