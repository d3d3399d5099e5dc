import Ukip.Jobs.Fencing
import Ukip.Jobs.Runtime

/-!
# Executions of one job

In every run, workers that execute one job at the same time execute different
attempts of it, and at most one of them holds the current lease.  Two at a time
take a recovery pass that selects a job whose worker is still busy: in a run
without such a pass (`RecoveryFindsNoBusyWorker`) the leases of busy workers stay
current, every running row has its worker, and no job is executed twice at once.
-/

namespace Ukip.Jobs.Execution

open Core.Clock States Envelope Service Sessions Fencing Jobs.Runtime Foundation.Relational
open Foundation.Relational.SerialTable Foundation.EventRun

/-- Leases on one job that different sessions hold name different attempts. -/
def LeasesApart (world : World) : Prop :=
  ∀ first second firstLease secondLease, first ≠ second →
    (world.sessions first).lease = some firstLease →
    (world.sessions second).lease = some secondLease →
    firstLease.jobId = secondLease.jobId → firstLease.attempt ≠ secondLease.attempt

theorem start_leasesApart : LeasesApart World.start := by
  intro first second firstLease secondLease _ held
  simp [World.start, Session.idle] at held

variable (world : World)

theorem acting_lease_apart (event : JobEvent) (sound : SessionsSound world)
    (apart : LeasesApart world) (actor other : Actor) (different : actor ≠ other)
    (mine : actorOf event = some actor) (actorLease otherLease : Lease)
    (actorHolds : ((step world event).sessions actor).lease = some actorLease)
    (otherHolds : ((step world event).sessions other).lease = some otherLease)
    (sameJob : actorLease.jobId = otherLease.jobId) : actorLease.attempt ≠ otherLease.attempt := by
  have otherSame : (step world event).sessions other = world.sessions other := by
    apply step_sessions_other
    rw [mine]
    intro same
    exact different (Option.some.inj same)
  rw [otherSame] at otherHolds
  have change := step_session world event actor
  generalize (step world event).sessions actor = session at actorHolds change
  cases change with
  | ended => simp [Session.idle] at actorHolds
  | kept _ sameLease _ =>
    exact apart actor other actorLease otherLease different (sameLease ▸ actorHolds) otherHolds
      sameJob
  | claimed attempt updated =>
    obtain ⟨sameId, _, job, member, here, counted⟩ := claimed_row _ attempt actorLease actorHolds
    have issued := (sound.issued other otherLease otherHolds).2 job member
      (by rw [here, ← sameId, sameJob])
    omega

theorem step_leasesApart (event : JobEvent) (sound : SessionsSound world)
    (apart : LeasesApart world) : LeasesApart (step world event) := by
  intro first second firstLease secondLease different firstHolds secondHolds sameJob
  by_cases firstActs : actorOf event = some first
  · exact acting_lease_apart world event sound apart first second different firstActs firstLease
      secondLease firstHolds secondHolds sameJob
  · by_cases secondActs : actorOf event = some second
    · exact (acting_lease_apart world event sound apart second first different.symm secondActs
        secondLease firstLease secondHolds firstHolds sameJob.symm).symm
    · rw [step_sessions_other world event first firstActs] at firstHolds
      rw [step_sessions_other world event second secondActs] at secondHolds
      exact apart first second firstLease secondLease different firstHolds secondHolds sameJob

theorem not_both_current (jobs : JobTable) (first second : Lease)
    (sameJob : first.jobId = second.jobId) (different : first.attempt ≠ second.attempt) :
    ¬ (LeaseCurrent jobs first ∧ LeaseCurrent jobs second) := by
  rintro ⟨⟨job, member, here, _, counted, _⟩, ⟨other, otherMember, otherHere, _, otherCounted, _⟩⟩
  have same : job = other :=
    jobs.eq_of_key_eq member otherMember (here.trans (sameJob.trans otherHere.symm))
  subst same
  exact different (counted.symm.trans otherCounted)

def busyWith : Phase → Option Nat
  | .idle => none
  | .selecting => none
  | .claimed jobId => some jobId
  | .executing jobId => some jobId
  | .returned jobId => some jobId
  | .raised jobId _ => some jobId

def Linked (processes : Processes) : Prop :=
  ∀ worker, (processes.session worker).lease.map Lease.jobId = busyWith (processes.phase worker)

theorem start_linked : Linked Processes.start := by
  intro worker
  rfl

variable (processes : Processes) (event : JobEvent)

theorem linked_enter (worker : Nat) (phase : Phase) (linked : Linked processes)
    (mine : actorOf event = some (.worker worker))
    (fits : ((step processes.world event).sessions (.worker worker)).lease.map Lease.jobId =
      busyWith phase) : Linked ((processes.call event).enter worker phase) := by
  intro other
  by_cases same : other = worker
  · subst same
    simpa [Processes.session] using fits
  · have kept := step_sessions_other processes.world event (.worker other) (by
      rw [mine]
      intro named
      cases Option.some.inj named
      exact same rfl)
    simpa [Processes.session, kept, Function.update_of_ne same] using linked other

theorem linked_call (linked : Linked processes)
    (kept : ∀ worker, ((step processes.world event).sessions (.worker worker)).lease =
      (processes.world.sessions (.worker worker)).lease) : Linked (processes.call event) := by
  intro worker
  simpa [Processes.session, kept worker] using linked worker

theorem load_lease (actor : Actor) (jobId : Nat) (assigned : Bool) (other : Actor) :
    ((step world (.load actor jobId assigned)).sessions other).lease =
      (world.sessions other).lease := by
  by_cases same : other = actor
  · subst same
    simp [step, Session.hold]
  · simp [step, Function.update_of_ne same]

theorem expire_lease (actor other : Actor) :
    ((step world (.expire actor)).sessions other).lease = (world.sessions other).lease := by
  by_cases same : other = actor
  · subst same
    simp [step, Session.expired]
  · simp [step, Function.update_of_ne same]

theorem finish_session (actor : Actor) (jobId : Nat) (copy : OrmCopy)
    (finishing : finisher event = some (actor, jobId))
    (held : (world.sessions actor).copies jobId = some copy) :
    (step world event).sessions = Function.update world.sessions actor .idle := by
  have settled : ∀ outcome, (settle world actor .idle outcome).sessions =
      Function.update world.sessions actor .idle := by
    intro outcome
    cases outcome <;> rfl
  cases event with
  | complete caller job now =>
    obtain ⟨rfl, rfl⟩ := Prod.mk.inj (Option.some.inj finishing)
    simp only [step, held]
    exact settled _
  | fail caller job failure now =>
    obtain ⟨rfl, rfl⟩ := Prod.mk.inj (Option.some.inj finishing)
    simp only [step, held]
    exact settled _
  | _ => simp [finisher] at finishing

variable (worker jobId : Nat)

theorem finish_linked (copy : OrmCopy) (linked : Linked processes)
    (finishing : finisher event = some (.worker worker, jobId))
    (held : (processes.session worker).copies jobId = some copy) :
    Linked ((processes.call event).enter worker .idle) := by
  apply linked_enter processes event worker .idle linked
  · cases event <;> simp_all [finisher, actorOf]
  · rw [finish_session processes.world event (.worker worker) jobId copy finishing held,
      Function.update_self]
    rfl

variable (hasHandler : String → Bool)

theorem step_linked (processes : Processes) (event : RuntimeEvent) (linked : Linked processes) :
    Linked (stepRuntime hasHandler processes event) := by
  cases event with
  | enqueue request uuid now =>
    apply linked_call processes _ linked
    intro worker
    rw [step_sessions_other _ _ _ (by simp [actorOf])]
  | claimSelect worker leaseOwner jobType leaseSeconds now locked =>
    simp only [stepRuntime, Processes.claimSelect]
    split
    · rename_i idle
      apply linked_enter processes _ worker _ linked rfl
      have unleased := linked worker
      rw [idle] at unleased
      have same : ∀ chosen : Bool, busyWith (if chosen then .selecting else .idle) = none := by
        intro chosen
        cases chosen <;> rfl
      rw [same]
      simpa [step, Processes.session, busyWith] using unleased
    · exact linked
  | claimUpdate worker =>
    simp only [stepRuntime, Processes.claimUpdate]
    split
    · apply linked_enter processes _ worker _ linked rfl
      simp only [Processes.session, Processes.call_world]
      cases ((step processes.world (.claimUpdate (.worker worker))).sessions (.worker worker)).lease
        <;> rfl
    · exact linked
  | fetch worker =>
    simp only [stepRuntime, Processes.fetch]
    split
    · rename_i jobId claimed
      split
      · apply linked_enter processes _ worker _ linked rfl
        simp [step, Session.idle, busyWith]
      · apply linked_enter processes _ worker _ linked rfl
        rw [load_lease]
        have leased := linked worker
        rw [claimed] at leased
        split
        · exact leased
        · exact leased
    · exact linked
  | handlerCommit worker =>
    simp only [stepRuntime, Processes.handlerCommit]
    split
    · exact linked_call processes _ linked fun other => expire_lease _ _ _
    · exact linked
  | handlerReturn worker =>
    simp only [stepRuntime, Processes.handlerReturn]
    split
    · rename_i jobId executing
      intro other
      by_cases same : other = worker
      · subst same
        have leased := linked other
        rw [executing] at leased
        simpa [Processes.session, busyWith] using leased
      · simpa [Processes.session, Function.update_of_ne same] using linked other
    · exact linked
  | handlerRaise worker errorCode errorDetail =>
    simp only [stepRuntime, Processes.handlerRaise]
    split
    · rename_i jobId executing
      apply linked_enter processes _ worker _ linked rfl
      rw [expire_lease]
      have leased := linked worker
      rw [executing] at leased
      exact leased
    · exact linked
  | refresh worker =>
    simp only [stepRuntime, Processes.refresh]
    split
    · exact linked_call processes _ linked fun other => load_lease _ _ _ _ _
    · exact linked_call processes _ linked fun other => load_lease _ _ _ _ _
    · exact linked_call processes _ linked fun other => load_lease _ _ _ _ _
    · exact linked
  | finish worker now =>
    simp only [stepRuntime, Processes.finish]
    split
    · rename_i jobId returned
      cases held : (processes.session worker).copies jobId with
      | none => exact linked
      | some copy => exact finish_linked processes _ worker jobId copy linked rfl held
    · rename_i jobId failure raised
      cases held : (processes.session worker).copies jobId with
      | none => exact linked
      | some copy => exact finish_linked processes _ worker jobId copy linked rfl held
    · exact linked
  | recoverRefresh scheduler =>
    simp only [stepRuntime, Processes.recoverRefresh]
    split
    · exact linked
    · exact linked_call processes _ linked fun other => load_lease _ _ _ _ _
  | _ =>
    apply linked_call processes _ linked
    intro worker
    rw [step_sessions_other _ _ _ (by simp [actorOf])]

/-- Workers that execute one job at the same time: their attempts differ, and not
both hold the current lease. -/
def AttemptsApart (processes : Processes) : Prop :=
  ∀ first second jobId, first ≠ second → Executing processes first jobId →
    Executing processes second jobId →
    ∃ firstLease secondLease, (processes.session first).lease = some firstLease ∧
      (processes.session second).lease = some secondLease ∧
      firstLease.attempt ≠ secondLease.attempt ∧
      ¬ (LeaseCurrent processes.world.db.jobs firstLease ∧
        LeaseCurrent processes.world.db.jobs secondLease)

theorem busy_lease (linked : Linked processes) (worker jobId : Nat)
    (busy : busyWith (processes.phase worker) = some jobId) :
    ∃ lease, (processes.session worker).lease = some lease ∧ lease.jobId = jobId := by
  have mapped := linked worker
  rw [busy] at mapped
  exact Option.map_eq_some_iff.mp mapped

variable {processes} in
theorem executing_lease (linked : Linked processes) {worker jobId : Nat}
    (executes : Executing processes worker jobId) :
    ∃ lease, (processes.session worker).lease = some lease ∧ lease.jobId = jobId :=
  busy_lease processes linked worker jobId (congrArg busyWith executes)

structure Accounted (processes : Processes) : Prop where
  sound : SessionsSound processes.world
  apart : LeasesApart processes.world
  linked : Linked processes

theorem start_accounted : Accounted Processes.start :=
  ⟨start_sound, start_leasesApart, start_linked⟩

theorem step_accounted (processes : Processes) (event : RuntimeEvent)
    (accounted : Accounted processes) : Accounted (stepRuntime hasHandler processes event) := by
  obtain ⟨sound, apart, linked⟩ := accounted
  have nextLinked := step_linked hasHandler processes event linked
  rcases stepRuntime_world hasHandler processes event with same | ⟨call, moved⟩
  · exact ⟨same ▸ sound, same ▸ apart, nextLinked⟩
  · refine ⟨?_, ?_, nextLinked⟩
    · rw [moved]
      exact step_sound processes.world call sound
    · rw [moved]
      exact step_leasesApart processes.world call sound apart

theorem attemptsApart_of_accounted (accounted : Accounted processes) : AttemptsApart processes := by
  intro first second jobId different firstExecutes secondExecutes
  obtain ⟨firstLease, firstHolds, firstJob⟩ := executing_lease accounted.linked firstExecutes
  obtain ⟨secondLease, secondHolds, secondJob⟩ := executing_lease accounted.linked secondExecutes
  have sameJob : firstLease.jobId = secondLease.jobId := firstJob.trans secondJob.symm
  have attempts := accounted.apart (.worker first) (.worker second) firstLease secondLease
    (by intro same; cases same; exact different rfl) firstHolds secondHolds sameJob
  exact ⟨firstLease, secondLease, firstHolds, secondHolds, attempts,
    not_both_current _ firstLease secondLease sameJob attempts⟩

/-- A recovery pass selects no job that a worker has claimed and not finished. -/
def RecoveryFindsNoBusyWorker (processes : Processes) (event : RuntimeEvent) : Prop :=
  ∀ scheduler now, event = .recoverScan scheduler now →
    ∀ job ∈ staleJobs processes.world.db.jobs now, ∀ worker,
      busyWith (processes.phase worker) ≠ some job.id

/-- No two workers execute the handler of one job. -/
def SoleExecution (processes : Processes) : Prop :=
  ∀ first second jobId, Executing processes first jobId → Executing processes second jobId →
    first = second

def workerLease (world : World) (worker : Nat) : Option Lease :=
  (world.sessions (.worker worker)).lease

structure Timely (world : World) : Prop where
  current : ∀ worker lease, workerLease world worker = some lease →
    LeaseCurrent world.db.jobs lease
  sole : ∀ first second firstLease secondLease, workerLease world first = some firstLease →
    workerLease world second = some secondLease → firstLease.jobId = secondLease.jobId →
    first = second
  worked : ∀ job ∈ world.db.jobs.rows, job.status = .running →
    ∃ worker lease, workerLease world worker = some lease ∧ lease.jobId = job.id
  loaded : ∀ worker jobId copy, (world.sessions (.worker worker)).copies jobId = some copy →
    copy.loaded.status = .running ∧ copy.loaded.id = jobId
  quiet : ∀ scheduler, (world.sessions (.scheduler scheduler)).recovering = []

theorem start_timely : Timely World.start := by
  constructor
  · intro worker lease held
    simp [workerLease, World.start, Session.idle] at held
  · intro first second firstLease secondLease held
    simp [workerLease, World.start, Session.idle] at held
  · intro job member
    simp [World.start, Db.empty, SerialTable.empty] at member
  · intro worker jobId copy held
    simp [World.start, Session.idle] at held
  · intro scheduler
    rfl

/-- The two tables have the same running rows, the row `changed` apart. -/
def RunningSame (changed : Option Nat) (before after : JobTable) : Prop :=
  ∀ job, job.status = .running → changed ≠ some job.id → (job ∈ after.rows ↔ job ∈ before.rows)

theorem runningSame_refl (changed : Option Nat) (jobs : JobTable) :
    RunningSame changed jobs jobs :=
  fun _ _ _ => Iff.rfl

variable (jobs : JobTable)

theorem runningSame_append (job : BackgroundJob) (fresh : FreshRow job)
    (accepted : jobs.rejects job = false) : RunningSame none jobs (jobs.append job accepted) := by
  intro stored running _
  rw [mem_append]
  constructor
  · rintro (kept | rfl)
    · exact kept
    · have queued := (fresh.keyed jobs).queued
      rw [queued] at running
      cases running
  · exact .inl

theorem runningSame_updateWhere (changed : Option Nat) (jobs : JobTable)
    (matched : BackgroundJob → Bool) (set : SetClause jobSchema)
    (stopped : ∀ job ∈ jobs.rows, matched job = true → changed = some job.id ∨
      (job.status ≠ .running ∧ (set.apply job).status ≠ .running)) :
    RunningSame changed jobs (jobs.updateWhere matched set) := by
  intro job running unchanged
  rw [mem_updateWhere]
  constructor
  · rintro ⟨old, member, rfl⟩
    have sameId : (set.onRow matched old).id = old.id := set.key_onRow matched old
    by_cases hit : matched old = true
    · rw [SetClause.onRow, if_pos hit] at running unchanged sameId
      rcases stopped old member hit with changes | ⟨_, halted⟩
      · exact absurd (changes.trans (by rw [sameId])) unchanged
      · exact absurd running halted
    · rw [SetClause.onRow, if_neg hit]
      exact member
  · intro member
    have missed : ¬ matched job = true := by
      intro hit
      rcases stopped job member hit with changes | ⟨halted, _⟩
      · exact unchanged changes
      · exact halted running
    exact ⟨job, member, by rw [SetClause.onRow, if_neg missed]⟩

theorem leaseCurrent_kept {changed : Option Nat} {before after : JobTable} (lease : Lease)
    (same : RunningSame changed before after) (elsewhere : changed ≠ some lease.jobId)
    (current : LeaseCurrent before lease) : LeaseCurrent after lease := by
  obtain ⟨job, member, here, running, rest⟩ := current
  exact ⟨job, (same job running (by rw [here]; exact elsewhere)).mpr member, here, running, rest⟩

theorem timely_kept {world : World} (after : World) (timely : Timely world)
    (rows : RunningSame none world.db.jobs after.db.jobs)
    (leases : ∀ worker, workerLease after worker = workerLease world worker)
    (copies : ∀ worker jobId copy, (after.sessions (.worker worker)).copies jobId = some copy →
      (world.sessions (.worker worker)).copies jobId = some copy ∨
        (copy.loaded.status = .running ∧ copy.loaded.id = jobId))
    (quiet : ∀ scheduler, (after.sessions (.scheduler scheduler)).recovering = []) :
    Timely after := by
  constructor
  · intro worker lease held
    rw [leases] at held
    exact leaseCurrent_kept lease rows (by simp) (timely.current worker lease held)
  · intro first second firstLease secondLease firstHolds secondHolds
    rw [leases] at firstHolds secondHolds
    exact timely.sole first second firstLease secondLease firstHolds secondHolds
  · intro job member running
    obtain ⟨worker, lease, held, here⟩ :=
      timely.worked job ((rows job running (by simp)).mp member) running
    exact ⟨worker, lease, by rw [leases]; exact held, here⟩
  · intro worker jobId copy held
    rcases copies worker jobId copy held with kept | found
    · exact timely.loaded worker jobId copy kept
    · exact found
  · exact quiet

theorem timely_finished (lease : Lease) (timely : Timely world)
    (held : workerLease world worker = some lease) (here : lease.jobId = jobId) (flush : Flush)
    (sent : flushOf world event = some flush) (mine : flush.copy.loaded.id = jobId)
    (ended : (step world event).sessions = Function.update world.sessions (.worker worker) .idle) :
    Timely (step world event) := by
  have rows : RunningSame (some jobId) world.db.jobs (step world event).db.jobs := by
    rw [step_jobs_of_flush world event flush sent]
    apply runningSame_updateWhere
    intro job _ hit
    left
    rw [← mine, show job.id = flush.copy.loaded.id by simpa using hit]
  have stopped : ∀ job ∈ (step world event).db.jobs.rows, job.status = .running →
      job.id ≠ jobId := by
    intro job member running sameId
    rw [step_jobs_of_flush world event flush sent] at member
    obtain ⟨old, _, rfl⟩ := (mem_updateWhere _ _ _ job).mp member
    have keyed : old.id = jobId := Eq.trans
      ((flushJob flush.copy flush.current).key_onRow _ old).symm sameId
    rw [SetClause.onRow, if_pos (by simp [keyed, mine])] at running
    exact flush_status_ne_running world event flush sent old running
  have others : ∀ other, other ≠ worker →
      (step world event).sessions (.worker other) = world.sessions (.worker other) := by
    intro other different
    rw [ended, Function.update_of_ne]
    intro same
    cases same
    exact different rfl
  have finished : (step world event).sessions (.worker worker) = .idle := by
    rw [ended, Function.update_self]
  have stillHeld : ∀ other otherLease,
      workerLease (step world event) other = some otherLease →
      other ≠ worker ∧ workerLease world other = some otherLease := by
    intro other otherLease otherHolds
    by_cases same : other = worker
    · subst same
      simp [workerLease, finished, Session.idle] at otherHolds
    · refine ⟨same, ?_⟩
      rwa [workerLease, others other same] at otherHolds
  constructor
  · intro other otherLease otherHolds
    obtain ⟨different, heldBefore⟩ := stillHeld other otherLease otherHolds
    refine leaseCurrent_kept otherLease rows ?_ (timely.current other otherLease heldBefore)
    intro same
    exact different (timely.sole other worker otherLease lease heldBefore held
      (by rw [here, Option.some.inj same]))
  · intro first second firstLease secondLease firstHolds secondHolds
    exact timely.sole first second firstLease secondLease (stillHeld first _ firstHolds).2
      (stillHeld second _ secondHolds).2
  · intro job member running
    have elsewhere := stopped job member running
    obtain ⟨other, otherLease, otherHolds, otherHere⟩ := timely.worked job
      ((rows job running (fun same => elsewhere (Option.some.inj same).symm)).mp member) running
    have different : other ≠ worker := by
      rintro rfl
      rw [held] at otherHolds
      cases Option.some.inj otherHolds
      exact elsewhere (otherHere.symm.trans here)
    exact ⟨other, otherLease, by rw [workerLease, others other different]; exact otherHolds,
      otherHere⟩
  · intro other otherId copy copyHeld
    by_cases same : other = worker
    · subst same
      simp [finished, Session.idle] at copyHeld
    · rw [others other same] at copyHeld
      exact timely.loaded other otherId copy copyHeld
  · intro scheduler
    rw [ended, Function.update_of_ne (by simp)]
    exact timely.quiet scheduler

theorem claimUpdate_queued (jobs after : JobTable) (attempt : ClaimAttempt)
    (updated : claimUpdate jobs attempt = some after) :
    after = jobs.updateWhere (claimMatches attempt) (claimSet attempt) ∧
      ∃ job ∈ jobs.rows, job.id = attempt.candidateId ∧ job.status = .queued := by
  unfold claimUpdate at updated
  split at updated
  · rename_i matched
    obtain ⟨job, member, hit⟩ := List.any_eq_true.mp matched
    simp only [claimMatches, Bool.and_eq_true, beq_iff_eq] at hit
    exact ⟨(Option.some.inj updated).symm, job, member, hit⟩
  · simp at updated

theorem queued_unleased (job : BackgroundJob) (lease : Lease) (member : job ∈ jobs.rows)
    (queued : job.status = .queued) (current : LeaseCurrent jobs lease) : lease.jobId ≠ job.id := by
  intro same
  obtain ⟨other, otherMember, here, running, _⟩ := current
  have sameRow : other = job := jobs.eq_of_key_eq otherMember member (here.trans same)
  rw [sameRow, queued] at running
  cases running

theorem timely_claimed (worker : Nat) (attempt : ClaimAttempt) (jobs : JobTable)
    (timely : Timely world) (unleased : workerLease world worker = none)
    (updated : claimUpdate world.db.jobs attempt = some jobs) :
    Timely ((world.withJobs jobs).withSession (.worker worker)
      { Session.idle with lease := leaseOf world.db.jobs attempt }) := by
  obtain ⟨rfl, row, rowMember, rowId, queued⟩ := claimUpdate_queued _ _ attempt updated
  have found : world.db.jobs.get? attempt.candidateId = some row :=
    (world.db.jobs.get?_eq_some_iff _ row).mpr ⟨rowMember, rowId⟩
  have leased : leaseOf world.db.jobs attempt =
      some ⟨attempt.candidateId, row.attempt + 1, attempt.leaseOwner⟩ := by
    simp [leaseOf, found]
  have rows : RunningSame (some attempt.candidateId) world.db.jobs
      (world.db.jobs.updateWhere (claimMatches attempt) (claimSet attempt)) := by
    apply runningSame_updateWhere
    intro job _ hit
    simp only [claimMatches, Bool.and_eq_true, beq_iff_eq] at hit
    exact .inl (by rw [hit.1])
  have apart : ∀ lease, LeaseCurrent world.db.jobs lease →
      lease.jobId ≠ attempt.candidateId := by
    intro lease current
    rw [← rowId]
    exact queued_unleased _ row lease rowMember queued current
  have others : ∀ other, other ≠ worker → ∀ session : Session,
      Function.update world.sessions (.worker worker) session (.worker other) =
        world.sessions (.worker other) := by
    intro other different session
    rw [Function.update_of_ne]
    intro same
    cases same
    exact different rfl
  have newCurrent := claim_makes_lease_current _ _ attempt _ updated leased
  generalize jobsIs : world.db.jobs.updateWhere (claimMatches attempt) (claimSet attempt) = jobs
    at rows newCurrent
  -- the worker's new lease against one that another worker keeps
  have held : ∀ other lease, workerLease ((world.withJobs jobs).withSession (.worker worker)
      { Session.idle with lease := leaseOf world.db.jobs attempt }) other = some lease →
      (other = worker ∧ lease = ⟨attempt.candidateId, row.attempt + 1, attempt.leaseOwner⟩) ∨
        (other ≠ worker ∧ workerLease world other = some lease) := by
    intro other lease holds
    by_cases same : other = worker
    · subst same
      left
      simp only [workerLease, World.withSession_sessions, Function.update_self, leased,
        Option.some.injEq] at holds
      exact ⟨rfl, holds.symm⟩
    · right
      simp only [workerLease, World.withSession_sessions, World.withJobs_sessions,
        others other same] at holds
      exact ⟨same, holds⟩
  constructor
  · intro other lease holds
    rcases held other lease holds with ⟨_, rfl⟩ | ⟨_, before⟩
    · exact newCurrent
    · have current := timely.current other lease before
      exact leaseCurrent_kept lease rows
        (fun same => apart lease current (Option.some.inj same).symm) current
  · intro first second firstLease secondLease firstHolds secondHolds sameJob
    rcases held first firstLease firstHolds with ⟨rfl, rfl⟩ | ⟨_, firstBefore⟩
    · rcases held second secondLease secondHolds with ⟨rfl, _⟩ | ⟨_, secondBefore⟩
      · rfl
      · exact absurd sameJob.symm (apart secondLease (timely.current second _ secondBefore))
    · rcases held second secondLease secondHolds with ⟨rfl, rfl⟩ | ⟨_, secondBefore⟩
      · exact absurd sameJob (apart firstLease (timely.current first _ firstBefore))
      · exact timely.sole first second firstLease secondLease firstBefore secondBefore sameJob
  · intro job member running
    by_cases here : job.id = attempt.candidateId
    · exact ⟨worker, _, by
        simp only [workerLease, World.withSession_sessions, Function.update_self, leased]; rfl,
        here.symm⟩
    · obtain ⟨other, lease, holds, sameId⟩ := timely.worked job
        ((rows job running (fun same => here (Option.some.inj same).symm)).mp member) running
      have different : other ≠ worker := by
        rintro rfl
        rw [unleased] at holds
        cases holds
      refine ⟨other, lease, ?_, sameId⟩
      simp only [workerLease, World.withSession_sessions, World.withJobs_sessions,
        others other different]
      exact holds
  · intro other jobId copy copyHeld
    by_cases same : other = worker
    · subst same
      simp [Session.idle] at copyHeld
    · simp only [World.withSession_sessions, World.withJobs_sessions, others other same] at copyHeld
      exact timely.loaded other jobId copy copyHeld
  · intro scheduler
    simp only [World.withSession_sessions, World.withJobs_sessions]
    rw [Function.update_of_ne (by simp)]
    exact timely.quiet scheduler

theorem timely_session (worker : Nat) (session : Session) (timely : Timely world)
    (sameLease : session.lease = workerLease world worker)
    (copies : ∀ jobId copy, session.copies jobId = some copy →
      (world.sessions (.worker worker)).copies jobId = some copy ∨
        (copy.loaded.status = .running ∧ copy.loaded.id = jobId)) :
    Timely (world.withSession (.worker worker) session) := by
  apply timely_kept (world.withSession (.worker worker) session) timely
    (runningSame_refl none world.db.jobs)
  · intro other
    by_cases same : other = worker
    · subst same
      simpa [workerLease] using sameLease
    · simp [workerLease, Function.update_of_ne, same]
  · intro other jobId copy held
    by_cases same : other = worker
    · subst same
      rw [World.withSession_sessions, Function.update_self] at held
      exact copies jobId copy held
    · left
      simpa [Function.update_of_ne, same] using held
  · intro scheduler
    simpa [Function.update_of_ne] using timely.quiet scheduler

theorem timely_scheduler (scheduler : Nat) (session : Session) (timely : Timely world)
    (rows : RunningSame none world.db.jobs jobs) (quiet : session.recovering = []) :
    Timely ((world.withJobs jobs).withSession (.scheduler scheduler) session) := by
  have workers : ∀ worker,
      ((world.withJobs jobs).withSession (.scheduler scheduler) session).sessions
        (.worker worker) = world.sessions (.worker worker) := by
    intro worker
    simp [Function.update_of_ne]
  apply timely_kept _ timely
  · exact rows
  · intro worker
    rw [workerLease, workers, workerLease]
  · intro worker jobId copy held
    rw [workers] at held
    exact .inl held
  · intro other
    by_cases same : other = scheduler
    · subst same
      simpa using quiet
    · have := timely.quiet other
      simpa [Function.update_of_ne, same] using this

theorem staleJobs_nil (scheduler : Nat) (now : Time) (linked : Linked processes)
    (timely : Timely processes.world)
    (unbusy : RecoveryFindsNoBusyWorker processes (.recoverScan scheduler now)) :
    staleJobs processes.world.db.jobs now = [] := by
  rw [List.eq_nil_iff_forall_not_mem]
  intro job stale
  obtain ⟨member, expired⟩ := List.mem_filter.mp stale
  have running : job.status = .running := by
    simp only [leaseExpired, Bool.and_eq_true, beq_iff_eq] at expired
    exact expired.1
  obtain ⟨worker, lease, held, here⟩ := timely.worked job member running
  apply unbusy scheduler now rfl job stale worker
  have mapped := linked worker
  rw [← mapped]
  exact Option.map_eq_some_iff.mpr ⟨lease, held, here⟩

theorem timely_load (assigned : Bool) (linked : Linked processes) (timely : Timely processes.world)
    (busy : busyWith (processes.phase worker) = some jobId) :
    Timely (step processes.world (.load (.worker worker) jobId assigned)) := by
  obtain ⟨lease, held, here⟩ := busy_lease processes linked worker jobId busy
  refine timely_session processes.world worker _ timely ?_ fun other copy copyHeld => ?_
  · rfl
  rcases hold_copies _ jobId _ other copy copyHeld with kept | ⟨rfl, found⟩
  · exact .inl kept
  · right
    obtain ⟨job, stored, rfl⟩ := Option.map_eq_some_iff.mp found
    obtain ⟨member, sameId⟩ := (processes.world.db.jobs.get?_eq_some_iff _ job).mp stored
    obtain ⟨row, rowMember, rowId, running, _⟩ := timely.current worker lease held
    have same : job = row := processes.world.db.jobs.eq_of_key_eq member rowMember
      (Eq.trans sameId (here.symm.trans rowId.symm))
    subst same
    exact ⟨running, sameId⟩

theorem timely_finish (copy : OrmCopy) (linked : Linked processes) (timely : Timely processes.world)
    (busy : busyWith (processes.phase worker) = some jobId)
    (finishing : finisher event = some (.worker worker, jobId))
    (copyHeld : (processes.session worker).copies jobId = some copy) :
    Timely (step processes.world event) := by
  obtain ⟨lease, held, here⟩ := busy_lease processes linked worker jobId busy
  obtain ⟨running, sameId⟩ := timely.loaded worker jobId copy copyHeld
  have ended := finish_session processes.world event (.worker worker) jobId copy finishing copyHeld
  have sent : ∃ flush, flushOf processes.world event = some flush ∧ flush.copy = copy := by
    cases event with
    | complete caller job now =>
      obtain ⟨rfl, rfl⟩ := Prod.mk.inj (Option.some.inj finishing)
      refine ⟨⟨copy, completed copy.loaded now⟩, ?_, rfl⟩
      have passed : completeFlush copy now = some ⟨copy, completed copy.loaded now⟩ := by
        simp [completeFlush, running]
      exact Option.bind_eq_some_iff.mpr ⟨copy, copyHeld, passed⟩
    | fail caller job failure now =>
      obtain ⟨rfl, rfl⟩ := Prod.mk.inj (Option.some.inj finishing)
      refine ⟨⟨copy, failed copy.loaded failure now⟩, ?_, rfl⟩
      have passed : failFlush copy failure now = some ⟨copy, failed copy.loaded failure now⟩ := by
        simp [failFlush, running]
      exact Option.bind_eq_some_iff.mpr ⟨copy, copyHeld, passed⟩
    | _ => simp [finisher] at finishing
  obtain ⟨flush, flushed, rfl⟩ := sent
  exact timely_finished processes.world event worker jobId lease timely held here flush flushed
    sameId ended

theorem step_timely (processes : Processes) (event : RuntimeEvent) (linked : Linked processes)
    (timely : Timely processes.world) (unbusy : RecoveryFindsNoBusyWorker processes event) :
    Timely (stepRuntime hasHandler processes event).world := by
  have expire : ∀ worker, Timely (step processes.world (.expire (.worker worker))) := by
    intro worker
    refine timely_session processes.world worker _ timely ?_ fun jobId copy held => ?_
    · rfl
    · simp [Session.expired] at held
  cases event with
  | enqueue request uuid now =>
    simp only [stepRuntime, Processes.call_world, step]
    cases inserted : processes.world.db.jobs.insert (newJob request uuid now) with
    | none => exact timely
    | some jobs =>
      obtain ⟨accepted, rfl⟩ := (insert_eq_some_iff _ _ _).mp inserted
      apply timely_kept _ timely
      · exact runningSame_append _ _ (newJob_fresh request uuid now) accepted
      · intro worker
        rfl
      · intro worker jobId copy held
        exact .inl held
      · exact timely.quiet
  | claimSelect worker leaseOwner jobType leaseSeconds now locked =>
    simp only [stepRuntime, Processes.claimSelect]
    split
    · refine timely_session processes.world worker _ timely ?_ fun jobId copy held => ?_
      · rfl
      · exact .inl held
    · exact timely
  | claimUpdate worker =>
    simp only [stepRuntime, Processes.claimUpdate]
    split
    · rename_i selecting
      have mapped := linked worker
      rw [selecting] at mapped
      have unleased : workerLease processes.world worker = none :=
        Option.map_eq_none_iff.mp mapped
      simp only [Processes.enter_world, Processes.call_world, step]
      split
      · exact timely
      · rename_i attempt chosen
        cases updated : claimUpdate processes.world.db.jobs attempt with
        | none =>
          apply timely_session processes.world worker _ timely unleased.symm
          intro jobId copy held
          simp [Session.idle] at held
        | some jobs => exact timely_claimed processes.world worker attempt jobs timely unleased updated
    · exact timely
  | fetch worker =>
    simp only [stepRuntime, Processes.fetch]
    split
    · rename_i jobId claimed
      split
      · -- the row of a current lease is there
        rename_i absent
        obtain ⟨lease, held, here⟩ := busy_lease processes linked worker jobId
          (by rw [claimed]; rfl)
        obtain ⟨row, member, rowId, _⟩ := timely.current worker lease held
        exact absurd (rowId.trans here) ((get?_eq_none_iff _ jobId).mp absent row member)
      · exact timely_load processes worker jobId false linked timely (by rw [claimed]; rfl)
    · exact timely
  | handlerCommit worker =>
    simp only [stepRuntime, Processes.handlerCommit]
    split
    · exact expire worker
    · exact timely
  | handlerReturn worker =>
    simp only [stepRuntime, Processes.handlerReturn]
    split
    · exact timely
    · exact timely
  | handlerRaise worker errorCode errorDetail =>
    simp only [stepRuntime, Processes.handlerRaise]
    split
    · exact expire worker
    · exact timely
  | refresh worker =>
    simp only [stepRuntime, Processes.refresh]
    split
    · rename_i jobId executing
      exact timely_load processes worker jobId false linked timely (by rw [executing]; rfl)
    · rename_i jobId returned
      exact timely_load processes worker jobId false linked timely (by rw [returned]; rfl)
    · rename_i jobId failure raised
      exact timely_load processes worker jobId true linked timely (by rw [raised]; rfl)
    · exact timely
  | finish worker now =>
    simp only [stepRuntime, Processes.finish]
    split
    · rename_i jobId returned
      cases held : (processes.session worker).copies jobId with
      | none => exact timely
      | some copy =>
        exact timely_finish processes (.complete (.worker worker) jobId now) worker jobId copy
          linked timely (by rw [returned]; rfl) rfl held
    · rename_i jobId failure raised
      cases held : (processes.session worker).copies jobId with
      | none => exact timely
      | some copy =>
        exact timely_finish processes (.fail (.worker worker) jobId failure now) worker jobId
          copy linked timely (by rw [raised]; rfl) rfl held
    · exact timely
  | promoteRetryReady scheduler now =>
    apply timely_scheduler processes.world _ scheduler _ timely
    · apply runningSame_updateWhere
      intro job _ hit
      simp only [isRetryReady, Bool.and_eq_true, beq_iff_eq] at hit
      right
      exact ⟨by rw [hit.1]; decide, JobStatus.noConfusion⟩
    · exact timely.quiet scheduler
  | recoverScan scheduler now =>
    have nothing := staleJobs_nil processes scheduler now linked timely unbusy
    apply timely_scheduler processes.world processes.world.db.jobs scheduler _ timely
      (runningSame_refl none _)
    simp [nothing]
  | recoverRefresh scheduler =>
    simp only [stepRuntime, Processes.recoverRefresh, timely.quiet scheduler]
    exact timely
  | recoverNext scheduler =>
    simp only [stepRuntime, Processes.call_world, step, timely.quiet scheduler]
    exact timely
  | tickEnd scheduler =>
    exact timely_scheduler processes.world processes.world.db.jobs scheduler _ timely
      (runningSame_refl none _) rfl

theorem sole_of_timely (linked : Linked processes) (timely : Timely processes.world) :
    SoleExecution processes := by
  intro first second jobId firstExecutes secondExecutes
  obtain ⟨firstLease, firstHolds, firstJob⟩ := executing_lease linked firstExecutes
  obtain ⟨secondLease, secondHolds, secondJob⟩ := executing_lease linked secondExecutes
  exact timely.sole first second firstLease secondLease firstHolds secondHolds
    (firstJob.trans secondJob.symm)

/-- Workers never execute one job under the same attempt, nor both under a current
lease; and as long as no recovery pass selects a job whose worker is still busy,
they never execute one job at the same time. -/
theorem executions_of_one_job (hasHandler : String → Bool) (events : List RuntimeEvent) :
    EveryState (stepRuntime hasHandler) AttemptsApart Processes.start events ∧
      (EveryStep (stepRuntime hasHandler) RecoveryFindsNoBusyWorker Processes.start events →
        EveryState (stepRuntime hasHandler) SoleExecution Processes.start events) := by
  constructor
  · rw [everyState_iff_front]
    intro before after _
    exact attemptsApart_of_accounted _
      (runEvents_of_invariant (step_accounted hasHandler) Processes.start before start_accounted)
  · intro unbusy
    have every := everyState_of_guard
      (fun processes event (both : Linked processes ∧ Timely processes.world) unbusy =>
        And.intro (step_linked hasHandler processes event both.1)
          (step_timely hasHandler processes event both.1 both.2 unbusy))
      Processes.start events ⟨start_linked, start_timely⟩ unbusy
    exact everyState_mono (fun processes both => sole_of_timely processes both.1 both.2)
      Processes.start events every

def startedJob : List RuntimeEvent :=
  [ .enqueue { jobType := "report.execute", orgId := some 7, idempotencyKey := "k" } "u" 0,
    .claimSelect 0 "w1" none 60 0 [],
    .claimUpdate 0,
    .fetch 0 ]

/-- A pass before the lease runs out leaves the job to its worker. -/
theorem started_job_executed_once :
    EveryState (stepRuntime fun _ => true) SoleExecution Processes.start
      (startedJob ++ [.recoverScan 0 (seconds 59), .recoverNext 0, .handlerReturn 0,
        .finish 0 (seconds 60)]) := by
  apply (executions_of_one_job _ _).2
  have noPass : ∀ processes event, (∀ scheduler now, event ≠ .recoverScan scheduler now) →
      RecoveryFindsNoBusyWorker processes event := by
    intro processes event other scheduler now pass
    exact absurd pass (other scheduler now)
  have started : EveryStep (stepRuntime fun _ => true) RecoveryFindsNoBusyWorker Processes.start
      startedJob := by
    refine ⟨?_, ?_, ?_, ?_, trivial⟩ <;> exact noPass _ _ (by simp)
  refine (everyStep_append _ _ _).mpr ⟨started, ?_, noPass _ _ (by simp), noPass _ _ (by simp),
    noPass _ _ (by simp), trivial⟩
  intro scheduler now pass job stale
  cases pass
  have nothing : staleJobs (runEvents (stepRuntime fun _ => true) Processes.start
      startedJob).world.db.jobs (seconds 59) = [] := by decide
  have found : job ∈ staleJobs (runEvents (stepRuntime fun _ => true) Processes.start
      startedJob).world.db.jobs (seconds 59) := stale
  rw [nothing] at found
  cases found

/-- The handler outlasts its lease. -/
theorem slow_handler_executed_twice :
    ¬ EveryState (stepRuntime fun _ => true) SoleExecution Processes.start
      (startedJob ++ [.recoverScan 0 (seconds 61), .recoverNext 0, .tickEnd 0,
        .promoteRetryReady 0 (seconds 71), .claimSelect 1 "w2" none 60 (seconds 72) [],
        .claimUpdate 1, .fetch 1]) := by
  intro every
  have sole := (everyState_iff_front _ _).mp every _ [] (List.append_nil _).symm
  exact absurd (sole 0 1 1 (by decide) (by decide)) (by decide)

end Ukip.Jobs.Execution
