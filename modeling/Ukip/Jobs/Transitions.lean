import Ukip.Foundation.EventRun
import Ukip.Jobs.Sessions

/-!
# Status changes of stored jobs

The transition check of complete, fail and cancel looks at the session's copy,
the UPDATE it admits is addressed by primary key.  A stored status therefore
keeps to the transition table in exactly those runs in which no such UPDATE
overtakes the row: when it arrives, the row is still in the state the check was
about, or already in the one being written.
-/

namespace Ukip.Jobs.Transitions

open States Envelope Service Sessions Foundation.Relational Foundation.Relational.SerialTable
open Foundation.EventRun

/-- A stored status changes along an edge only, and a terminal one never. -/
def StatusLaw (old new : BackgroundJob) : Prop :=
  (new.status = old.status ∨ new.status ∈ allowedTransitions old.status) ∧
    (isTerminal old.status = true → new.status = old.status)

instance (old new : BackgroundJob) : Decidable (StatusLaw old new) :=
  inferInstanceAs (Decidable (_ ∧ _))

def StatusesKept (world : World) (event : JobEvent) : Prop :=
  RowsStep StatusLaw world.db.jobs (step world event).db.jobs

instance (world : World) (event : JobEvent) : Decidable (StatusesKept world event) :=
  decidableRowsStep StatusLaw _ _

/-- A stored row the write of `target` may still land on: the row is running for
an outcome, waiting for a cancellation, or has the very status already. -/
def OpenFor (target stored : JobStatus) : Prop :=
  stored = target ∨ if target = .cancelled then isWaiting stored = true else stored = .running

/-- No flush of the event overtakes the row that its copy was loaded from. -/
def FlushNotOvertaken (world : World) (event : JobEvent) : Prop :=
  ∀ flush, flushOf world event = some flush →
    ∀ stored ∈ world.db.jobs.rows, stored.id = flush.copy.loaded.id →
      OpenFor flush.current.status stored.status

theorem statusLaw_refl (job : BackgroundJob) : StatusLaw job job :=
  ⟨.inl rfl, fun _ => rfl⟩

theorem statusLaw_iff (old new : BackgroundJob) :
    StatusLaw old new ↔
      new.status = old.status ∨ new.status ∈ allowedTransitions old.status := by
  constructor
  · exact fun law => law.1
  · intro law
    refine ⟨law, fun terminal => law.resolve_right ?_⟩
    rw [(isTerminal_iff_no_transition old.status).mp terminal]
    simp

theorem quietChange_statusLaw (before after : JobTable) (change : QuietChange before after) :
    RowsStep StatusLaw before after := by
  cases change with
  | same => exact rowsStep_refl statusLaw_refl before
  | claimed attempt =>
    rw [rowsStep_updateWhere_iff]
    intro job _
    refine SetClause.onRow_along _ _ job (statusLaw_refl job) fun hit => ?_
    simp only [claimMatches, Bool.and_eq_true, beq_iff_eq] at hit
    rw [statusLaw_iff, hit.2]
    exact .inr (show JobStatus.running ∈ allowedTransitions .queued by decide)
  | renewed jobId leaseOwner expires =>
    rw [rowsStep_updateWhere_iff]
    intro job _
    exact SetClause.onRow_along _ _ job (statusLaw_refl job) fun _ => statusLaw_refl job
  | promoted now =>
    rw [rowsStep_updateWhere_iff]
    intro job _
    refine SetClause.onRow_along _ _ job (statusLaw_refl job) fun hit => ?_
    simp only [isRetryReady, Bool.and_eq_true, beq_iff_eq] at hit
    rw [statusLaw_iff, hit.1]
    exact .inr (show JobStatus.queued ∈ allowedTransitions .retryWait by decide)
  | purged olderThan => exact rowsStep_deleteWhere statusLaw_refl before _

theorem plainChange_statusLaw (before after : JobTable) (change : PlainChange before after) :
    RowsStep StatusLaw before after := by
  cases change with
  | inserted job fresh accepted => exact rowsStep_append statusLaw_refl before job accepted
  | quiet change => exact quietChange_statusLaw _ _ change

theorem statusLaw_flush_iff (world : World) (event : JobEvent) (flush : Flush)
    (sent : flushOf world event = some flush) (stored : BackgroundJob) :
    StatusLaw stored ((flushJob flush.copy flush.current).apply stored) ↔
      OpenFor flush.current.status stored.status := by
  rw [statusLaw_iff, flush_writes_status world event flush sent]
  unfold OpenFor
  rcases flushOf_shape world event flush sent with ⟨_, done⟩ | ⟨_, done⟩
  · have notCancelled : flush.current.status ≠ .cancelled := by
      rcases done with done | done | done <;> rw [done] <;> decide
    rw [if_neg notCancelled, finish_source stored.status flush.current.status done]
    exact or_congr_left eq_comm
  · rw [if_pos done, done, cancel_source]
    exact or_congr_left eq_comm

theorem flush_statusLaw_iff (world : World) (event : JobEvent) (flush : Flush)
    (sent : flushOf world event = some flush) :
    RowsStep StatusLaw world.db.jobs (flush.onto world.db.jobs) ↔
      ∀ stored ∈ world.db.jobs.rows, stored.id = flush.copy.loaded.id →
        OpenFor flush.current.status stored.status := by
  unfold Flush.onto flushCopy
  rw [rowsStep_updateWhere_iff]
  constructor
  · intro law stored member here
    have moved := law stored member
    unfold SetClause.onRow at moved
    rw [if_pos (by simpa using here)] at moved
    exact (statusLaw_flush_iff world event flush sent stored).mp moved
  · intro opened stored member
    refine SetClause.onRow_along _ _ stored (statusLaw_refl stored) fun hit => ?_
    exact (statusLaw_flush_iff world event flush sent stored).mpr
      (opened stored member (by simpa using hit))

theorem statusesKept_iff (world : World) (event : JobEvent) :
    StatusesKept world event ↔ FlushNotOvertaken world event := by
  unfold StatusesKept FlushNotOvertaken
  cases sent : flushOf world event with
  | none =>
    have plain := plainChange_statusLaw _ _ (step_jobs_of_no_flush world event sent)
    simpa using plain
  | some flush =>
    rw [step_jobs_of_flush world event flush sent,
      flush_statusLaw_iff world event flush sent]
    simp

/-- In a run from any state, every change of a stored status is an edge of the
transition table, and no terminal status is overwritten, if and only if no flush
of the run overtakes its row. -/
theorem statuses_kept_iff_no_flush_overtaken (world : World) (events : List JobEvent) :
    EveryStep step StatusesKept world events ↔
      EveryStep step FlushNotOvertaken world events :=
  everyStep_congr statusesKept_iff world events

/-- A job that is claimed between the load and the commit of an operator's
cancel: the row goes from running to cancelled, and the worker's completion then
overwrites the cancelled row. -/
def overtakenCancel : List JobEvent :=
  [ .insertQueued { jobType := "report.execute", orgId := some 7, idempotencyKey := "k" } "u" 0,
    .load (.operator 0) 1 false,
    .claimSelect (.worker 0) "w1" none 60 0 [],
    .claimUpdate (.worker 0),
    .load (.worker 0) 1 false,
    .cancel (.operator 0) 1 (some 42) 1,
    .complete (.worker 0) 1 2 ]

theorem overtaken_cancel_leaves_table :
    ¬ EveryStep step StatusesKept World.start overtakenCancel := by
  decide

/-! ## The request behind a row -/

/-- The columns of a row that no operation sets. -/
def asks (job : BackgroundJob) : String × Option Nat × Option JobPayload × Int × Int × Int :=
  (job.jobType, job.orgId, job.payload, job.payloadVersion, job.priority, job.maxAttempts)

/-- The row asks for what one of the enqueued requests asks for, under its key or that of a
chain of replays. -/
def Asked (events : List JobEvent) (job : BackgroundJob) : Prop :=
  ∃ request uuid now, .insertQueued request uuid now ∈ events ∧
    asks job = asks (newJob request uuid now) ∧
    ∃ replays : List String, job.idempotencyKey =
      replays.foldl (fun key suffix => key ++ ":replay:" ++ suffix) request.idempotencyKey

structure AllAsked (events : List JobEvent) (world : World) : Prop where
  rows : ∀ job ∈ world.db.jobs.rows, Asked events job
  copies : ∀ actor jobId copy, (world.sessions actor).copies jobId = some copy →
    Asked events copy.loaded

variable {events : List JobEvent} {world : World} {event : JobEvent}

theorem AllAsked.inserted (asked : AllAsked events world) (happens : event ∈ events)
    {row : BackgroundJob} (inserting : insertOf world event = some row) : Asked events row := by
  cases event with
  | insertQueued request uuid now =>
    cases inserting
    exact ⟨request, uuid, now, happens, rfl, [], rfl⟩
  | replay actor jobId actorId uuid suffix now =>
    obtain ⟨copy, held, made⟩ := Option.bind_eq_some_iff.mp inserting
    simp only [Option.ite_none_right_eq_some, Option.some.injEq] at made
    obtain ⟨_, rfl⟩ := made
    obtain ⟨request, first, time, sent, same, replays, key⟩ := asked.copies actor jobId copy held
    refine ⟨request, first, time, sent, same, replays ++ [suffix], ?_⟩
    simp [replayJob, key]
  | _ => simp [insertOf] at inserting

theorem AllAsked.step (asked : AllAsked events world) (happens : event ∈ events) :
    AllAsked events (step world event) := by
  -- no SET clause writes a column of the request
  have updated : ∀ (matched : BackgroundJob → Bool) (set : SetClause jobSchema),
      (∀ job, Asked events job → Asked events (set.apply job)) →
      ∀ job ∈ (world.db.jobs.updateWhere matched set).rows, Asked events job := by
    intro matched set keeps
    refine (forall_updateWhere_iff (Asked events) _ _ _).mpr fun job member => ?_
    exact SetClause.onRow_holds _ _ job (asked.rows job member) fun _ =>
      keeps job (asked.rows job member)
  refine ⟨?_, fun actor jobId copy held => ?_⟩
  · cases sent : flushOf world event with
    | some flush =>
      rw [step_jobs_of_flush world event flush sent]
      exact updated _ _ fun _ here => here
    | none =>
      cases inserting : insertOf world event with
      | some row =>
        have asksNew := asked.inserted happens inserting
        rw [step_jobs_of_insert world event row inserting]
        cases added : world.db.jobs.insert row with
        | none => exact asked.rows
        | some after =>
          obtain ⟨accepted, rfl⟩ := (insert_eq_some_iff _ _ _).mp added
          exact (forall_append_iff (Asked events) _ row accepted).mpr ⟨asked.rows, asksNew⟩
      | none =>
        have quiet := step_jobs_quiet world event sent inserting
        generalize (Sessions.step world event).db.jobs = after at quiet
        cases quiet with
        | same => exact asked.rows
        | purged olderThan =>
          exact fun job member => asked.rows job ((world.db.jobs.mem_deleteWhere _ job).mp member).1
        | claimed | renewed | promoted => exact updated _ _ fun _ here => here
  · have change := step_session world event actor
    generalize (Sessions.step world event).sessions actor = session at held change
    cases change with
    | kept _ _ copiesFrom =>
      rcases copiesFrom jobId copy held with before | ⟨stored, _⟩
      · exact asked.copies actor jobId copy before
      · exact asked.rows copy.loaded stored
    | ended | claimed => cases held

/-- However the sessions interleave, each stored job and each loaded copy is one that an enqueue
of the run has asked for, for the organization that has asked. -/
theorem stored_jobs_asked (events : List JobEvent) :
    AllAsked events (runEvents step World.start events) := by
  have every : EveryState step (AllAsked events) World.start events :=
    everyState_of_guard (fun _ _ asked happens => asked.step happens) _ events
      ⟨fun _ member => (nomatch member), fun _ _ _ held => (nomatch held)⟩
      (everyStep_of_forall _ events fun _ happens _ => happens)
  exact (everyState_iff_front _ events).mp every events [] (List.append_nil _).symm

end Ukip.Jobs.Transitions
