import Ukip.Jobs.Producers

/-!
# Enqueue inside a caller's transaction

A producer calls `enqueue` in a transaction of its own, with changes that it has not committed
yet.  The table is read three times, and other sessions commit in between: the look-up, the
INSERT, and behind an integrity error the second look-up.  The rollback in front of the last one
is the session's, not the INSERT's.
-/

namespace Ukip.Jobs.LostRace

open Core.Clock Envelope
open Jobs.Producers (requestColumns)
open Service Foundation.Relational Foundation.Relational.SerialTable

variable {Change : Type}

/-- What a session has not committed: the jobs that it has enqueued, and every other change. -/
structure Transaction (Change : Type) where
  jobs : List BackgroundJob
  changes : List Change

def Transaction.empty : Transaction Change := ⟨[], []⟩

/-- The committed jobs that each of the three statements meets. -/
structure Observed where
  checked : JobTable
  inserted : JobTable
  rechecked : JobTable

/-- `_find_by_key` over the committed jobs and the transaction's own. -/
def findByKey (jobs : JobTable) (transaction : Transaction Change) (request : EnqueueRequest) :
    Option BackgroundJob :=
  (jobs.rows ++ transaction.jobs).find? fun job => idempotencyColumns job == requestColumns request

def refuses (jobs : JobTable) (transaction : Transaction Change) (job : BackgroundJob) : Bool :=
  jobs.rejects job || transaction.jobs.any fun stored => idempotencyClash stored job

/-- `enqueue`, with what it leaves uncommitted. -/
def enqueue (transaction : Transaction Change) (observed : Observed) (request : EnqueueRequest)
    (uuid : String) (now : Time) : Except JobError BackgroundJob × Transaction Change :=
  if request.idempotencyKey = "" then (.error .keyRequired, transaction)
  else
    match findByKey observed.checked transaction request with
    | some existing => (.ok existing, transaction)
    | none =>
      let job := newJob request uuid now
      if refuses observed.inserted transaction job then
        -- db.rollback()
        match findByKey observed.rechecked (Transaction.empty : Transaction Change) request with
        | some dup => (.ok dup, .empty)
        | none => (.error .integrity, .empty)
      else
        let stored := observed.inserted.keyed job
        (.ok stored, { transaction with jobs := transaction.jobs ++ [stored] })

theorem enqueue_alone (jobs : JobTable) (request : EnqueueRequest) (uuid : String) (now : Time) :
    (enqueue (Transaction.empty : Transaction Change) ⟨jobs, jobs, jobs⟩ request uuid now).1 =
      (Service.enqueue jobs request uuid now).map Prod.snd := by
  have lookUp : findByKey jobs (Transaction.empty : Transaction Change) request =
      Service.findByKey jobs request.orgId request.jobType request.idempotencyKey := by
    unfold findByKey Service.findByKey
    rw [Transaction.empty, List.append_nil]
    rfl
  have refused : refuses jobs (Transaction.empty : Transaction Change) (newJob request uuid now) =
      jobs.rejects (newJob request uuid now) := by
    simp [refuses, Transaction.empty]
  unfold enqueue Service.enqueue
  simp only [lookUp, refused]
  by_cases unkeyed : request.idempotencyKey = ""
  · rw [if_pos unkeyed, if_pos unkeyed]
    rfl
  · rw [if_neg unkeyed, if_neg unkeyed]
    cases found : Service.findByKey jobs request.orgId request.jobType request.idempotencyKey with
    | some existing => rfl
    | none =>
      cases inserted : jobs.insert (newJob request uuid now) with
      | some after =>
        obtain ⟨accepted, _⟩ := (insert_eq_some_iff _ _ _).mp inserted
        simp only [accepted]
        rfl
      | none =>
        have rejected := (insert_eq_none_iff _ _).mp inserted
        simp only [rejected]
        rfl

/-- The look-up finds nothing, and the INSERT is refused all the same. -/
structure Lost (transaction : Transaction Change) (observed : Observed) (request : EnqueueRequest)
    (uuid : String) (now : Time) : Prop where
  keyed : request.idempotencyKey ≠ ""
  unseen : findByKey observed.checked transaction request = none
  refused : refuses observed.inserted transaction (newJob request uuid now) = true

/-- The job that has won the race is still there at the second look-up. -/
def WinnerStored (observed : Observed) (request : EnqueueRequest) : Prop :=
  ∃ job ∈ observed.rechecked.rows, idempotencyColumns job = requestColumns request

theorem enqueue_of_lost {transaction : Transaction Change} {observed : Observed}
    {request : EnqueueRequest} {uuid : String} {now : Time}
    (lost : Lost transaction observed request uuid now) :
    (enqueue transaction observed request uuid now).2 = .empty ∧
      ((∃ existing ∈ observed.rechecked.rows, idempotencyColumns existing = requestColumns request ∧
          (enqueue transaction observed request uuid now).1 = .ok existing) ↔
        WinnerStored observed request) := by
  unfold enqueue
  rw [if_neg lost.keyed, lost.unseen]
  dsimp only
  rw [if_pos lost.refused]
  cases found : findByKey observed.rechecked (Transaction.empty : Transaction Change) request with
  | some dup =>
    have stored : dup ∈ observed.rechecked.rows := by
      simpa [Transaction.empty] using List.mem_of_find?_eq_some found
    have columns : idempotencyColumns dup = requestColumns request := by
      simpa using List.find?_some found
    exact ⟨rfl, iff_of_true ⟨dup, stored, columns, rfl⟩ ⟨dup, stored, columns⟩⟩
  | none =>
    refine ⟨rfl, iff_of_false ?_ ?_⟩
    · rintro ⟨_, _, _, wrong⟩
      cases wrong
    · rintro ⟨job, stored, columns⟩
      have member : job ∈ observed.rechecked.rows ++ (Transaction.empty : Transaction Change).jobs :=
        List.mem_append_left _ stored
      exact absurd (beq_iff_eq.mpr columns) (List.find?_eq_none.mp found job member)

/-- A call that loses the race returns the existing job and leaves its caller's transaction as
it was, exactly if there is still a job to return and nothing in the transaction. -/
theorem lost_race_harmless_iff (transaction : Transaction Change) (observed : Observed)
    (request : EnqueueRequest) (uuid : String) (now : Time)
    (lost : Lost transaction observed request uuid now) :
    ((∃ existing ∈ observed.rechecked.rows, idempotencyColumns existing = requestColumns request ∧
        (enqueue transaction observed request uuid now).1 = .ok existing) ∧
      (enqueue transaction observed request uuid now).2 = transaction) ↔
    WinnerStored observed request ∧ transaction.jobs = [] ∧ transaction.changes = [] := by
  obtain ⟨undone, returned⟩ := enqueue_of_lost lost
  rw [returned, undone]
  constructor
  · rintro ⟨stored, rfl⟩
    exact ⟨stored, rfl, rfl⟩
  · rintro ⟨stored, noJobs, noChanges⟩
    obtain ⟨jobs, changes⟩ := transaction
    cases noJobs
    cases noChanges
    exact ⟨stored, rfl⟩

def report : EnqueueRequest :=
  { jobType := "report.execute", orgId := some 7, idempotencyKey := "k" }

def overtaken : Observed where
  checked := .empty jobSchema
  inserted := ((SerialTable.empty jobSchema).insert (newJob report "u1" 0)).getD (.empty jobSchema)
  rechecked := ((SerialTable.empty jobSchema).insert (newJob report "u1" 0)).getD (.empty jobSchema)

theorem overtaken_lost (transaction : Transaction Change) (noJobs : transaction.jobs = []) :
    Lost transaction overtaken report "u2" 0 := by
  refine ⟨by decide, ?_, ?_⟩
  · unfold findByKey
    rw [noJobs]
    decide
  · unfold refuses
    rw [noJobs]
    decide

theorem lost_race_harmless_iff_empty :
    ((∃ existing ∈ overtaken.rechecked.rows, idempotencyColumns existing = requestColumns report ∧
        (enqueue (Transaction.empty : Transaction String) overtaken report "u2" 0).1 =
          .ok existing) ∧
      (enqueue (Transaction.empty : Transaction String) overtaken report "u2" 0).2 = .empty) ↔
    WinnerStored overtaken report ∧ (Transaction.empty : Transaction String).jobs = [] ∧
      (Transaction.empty : Transaction String).changes = [] :=
  lost_race_harmless_iff .empty overtaken report "u2" 0 (overtaken_lost .empty rfl)

/-- The caller gets the job of the other session, and its own change is gone. -/
theorem change_lost_with_the_race :
    let transaction : Transaction String := ⟨[], ["schedule.last_run_at"]⟩
    Lost transaction overtaken report "u2" 0 ∧
      ((enqueue transaction overtaken report "u2" 0).1.map BackgroundJob.jobId) = .ok "u1" ∧
      (enqueue transaction overtaken report "u2" 0).2.changes = [] ∧
      (enqueue transaction overtaken report "u2" 0).2 ≠ transaction := by
  have lost : Lost (⟨[], ["schedule.last_run_at"]⟩ : Transaction String) overtaken report "u2" 0 :=
    overtaken_lost _ rfl
  have undone := (enqueue_of_lost lost).1
  refine ⟨lost, by decide, by rw [undone]; rfl, fun same => ?_⟩
  have changes := congrArg Transaction.changes (undone.symm.trans same)
  cases changes

end Ukip.Jobs.LostRace
