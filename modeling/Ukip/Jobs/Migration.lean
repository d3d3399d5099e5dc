import Ukip.Foundation.Separated
import Ukip.Jobs.Service

/-!
# Migration of the in-process domains to the queue

`jobs/migration.py`: the mode of a domain decides whether an occurrence is
enqueued, executed in process, or both.  The idempotency key of an occurrence is
built from the domain, the schedule and the occurrence's time.
-/

namespace Ukip.Jobs.Migration

open Core.Clock Envelope Service Foundation.Separated Foundation.Relational.SerialTable

inductive MigratedDomain where
  | reports
  | imports
  | enrichment

def domainName : MigratedDomain → String
  | .reports => "reports"
  | .imports => "imports"
  | .enrichment => "enrichment"

def domainJobType : MigratedDomain → String
  | .reports => "report.execute"
  | .imports => "import.execute"
  | .enrichment => "enrichment.execute"

def shouldRunInprocess (mode : JobMode) : Bool := mode == .off || mode == .shadow

def shouldEnqueue (mode : JobMode) : Bool := mode == .shadow || mode == .queue

/-- A Python datetime; its UTC offset text is empty when it is naive. -/
structure Occurrence where
  time : Time
  offset : String

def occurrenceText : Option Occurrence → String
  | none => "adhoc"
  | some occurrence => isoformat occurrence.offset (withoutMicroseconds occurrence.time)

/-- `{domain}:{schedule_id}:{occ}` -/
def occurrenceKey (domain : MigratedDomain) (scheduleId : Nat) (occurrence : Option Occurrence) :
    String :=
  domainName domain ++ ":" ++ Nat.repr scheduleId ++ ":" ++ occurrenceText occurrence

def occurrenceRequest (domain : MigratedDomain) (scheduleId : Nat) (orgId : Option Nat)
    (occurrence : Option Occurrence) (mode : JobMode) (entityId : Option Nat) : EnqueueRequest where
  jobType := domainJobType domain
  orgId := orgId
  idempotencyKey := occurrenceKey domain scheduleId occurrence
  payload := some { scheduleId := some scheduleId, mode := some mode, entityId := entityId }
  correlationId := some (domainName domain ++ ":" ++ Nat.repr scheduleId)

/-- `none` when the mode does not enqueue. -/
def enqueueOccurrence (jobs : JobTable) (domain : MigratedDomain) (scheduleId : Nat)
    (orgId : Option Nat) (occurrence : Option Occurrence) (mode : JobMode)
    (entityId : Option Nat) (uuid : String) (now : Time) :
    Option (Except JobError (JobTable × BackgroundJob)) :=
  if shouldEnqueue mode then
    some (enqueue jobs (occurrenceRequest domain scheduleId orgId occurrence mode entityId) uuid now)
  else none

def bestEffort (jobs : JobTable)
    (outcome : Option (Except JobError (JobTable × BackgroundJob))) : JobTable :=
  match outcome with
  | some (.ok (after, _)) => after
  | _ => jobs

theorem occurrenceKey_schedule (domain : MigratedDomain) (first second : Nat)
    (firstOccurrence secondOccurrence : Option Occurrence)
    (same : occurrenceKey domain first firstOccurrence =
      occurrenceKey domain second secondOccurrence) : first = second := by
  have texts := congrArg String.toList same
  simp only [occurrenceKey, String.toList_append, List.append_assoc] at texts
  have after := List.append_cancel_left (List.append_cancel_left texts)
  apply repr_injective
  have colonPlain : ∀ value : Nat, ':' ∉ (Nat.repr value).toList := not_mem_repr (by decide)
  exact (eq_of_first_split (colonPlain first) (colonPlain second) after).1

theorem occurrenceKey_ne_empty (domain : MigratedDomain) (scheduleId : Nat)
    (occurrence : Option Occurrence) : occurrenceKey domain scheduleId occurrence ≠ "" := by
  intro empty
  have texts := congrArg String.toList empty
  cases domain <;> simp [occurrenceKey, domainName] at texts

/-- Some row is stored under the request's triple. -/
def KeyHeld (jobs : JobTable) (request : EnqueueRequest) : Prop :=
  ∃ job ∈ jobs.rows, idempotencyColumns job = (request.orgId, request.jobType,
    request.idempotencyKey)

variable (jobs : JobTable) (request : EnqueueRequest)

theorem findByKey_isSome_iff :
    (findByKey jobs request.orgId request.jobType request.idempotencyKey).isSome = true ↔
      KeyHeld jobs request := by
  unfold findByKey KeyHeld
  rw [List.find?_isSome]
  simp

theorem accepted_of_not_held (uuid : String) (now : Time) (free : ¬ KeyHeld jobs request) :
    jobs.rejects (newJob request uuid now) = false := by
  rw [rejects, List.any_eq_false]
  intro job member clash
  exact free ⟨job, member, ((idempotencyClash_iff job (newJob request uuid now)).mp clash).2⟩

theorem enqueue_cases (uuid : String) (now : Time) (keyed : request.idempotencyKey ≠ "") :
    (KeyHeld jobs request ∧ ∃ existing, enqueue jobs request uuid now = .ok (jobs, existing)) ∨
      (¬ KeyHeld jobs request ∧ ∃ accepted : jobs.rejects (newJob request uuid now) = false,
        enqueue jobs request uuid now =
          .ok (jobs.append _ accepted, jobs.keyed (newJob request uuid now))) := by
  unfold enqueue
  rw [if_neg keyed]
  cases found : findByKey jobs request.orgId request.jobType request.idempotencyKey with
  | some existing =>
    exact .inl ⟨(findByKey_isSome_iff jobs request).mp (by rw [found]; rfl), existing, rfl⟩
  | none =>
    right
    have free : ¬ KeyHeld jobs request := by
      intro held
      have present := (findByKey_isSome_iff jobs request).mpr held
      rw [found] at present
      cases present
    have accepted := accepted_of_not_held jobs request uuid now free
    refine ⟨free, accepted, ?_⟩
    have inserted : jobs.insert (newJob request uuid now) = some (jobs.append _ accepted) :=
      (insert_eq_some_iff _ _ _).mpr ⟨accepted, rfl⟩
    rw [inserted]

section QueueMode

variable (jobs : JobTable) (domain : MigratedDomain) (scheduleId : Nat) (orgId : Option Nat)
  (occurrence : Option Occurrence) (entityId : Option Nat) (uuid : String) (now : Time)

theorem bestEffort_cases :
    (KeyHeld jobs (occurrenceRequest domain scheduleId orgId occurrence .queue entityId) ∧
        bestEffort jobs (enqueueOccurrence jobs domain scheduleId orgId occurrence .queue
          entityId uuid now) = jobs) ∨
      (¬ KeyHeld jobs (occurrenceRequest domain scheduleId orgId occurrence .queue entityId) ∧
        ∃ accepted : jobs.rejects (newJob (occurrenceRequest domain scheduleId orgId occurrence
            .queue entityId) uuid now) = false,
          bestEffort jobs (enqueueOccurrence jobs domain scheduleId orgId occurrence .queue
            entityId uuid now) = jobs.append _ accepted) := by
  have keyed : (occurrenceRequest domain scheduleId orgId occurrence .queue
      entityId).idempotencyKey ≠ "" := occurrenceKey_ne_empty _ _ _
  have sent : enqueueOccurrence jobs domain scheduleId orgId occurrence .queue entityId uuid now =
      some (enqueue jobs (occurrenceRequest domain scheduleId orgId occurrence .queue entityId)
        uuid now) := rfl
  rw [sent]
  rcases enqueue_cases jobs _ uuid now keyed with ⟨held, existing, found⟩ | ⟨free, accepted, stored⟩
  · exact .inl ⟨held, by rw [found]; rfl⟩
  · exact .inr ⟨free, accepted, by rw [stored]; rfl⟩

theorem keyHeld_bestEffort (otherId : Nat) (otherOrg : Option Nat)
    (otherOccurrence : Option Occurrence) (otherEntity : Option Nat)
    (different : scheduleId ≠ otherId) :
    KeyHeld (bestEffort jobs (enqueueOccurrence jobs domain scheduleId orgId occurrence .queue
        entityId uuid now))
        (occurrenceRequest domain otherId otherOrg otherOccurrence .queue otherEntity) ↔
      KeyHeld jobs
        (occurrenceRequest domain otherId otherOrg otherOccurrence .queue otherEntity) := by
  rcases bestEffort_cases jobs domain scheduleId orgId occurrence entityId uuid now with
    ⟨_, same⟩ | ⟨_, accepted, stored⟩
  · rw [same]
  · rw [stored]
    constructor
    · rintro ⟨job, member, columns⟩
      rcases (mem_append _ _ job accepted).mp member with old | rfl
      · exact ⟨job, old, columns⟩
      · have keys := congrArg (fun triple => triple.2.2) columns
        exact absurd (occurrenceKey_schedule _ _ _ _ _ keys) different
    · rintro ⟨job, member, columns⟩
      exact ⟨job, (mem_append _ _ job accepted).mpr (.inl member), columns⟩

end QueueMode

end Ukip.Jobs.Migration
