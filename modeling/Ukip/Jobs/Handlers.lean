import Ukip.Jobs.Envelope
import Ukip.Schedules.ImportDelivery
import Ukip.Schedules.ReportDelivery

/-!
# Handlers of the migrated domains

`jobs/handlers.py`: a handler reads its job's payload, stays without effect for a
shadow job or a schedule that is gone, and otherwise executes the schedule.  Nothing
in it or below it records that a job has been delivered before, so a run of deliveries
amounts to one exactly when one delivery does everything that counts.
-/

namespace Ukip.Jobs.Handlers

open Core.Clock Envelope Schedules.ImportDelivery Schedules.ReportDelivery Foundation.Redelivery

/-- `_mode`: a job without a mode counts as one of the queue. -/
def handlerMode (job : BackgroundJob) : JobMode :=
  (job.payload.bind JobPayload.mode).getD .queue

/-- The schedule a handler goes on to execute; `get` is the look-up by primary key. -/
def handlerTarget {Row : Type} (get : Nat → Option Row) (job : BackgroundJob) : Option Row :=
  if handlerMode job = .shadow then none
  else (job.payload.bind JobPayload.scheduleId).bind get

/-- `report_execute`, as one of the deliveries of `job`. -/
def reportExecute (reports : Nat → Option ReportSchedule) (job : BackgroundJob) :
    Nat → ReportEffects → ReportWork → ReportEvent → ReportEffects × ReportWork :=
  actReport (handlerTarget reports job)

/-- `import_execute`, as one of the deliveries of `job`. -/
def importExecute (imports : Nat → Option ImportSchedule) (job : BackgroundJob) :
    Nat → ImportEffects → ImportWork → ImportEvent → ImportEffects × ImportWork :=
  actImport (handlerTarget imports job)

/-- For every report and every import job, and for every interleaving of any number of
its deliveries, each of them lost or failed at any point: what a successful delivery
leaves behind together with the others is what it leaves alone if and only if it has
handed over all the mails, and has made all the last commits. -/
theorem handlers_deliver_as_once_iff (reports : Nat → Option ReportSchedule)
    (imports : Nat → Option ImportSchedule) (job : BackgroundJob) :
    (∀ totalSent events,
      AsOneDelivery (reportExecute reports job) ReportSucceeded observedReport
          (reportStart totalSent) events ↔
        MailedByOne (handlerTarget reports job) (reportStart totalSent) events) ∧
      ∀ totals mappings suggestions events,
        AsOneDelivery (importExecute imports job) ImportSucceeded observedImport
            (importStart totals mappings suggestions) events ↔
          CommittedByOne (handlerTarget imports job) (importStart totals mappings suggestions)
            events := by
  constructor
  · intro totalSent events
    exact report_asOneDelivery_iff (handlerTarget reports job) totalSent events
  · intro totals mappings suggestions events
    exact import_asOneDelivery_iff (handlerTarget imports job) totals mappings suggestions events

def scheduledJob (jobType idempotencyKey : String) : BackgroundJob where
  id := 1
  jobId := "u"
  jobType := jobType
  orgId := some 7
  idempotencyKey := idempotencyKey
  payloadVersion := 1
  payload := some { scheduleId := some 5, mode := some .queue, entityId := none }
  status := .running
  priority := 100
  attempt := 1
  maxAttempts := 3
  availableAt := 0
  leaseOwner := some "w"
  leaseExpiresAt := some (minutes 1)
  createdAt := 0
  startedAt := some 0

def deliveredTwice {Event : Type} (delivery : List Event) : List (Nat × Event) :=
  delivery.map (Prod.mk 0) ++ delivery.map (Prod.mk 1)

theorem redelivery_counts_twice :
    ¬ AsOneDelivery (reportExecute (fun id => some ⟨id, ["ops@example.org"]⟩)
          (scheduledJob "report.execute" "reports:5:adhoc")) ReportSucceeded observedReport (reportStart (some 0))
        (deliveredTwice [.begin, .load, .mail, .finish]) ∧
      ¬ AsOneDelivery (importExecute (fun id => some ⟨id, some 7, 3⟩)
          (scheduledJob "import.execute" "imports:5:adhoc")) ImportSucceeded observedImport
        (importStart ⟨some 0, some 0⟩ [] [])
        (deliveredTwice [.begin 0, .load (some ⟨some 7, true⟩), .fetch [], .profiled, .finish]) := by
  constructor
  · intro once
    exact absurd (once 0 (by decide)) (by decide)
  · intro once
    exact absurd (once 0 (by decide)) (by decide)

end Ukip.Jobs.Handlers
