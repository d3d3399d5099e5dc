import Ukip.Core.Clock
import Ukip.Foundation.SerialTable
import Ukip.Foundation.SqlTruth
import Ukip.Foundation.UnitOfWork

/-!
# Scheduled reports and imports

The columns of `models.ScheduledReport` and `models.ScheduledImport` that decide
when a schedule runs, and what each operation writes to them.  Both tables have
these columns; where the two routers differ, the kind decides.
-/

namespace Ukip.Schedules.Records

open Core.Clock Foundation.Relational Foundation.SqlTruth Foundation.UnitOfWork

inductive ScheduleKind where
  | reports
  | imports
  deriving DecidableEq

inductive RunStatus where
  | pending
  | running
  | success
  | error
  deriving DecidableEq

structure Schedule where
  id : Nat
  orgId : Option Nat
  intervalMinutes : Int
  isActive : Bool
  lastRunAt : Option Time
  nextRunAt : Option Time
  lastStatus : Option RunStatus
  deriving DecidableEq

def scheduleSchema : Schema Schedule where
  key := Schedule.id
  withKey value schedule := { schedule with id := value }
  key_withKey _ _ := rfl
  clash _ _ := false
  clash_comm _ _ := rfl
  clash_withKey _ _ _ := rfl

abbrev ScheduleTable := SerialTable scheduleSchema

def setSchedule (assign : Schedule → Schedule)
    (sameId : ∀ schedule, (assign schedule).id = schedule.id) : SetClause scheduleSchema where
  apply := assign
  key_apply := sameId
  clash_apply _ _ := rfl

/-- `last_status` of a new or reset schedule: the import router leaves the column
NULL. -/
def initialStatus : ScheduleKind → Option RunStatus
  | .reports => some .pending
  | .imports => none

def created (kind : ScheduleKind) (orgId : Option Nat) (intervalMinutes : Int) (now : Time) :
    Schedule where
  id := 0
  orgId := orgId
  intervalMinutes := intervalMinutes
  isActive := true
  lastRunAt := none
  nextRunAt := some (now + minutes intervalMinutes)
  lastStatus := initialStatus kind

structure SchedulePatch where
  intervalMinutes : Option Int := none
  isActive : Option Bool := none

def withInterval (now : Time) (interval : Option Int) (schedule : Schedule) : Schedule :=
  match interval with
  | none => schedule
  | some intervalMinutes =>
    { schedule with
      intervalMinutes := intervalMinutes
      nextRunAt := some (schedule.lastRunAt.getD now + minutes intervalMinutes) }

def withActive (now : Time) (isActive : Option Bool) (schedule : Schedule) : Schedule :=
  match isActive with
  | none => schedule
  | some active =>
    { schedule with
      isActive := active
      nextRunAt :=
        if active && schedule.nextRunAt.isNone then
          some (now + minutes schedule.intervalMinutes)
        else schedule.nextRunAt }

def updated (patch : SchedulePatch) (now : Time) (schedule : Schedule) : Schedule :=
  withActive now patch.isActive (withInterval now patch.intervalMinutes schedule)

/-- `_reset_workspace_counters_sql` -/
def resetCounters (kind : ScheduleKind) (schedule : Schedule) : Schedule :=
  { schedule with
    lastRunAt := none
    nextRunAt := none
    lastStatus := initialStatus kind }

/-- The first commit of `_execute_report` and `_execute_import`. -/
def started (now : Time) (schedule : Schedule) : Schedule :=
  { schedule with lastRunAt := some now, lastStatus := some .running }

/-- The last commit, on success and on error.  `next_run_at` is assigned an aware
timestamp, which never equals the naive one that was loaded, so it is always part
of the UPDATE. -/
def finished (copy : Schedule) (now : Time) (outcome : RunStatus) (stored : Schedule) :
    Schedule :=
  { stored with
    lastStatus := flushColumn copy.lastStatus (some outcome) stored.lastStatus
    nextRunAt := some (now + minutes copy.intervalMinutes) }

def isDue (now : Time) (schedule : Schedule) : Bool :=
  schedule.isActive &&
    selects (both (compare (fun next limit => next ≤ limit) schedule.nextRunAt (some now))
      (compare (fun status marker => status != marker) schedule.lastStatus (some .running)))

/-- `last_status` passes the filter: set, and not the running marker. -/
def StatusOpen (schedule : Schedule) : Prop :=
  schedule.lastStatus ≠ none ∧ schedule.lastStatus ≠ some .running

instance (schedule : Schedule) : Decidable (StatusOpen schedule) :=
  inferInstanceAs (Decidable (_ ∧ _))

theorem isDue_iff (now : Time) (schedule : Schedule) :
    isDue now schedule = true ↔
      schedule.isActive = true ∧ (∃ next, schedule.nextRunAt = some next ∧ next ≤ now) ∧
        StatusOpen schedule := by
  unfold isDue StatusOpen
  cases schedule.nextRunAt with
  | none => simp [selects_compare_null]
  | some next =>
    cases schedule.lastStatus with
    | none => simp [selects_compare_null]
    | some status => simp

/-- A schedule the loop picks up again, however late the clock is. -/
def EventuallyDue (schedule : Schedule) : Prop :=
  ∀ clock, ∃ later, clock ≤ later ∧ isDue later schedule = true

theorem eventuallyDue_iff (schedule : Schedule) :
    EventuallyDue schedule ↔
      schedule.isActive = true ∧ schedule.nextRunAt.isSome = true ∧ StatusOpen schedule := by
  constructor
  · intro due
    obtain ⟨later, _, selected⟩ := due 0
    obtain ⟨active, ⟨next, planned, _⟩, opened⟩ := (isDue_iff later schedule).mp selected
    exact ⟨active, by simp [planned], opened⟩
  · rintro ⟨active, planned, opened⟩ clock
    obtain ⟨next, nextIs⟩ := Option.isSome_iff_exists.mp planned
    refine ⟨max clock next, Int.le_max_left clock next, ?_⟩
    exact (isDue_iff _ schedule).mpr ⟨active, ⟨next, nextIs, Int.le_max_right clock next⟩, opened⟩

end Ukip.Schedules.Records
