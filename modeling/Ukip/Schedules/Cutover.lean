import Ukip.Jobs.Migration
import Ukip.Jobs.Sessions
import Ukip.Schedules.Selection

/-!
# Schedules of a domain in queue mode

The scheduler loop only enqueues: one job per due schedule, under a key built from
its `next_run_at`, and that column moves only when a job's handler runs to its
end.  A pass of the loop therefore leaves a due schedule without an open job
exactly when the filter passes it over, or a row that is over still holds the key
of its occurrence.
-/

namespace Ukip.Schedules.Cutover

open Core.Clock Jobs.States Jobs.Envelope Jobs.Service Jobs.Migration
open Jobs.Sessions (JobEvent)
open Records
open Schedules.Selection (ScheduleEvent)
open Foundation.Relational.SerialTable Foundation.EventRun

structure CutoverWorld where
  jobs : Jobs.Sessions.World
  schedules : Schedules.Selection.World

inductive CutoverEvent where
  | job (event : JobEvent)
  | schedule (event : ScheduleEvent)
  /-- a pass of a domain's scheduler loop; `uuid` gives each new job its id -/
  | tick (kind : ScheduleKind) (now : Time) (uuid : Nat → String)

def CutoverWorld.start : CutoverWorld where
  jobs := .start
  schedules := .start

def scheduleDomain : ScheduleKind → MigratedDomain
  | .reports => .reports
  | .imports => .imports

/-- What `dispatch_due` enqueues; the column holds naive timestamps. -/
def dispatchRequest (kind : ScheduleKind) (mode : JobMode) (schedule : Schedule) :
    EnqueueRequest :=
  occurrenceRequest (scheduleDomain kind) schedule.id schedule.orgId
    (schedule.nextRunAt.map fun next => ⟨next, ""⟩) mode none

/-- `dispatch_due`: the job table after it, and whether it goes on to execute the
schedule in process.  A failing enqueue is rolled back and logged. -/
def dispatchDue (kind : ScheduleKind) (mode : JobMode) (jobs : JobTable) (schedule : Schedule)
    (uuid : String) (now : Time) : JobTable × Bool :=
  (bestEffort jobs (enqueueOccurrence jobs (scheduleDomain kind) schedule.id schedule.orgId
    (schedule.nextRunAt.map fun next => ⟨next, ""⟩) mode none uuid now),
    shouldRunInprocess mode)

def dispatchAll (kind : ScheduleKind) (mode : JobMode) (uuid : Nat → String) (now : Time) :
    List Schedule → JobTable → JobTable
  | [], jobs => jobs
  | schedule :: rest, jobs =>
    dispatchAll kind mode uuid now rest
      (dispatchDue kind mode jobs schedule (uuid schedule.id) now).1

def dueSchedules (cutover : CutoverWorld) (kind : ScheduleKind) (now : Time) : List Schedule :=
  (cutover.schedules.table kind).rows.filter (isDue now)

def step (cutover : CutoverWorld) : CutoverEvent → CutoverWorld
  | .job event => { cutover with jobs := Jobs.Sessions.step cutover.jobs event }
  | .schedule event =>
    { cutover with schedules := Schedules.Selection.step cutover.schedules event }
  | .tick kind now uuid =>
    { cutover with
      jobs := cutover.jobs.withJobs
        (dispatchAll kind .queue uuid now (dueSchedules cutover kind now) cutover.jobs.db.jobs) }

def JobFor (kind : ScheduleKind) (scheduleId : Nat) (job : BackgroundJob) : Prop :=
  job.jobType = domainJobType (scheduleDomain kind) ∧
    job.payload.bind JobPayload.scheduleId = some scheduleId

/-- A non-terminal job for the schedule is stored. -/
def OpenJob (jobs : JobTable) (kind : ScheduleKind) (scheduleId : Nat) : Prop :=
  ∃ job ∈ jobs.rows, JobFor kind scheduleId job ∧ isTerminal job.status = false

def PastDue (now : Time) (schedule : Schedule) : Prop :=
  schedule.isActive = true ∧ ∃ next, schedule.nextRunAt = some next ∧ next ≤ now

/-- After a pass, every active schedule whose `next_run_at` is past has an open
job. -/
def TickCoversDue (cutover : CutoverWorld) (event : CutoverEvent) : Prop :=
  ∀ kind now uuid, event = .tick kind now uuid →
    ∀ schedule ∈ (cutover.schedules.table kind).rows, PastDue now schedule →
      OpenJob (step cutover event).jobs.db.jobs kind schedule.id

/-- Each such schedule has an open job before the pass; or the filter selects it
and no stored row holds the key of its occurrence. -/
def DueIsFree (cutover : CutoverWorld) (event : CutoverEvent) : Prop :=
  ∀ kind now uuid, event = .tick kind now uuid →
    ∀ schedule ∈ (cutover.schedules.table kind).rows, PastDue now schedule →
      OpenJob cutover.jobs.db.jobs kind schedule.id ∨
        (StatusOpen schedule ∧
          ¬ KeyHeld cutover.jobs.db.jobs (dispatchRequest kind .queue schedule))

variable (kind : ScheduleKind) (jobs : JobTable) (schedule : Schedule) (uuid : String) (now : Time)

theorem dispatchDue_cases :
    (KeyHeld jobs (dispatchRequest kind .queue schedule) ∧
        dispatchDue kind .queue jobs schedule uuid now = (jobs, false)) ∨
      (¬ KeyHeld jobs (dispatchRequest kind .queue schedule) ∧
        ∃ accepted : jobs.rejects
            (newJob (dispatchRequest kind .queue schedule) uuid now) = false,
          dispatchDue kind .queue jobs schedule uuid now = (jobs.append _ accepted, false)) := by
  rcases bestEffort_cases jobs (scheduleDomain kind) schedule.id schedule.orgId
    (schedule.nextRunAt.map fun next => ⟨next, ""⟩) none uuid now with
    ⟨held, same⟩ | ⟨free, accepted, stored⟩
  · exact .inl ⟨held, Prod.ext same rfl⟩
  · exact .inr ⟨free, accepted, Prod.ext stored rfl⟩

theorem dispatched_row (scheduleId : Nat) :
    JobFor kind scheduleId
        (jobs.keyed (newJob (dispatchRequest kind .queue schedule) uuid now)) ↔
      schedule.id = scheduleId := by
  constructor
  · rintro ⟨_, named⟩
    exact Option.some.inj named
  · rintro rfl
    exact ⟨rfl, rfl⟩

theorem openJob_dispatchDue (scheduleId : Nat) :
    OpenJob (dispatchDue kind .queue jobs schedule uuid now).1 kind scheduleId ↔
      OpenJob jobs kind scheduleId ∨
        (schedule.id = scheduleId ∧ ¬ KeyHeld jobs (dispatchRequest kind .queue schedule)) := by
  rcases dispatchDue_cases kind jobs schedule uuid now with
    ⟨held, same⟩ | ⟨free, accepted, stored⟩
  · rw [same]
    constructor
    · exact .inl
    · rintro (before | ⟨_, free⟩)
      · exact before
      · exact absurd held free
  · rw [stored]
    constructor
    · rintro ⟨job, member, isFor, unfinished⟩
      rcases (mem_append _ _ job accepted).mp member with old | rfl
      · exact .inl ⟨job, old, isFor, unfinished⟩
      · exact .inr ⟨(dispatched_row kind jobs schedule uuid now scheduleId).mp isFor, free⟩
    · rintro (⟨job, member, rest⟩ | ⟨here, _⟩)
      · exact ⟨job, (mem_append _ _ job accepted).mpr (.inl member), rest⟩
      · exact ⟨_, (mem_append _ _ _ accepted).mpr (.inr rfl),
          (dispatched_row kind jobs schedule uuid now scheduleId).mpr here, rfl⟩

theorem keyHeld_dispatchDue (schedule other : Schedule) (uuid : String) (now : Time)
    (different : schedule.id ≠ other.id) :
    KeyHeld (dispatchDue kind .queue jobs schedule uuid now).1 (dispatchRequest kind .queue other) ↔
      KeyHeld jobs (dispatchRequest kind .queue other) := by
  exact keyHeld_bestEffort jobs (scheduleDomain kind) schedule.id schedule.orgId _ none uuid now
    other.id other.orgId _ none different

theorem openJob_dispatchAll (uuid : Nat → String) (now : Time) (due : List Schedule)
    (jobs : JobTable) (scheduleId : Nat)
    (distinct : due.Pairwise fun first second => first.id ≠ second.id) :
    OpenJob (dispatchAll kind .queue uuid now due jobs) kind scheduleId ↔
      OpenJob jobs kind scheduleId ∨ ∃ schedule ∈ due, schedule.id = scheduleId ∧
        ¬ KeyHeld jobs (dispatchRequest kind .queue schedule) := by
  induction due generalizing jobs with
  | nil => simp [dispatchAll]
  | cons schedule rest ih =>
    obtain ⟨apart, restDistinct⟩ := List.pairwise_cons.mp distinct
    rw [dispatchAll, ih _ restDistinct, openJob_dispatchDue]
    have sameKeys : ∀ other ∈ rest,
        (KeyHeld (dispatchDue kind .queue jobs schedule (uuid schedule.id) now).1
            (dispatchRequest kind .queue other) ↔
          KeyHeld jobs (dispatchRequest kind .queue other)) := fun other member =>
      keyHeld_dispatchDue kind jobs schedule other _ now (apart other member)
    constructor
    · rintro ((before | ⟨here, free⟩) | ⟨other, member, here, free⟩)
      · exact .inl before
      · exact .inr ⟨schedule, List.mem_cons_self, here, free⟩
      · exact .inr ⟨other, List.mem_cons_of_mem schedule member, here,
          fun held => free ((sameKeys other member).mpr held)⟩
    · rintro (before | ⟨other, member, here, free⟩)
      · exact .inl (.inl before)
      · rcases List.mem_cons.mp member with rfl | later
        · exact .inl (.inr ⟨here, free⟩)
        · exact .inr ⟨other, later, here, fun held => free ((sameKeys other later).mp held)⟩

theorem isDue_of_pastDue (schedule : Schedule) (past : PastDue now schedule) :
    isDue now schedule = true ↔ StatusOpen schedule := by
  rw [isDue_iff]
  constructor
  · exact fun due => due.2.2
  · exact fun opened => ⟨past.1, past.2, opened⟩

theorem openJob_tick (cutover : CutoverWorld) (kind : ScheduleKind) (now : Time) (uuid : Nat → String)
    (schedule : Schedule) (member : schedule ∈ (cutover.schedules.table kind).rows)
    (past : PastDue now schedule) :
    OpenJob (step cutover (.tick kind now uuid)).jobs.db.jobs kind schedule.id ↔
      OpenJob cutover.jobs.db.jobs kind schedule.id ∨
        (StatusOpen schedule ∧
          ¬ KeyHeld cutover.jobs.db.jobs (dispatchRequest kind .queue schedule)) := by
  have distinct : (dueSchedules cutover kind now).Pairwise
      fun first second => first.id ≠ second.id :=
    (cutover.schedules.table kind).distinct.filter _
  have pass := openJob_dispatchAll kind uuid now (dueSchedules cutover kind now)
    cutover.jobs.db.jobs schedule.id distinct
  refine Iff.trans pass (or_congr_right ?_)
  constructor
  · rintro ⟨selected, selectedMember, here, free⟩
    obtain ⟨selectedRow, due⟩ := List.mem_filter.mp selectedMember
    have same : selected = schedule :=
      (cutover.schedules.table kind).eq_of_key_eq selectedRow member here
    subst same
    exact ⟨(isDue_of_pastDue now selected past).mp due, free⟩
  · rintro ⟨opened, free⟩
    exact ⟨schedule, List.mem_filter.mpr
      ⟨member, (isDue_of_pastDue now schedule past).mpr opened⟩, rfl, free⟩

theorem tickCoversDue_iff (cutover : CutoverWorld) (event : CutoverEvent) :
    TickCoversDue cutover event ↔ DueIsFree cutover event := by
  constructor
  · intro covers kind now uuid same schedule member past
    subst same
    exact (openJob_tick cutover kind now uuid schedule member past).mp
      (covers kind now uuid rfl schedule member past)
  · intro free kind now uuid same schedule member past
    subst same
    exact (openJob_tick cutover kind now uuid schedule member past).mpr
      (free kind now uuid rfl schedule member past)

/-- In a run from any state, every pass leaves an open job for each active schedule
whose `next_run_at` is past, if and only if each of them has one already, or is
selected with the key of its occurrence free. -/
theorem passes_cover_due_iff_due_free (cutover : CutoverWorld) (events : List CutoverEvent) :
    EveryStep step TickCoversDue cutover events ↔ EveryStep step DueIsFree cutover events :=
  everyStep_congr tickCoversDue_iff cutover events

/-- An operator cancels the job of a due report: the next pass finds the key held by
the cancelled row. -/
def cancelledOccurrence : List CutoverEvent :=
  [ .schedule (.create .reports (some 7) 60 0),
    .tick .reports (minutes 60) (fun _ => "u"),
    .job (.load (.operator 0) 1 false),
    .job (.cancel (.operator 0) 1 (some 42) (minutes 61)) ]

theorem cancelled_occurrence_lost :
    ¬ EveryStep step TickCoversDue CutoverWorld.start
      (cancelledOccurrence ++ [.tick .reports (minutes 62) (fun _ => "v")]) := by
  intro every
  obtain ⟨_, last, _⟩ := (everyStep_append _ _ _).mp every
  have stored : { created .reports (some 7) 60 0 with id := 1 } ∈
      ((runEvents step CutoverWorld.start cancelledOccurrence).schedules.table .reports).rows := by decide
  obtain ⟨job, member, _, unfinished⟩ := last .reports (minutes 62) _ rfl _ stored
    ⟨rfl, minutes 60, rfl, by decide⟩
  have ended : ∀ row ∈ (step (runEvents step CutoverWorld.start cancelledOccurrence)
      (.tick .reports (minutes 62) (fun _ => "v"))).jobs.db.jobs.rows,
      isTerminal row.status = true := by decide
  rw [ended job member] at unfinished
  cases unfinished

end Ukip.Schedules.Cutover
