import Ukip.Foundation.EventRun
import Ukip.Schedules.Records

/-!
# Which schedules the loop picks up again

Requests and executions share the two schedule tables.  An execution commits the
running marker, reloads its schedule, and commits its outcome through that copy;
an exception that escapes it or the loss of the process ends it in between.

`NotStranded` is the loop's promise: an active schedule that nobody is executing
passes the loop's filter at some later time.  `StepKeepsSelection` names, event by
event, when it survives.
-/

namespace Ukip.Schedules.Selection

open Core.Clock Records Foundation.Relational Foundation.Relational.SerialTable Foundation.EventRun
open Foundation.UnitOfWork

structure Execution where
  kind : ScheduleKind
  scheduleId : Nat
  /-- the clock at its start -/
  now : Time
  /-- the row as reloaded after the first commit -/
  copy : Option Schedule

structure World where
  table : ScheduleKind → ScheduleTable
  /-- executions in flight, each in a slot of its own -/
  executions : Nat → Option Execution

inductive ScheduleEvent where
  | create (kind : ScheduleKind) (orgId : Option Nat) (intervalMinutes : Int) (now : Time)
  | update (kind : ScheduleKind) (scheduleId : Nat) (patch : SchedulePatch) (now : Time)
  | delete (kind : ScheduleKind) (scheduleId : Nat)
  /-- the first commit of an execution: due, triggered by hand or from a job -/
  | start (slot : Nat) (kind : ScheduleKind) (scheduleId : Nat) (now : Time)
  | load (slot : Nat)
  /-- the last commit of an execution -/
  | finish (slot : Nat) (success : Bool)
  /-- an exception escapes the execution, or its thread is gone -/
  | interrupt (slot : Nat)
  /-- the process is lost and comes up again -/
  | restart
  | resetWorkspace (orgId : Option Nat)

namespace World

def start : World where
  table := fun _ => .empty scheduleSchema
  executions := fun _ => none

def withTable (world : World) (kind : ScheduleKind) (table : ScheduleTable) : World :=
  { world with table := Function.update world.table kind table }

def withSlot (world : World) (slot : Nat) (execution : Option Execution) : World :=
  { world with executions := Function.update world.executions slot execution }

variable (world : World)

@[simp] theorem withTable_table (kind : ScheduleKind) (table : ScheduleTable) :
    (world.withTable kind table).table = Function.update world.table kind table := rfl

@[simp] theorem withSlot_table (slot : Nat) (execution : Option Execution) :
    (world.withSlot slot execution).table = world.table := rfl

@[simp] theorem withSlot_executions (slot : Nat) (execution : Option Execution) :
    (world.withSlot slot execution).executions =
      Function.update world.executions slot execution := rfl

end World

def updateSchedule (table : ScheduleTable) (scheduleId : Nat) (assign : Schedule → Schedule)
    (sameId : ∀ schedule, (assign schedule).id = schedule.id) : ScheduleTable :=
  table.updateWhere (fun schedule => schedule.id == scheduleId) (setSchedule assign sameId)

variable (patch : SchedulePatch)

theorem updated_id (now : Time) (schedule : Schedule) :
    (updated patch now schedule).id = schedule.id := by
  obtain ⟨interval, active⟩ := patch
  cases interval <;> cases active <;> rfl

def outcomeStatus (success : Bool) : RunStatus := if success then .success else .error

def step (world : World) : ScheduleEvent → World
  | .create kind orgId intervalMinutes now =>
    match (world.table kind).insert (created kind orgId intervalMinutes now) with
    | some table => world.withTable kind table
    | none => world
  | .update kind scheduleId patch now =>
    world.withTable kind
      (updateSchedule (world.table kind) scheduleId (updated patch now) (updated_id patch now))
  | .delete kind scheduleId =>
    world.withTable kind
      ((world.table kind).deleteWhere fun schedule => schedule.id == scheduleId)
  | .start slot kind scheduleId now =>
    match world.executions slot, (world.table kind).get? scheduleId with
    | none, some _ =>
      (world.withTable kind
        (updateSchedule (world.table kind) scheduleId (started now) fun _ => rfl)).withSlot
          slot (some ⟨kind, scheduleId, now, none⟩)
    | _, _ => world
  | .load slot =>
    match world.executions slot with
    | some ⟨kind, scheduleId, now, none⟩ =>
      world.withSlot slot
        (some ⟨kind, scheduleId, now, (world.table kind).get? scheduleId⟩)
    | _ => world
  | .finish slot success =>
    match world.executions slot with
    | some ⟨kind, scheduleId, now, some copy⟩ =>
      (world.withTable kind
        (updateSchedule (world.table kind) scheduleId
          (finished copy now (outcomeStatus success)) fun _ => rfl)).withSlot slot none
    | _ => world
  | .interrupt slot => world.withSlot slot none
  | .restart => { world with executions := fun _ => none }
  | .resetWorkspace orgId =>
    { world with
      table := fun kind =>
        (world.table kind).updateWhere (fun schedule => schedule.orgId == orgId)
          (setSchedule (resetCounters kind) fun _ => rfl) }

def Executing (world : World) (kind : ScheduleKind) (scheduleId : Nat) : Prop :=
  ∃ slot execution, world.executions slot = some execution ∧ execution.kind = kind ∧
    execution.scheduleId = scheduleId

/-- An active schedule that is not being executed is selected at some later time. -/
def NotStranded (world : World) : Prop :=
  ∀ kind, ∀ schedule ∈ (world.table kind).rows, schedule.isActive = true →
    ¬ Executing world kind schedule.id → EventuallyDue schedule

def OnlyExecution (world : World) (slot : Nat) (execution : Execution) : Prop :=
  ∀ other second, world.executions other = some second → second.kind = execution.kind →
    second.scheduleId = execution.scheduleId → other = slot

def StepKeepsSelection (world : World) : ScheduleEvent → Prop
  -- an import schedule is created with a NULL status
  | .create kind _ _ _ => kind = .reports
  | .update kind scheduleId patch _ =>
    patch.isActive = some true → ∀ schedule ∈ (world.table kind).rows,
      schedule.id = scheduleId → schedule.isActive = false →
      ¬ Executing world kind scheduleId → StatusOpen schedule
  | .finish slot success =>
    ∀ execution copy, world.executions slot = some execution → execution.copy = some copy →
      -- the copy has the outcome's status already, so the flush leaves the column out
      copy.lastStatus = some (outcomeStatus success) → OnlyExecution world slot execution →
      ∀ schedule ∈ (world.table execution.kind).rows, schedule.id = execution.scheduleId →
        schedule.isActive = true → StatusOpen schedule
  | .interrupt slot =>
    ∀ execution, world.executions slot = some execution → OnlyExecution world slot execution →
      ∀ schedule ∈ (world.table execution.kind).rows, schedule.id = execution.scheduleId →
        schedule.isActive = true → schedule.nextRunAt.isSome = true ∧ StatusOpen schedule
  | .restart =>
    ∀ kind, ∀ schedule ∈ (world.table kind).rows, schedule.isActive = true →
      Executing world kind schedule.id →
      schedule.nextRunAt.isSome = true ∧ StatusOpen schedule
  | .resetWorkspace orgId =>
    ∀ kind, ∀ schedule ∈ (world.table kind).rows, schedule.orgId = orgId →
      schedule.isActive = true → Executing world kind schedule.id
  | _ => True

/-- Every execution is of a schedule whose id has been given out. -/
def ExecutionsIssued (world : World) : Prop :=
  ∀ slot execution, world.executions slot = some execution →
    execution.scheduleId < (world.table execution.kind).nextKey

variable (world : World) (slot : Nat)

theorem executing_withSlot_of_other (execution : Option Execution) (kind : ScheduleKind)
    (scheduleId other : Nat) (second : Execution) (different : other ≠ slot)
    (held : world.executions other = some second) (sameKind : second.kind = kind)
    (sameId : second.scheduleId = scheduleId) :
    Executing (world.withSlot slot execution) kind scheduleId :=
  ⟨other, second, by simpa [Function.update_of_ne different] using held, sameKind, sameId⟩

variable (kind : ScheduleKind)

theorem not_executing_cleared (scheduleId : Nat)
    (idle : ¬ Executing (world.withSlot slot none) kind scheduleId) (other : Nat)
    (second : Execution) (held : world.executions other = some second)
    (sameKind : second.kind = kind) (sameId : second.scheduleId = scheduleId) : other = slot := by
  by_contra different
  exact idle (executing_withSlot_of_other world slot none kind scheduleId other second different
    held sameKind sameId)

theorem executing_of_cleared (scheduleId : Nat)
    (executing : Executing (world.withSlot slot none) kind scheduleId) :
    ∃ other second, other ≠ slot ∧ world.executions other = some second ∧ second.kind = kind ∧
      second.scheduleId = scheduleId := by
  obtain ⟨other, second, held, sameKind, sameId⟩ := executing
  by_cases same : other = slot
  · subst same
    simp at held
  · exact ⟨other, second, same, by simpa [Function.update_of_ne same] using held, sameKind, sameId⟩

variable (table : ScheduleTable) (scheduleId : Nat) (assign : Schedule → Schedule)

theorem mem_updateSchedule (sameId : ∀ schedule, (assign schedule).id = schedule.id)
    (schedule : Schedule)
    (member : schedule ∈ (updateSchedule table scheduleId assign sameId).rows) :
    (schedule ∈ table.rows ∧ schedule.id ≠ scheduleId) ∨
      ∃ old ∈ table.rows, old.id = scheduleId ∧ schedule = assign old := by
  obtain ⟨old, oldMember, rfl⟩ := (mem_updateWhere _ _ _ schedule).mp member
  by_cases here : old.id = scheduleId
  · rw [SetClause.onRow, if_pos (by simpa using here)]
    exact .inr ⟨old, oldMember, here, rfl⟩
  · rw [SetClause.onRow, if_neg (by simpa using here)]
    exact .inl ⟨oldMember, here⟩

theorem updateSchedule_mem (sameId : ∀ schedule, (assign schedule).id = schedule.id)
    (old : Schedule) (member : old ∈ table.rows) (here : old.id = scheduleId) :
    assign old ∈ (updateSchedule table scheduleId assign sameId).rows := by
  refine (mem_updateWhere _ _ _ _).mpr ⟨old, member, ?_⟩
  rw [SetClause.onRow, if_pos (by simpa using here)]
  rfl

variable (now : Time) (schedule : Schedule)

theorem updated_lastStatus :
    (updated patch now schedule).lastStatus = schedule.lastStatus := by
  obtain ⟨interval, active⟩ := patch
  cases interval <;> cases active <;> rfl

theorem withInterval_planned (interval : Option Int) (schedule : Schedule)
    (planned : schedule.nextRunAt.isSome = true) :
    (withInterval now interval schedule).nextRunAt.isSome = true := by
  cases interval with
  | none => exact planned
  | some minutes => rfl

theorem activated_planned :
    (withActive now (some true) schedule).nextRunAt.isSome = true := by
  cases planned : schedule.nextRunAt <;> simp [withActive, planned]

theorem updated_planned (active : (updated patch now schedule).isActive = true)
    (planned : schedule.isActive = true → schedule.nextRunAt.isSome = true) :
    (updated patch now schedule).nextRunAt.isSome = true := by
  obtain ⟨interval, isActive⟩ := patch
  cases isActive with
  | none =>
    have before : schedule.isActive = true := by cases interval <;> exact active
    exact withInterval_planned now interval schedule (planned before)
  | some chosen =>
    cases chosen with
    | false => cases interval <;> cases active
    | true => exact activated_planned now _

theorem updated_active (inactive : schedule.isActive = false) :
    (updated patch now schedule).isActive = true ↔ patch.isActive = some true := by
  obtain ⟨interval, isActive⟩ := patch
  cases isActive with
  | none => cases interval <;> simp [updated, withActive, withInterval, inactive]
  | some chosen => cases interval <;> simp [updated, withActive, withInterval]

/-- The promise for the rows of one table. -/
def Promise (world : World) (kind : ScheduleKind) (table : ScheduleTable) : Prop :=
  ∀ schedule ∈ table.rows, schedule.isActive = true →
    ¬ Executing world kind schedule.id → EventuallyDue schedule

theorem notStranded_withTable_iff (holds : NotStranded world) :
    NotStranded (world.withTable kind table) ↔ Promise world kind table := by
  constructor
  · intro after schedule member active idle
    exact after kind schedule (by simpa using member) active idle
  · intro promise other schedule member active idle
    by_cases same : other = kind
    · subst same
      exact promise schedule (by simpa using member) active idle
    · rw [World.withTable_table, Function.update_of_ne same] at member
      exact holds other schedule member active idle

theorem created_accepted :
    table.rejects schedule = false := by
  rw [rejects, List.any_eq_false]
  intro stored _ clash
  cases clash

theorem create_keeps_iff (orgId : Option Nat) (intervalMinutes : Int) (now : Time)
    (issued : ExecutionsIssued world) (holds : NotStranded world) :
    NotStranded (step world (.create kind orgId intervalMinutes now)) ↔ kind = .reports := by
  have accepted := created_accepted (world.table kind) (created kind orgId intervalMinutes now)
  have inserted : (world.table kind).insert (created kind orgId intervalMinutes now) =
      some ((world.table kind).append _ accepted) := by
    rw [insert_eq_some_iff]
    exact ⟨accepted, rfl⟩
  simp only [step, inserted]
  rw [notStranded_withTable_iff world kind _ holds]
  constructor
  · intro promise
    have unexecuted : ¬ Executing world kind (world.table kind).nextKey := by
      rintro ⟨slot, execution, held, rfl, sameId⟩
      have := issued slot execution held
      omega
    have due := promise ((world.table kind).keyed (created kind orgId intervalMinutes now))
      ((mem_append _ _ _ accepted).mpr (.inr rfl)) rfl unexecuted
    have opened := ((eventuallyDue_iff _).mp due).2.2
    cases kind with
    | reports => rfl
    | imports => exact absurd rfl opened.1
  · rintro rfl schedule member active idle
    rcases (mem_append _ _ _ accepted).mp member with old | rfl
    · exact holds .reports schedule old active idle
    · have opened : StatusOpen ((world.table .reports).keyed
          (created .reports orgId intervalMinutes now)) :=
        ⟨show some RunStatus.pending ≠ none by decide,
          show some RunStatus.pending ≠ some .running by decide⟩
      exact (eventuallyDue_iff _).mpr ⟨rfl, rfl, opened⟩

theorem update_keeps_iff (patch : SchedulePatch) (now : Time) (holds : NotStranded world) :
    NotStranded (step world (.update kind scheduleId patch now)) ↔
      StepKeepsSelection world (.update kind scheduleId patch now) := by
  simp only [step]
  rw [notStranded_withTable_iff world kind _ holds]
  constructor
  · intro promise activates schedule member here inactive idle
    have active := (updated_active patch now schedule inactive).mpr activates
    have due := promise (updated patch now schedule)
      (updateSchedule_mem _ _ _ _ schedule member here) active
      (by rw [updated_id, here]; exact idle)
    have opened := ((eventuallyDue_iff _).mp due).2.2
    unfold StatusOpen at opened ⊢
    rwa [updated_lastStatus] at opened
  · intro safe schedule member active idle
    rcases mem_updateSchedule _ _ _ _ schedule member with ⟨old, _⟩ | ⟨old, oldMember, here, rfl⟩
    · exact holds kind schedule old active idle
    · have idleOld : ¬ Executing world kind old.id := by rwa [updated_id] at idle
      have wasDue : old.isActive = true →
          old.nextRunAt.isSome = true ∧ StatusOpen old := fun before =>
        ((eventuallyDue_iff old).mp (holds kind old oldMember before idleOld)).2
      refine (eventuallyDue_iff _).mpr
        ⟨active, updated_planned patch now old active fun before => (wasDue before).1, ?_⟩
      unfold StatusOpen
      rw [updated_lastStatus]
      by_cases before : old.isActive = true
      · exact (wasDue before).2
      · have inactive : old.isActive = false := by simpa using before
        exact safe ((updated_active patch now old inactive).mp active) old oldMember here inactive
          (here ▸ idleOld)

theorem start_keeps (holds : NotStranded world) :
    NotStranded (step world (.start slot kind scheduleId now)) := by
  simp only [step]
  split
  · rename_i free _
    have stays : ∀ other otherId, Executing world other otherId →
        Executing ((world.withTable kind (updateSchedule (world.table kind) scheduleId
          (started now) fun _ => rfl)).withSlot slot (some ⟨kind, scheduleId, now, none⟩))
          other otherId := by
      rintro other otherId ⟨used, execution, held, sameKind, sameId⟩
      have different : used ≠ slot := by
        rintro rfl
        rw [free] at held
        cases held
      exact executing_withSlot_of_other _ slot _ other otherId used execution different held
        sameKind sameId
    intro other schedule member active idle
    have idleBefore : ¬ Executing world other schedule.id := fun executing =>
      idle (stays other schedule.id executing)
    by_cases same : other = kind
    · subst same
      rw [World.withSlot_table, World.withTable_table, Function.update_self] at member
      rcases mem_updateSchedule _ _ _ _ schedule member with ⟨old, _⟩ | ⟨old, _, here, rfl⟩
      · exact holds other schedule old active idleBefore
      · refine absurd ?_ idle
        exact ⟨slot, ⟨other, scheduleId, now, none⟩, by simp, rfl, here.symm⟩
    · rw [World.withSlot_table, World.withTable_table, Function.update_of_ne same] at member
      exact holds other schedule member active idleBefore
  · exact holds

theorem load_keeps (holds : NotStranded world) :
    NotStranded (step world (.load slot)) := by
  simp only [step]
  split
  · rename_i kind scheduleId now held
    intro other schedule member active idle
    apply holds other schedule member active
    rintro ⟨used, execution, usedBy, sameKind, sameId⟩
    by_cases same : used = slot
    · subst same
      rw [held] at usedBy
      cases Option.some.inj usedBy
      exact idle ⟨used, ⟨kind, scheduleId, now, (world.table kind).get? scheduleId⟩, by simp,
        sameKind, sameId⟩
    · exact idle (executing_withSlot_of_other world slot _ other schedule.id used execution same
        usedBy sameKind sameId)
  · exact holds

theorem outcome_open (success : Bool) (schedule : Schedule)
    (written : schedule.lastStatus = some (outcomeStatus success)) : StatusOpen schedule := by
  unfold StatusOpen
  rw [written]
  cases success <;> decide

variable (execution : Execution)

theorem idle_before (held : world.executions slot = some execution) (kind : ScheduleKind)
    (scheduleId : Nat) (idle : ¬ Executing (world.withSlot slot none) kind scheduleId)
    (elsewhere : ¬ (execution.kind = kind ∧ execution.scheduleId = scheduleId)) :
    ¬ Executing world kind scheduleId := by
  rintro ⟨other, second, otherHeld, sameKind, sameId⟩
  have same := not_executing_cleared world slot kind scheduleId idle other second otherHeld
    sameKind sameId
  subst same
  rw [held] at otherHeld
  cases Option.some.inj otherHeld
  exact elsewhere ⟨sameKind, sameId⟩

theorem only_of_idle
    (idle : ¬ Executing (world.withSlot slot none) execution.kind execution.scheduleId) :
    OnlyExecution world slot execution :=
  fun other second held sameKind sameId =>
    not_executing_cleared world slot execution.kind execution.scheduleId idle other second held
      sameKind sameId

theorem idle_of_only (only : OnlyExecution world slot execution) :
    ¬ Executing (world.withSlot slot none) execution.kind execution.scheduleId := by
  intro executing
  obtain ⟨other, second, different, held, sameKind, sameId⟩ :=
    executing_of_cleared world slot execution.kind execution.scheduleId executing
  exact different (only other second held sameKind sameId)

theorem interrupt_keeps_iff (holds : NotStranded world) :
    NotStranded (step world (.interrupt slot)) ↔ StepKeepsSelection world (.interrupt slot) := by
  constructor
  · intro after execution held only schedule member here active
    have due := after execution.kind schedule member active
      (by rw [here]; exact idle_of_only world slot execution only)
    exact ((eventuallyDue_iff schedule).mp due).2
  · intro safe kind schedule member active idle
    by_cases executing : Executing world kind schedule.id
    · obtain ⟨other, execution, held, rfl, here⟩ := executing
      have same := not_executing_cleared world slot execution.kind schedule.id idle other execution
        held rfl here
      subst same
      refine (eventuallyDue_iff schedule).mpr ⟨active, safe execution held ?_ schedule member
        here.symm active⟩
      exact only_of_idle world other execution (by rw [here]; exact idle)
    · exact holds kind schedule member active executing

theorem restart_keeps_iff (holds : NotStranded world) :
    NotStranded (step world .restart) ↔ StepKeepsSelection world .restart := by
  have idle : ∀ kind scheduleId, ¬ Executing (step world .restart) kind scheduleId := by
    rintro kind scheduleId ⟨slot, execution, held, _⟩
    cases held
  constructor
  · intro after kind schedule member active _
    exact ((eventuallyDue_iff schedule).mp (after kind schedule member active (idle _ _))).2
  · intro safe kind schedule member active _
    by_cases executing : Executing world kind schedule.id
    · exact (eventuallyDue_iff schedule).mpr ⟨active, safe kind schedule member active executing⟩
    · exact holds kind schedule member active executing

theorem reset_keeps_iff (orgId : Option Nat) (holds : NotStranded world) :
    NotStranded (step world (.resetWorkspace orgId)) ↔
      StepKeepsSelection world (.resetWorkspace orgId) := by
  constructor
  · intro after kind schedule member inScope active
    by_contra idle
    have reset : resetCounters kind schedule ∈
        ((step world (.resetWorkspace orgId)).table kind).rows := by
      refine (mem_updateWhere _ _ _ _).mpr ⟨schedule, member, ?_⟩
      rw [SetClause.onRow, if_pos (by simpa using inScope)]
      rfl
    have due := after kind _ reset active idle
    have planned := ((eventuallyDue_iff _).mp due).2.1
    simp [resetCounters] at planned
  · intro safe kind schedule member active idle
    obtain ⟨old, oldMember, rfl⟩ := (mem_updateWhere _ _ _ schedule).mp member
    by_cases inScope : old.orgId = orgId
    · rw [SetClause.onRow, if_pos (by simpa using inScope)] at active idle ⊢
      exact absurd (safe kind old oldMember inScope active) idle
    · rw [SetClause.onRow, if_neg (by simpa using inScope)] at active idle ⊢
      exact holds kind old oldMember active idle

theorem finish_keeps_iff (success : Bool) (holds : NotStranded world) :
    NotStranded (step world (.finish slot success)) ↔
      StepKeepsSelection world (.finish slot success) := by
  cases held : world.executions slot with
  | none =>
    refine iff_of_true (by simpa only [step, held] using holds) ?_
    intro execution copy heldBy
    rw [held] at heldBy
    cases heldBy
  | some execution =>
    obtain ⟨kind, scheduleId, now, loaded⟩ := execution
    cases loaded with
    | none =>
      refine iff_of_true (by simpa only [step, held] using holds) ?_
      intro execution copy heldBy unloaded
      rw [held] at heldBy
      cases Option.some.inj heldBy
      cases unloaded
    | some copy =>
      simp only [step, held]
      constructor
      · intro after execution found heldBy loaded sameStatus only schedule member here active
        rw [held] at heldBy
        cases Option.some.inj heldBy
        cases Option.some.inj loaded
        have stored : finished copy now (outcomeStatus success) schedule ∈
            (((world.withTable kind (updateSchedule (world.table kind) scheduleId
              (finished copy now (outcomeStatus success)) fun _ => rfl)).withSlot slot
                none).table kind).rows := by
          rw [World.withSlot_table, World.withTable_table, Function.update_self]
          exact updateSchedule_mem _ _ _ _ schedule member here
        have due := after kind _ stored active (by
          have idle := idle_of_only world slot ⟨kind, scheduleId, now, some copy⟩ only
          rwa [← here] at idle)
        have opened := ((eventuallyDue_iff _).mp due).2.2
        unfold StatusOpen at opened ⊢
        simpa [finished, sameStatus] using opened
      · intro safe other schedule member active idle
        by_cases same : other = kind
        · subst same
          rw [World.withSlot_table, World.withTable_table, Function.update_self] at member
          rcases mem_updateSchedule _ _ _ _ schedule member with
            ⟨old, elsewhere⟩ | ⟨old, oldMember, here, rfl⟩
          · apply holds other schedule old active
            exact idle_before world slot _ held other schedule.id idle
              fun both => elsewhere both.2.symm
          · have idleOld : ¬ Executing (world.withSlot slot none) other scheduleId :=
              here ▸ idle
            refine (eventuallyDue_iff _).mpr ⟨active, rfl, ?_⟩
            by_cases sameStatus : copy.lastStatus = some (outcomeStatus success)
            · have opened := safe ⟨other, scheduleId, now, some copy⟩ copy held rfl sameStatus
                (only_of_idle world slot _ idleOld) old oldMember here active
              unfold StatusOpen at opened ⊢
              simpa [finished, sameStatus] using opened
            · exact outcome_open success _ (flushColumn_changed (Ne.symm sameStatus) _)
        · rw [World.withSlot_table, World.withTable_table, Function.update_of_ne same] at member
          apply holds other schedule member active
          exact idle_before world slot _ held other schedule.id idle
            fun both => same both.1.symm

theorem step_keeps_iff (event : ScheduleEvent) (issued : ExecutionsIssued world)
    (holds : NotStranded world) :
    NotStranded (step world event) ↔ StepKeepsSelection world event := by
  cases event with
  | create kind orgId intervalMinutes now =>
    exact create_keeps_iff world kind orgId intervalMinutes now issued holds
  | update kind scheduleId patch now => exact update_keeps_iff world kind scheduleId patch now holds
  | delete kind scheduleId =>
    refine iff_of_true ((notStranded_withTable_iff world kind _ holds).mpr ?_) trivial
    intro schedule member
    exact holds kind schedule ((mem_deleteWhere _ _ schedule).mp member).1
  | start slot kind scheduleId now =>
    exact iff_of_true (start_keeps world slot kind scheduleId now holds) trivial
  | load slot => exact iff_of_true (load_keeps world slot holds) trivial
  | finish slot success => exact finish_keeps_iff world slot success holds
  | interrupt slot => exact interrupt_keeps_iff world slot holds
  | restart => exact restart_keeps_iff world holds
  | resetWorkspace orgId => exact reset_keeps_iff world orgId holds

theorem executionsIssued_withTable (grown : (world.table kind).nextKey ≤ table.nextKey)
    (issued : ExecutionsIssued world) :
    ExecutionsIssued (world.withTable kind table) := by
  intro slot execution held
  have below := issued slot execution held
  by_cases same : execution.kind = kind
  · rw [World.withTable_table, same, Function.update_self]
    rw [same] at below
    omega
  · rw [World.withTable_table, Function.update_of_ne same]
    exact below

theorem executionsIssued_withSlot (execution : Option Execution) (issued : ExecutionsIssued world)
    (new : ∀ given, execution = some given → given.scheduleId < (world.table given.kind).nextKey) :
    ExecutionsIssued (world.withSlot slot execution) := by
  intro other second held
  by_cases same : other = slot
  · subst same
    rw [World.withSlot_executions, Function.update_self] at held
    exact new second held
  · rw [World.withSlot_executions, Function.update_of_ne same] at held
    exact issued other second held

theorem step_executionsIssued (event : ScheduleEvent) (issued : ExecutionsIssued world) :
    ExecutionsIssued (step world event) := by
  cases event with
  | create kind orgId intervalMinutes now =>
    simp only [step]
    split
    · rename_i table inserted
      obtain ⟨accepted, rfl⟩ := (insert_eq_some_iff _ _ _).mp inserted
      exact executionsIssued_withTable world kind _ (Nat.le_succ _) issued
    · exact issued
  | update kind scheduleId patch now =>
    exact executionsIssued_withTable world kind _ (Nat.le_refl _) issued
  | delete kind scheduleId => exact executionsIssued_withTable world kind _ (Nat.le_refl _) issued
  | start slot kind scheduleId now =>
    simp only [step]
    split
    · rename_i schedule _ found
      apply executionsIssued_withSlot
      · exact executionsIssued_withTable world kind _ (Nat.le_refl _) issued
      · intro given same
        cases same
        obtain ⟨member, here⟩ := ((world.table kind).get?_eq_some_iff scheduleId schedule).mp found
        rw [World.withTable_table, Function.update_self]
        exact here ▸ (world.table kind).key_lt schedule member
    · exact issued
  | load slot =>
    simp only [step]
    split
    · rename_i kind scheduleId now held
      apply executionsIssued_withSlot world slot _ issued
      intro given same
      cases same
      exact issued slot ⟨kind, scheduleId, now, none⟩ held
    · exact issued
  | finish slot success =>
    simp only [step]
    split
    · apply executionsIssued_withSlot
      · exact executionsIssued_withTable world _ _ (Nat.le_refl _) issued
      · intro given same
        cases same
    · exact issued
  | interrupt slot =>
    apply executionsIssued_withSlot world slot none issued
    intro given same
    cases same
  | restart =>
    intro slot execution held
    cases held
  | resetWorkspace orgId => exact issued

/-- From any state in which no schedule is stranded, a run strands none if and only
if each of its events meets the condition. -/
theorem not_stranded_iff_steps_keep_selection (world : World) (events : List ScheduleEvent)
    (issued : ExecutionsIssued world) (holds : NotStranded world) :
    EveryState step NotStranded world events ↔ EveryStep step StepKeepsSelection world events :=
  everyState_iff_everyStep_within step_executionsIssued step_keeps_iff world events issued holds

theorem start_not_stranded : NotStranded World.start := by
  intro kind schedule member
  simp [World.start, SerialTable.empty] at member

theorem start_executionsIssued : ExecutionsIssued World.start := by
  intro slot execution held
  cases held

/-- A report is created, runs once and succeeds. -/
theorem report_cycle_not_stranded :
    EveryState step NotStranded World.start
      [.create .reports none 60 0, .start 0 .reports 1 (minutes 60), .load 0, .finish 0 true] := by
  refine (not_stranded_iff_steps_keep_selection World.start _ start_executionsIssued
    start_not_stranded).mpr ⟨rfl, trivial, trivial, ?_, trivial⟩
  intro execution copy held loaded sameStatus
  cases Option.some.inj held
  cases Option.some.inj loaded
  cases sameStatus

/-- A new import schedule has a NULL status, which the filter never lets through. -/
theorem created_import_stranded :
    ¬ EveryState step NotStranded World.start [.create .imports none 60 0] := by
  rintro ⟨_, after⟩
  have reports := (create_keeps_iff World.start .imports none 60 0 start_executionsIssued
    start_not_stranded).mp after
  cases reports

end Ukip.Schedules.Selection
