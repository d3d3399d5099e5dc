import Ukip.Foundation.EventRun
import Ukip.Jobs.Service

/-!
# Concurrent producers

`enqueue` taken apart into its statements: the look-up, the INSERT, and after an
integrity error the rollback with a second look-up.  Producers run these in
transactions of their own, of which each sees the committed rows and its own; an
INSERT that clashes with a row of another open transaction waits for it.

A rollback inside `enqueue` takes with it every job the transaction had enqueued
before, and a NULL `org_id` never clashes.  These are the two ways one key comes
to two rows or a producer to a job that is not stored
(`one_row_received_iff_inserts_safe`).
-/

namespace Ukip.Jobs.Producers

open Core.Clock Envelope Service Foundation.Relational Foundation.Relational.SerialTable
open Foundation.EventRun

/-- Where a producer is in `enqueue`. -/
inductive Stage where
  /-- between two calls -/
  | ready
  /-- the look-up found no row -/
  | checked (request : EnqueueRequest)
  /-- integrity error, rolled back -/
  | refused (request : EnqueueRequest)

abbrev KeyColumns := Option Nat × String × String

/-- What a call of `enqueue` returned. -/
structure Receipt where
  columns : KeyColumns
  jobId : Nat

structure Producer where
  stage : Stage
  received : List Receipt

structure ProducerWorld where
  jobs : JobTable
  /-- the producer whose open transaction wrote the row of this id -/
  writer : Nat → Option Nat
  producers : Nat → Producer

inductive ProducerEvent where
  | check (producer : Nat) (request : EnqueueRequest)
  | insert (producer : Nat) (uuid : String) (now : Time)
  | recheck (producer : Nat)
  | commit (producer : Nat)
  /-- the caller gives its transaction up, or its connection is lost -/
  | rollback (producer : Nat)

def requestColumns (request : EnqueueRequest) : KeyColumns :=
  (request.orgId, request.jobType, request.idempotencyKey)

namespace ProducerWorld

def start : ProducerWorld where
  jobs := .empty jobSchema
  writer := fun _ => none
  producers := fun _ => { stage := .ready, received := [] }

def own (world : ProducerWorld) (producer : Nat) (job : BackgroundJob) : Bool :=
  world.writer job.id == some producer

def visible (world : ProducerWorld) (producer : Nat) (job : BackgroundJob) : Bool :=
  world.writer job.id == none || world.own producer job

/-- `_find_by_key` in the producer's transaction. -/
def lookUp (world : ProducerWorld) (producer : Nat) (request : EnqueueRequest) :
    Option BackgroundJob :=
  world.jobs.rows.find? fun job =>
    world.visible producer job && idempotencyColumns job == requestColumns request

def blocked (world : ProducerWorld) (producer : Nat) (job : BackgroundJob) : Bool :=
  world.jobs.rows.any fun stored => idempotencyClash stored job && !world.visible producer stored

def enter (world : ProducerWorld) (producer : Nat) (stage : Stage) : ProducerWorld :=
  { world with
    producers := Function.update world.producers producer
      { world.producers producer with stage := stage } }

def receive (world : ProducerWorld) (producer : Nat) (receipt : Receipt) : ProducerWorld :=
  { world with
    producers := Function.update world.producers producer
      { stage := .ready, received := receipt :: (world.producers producer).received } }

def undo (world : ProducerWorld) (producer : Nat) : ProducerWorld :=
  { world with jobs := world.jobs.deleteWhere (world.own producer) }

def stored (world : ProducerWorld) (producer : Nat) (jobs : JobTable) : ProducerWorld :=
  { world with
    jobs := jobs
    writer := Function.update world.writer world.jobs.nextKey (some producer) }

end ProducerWorld

def step (world : ProducerWorld) : ProducerEvent → ProducerWorld
  | .check producer request =>
    match (world.producers producer).stage with
    | .ready =>
      if request.idempotencyKey = "" then world
      else
        match world.lookUp producer request with
        | some job => world.receive producer ⟨requestColumns request, job.id⟩
        | none => world.enter producer (.checked request)
    | _ => world
  | .insert producer uuid now =>
    match (world.producers producer).stage with
    | .checked request =>
      if world.blocked producer (newJob request uuid now) then world
      else
        match world.jobs.insert (newJob request uuid now) with
        | some jobs =>
          (world.stored producer jobs).receive producer
            ⟨requestColumns request, world.jobs.nextKey⟩
        | none => (world.undo producer).enter producer (.refused request)
    | _ => world
  | .recheck producer =>
    match (world.producers producer).stage with
    | .refused request =>
      match world.lookUp producer request with
      | some job => world.receive producer ⟨requestColumns request, job.id⟩
      -- the integrity error is raised again
      | none => world.enter producer .ready
    | _ => world
  | .commit producer =>
    match (world.producers producer).stage with
    | .ready =>
      { world with
        writer := fun jobId =>
          if world.writer jobId = some producer then none else world.writer jobId }
    | _ => world
  | .rollback producer =>
    { world.undo producer with
      producers := Function.update world.producers producer
        { stage := .ready
          received := (world.producers producer).received.filter fun receipt =>
            world.writer receipt.jobId != some producer } }

/-- One row to a key, and every call has been given that row: what was received
is stored, and a second look-up will find the row that refused the INSERT. -/
structure OneRowReceived (world : ProducerWorld) : Prop where
  unique : ∀ first ∈ world.jobs.rows, ∀ second ∈ world.jobs.rows,
    idempotencyColumns first = idempotencyColumns second → first = second
  received : ∀ producer, ∀ receipt ∈ (world.producers producer).received,
    ∃ job ∈ world.jobs.rows, job.id = receipt.jobId ∧ idempotencyColumns job = receipt.columns
  answered : ∀ producer request, (world.producers producer).stage = .refused request →
    (world.lookUp producer request).isSome = true

/-- An INSERT with a NULL `org_id` meets no row under its key, and one that is
refused rolls back no earlier job of its transaction. -/
def InsertSafe (world : ProducerWorld) (event : ProducerEvent) : Prop :=
  ∀ producer uuid now request, event = .insert producer uuid now →
    (world.producers producer).stage = .checked request →
    (request.orgId = none →
      ∀ job ∈ world.jobs.rows, idempotencyColumns job ≠ requestColumns request) ∧
    (world.blocked producer (newJob request uuid now) = false →
      world.jobs.rejects (newJob request uuid now) = true →
      ∀ job ∈ world.jobs.rows, world.own producer job = false)

structure Bookkeeping (world : ProducerWorld) : Prop where
  issued : ∀ producer, ∀ receipt ∈ (world.producers producer).received,
    receipt.jobId < world.jobs.nextKey
  seen : ∀ producer, ∀ receipt ∈ (world.producers producer).received,
    ∀ job ∈ world.jobs.rows, job.id = receipt.jobId → world.visible producer job = true
  recorded : ∀ producer, ∀ job ∈ world.jobs.rows, world.own producer job = true →
    ∃ receipt ∈ (world.producers producer).received, receipt.jobId = job.id
  unwritten : ∀ producer request, (world.producers producer).stage = .checked request →
    ∀ job ∈ world.jobs.rows, world.own producer job = true →
      idempotencyColumns job ≠ requestColumns request
  committed : ∀ producer request, (world.producers producer).stage = .refused request →
    ∃ job ∈ world.jobs.rows, world.writer job.id = none ∧
      idempotencyColumns job = requestColumns request

theorem start_bookkeeping : Bookkeeping ProducerWorld.start := by
  constructor
  · intro producer receipt member
    simp [ProducerWorld.start] at member
  · intro producer receipt member
    simp [ProducerWorld.start] at member
  · intro producer job member
    simp [ProducerWorld.start, SerialTable.empty] at member
  · intro producer request stage
    simp [ProducerWorld.start] at stage
  · intro producer request stage
    simp [ProducerWorld.start] at stage

theorem start_oneRowReceived : OneRowReceived ProducerWorld.start := by
  constructor
  · intro first member
    simp [ProducerWorld.start, SerialTable.empty] at member
  · intro producer receipt member
    simp [ProducerWorld.start] at member
  · intro producer request stage
    simp [ProducerWorld.start] at stage

variable (world : ProducerWorld) (producer : Nat) (request : EnqueueRequest) (job : BackgroundJob)

theorem lookUp_eq_some (found : world.lookUp producer request = some job) :
    job ∈ world.jobs.rows ∧ world.visible producer job = true ∧
      idempotencyColumns job = requestColumns request := by
  have holds := List.find?_some found
  simp only [Bool.and_eq_true, beq_iff_eq] at holds
  exact ⟨List.mem_of_find?_eq_some found, holds.1, holds.2⟩

theorem lookUp_eq_none (absent : world.lookUp producer request = none) (job : BackgroundJob)
    (member : job ∈ world.jobs.rows) (sees : world.visible producer job = true) :
    idempotencyColumns job ≠ requestColumns request := by
  have misses := List.find?_eq_none.mp absent job member
  intro same
  simp [sees, same] at misses

theorem lookUp_isSome (member : job ∈ world.jobs.rows) (sees : world.visible producer job = true)
    (same : idempotencyColumns job = requestColumns request) :
    (world.lookUp producer request).isSome = true := by
  cases found : world.lookUp producer request with
  | some _ => rfl
  | none => exact absurd same (lookUp_eq_none world producer request found job member sees)

theorem answered_of_bookkeeping (books : Bookkeeping world) (producer : Nat)
    (request : EnqueueRequest) (stage : (world.producers producer).stage = .refused request) :
    (world.lookUp producer request).isSome = true := by
  obtain ⟨job, member, free, same⟩ := books.committed producer request stage
  exact lookUp_isSome world producer request job member
    (by simp [ProducerWorld.visible, free]) same

theorem visible_of_own (owned : world.own producer job = true) :
    world.visible producer job = true := by
  simp [ProducerWorld.visible, owned]

theorem enter_received (producer other : Nat) (stage : Stage) :
    ((world.enter producer stage).producers other).received = (world.producers other).received := by
  by_cases same : other = producer
  · subst same
    simp [ProducerWorld.enter]
  · simp [ProducerWorld.enter, Function.update_of_ne same]

theorem enter_stage (producer other : Nat) (stage entered : Stage)
    (now : ((world.enter producer stage).producers other).stage = entered) :
    (other = producer ∧ stage = entered) ∨ (world.producers other).stage = entered := by
  by_cases same : other = producer
  · subst same
    left
    simpa [ProducerWorld.enter] using now
  · right
    simpa [ProducerWorld.enter, Function.update_of_ne same] using now

variable (receipt : Receipt)

theorem receive_producers :
    (world.receive producer receipt).producers =
      Function.update world.producers producer
        { stage := .ready, received := receipt :: (world.producers producer).received } := rfl

theorem receive_received (producer other : Nat) (receipt found : Receipt)
    (member : found ∈ ((world.receive producer receipt).producers other).received) :
    (other = producer ∧ found = receipt) ∨ found ∈ (world.producers other).received := by
  by_cases same : other = producer
  · subst same
    rw [receive_producers, Function.update_self] at member
    rcases List.mem_cons.mp member with new | old
    · exact .inl ⟨rfl, new⟩
    · exact .inr old
  · rw [receive_producers, Function.update_of_ne same] at member
    exact .inr member

theorem receive_keeps (producer other : Nat) (receipt found : Receipt)
    (member : found ∈ (world.producers other).received) :
    found ∈ ((world.receive producer receipt).producers other).received := by
  by_cases same : other = producer
  · subst same
    rw [receive_producers, Function.update_self]
    exact List.mem_cons_of_mem receipt member
  · rw [receive_producers, Function.update_of_ne same]
    exact member

theorem receive_adds :
    receipt ∈ ((world.receive producer receipt).producers producer).received := by
  rw [receive_producers, Function.update_self]
  exact List.mem_cons_self

theorem receive_stage (producer other : Nat) (receipt : Receipt) (entered : Stage)
    (notReady : entered ≠ .ready)
    (now : ((world.receive producer receipt).producers other).stage = entered) :
    other ≠ producer ∧ (world.producers other).stage = entered := by
  by_cases same : other = producer
  · subst same
    rw [receive_producers, Function.update_self] at now
    exact absurd now.symm notReady
  · rw [receive_producers, Function.update_of_ne same] at now
    exact ⟨same, now⟩

theorem bookkeeping_enter (stage : Stage) (books : Bookkeeping world)
    (checked : ∀ request, stage = .checked request → ∀ job ∈ world.jobs.rows,
      world.own producer job = true → idempotencyColumns job ≠ requestColumns request)
    (refused : ∀ request, stage = .refused request → ∃ job ∈ world.jobs.rows,
      world.writer job.id = none ∧ idempotencyColumns job = requestColumns request) :
    Bookkeeping (world.enter producer stage) := by
  constructor
  · intro other receipt member
    rw [enter_received] at member
    exact books.issued other receipt member
  · intro other receipt member
    rw [enter_received] at member
    exact books.seen other receipt member
  · intro other job member owned
    rw [enter_received]
    exact books.recorded other job member owned
  · intro other request now
    rcases enter_stage world producer other stage _ now with ⟨rfl, entered⟩ | before
    · exact checked request entered
    · exact books.unwritten other request before
  · intro other request now
    rcases enter_stage world producer other stage _ now with ⟨rfl, entered⟩ | before
    · exact refused request entered
    · exact books.committed other request before

theorem bookkeeping_receive (books : Bookkeeping world) (job : BackgroundJob)
    (member : job ∈ world.jobs.rows) (sees : world.visible producer job = true)
    (here : job.id = receipt.jobId) :
    Bookkeeping (world.receive producer receipt) := by
  constructor
  · intro other found foundMember
    rcases receive_received world producer other receipt found foundMember with ⟨_, rfl⟩ | old
    · rw [← here]
      exact world.jobs.key_lt job member
    · exact books.issued other found old
  · intro other found foundMember stored storedMember same
    rcases receive_received world producer other receipt found foundMember with ⟨rfl, rfl⟩ | old
    · rw [world.jobs.eq_of_key_eq storedMember member (same.trans here.symm)]
      exact sees
    · exact books.seen other found old stored storedMember same
  · intro other stored storedMember owned
    obtain ⟨found, foundMember, same⟩ := books.recorded other stored storedMember owned
    exact ⟨found, receive_keeps world producer other receipt found foundMember, same⟩
  · intro other request now
    exact books.unwritten other request
      (receive_stage world producer other receipt _ (by simp) now).2
  · intro other request now
    exact books.committed other request
      (receive_stage world producer other receipt _ (by simp) now).2

theorem mem_undo :
    job ∈ (world.undo producer).jobs.rows ↔
      job ∈ world.jobs.rows ∧ world.own producer job = false :=
  world.jobs.mem_deleteWhere _ job

theorem bookkeeping_undo (books : Bookkeeping world) :
    Bookkeeping (world.undo producer) := by
  constructor
  · exact books.issued
  · intro other receipt member job jobMember
    exact books.seen other receipt member job ((mem_undo world producer job).mp jobMember).1
  · intro other job jobMember
    exact books.recorded other job ((mem_undo world producer job).mp jobMember).1
  · intro other request stage job jobMember
    exact books.unwritten other request stage job ((mem_undo world producer job).mp jobMember).1
  · intro other request stage
    obtain ⟨job, member, free, same⟩ := books.committed other request stage
    refine ⟨job, (mem_undo world producer job).mpr ⟨member, ?_⟩, free, same⟩
    simp [ProducerWorld.own, free]

theorem bookkeeping_stored (row : BackgroundJob) (accepted : world.jobs.rejects row = false)
    (books : Bookkeeping world) :
    Bookkeeping ((world.stored producer (world.jobs.append row accepted)).receive producer
      ⟨requestColumns request, world.jobs.nextKey⟩) := by
  have newId : (world.jobs.keyed row).id = world.jobs.nextKey := rfl
  have writers : ∀ job ∈ world.jobs.rows,
      Function.update world.writer world.jobs.nextKey (some producer) job.id =
        world.writer job.id := by
    intro job member
    have := world.jobs.key_lt job member
    exact Function.update_of_ne (Nat.ne_of_lt this) _ _
  have newWriter : Function.update world.writer world.jobs.nextKey (some producer)
      (world.jobs.keyed row).id = some producer := by
    rw [newId, Function.update_self]
  have ownBefore : ∀ other, ∀ job ∈ world.jobs.rows,
      (world.stored producer (world.jobs.append row accepted)).own other job = true →
        world.own other job = true := by
    intro other job kept owned
    simpa [ProducerWorld.own, ProducerWorld.stored, writers job kept] using owned
  have ownNew : ∀ other, (world.stored producer (world.jobs.append row accepted)).own other
      (world.jobs.keyed row) = true → producer = other := by
    intro other owned
    simpa [ProducerWorld.own, ProducerWorld.stored, newWriter] using owned
  constructor
  · intro other found foundMember
    change found.jobId < world.jobs.nextKey + 1
    rcases receive_received _ producer other _ found foundMember with ⟨_, rfl⟩ | old
    · exact Nat.lt_succ_self _
    · exact Nat.lt_succ_of_lt (books.issued other found old)
  · intro other found foundMember job jobMember same
    rcases (world.jobs.mem_append row job accepted).mp jobMember with kept | rfl
    · have sees : (world.visible other job = true) := by
        rcases receive_received _ producer other _ found foundMember with ⟨_, rfl⟩ | old
        · have := world.jobs.key_lt job kept
          have key : jobSchema.key job = job.id := rfl
          simp only at same
          omega
        · exact books.seen other found old job kept same
      simpa [ProducerWorld.visible, ProducerWorld.own, ProducerWorld.stored, ProducerWorld.receive,
        writers job kept] using sees
    · rcases receive_received _ producer other _ found foundMember with ⟨rfl, _⟩ | old
      · simp [ProducerWorld.visible, ProducerWorld.own, ProducerWorld.stored,
          ProducerWorld.receive, newWriter]
      · have := books.issued other found old
        omega
  · intro other job jobMember owned
    rcases (world.jobs.mem_append row job accepted).mp jobMember with kept | rfl
    · obtain ⟨found, foundMember, same⟩ :=
        books.recorded other job kept (ownBefore other job kept owned)
      exact ⟨found, receive_keeps _ producer other _ found foundMember, same⟩
    · obtain rfl := ownNew other owned
      exact ⟨_, receive_adds _ producer _, rfl⟩
  · intro other otherRequest now job jobMember owned
    obtain ⟨different, before⟩ := receive_stage _ producer other _ _ (by simp) now
    rcases (world.jobs.mem_append row job accepted).mp jobMember with kept | rfl
    · exact books.unwritten other otherRequest before job kept (ownBefore other job kept owned)
    · exact absurd (ownNew other owned).symm different
  · intro other otherRequest now
    obtain ⟨_, before⟩ := receive_stage _ producer other _ _ (by simp) now
    obtain ⟨job, member, free, same⟩ := books.committed other otherRequest before
    refine ⟨job, (world.jobs.mem_append row job accepted).mpr (.inl member), ?_, same⟩
    exact (writers job member).trans free

theorem commit_own (producer other : Nat) (jobId : Nat)
    (owned : (if world.writer jobId = some producer then none else world.writer jobId) = some other) :
    world.writer jobId = some other := by
  by_cases mine : world.writer jobId = some producer
  · simp [mine] at owned
  · simpa [mine] using owned

theorem bookkeeping_commit (producer : Nat) (books : Bookkeeping world) :
    Bookkeeping { world with
      writer := fun jobId =>
        if world.writer jobId = some producer then none else world.writer jobId } := by
  constructor
  · exact books.issued
  · intro other receipt member job jobMember same
    have sees := books.seen other receipt member job jobMember same
    simp only [ProducerWorld.visible, ProducerWorld.own, Bool.or_eq_true, beq_iff_eq] at sees ⊢
    by_cases mine : world.writer job.id = some producer
    · exact .inl (by rw [if_pos mine])
    · rw [if_neg mine]
      exact sees
  · intro other job jobMember owned
    simp only [ProducerWorld.own, beq_iff_eq] at owned
    exact books.recorded other job jobMember
      (by simpa [ProducerWorld.own] using commit_own world producer other job.id owned)
  · intro other request stage job jobMember owned
    simp only [ProducerWorld.own, beq_iff_eq] at owned
    exact books.unwritten other request stage job jobMember
      (by simpa [ProducerWorld.own] using commit_own world producer other job.id owned)
  · intro other request stage
    obtain ⟨job, member, free, same⟩ := books.committed other request stage
    exact ⟨job, member, by simp [free], same⟩

theorem rollback_received (producer other : Nat) (receipt : Receipt)
    (member : receipt ∈ ((step world (.rollback producer)).producers other).received) :
    receipt ∈ (world.producers other).received ∧
      (other = producer → world.writer receipt.jobId ≠ some producer) := by
  by_cases same : other = producer
  · subst same
    simp only [step, Function.update_self, List.mem_filter, bne_iff_ne, ne_eq] at member
    exact ⟨member.1, fun _ => member.2⟩
  · simp only [step, Function.update_of_ne same] at member
    exact ⟨member, fun mine => absurd mine same⟩

theorem rollback_stage (producer other : Nat) (entered : Stage) (notReady : entered ≠ .ready)
    (now : ((step world (.rollback producer)).producers other).stage = entered) :
    (world.producers other).stage = entered := by
  by_cases same : other = producer
  · subst same
    simp only [step, Function.update_self] at now
    exact absurd now.symm notReady
  · simpa only [step, Function.update_of_ne same] using now

theorem bookkeeping_rollback (books : Bookkeeping world) :
    Bookkeeping (step world (.rollback producer)) := by
  have undone := bookkeeping_undo world producer books
  constructor
  · intro other receipt member
    exact books.issued other receipt (rollback_received world producer other receipt member).1
  · intro other receipt member
    exact undone.seen other receipt (rollback_received world producer other receipt member).1
  · intro other job jobMember owned
    have kept := (mem_undo world producer job).mp jobMember
    have different : other ≠ producer := by
      rintro rfl
      rw [show world.own other job = true from owned] at kept
      exact absurd kept.2 (by simp)
    obtain ⟨receipt, member, same⟩ := books.recorded other job kept.1 owned
    refine ⟨receipt, ?_, same⟩
    simpa only [step, Function.update_of_ne different] using member
  · intro other request now
    exact undone.unwritten other request (rollback_stage world producer other _ (by simp) now)
  · intro other request now
    exact undone.committed other request (rollback_stage world producer other _ (by simp) now)

variable (uuid : String) (now : Time)

theorem refusing_row (books : Bookkeeping world)
    (stage : (world.producers producer).stage = .checked request)
    (free : world.blocked producer (newJob request uuid now) = false)
    (rejected : world.jobs.rejects (newJob request uuid now) = true) :
    ∃ job ∈ world.jobs.rows, world.writer job.id = none ∧
      idempotencyColumns job = requestColumns request := by
  obtain ⟨job, member, clashing⟩ := List.any_eq_true.mp rejected
  have clash : idempotencyClash job (newJob request uuid now) = true := clashing
  have sees : world.visible producer job = true := by
    have := List.any_eq_false.mp free job member
    by_contra unseen
    exact this (by simpa [clash] using unseen)
  have same : idempotencyColumns job = requestColumns request :=
    ((idempotencyClash_iff job (newJob request uuid now)).mp clash).2
  have notOwn : world.own producer job ≠ true := by
    intro owned
    exact books.unwritten producer request stage job member owned same
  refine ⟨job, member, ?_, same⟩
  simp only [ProducerWorld.visible, Bool.or_eq_true, beq_iff_eq] at sees
  exact sees.resolve_right notOwn

variable (event : ProducerEvent)

theorem step_bookkeeping (books : Bookkeeping world) :
    Bookkeeping (step world event) := by
  cases event with
  | check producer request =>
    simp only [step]
    split
    · split
      · exact books
      · cases found : world.lookUp producer request with
        | some job =>
          obtain ⟨member, sees, _⟩ := lookUp_eq_some world producer request job found
          exact bookkeeping_receive world producer _ books job member sees rfl
        | none =>
          apply bookkeeping_enter world producer _ books
          · intro other entered job member owned
            cases entered
            exact lookUp_eq_none world producer request found job member
              (visible_of_own world producer job owned)
          · intro other entered
            cases entered
    · exact books
  | insert producer uuid now =>
    simp only [step]
    split
    · rename_i request stage
      by_cases free : world.blocked producer (newJob request uuid now) = true
      · rw [if_pos free]
        exact books
      · rw [if_neg free]
        cases inserted : world.jobs.insert (newJob request uuid now) with
        | some jobs =>
          obtain ⟨accepted, rfl⟩ := (insert_eq_some_iff _ _ _).mp inserted
          exact bookkeeping_stored world producer request _ accepted books
        | none =>
          have rejected := (insert_eq_none_iff _ _).mp inserted
          obtain ⟨job, member, committed, same⟩ := refusing_row world producer request uuid now
            books stage (by simpa using free) rejected
          apply bookkeeping_enter _ producer _ (bookkeeping_undo world producer books)
          · intro other entered
            cases entered
          · intro other entered
            cases entered
            refine ⟨job, (mem_undo world producer job).mpr ⟨member, ?_⟩, committed, same⟩
            simp [ProducerWorld.own, committed]
    · exact books
  | recheck producer =>
    simp only [step]
    split
    · rename_i request stage
      cases found : world.lookUp producer request with
      | some job =>
        obtain ⟨member, sees, _⟩ := lookUp_eq_some world producer request job found
        exact bookkeeping_receive world producer _ books job member sees rfl
      | none =>
        apply bookkeeping_enter world producer _ books
        · intro other entered
          cases entered
        · intro other entered
          cases entered
    · exact books
  | commit producer =>
    simp only [step]
    split
    · exact bookkeeping_commit world producer books
    · exact books
  | rollback producer => exact bookkeeping_rollback world producer books

theorem lookUp_of_committed (committed : ∀ job ∈ world.jobs.rows, world.writer job.id = none) :
    world.lookUp producer request =
      findByKey world.jobs request.orgId request.jobType request.idempotencyKey := by
  unfold ProducerWorld.lookUp findByKey
  generalize world.jobs.rows = rows at committed
  induction rows with
  | nil => rfl
  | cons job rest ih =>
    have sees : world.visible producer job = true := by
      simp [ProducerWorld.visible, committed job List.mem_cons_self]
    have later := ih fun other member => committed other (List.mem_cons_of_mem job member)
    simp only [List.find?_cons, sees, Bool.true_and, requestColumns] at later ⊢
    rw [later]

variable (jobs : JobTable)

theorem uninterrupted_call_is_enqueue (job : BackgroundJob)
    (ready : (world.producers producer).stage = .ready)
    (committed : ∀ stored ∈ world.jobs.rows, world.writer stored.id = none)
    (enqueued : enqueue world.jobs request uuid now = .ok (jobs, job)) :
    (runEvents step world [.check producer request, .insert producer uuid now]).jobs = jobs ∧
      ⟨requestColumns request, job.id⟩ ∈
        ((runEvents step world [.check producer request, .insert producer uuid now]).producers
          producer).received := by
  have same := lookUp_of_committed world producer request committed
  unfold enqueue at enqueued
  by_cases unkeyed : request.idempotencyKey = ""
  · simp [unkeyed] at enqueued
  · rw [if_neg unkeyed, ← same] at enqueued
    cases found : world.lookUp producer request with
    | some existing =>
      rw [found] at enqueued
      obtain ⟨rfl, rfl⟩ := Prod.mk.inj (Except.ok.inj enqueued)
      have answered : step world (.check producer request) =
          world.receive producer ⟨requestColumns request, existing.id⟩ := by
        simp only [step, ready, if_neg unkeyed, found]
      have idle : step (world.receive producer ⟨requestColumns request, existing.id⟩)
          (.insert producer uuid now) =
            world.receive producer ⟨requestColumns request, existing.id⟩ := by
        simp [step, ProducerWorld.receive]
      simp only [runEvents, answered, idle]
      exact ⟨rfl, receive_adds _ producer _⟩
    | none =>
      rw [found] at enqueued
      have checked : step world (.check producer request) =
          world.enter producer (.checked request) := by
        simp only [step, ready, if_neg unkeyed, found]
      have unblocked : (world.enter producer (.checked request)).blocked producer
          (newJob request uuid now) = false := by
        rw [ProducerWorld.blocked, List.any_eq_false]
        intro stored member
        have free : world.writer stored.id = none := committed stored member
        simp [ProducerWorld.visible, ProducerWorld.enter, free]
      cases inserted : world.jobs.insert (newJob request uuid now) with
      | some after =>
        rw [inserted] at enqueued
        obtain ⟨rfl, rfl⟩ := Prod.mk.inj (Except.ok.inj enqueued)
        have sent : step (world.enter producer (.checked request)) (.insert producer uuid now) =
            ((world.enter producer (.checked request)).stored producer after).receive producer
              ⟨requestColumns request, world.jobs.nextKey⟩ := by
          have stage : ((world.enter producer (.checked request)).producers producer).stage =
              .checked request := by simp [ProducerWorld.enter]
          have sameInsert : (world.enter producer (.checked request)).jobs.insert
              (newJob request uuid now) = some after := inserted
          simp only [step, stage, unblocked, sameInsert]
          rfl
        simp only [runEvents, checked, sent]
        exact ⟨rfl, receive_adds _ producer _⟩
      | none =>
        rw [inserted] at enqueued
        simp at enqueued

theorem oneRowReceived_of_subset (world after : ProducerWorld) (books : Bookkeeping after)
    (holds : OneRowReceived world)
    (rows : ∀ job ∈ after.jobs.rows, job ∈ world.jobs.rows)
    (received : ∀ producer, ∀ receipt ∈ (after.producers producer).received,
      ∃ job ∈ after.jobs.rows, job.id = receipt.jobId ∧
        idempotencyColumns job = receipt.columns) : OneRowReceived after :=
  ⟨fun first firstMember second secondMember =>
      holds.unique first (rows first firstMember) second (rows second secondMember),
    received, answered_of_bookkeeping after books⟩

theorem oneRowReceived_receive (holds : OneRowReceived world)
    (books : Bookkeeping (world.receive producer ⟨requestColumns request, job.id⟩))
    (found : world.lookUp producer request = some job) :
    OneRowReceived (world.receive producer ⟨requestColumns request, job.id⟩) := by
  obtain ⟨member, _, same⟩ := lookUp_eq_some world producer request job found
  refine oneRowReceived_of_subset world _ books holds (fun _ kept => kept) ?_
  intro other receipt receiptMember
  rcases receive_received world producer other _ receipt receiptMember with ⟨_, rfl⟩ | old
  · exact ⟨job, member, rfl, same⟩
  · exact holds.received other receipt old

theorem oneRowReceived_enter (stage : Stage) (holds : OneRowReceived world)
    (books : Bookkeeping (world.enter producer stage)) :
    OneRowReceived (world.enter producer stage) := by
  refine oneRowReceived_of_subset world _ books holds (fun _ kept => kept) ?_
  intro other receipt member
  rw [enter_received] at member
  exact holds.received other receipt member

theorem oneRowReceived_rollback (books : Bookkeeping world) (holds : OneRowReceived world) :
    OneRowReceived (step world (.rollback producer)) := by
  refine oneRowReceived_of_subset world _ (bookkeeping_rollback world producer books) holds
    (fun job kept => ((mem_undo world producer job).mp kept).1) ?_
  intro other receipt member
  obtain ⟨before, notOwn⟩ := rollback_received world producer other receipt member
  obtain ⟨job, jobMember, here, same⟩ := holds.received other receipt before
  refine ⟨job, (mem_undo world producer job).mpr ⟨jobMember, ?_⟩, here, same⟩
  -- a receipt names a row its holder sees, so another producer's open row is never named
  have sees := books.seen other receipt before job jobMember here
  simp only [ProducerWorld.visible, ProducerWorld.own, Bool.or_eq_true, beq_iff_eq] at sees
  by_contra owned
  simp only [ProducerWorld.own, Bool.not_eq_false, beq_iff_eq] at owned
  rcases sees with free | mine
  · rw [free] at owned
    cases owned
  · have same : other = producer := Option.some.inj (mine.symm.trans owned)
    exact notOwn same (here ▸ owned)

theorem stored_oneRowReceived_iff (accepted : world.jobs.rejects (newJob request uuid now) = false)
    (books : Bookkeeping world) (holds : OneRowReceived world) :
    OneRowReceived ((world.stored producer (world.jobs.append _ accepted)).receive producer
        ⟨requestColumns request, world.jobs.nextKey⟩) ↔
      ∀ job ∈ world.jobs.rows, idempotencyColumns job ≠ requestColumns request := by
  have newColumns : idempotencyColumns (world.jobs.keyed (newJob request uuid now)) =
      requestColumns request := rfl
  constructor
  · intro after job member same
    have stays := (world.jobs.mem_append (newJob request uuid now) job accepted).mpr (.inl member)
    have added := (world.jobs.mem_append (newJob request uuid now) _ accepted).mpr (.inr rfl)
    have equal : job = world.jobs.keyed (newJob request uuid now) :=
      after.unique job stays _ added (same.trans newColumns.symm)
    have below : job.id < world.jobs.nextKey := world.jobs.key_lt job member
    have newId : (world.jobs.keyed (newJob request uuid now)).id = world.jobs.nextKey := rfl
    rw [equal, newId] at below
    omega
  · intro fresh
    have stored := bookkeeping_stored world producer request _ accepted books
    refine ⟨?_, ?_, answered_of_bookkeeping _ stored⟩
    · intro first firstMember second secondMember same
      rcases (world.jobs.mem_append _ first accepted).mp firstMember with firstOld | rfl
      · rcases (world.jobs.mem_append _ second accepted).mp secondMember with secondOld | rfl
        · exact holds.unique first firstOld second secondOld same
        · exact absurd (same.trans newColumns) (fresh first firstOld)
      · rcases (world.jobs.mem_append _ second accepted).mp secondMember with secondOld | rfl
        · exact absurd (same.symm.trans newColumns) (fresh second secondOld)
        · rfl
    · intro other receipt member
      rcases receive_received _ producer other _ receipt member with ⟨_, rfl⟩ | old
      · exact ⟨_, (world.jobs.mem_append _ _ accepted).mpr (.inr rfl), rfl, newColumns⟩
      · obtain ⟨job, jobMember, rest⟩ := holds.received other receipt old
        exact ⟨job, (world.jobs.mem_append _ job accepted).mpr (.inl jobMember), rest⟩

theorem refused_oneRowReceived_iff (books : Bookkeeping world) (holds : OneRowReceived world)
    (after : Bookkeeping ((world.undo producer).enter producer (.refused request))) :
    OneRowReceived ((world.undo producer).enter producer (.refused request)) ↔
      ∀ job ∈ world.jobs.rows, world.own producer job = false := by
  constructor
  · intro kept job member
    by_contra owned
    obtain ⟨receipt, receiptMember, here⟩ := books.recorded producer job member (by simpa using owned)
    obtain ⟨stored, storedMember, sameId, _⟩ := kept.received producer receipt
      (by rw [enter_received]; exact receiptMember)
    obtain ⟨before, notOwn⟩ := (mem_undo world producer stored).mp storedMember
    have same : stored = job := world.jobs.eq_of_key_eq before member (sameId.trans here)
    rw [same] at notOwn
    exact owned notOwn
  · intro clean
    refine oneRowReceived_of_subset world _ after holds
      (fun job kept => ((mem_undo world producer job).mp kept).1) ?_
    intro other receipt member
    rw [enter_received] at member
    obtain ⟨job, jobMember, rest⟩ := holds.received other receipt member
    exact ⟨job, (mem_undo world producer job).mpr ⟨jobMember, clean job jobMember⟩, rest⟩

theorem accepted_named_fresh (request : EnqueueRequest) (uuid : String) (now : Time)
    (named : request.orgId ≠ none) (accepted : jobs.rejects (newJob request uuid now) = false) :
    ∀ job ∈ jobs.rows, idempotencyColumns job ≠ requestColumns request := by
  intro job member same
  have apart := List.any_eq_false.mp accepted job member
  apply apart
  have sameOrg : job.orgId = request.orgId := congrArg Prod.fst same
  exact (idempotencyClash_iff job (newJob request uuid now)).mpr
    ⟨by rw [sameOrg]; exact named, same⟩

theorem unnamed_accepted (request : EnqueueRequest) (uuid : String) (now : Time)
    (unnamed : request.orgId = none) :
    jobs.rejects (newJob request uuid now) = false := by
  rw [rejects, List.any_eq_false]
  intro job _ clash
  obtain ⟨named, same⟩ := (idempotencyClash_iff job (newJob request uuid now)).mp clash
  have sameOrg : job.orgId = request.orgId := congrArg Prod.fst same
  exact named (sameOrg.trans unnamed)

theorem insertSafe_of_not_insert (other : ∀ producer uuid now, event ≠ .insert producer uuid now) :
    InsertSafe world event :=
  fun producer uuid now _ same => absurd same (other producer uuid now)

theorem insert_oneRowReceived_iff (request : EnqueueRequest) (books : Bookkeeping world)
    (holds : OneRowReceived world) (stage : (world.producers producer).stage = .checked request) :
    OneRowReceived (step world (.insert producer uuid now)) ↔
      (request.orgId = none →
        ∀ job ∈ world.jobs.rows, idempotencyColumns job ≠ requestColumns request) ∧
      (world.blocked producer (newJob request uuid now) = false →
        world.jobs.rejects (newJob request uuid now) = true →
        ∀ job ∈ world.jobs.rows, world.own producer job = false) := by
  have after := step_bookkeeping world (.insert producer uuid now) books
  simp only [step, stage] at after ⊢
  by_cases waits : world.blocked producer (newJob request uuid now) = true
  · rw [if_pos waits]
    refine iff_of_true holds ⟨fun unnamed job member same => ?_, fun free => ?_⟩
    · -- only a named organisation's row is waited for
      obtain ⟨stored, _, clash⟩ := List.any_eq_true.mp waits
      simp only [Bool.and_eq_true] at clash
      obtain ⟨named, sameColumns⟩ := (idempotencyClash_iff stored _).mp clash.1
      have sameOrg : stored.orgId = request.orgId := congrArg Prod.fst sameColumns
      exact named (sameOrg.trans unnamed)
    · rw [waits] at free
      cases free
  · rw [if_neg waits] at after ⊢
    have free : world.blocked producer (newJob request uuid now) = false := by simpa using waits
    cases inserted : world.jobs.insert (newJob request uuid now) with
    | some jobs =>
      obtain ⟨accepted, rfl⟩ := (insert_eq_some_iff _ _ _).mp inserted
      rw [stored_oneRowReceived_iff world producer request uuid now accepted books holds]
      constructor
      · intro fresh
        exact ⟨fun _ => fresh, fun _ rejected => by rw [accepted] at rejected; cases rejected⟩
      · rintro ⟨unnamed, _⟩
        by_cases named : request.orgId = none
        · exact unnamed named
        · exact accepted_named_fresh world.jobs request uuid now named accepted
    | none =>
      have rejected := (insert_eq_none_iff _ _).mp inserted
      simp only [inserted] at after
      rw [refused_oneRowReceived_iff world producer request books holds after]
      constructor
      · intro clean
        refine ⟨fun unnamed => ?_, fun _ _ => clean⟩
        rw [unnamed_accepted world.jobs request uuid now unnamed] at rejected
        cases rejected
      · rintro ⟨_, clean⟩
        exact clean free rejected

theorem step_oneRowReceived_iff (books : Bookkeeping world) (holds : OneRowReceived world) :
    OneRowReceived (step world event) ↔ InsertSafe world event := by
  have after := step_bookkeeping world event books
  cases event with
  | check producer request =>
    refine iff_of_true ?_ (insertSafe_of_not_insert world _ (by simp))
    simp only [step] at after ⊢
    split at after
    · by_cases unkeyed : request.idempotencyKey = ""
      · rw [if_pos unkeyed]
        exact holds
      · rw [if_neg unkeyed] at after ⊢
        cases found : world.lookUp producer request with
        | some job =>
          simp only [found] at after
          exact oneRowReceived_receive world producer request job holds after found
        | none =>
          simp only [found] at after
          exact oneRowReceived_enter world producer _ holds after
    · exact holds
  | insert producer uuid now =>
    cases stage : (world.producers producer).stage with
    | checked request =>
      rw [insert_oneRowReceived_iff world producer uuid now request books holds stage]
      constructor
      · intro safe other otherUuid otherNow otherRequest same otherStage
        cases same
        rw [stage] at otherStage
        cases otherStage
        exact safe
      · intro safe
        exact safe producer uuid now request rfl stage
    | _ =>
      refine iff_of_true (by simpa only [step, stage] using holds) ?_
      intro other otherUuid otherNow otherRequest same otherStage
      cases same
      rw [stage] at otherStage
      cases otherStage
  | recheck producer =>
    refine iff_of_true ?_ (insertSafe_of_not_insert world _ (by simp))
    simp only [step] at after ⊢
    split at after
    · rename_i request stage
      cases found : world.lookUp producer request with
      | some job =>
        simp only [found] at after
        exact oneRowReceived_receive world producer request job holds after found
      | none =>
        simp only [found] at after
        exact oneRowReceived_enter world producer _ holds after
    · exact holds
  | commit producer =>
    refine iff_of_true ?_ (insertSafe_of_not_insert world _ (by simp))
    simp only [step] at after ⊢
    split at after
    · exact oneRowReceived_of_subset world _ after holds (fun _ kept => kept) holds.received
    · exact holds
  | rollback producer =>
    exact iff_of_true (oneRowReceived_rollback world producer books holds)
      (insertSafe_of_not_insert world _ (by simp))

/-- In a run of producers from the empty table, there is one row to a key and
every producer is given it, if and only if no INSERT with a NULL `org_id` meets a
row under its key and no refused INSERT rolls back earlier jobs of its
transaction. -/
theorem one_row_received_iff_inserts_safe (events : List ProducerEvent) :
    EveryState step OneRowReceived ProducerWorld.start events ↔
      EveryStep step InsertSafe ProducerWorld.start events :=
  everyState_iff_everyStep_within step_bookkeeping step_oneRowReceived_iff ProducerWorld.start
    events start_bookkeeping start_oneRowReceived

def platformRace : List ProducerEvent :=
  let request : EnqueueRequest := { jobType := "report.execute", orgId := none, idempotencyKey := "k" }
  [ .check 0 request, .check 1 request, .insert 0 "u" 0, .commit 0, .insert 1 "v" 1, .commit 1 ]

theorem platform_race_stores_two_rows :
    ¬ EveryState step OneRowReceived ProducerWorld.start platformRace := by
  intro every
  have unique := ((everyState_iff_front _ _).mp every platformRace [] (List.append_nil _).symm).unique
  revert unique
  decide

end Ukip.Jobs.Producers
