import Ukip.Foundation.EventRun
import Ukip.Jobs.Sessions

/-!
# Worker and scheduler processes

`jobs/runtime.py`: each worker repeats `run_once` (claim, run the handler, complete
or fail) in a session of its own, schedulers repeat the promotion and recovery
passes.  A handler may take any number of events of the other processes, may
commit its session, and ends by returning or raising.  Nobody crashes.

Each event makes at most one call into the session system, so a run of the
processes is a run of their sessions (`process_run_is_session_run`).
-/

namespace Ukip.Jobs.Runtime

open Core.Clock Envelope Service Sessions Foundation.EventRun

/-- Where a worker is in `run_once`. -/
inductive Phase where
  | idle
  /-- between the SELECT and the UPDATE of its claim -/
  | selecting
  /-- claimed, the row not fetched yet -/
  | claimed (jobId : Nat)
  | executing (jobId : Nat)
  /-- the handler returned, `complete` not committed yet -/
  | returned (jobId : Nat)
  /-- the handler raised or is missing, `fail` not committed yet -/
  | raised (jobId : Nat) (failure : Failure)
  deriving DecidableEq

structure Processes where
  world : World
  phase : Nat → Phase

inductive RuntimeEvent where
  /-- a producer's INSERT -/
  | enqueue (request : EnqueueRequest) (uuid : String) (now : Time)
  | claimSelect (worker : Nat) (leaseOwner : String) (jobType : Option String)
      (leaseSeconds : Int) (now : Time) (locked : List Nat)
  | claimUpdate (worker : Nat)
  /-- `db.get` after the claim, and the handler look-up -/
  | fetch (worker : Nat)
  | handlerCommit (worker : Nat)
  | handlerReturn (worker : Nat)
  | handlerRaise (worker : Nat) (errorCode : String) (errorDetail : Option String)
  /-- reading an expired attribute of the job -/
  | refresh (worker : Nat)
  /-- `complete` after a return, `fail` after a raise -/
  | finish (worker : Nat) (now : Time)
  | promoteRetryReady (scheduler : Nat) (now : Time)
  | recoverScan (scheduler : Nat) (now : Time)
  | recoverRefresh (scheduler : Nat)
  | recoverNext (scheduler : Nat)
  | tickEnd (scheduler : Nat)

def noHandler (job : BackgroundJob) : Failure where
  errorCode := "no_handler"
  errorDetail := some ("no handler registered for " ++ job.jobType)
  terminal := true

namespace Processes

def start : Processes where
  world := .start
  phase := fun _ => .idle

def call (processes : Processes) (event : JobEvent) : Processes :=
  { processes with world := step processes.world event }

def enter (processes : Processes) (worker : Nat) (phase : Phase) : Processes :=
  { processes with phase := Function.update processes.phase worker phase }

def session (processes : Processes) (worker : Nat) : Session :=
  processes.world.sessions (.worker worker)

variable (processes : Processes)

@[simp] theorem call_world (event : JobEvent) :
    (processes.call event).world = step processes.world event := rfl

@[simp] theorem call_phase (event : JobEvent) :
    (processes.call event).phase = processes.phase := rfl

@[simp] theorem enter_world (worker : Nat) (phase : Phase) :
    (processes.enter worker phase).world = processes.world := rfl

@[simp] theorem enter_phase (worker : Nat) (phase : Phase) :
    (processes.enter worker phase).phase = Function.update processes.phase worker phase := rfl

def claimSelect (processes : Processes) (worker : Nat) (event : JobEvent) : Processes :=
  match processes.phase worker with
  | .idle =>
    let after := processes.call event
    after.enter worker (if (after.session worker).candidate.isSome then .selecting else .idle)
  | _ => processes

def claimUpdate (processes : Processes) (worker : Nat) : Processes :=
  match processes.phase worker with
  | .selecting =>
    let after := processes.call (.claimUpdate (.worker worker))
    after.enter worker
      (match (after.session worker).lease with
        | some lease => .claimed lease.jobId
        | none => .idle)
  | _ => processes

def fetch (hasHandler : String → Bool) (processes : Processes) (worker : Nat) : Processes :=
  match processes.phase worker with
  | .claimed jobId =>
    match processes.world.db.jobs.get? jobId with
    | none => (processes.call (.close (.worker worker))).enter worker .idle
    | some job =>
      (processes.call (.load (.worker worker) jobId false)).enter worker
        (if hasHandler job.jobType then .executing jobId else .raised jobId (noHandler job))
  | _ => processes

def handlerCommit (processes : Processes) (worker : Nat) : Processes :=
  match processes.phase worker with
  | .executing _ => processes.call (.expire (.worker worker))
  | _ => processes

def handlerReturn (processes : Processes) (worker : Nat) : Processes :=
  match processes.phase worker with
  | .executing jobId => processes.enter worker (.returned jobId)
  | _ => processes

/-- The except clause rolls the session back before it calls `fail`. -/
def handlerRaise (processes : Processes) (worker : Nat) (errorCode : String)
    (errorDetail : Option String) : Processes :=
  match processes.phase worker with
  | .executing jobId =>
    (processes.call (.expire (.worker worker))).enter worker
      (.raised jobId ⟨errorCode, errorDetail, false⟩)
  | _ => processes

def refresh (processes : Processes) (worker : Nat) : Processes :=
  match processes.phase worker with
  | .executing jobId => processes.call (.load (.worker worker) jobId false)
  | .returned jobId => processes.call (.load (.worker worker) jobId false)
  -- `fail` has assigned its columns by then
  | .raised jobId _ => processes.call (.load (.worker worker) jobId true)
  | _ => processes

def finish (processes : Processes) (worker : Nat) (now : Time) : Processes :=
  match processes.phase worker with
  | .returned jobId =>
    match (processes.session worker).copies jobId with
    | none => processes
    | some _ => (processes.call (.complete (.worker worker) jobId now)).enter worker .idle
  | .raised jobId failure =>
    match (processes.session worker).copies jobId with
    | none => processes
    | some _ => (processes.call (.fail (.worker worker) jobId failure now)).enter worker .idle
  | _ => processes

def recoverRefresh (processes : Processes) (scheduler : Nat) : Processes :=
  match (processes.world.sessions (.scheduler scheduler)).recovering with
  | [] => processes
  | jobId :: _ => processes.call (.load (.scheduler scheduler) jobId true)

end Processes

/-- `hasHandler` is the handler registry. -/
def stepRuntime (hasHandler : String → Bool) (processes : Processes) : RuntimeEvent → Processes
  | .enqueue request uuid now => processes.call (.insertQueued request uuid now)
  | .claimSelect worker leaseOwner jobType leaseSeconds now locked =>
    processes.claimSelect worker
      (.claimSelect (.worker worker) leaseOwner jobType leaseSeconds now locked)
  | .claimUpdate worker => processes.claimUpdate worker
  | .fetch worker => processes.fetch hasHandler worker
  | .handlerCommit worker => processes.handlerCommit worker
  | .handlerReturn worker => processes.handlerReturn worker
  | .handlerRaise worker errorCode errorDetail =>
    processes.handlerRaise worker errorCode errorDetail
  | .refresh worker => processes.refresh worker
  | .finish worker now => processes.finish worker now
  | .promoteRetryReady scheduler now =>
    processes.call (.promoteRetryReady (.scheduler scheduler) now)
  | .recoverScan scheduler now => processes.call (.recoverScan (.scheduler scheduler) now)
  | .recoverRefresh scheduler => processes.recoverRefresh scheduler
  | .recoverNext scheduler => processes.call (.recoverNext (.scheduler scheduler))
  | .tickEnd scheduler => processes.call (.close (.scheduler scheduler))

def Executing (processes : Processes) (worker jobId : Nat) : Prop :=
  processes.phase worker = .executing jobId

instance (processes : Processes) (worker jobId : Nat) : Decidable (Executing processes worker jobId) :=
  inferInstanceAs (Decidable (_ = _))

variable (processes : Processes)

theorem called (event : JobEvent) :
    (processes.call event).world = processes.world ∨
      ∃ call, (processes.call event).world = step processes.world call :=
  .inr ⟨event, rfl⟩

theorem called_enter (event : JobEvent) (worker : Nat) (phase : Phase) :
    ((processes.call event).enter worker phase).world = processes.world ∨
      ∃ call, ((processes.call event).enter worker phase).world = step processes.world call :=
  .inr ⟨event, rfl⟩

theorem stepRuntime_world (hasHandler : String → Bool) (processes : Processes)
    (event : RuntimeEvent) :
    (stepRuntime hasHandler processes event).world = processes.world ∨
      ∃ call, (stepRuntime hasHandler processes event).world = step processes.world call := by
  cases event with
  | claimSelect worker leaseOwner jobType leaseSeconds now locked =>
    simp only [stepRuntime, Processes.claimSelect]
    split
    · exact called_enter processes _ worker _
    · exact .inl rfl
  | claimUpdate worker =>
    simp only [stepRuntime, Processes.claimUpdate]
    split
    · exact called_enter processes _ worker _
    · exact .inl rfl
  | fetch worker =>
    simp only [stepRuntime, Processes.fetch]
    split
    · split
      · exact called_enter processes _ worker _
      · exact called_enter processes _ worker _
    · exact .inl rfl
  | handlerCommit worker =>
    simp only [stepRuntime, Processes.handlerCommit]
    split
    · exact called processes _
    · exact .inl rfl
  | handlerReturn worker =>
    simp only [stepRuntime, Processes.handlerReturn]
    split
    · exact .inl rfl
    · exact .inl rfl
  | handlerRaise worker errorCode errorDetail =>
    simp only [stepRuntime, Processes.handlerRaise]
    split
    · exact called_enter processes _ worker _
    · exact .inl rfl
  | refresh worker =>
    simp only [stepRuntime, Processes.refresh]
    split
    · exact called processes _
    · exact called processes _
    · exact called processes _
    · exact .inl rfl
  | finish worker now =>
    simp only [stepRuntime, Processes.finish]
    split
    · split
      · exact .inl rfl
      · exact called_enter processes _ worker _
    · split
      · exact .inl rfl
      · exact called_enter processes _ worker _
    · exact .inl rfl
  | recoverRefresh scheduler =>
    simp only [stepRuntime, Processes.recoverRefresh]
    split
    · exact .inl rfl
    · exact called processes _
  | _ => exact called processes _

theorem process_run_is_session_run (hasHandler : String → Bool) (processes : Processes)
    (events : List RuntimeEvent) :
    ∃ calls, (runEvents (stepRuntime hasHandler) processes events).world =
      runEvents step processes.world calls := by
  induction events generalizing processes with
  | nil => exact ⟨[], rfl⟩
  | cons event rest ih =>
    obtain ⟨calls, later⟩ := ih (stepRuntime hasHandler processes event)
    rcases stepRuntime_world hasHandler processes event with same | ⟨call, moved⟩
    · exact ⟨calls, later.trans (by rw [same])⟩
    · exact ⟨call :: calls, later.trans (by rw [moved]; rfl)⟩

end Ukip.Jobs.Runtime
