import Ukip.Engine.JobManager

/-!
# Finished jobs

`fail_all_active` leaves finished jobs alone; the setters and `create` do not look at the
status that they overwrite.  A finished job keeps its status, in the cache and in the store,
exactly in the runs in which none of their steps finds it finished with another status.
-/

namespace Ukip.Engine

open Foundation.EventRun

def JobStatus.isTerminal : JobStatus → Bool
  | .queued | .running => false
  | .completed | .failed _ => true

def isTerminalText (status : String) : Bool := status == "completed" || status == "failed"

namespace JobManager

variable (manager : JobManager) (jobId : String)

def cacheStatus : Option JobStatus := (manager.jobs jobId).map JobState.status

def storeStatus : Option String := (manager.pool.bind fun table => table jobId).map JobRow.status

end JobManager

structure TerminalKept (before after : JobManager) : Prop where
  cache : ∀ jobId status, before.cacheStatus jobId = some status → status.isTerminal = true →
    after.cacheStatus jobId = some status
  store : ∀ jobId status, before.storeStatus jobId = some status → isTerminalText status = true →
    after.storeStatus jobId = some status

theorem TerminalKept.refl (manager : JobManager) : TerminalKept manager manager :=
  ⟨fun _ _ here _ => here, fun _ _ here _ => here⟩

theorem TerminalKept.trans {first second third : JobManager} (earlier : TerminalKept first second)
    (later : TerminalKept second third) : TerminalKept first third where
  cache jobId status here terminal :=
    later.cache jobId status (earlier.cache jobId status here terminal) terminal
  store jobId status here terminal :=
    later.store jobId status (earlier.store jobId status here terminal) terminal

/-- Once the status of a job is completed or failed, it stays. -/
def StatusFinal (manager : JobManager) (run : List Step) : Prop :=
  Throughout JobManager.step TerminalKept manager run

def Change.sets : Change → Option (String × JobStatus)
  | .insert jobId _ => some (jobId, .queued)
  | .running jobId => some (jobId, .running)
  | .completed jobId _ => some (jobId, .completed)
  | .failed jobId error => some (jobId, .failed error)
  | .failActive _ _ => none

def Statement.sets : Statement → Option (String × String)
  | .insertJob _ _ | .failStaleJobs _ => none
  | .updateStatus jobId status _ => some (jobId, status)
  | .updateCompleted jobId _ => some (jobId, "completed")
  | .updateFailed jobId _ => some (jobId, "failed")

def overwrites (manager : JobManager) : Step → Bool
  | .change change _ =>
    change.sets.any fun set =>
      (manager.cacheStatus set.1).any fun old => old.isTerminal && old != set.2
  | .statement statement _ succeeds =>
    succeeds && statement.sets.any fun set =>
      (manager.storeStatus set.1).any fun old => isTerminalText old && old != set.2
  | .evict _ _ => false

theorem map_modifyAt {Value Column : Type} (columnOf : Value → Column) {jobId other : String}
    {set : Value → Value} {entries : String → Option Value} {new old : Column}
    (sets : ∀ value, columnOf (set value) = new) (here : (entries other).map columnOf = some old) :
    (modifyAt jobId set entries other).map columnOf = some (if other = jobId then new else old) := by
  obtain ⟨value, found, isOld⟩ := Option.map_eq_some_iff.mp here
  unfold modifyAt
  rw [found]
  split
  · rw [Option.map_some, Option.map_some, sets]
  · rw [Option.map_some, isOld]

section Cache

variable (now : Nat) (manager : JobManager) (other : String)

theorem cacheStatus_sets {change : Change} {jobId : String} {status old : JobStatus}
    (sets : change.sets = some (jobId, status)) (here : manager.cacheStatus other = some old) :
    (manager.step (.change change now)).cacheStatus other =
      some (if other = jobId then status else old) := by
  cases change with
  | insert target pipeline =>
    cases sets
    show Option.map JobState.status (if other = jobId then _ else manager.jobs other) = _
    split
    · rfl
    · exact here
  | running target =>
    cases sets
    exact map_modifyAt JobState.status (fun _ => rfl) here
  | completed target result =>
    cases sets
    exact map_modifyAt JobState.status (fun _ => rfl) here
  | failed target error =>
    cases sets
    exact map_modifyAt JobState.status (fun _ => rfl) here
  | failActive target error => cases sets

theorem cacheStatus_checks {change : Change} {old : JobStatus} (checks : change.sets = none)
    (here : manager.cacheStatus other = some old) (terminal : old.isTerminal = true) :
    (manager.step (.change change now)).cacheStatus other = some old := by
  cases change with
  | failActive target error =>
    obtain ⟨state, found, rfl⟩ := Option.map_eq_some_iff.mp here
    have finished : state.isActive = false := by
      unfold JobState.isActive
      cases status : state.status with
      | queued | running =>
        rw [status] at terminal
        cases terminal
      | completed | failed error => simp
    show Option.map JobState.status (modifyAt target _ manager.jobs other) = _
    unfold modifyAt
    rw [found]
    split
    · simp [finished]
    · rfl
  | insert _ _ | running _ | completed _ _ | failed _ _ => cases checks

end Cache

section Store

variable (now : Nat) (manager : JobManager) (other : String)

theorem storeStatus_statement (statement : Statement) {old : String}
    (here : manager.storeStatus other = some old) :
    ∃ table, (table other).map JobRow.status = some old ∧
      (manager.step (.statement statement now true)).storeStatus other =
        ((statement.execute now table) other).map JobRow.status := by
  cases pool : manager.pool with
  | none =>
    rw [JobManager.storeStatus, pool] at here
    cases here
  | some table =>
    rw [JobManager.storeStatus, pool] at here
    refine ⟨table, here, ?_⟩
    simp [JobManager.step, JobManager.storeStatus, pool]

theorem storeStatus_sets {statement : Statement} {jobId status old : String}
    (sets : statement.sets = some (jobId, status)) (here : manager.storeStatus other = some old) :
    (manager.step (.statement statement now true)).storeStatus other =
      some (if other = jobId then status else old) := by
  obtain ⟨table, found, after⟩ := storeStatus_statement now manager other statement here
  rw [after]
  cases statement with
  | updateStatus target text progress =>
    cases sets
    exact map_modifyAt JobRow.status (fun _ => rfl) found
  | updateCompleted target resultJson =>
    cases sets
    exact map_modifyAt JobRow.status (fun _ => rfl) found
  | updateFailed target error =>
    cases sets
    exact map_modifyAt JobRow.status (fun _ => rfl) found
  | insertJob _ _ | failStaleJobs _ => cases sets

theorem storeStatus_checks {statement : Statement} {old : String} (checks : statement.sets = none)
    (here : manager.storeStatus other = some old) (terminal : isTerminalText old = true) :
    (manager.step (.statement statement now true)).storeStatus other = some old := by
  obtain ⟨table, found, after⟩ := storeStatus_statement now manager other statement here
  rw [after]
  cases statement with
  | insertJob target pipeline =>
    show Option.map JobRow.status ((insertJob table target pipeline).getD table other) = _
    unfold insertJob
    split
    · exact found
    · next fresh =>
        show Option.map JobRow.status (if other = target then _ else table other) = _
        split
        · next same =>
            rw [same, Option.map_eq_some_iff] at found
            obtain ⟨row, present, _⟩ := found
            rw [present] at fresh
            exact absurd rfl fresh
        · exact found
  | failStaleJobs error =>
    obtain ⟨row, present, rfl⟩ := Option.map_eq_some_iff.mp found
    have finished : ¬ (row.status = "running" ∨ row.status = "queued") := by
      rintro (same | same) <;> rw [same] at terminal <;> exact absurd terminal (by decide)
    show Option.map JobRow.status ((table other).map _) = _
    rw [present]
    simp [finished]
  | updateStatus _ _ _ | updateCompleted _ _ | updateFailed _ _ => cases checks

end Store

def Step.isEvict : Step → Bool
  | .evict _ _ => true
  | .statement _ _ _ | .change _ _ => false

theorem kept_iff {Status : Type} [DecidableEq Status] (isTerminal : Status → Bool)
    (before after : String → Option Status) (sets : Option (String × Status))
    (moved : ∀ target new, sets = some (target, new) → ∀ other old, before other = some old →
      after other = some (if other = target then new else old))
    (checked : sets = none → ∀ other old, before other = some old → isTerminal old = true →
      after other = some old) :
    (∀ other old, before other = some old → isTerminal old = true → after other = some old) ↔
      (sets.any fun set => (before set.1).any fun old => isTerminal old && old != set.2) = false := by
  cases sets with
  | none => exact ⟨fun _ => rfl, fun _ => checked rfl⟩
  | some set =>
    obtain ⟨target, new⟩ := set
    constructor
    · intro kept
      cases here : before target with
      | none => simp [here]
      | some old =>
        have isNew := moved target new rfl target old here
        rw [if_pos rfl] at isNew
        cases terminal : isTerminal old with
        | false => simp [here, terminal]
        | true =>
          have same := (kept target old here terminal).symm.trans isNew
          simp [here, Option.some.inj same]
    · intro clean other old here terminal
      rw [moved target new rfl other old here]
      split
      · next same =>
          rw [same] at here
          have sameStatus : old = new := by simpa [here, terminal] using clean
          rw [sameStatus]
      · rfl

theorem terminalKept_step_iff (manager : JobManager) (step : Step) (noEvict : step.isEvict = false) :
    TerminalKept manager (manager.step step) ↔ overwrites manager step = false := by
  cases step with
  | evict now ttl => cases noEvict
  | change change now =>
    have decides := kept_iff JobStatus.isTerminal manager.cacheStatus _ change.sets
      (fun _ _ sets other _ here => cacheStatus_sets now manager other sets here)
      (fun checks other _ here terminal => cacheStatus_checks now manager other checks here terminal)
    rw [overwrites, ← decides]
    exact ⟨fun kept => kept.cache, fun cache => ⟨cache, fun _ _ here _ => here⟩⟩
  | statement statement now succeeds =>
    cases succeeds with
    | false => exact ⟨fun _ => rfl, fun _ => TerminalKept.refl manager⟩
    | true =>
      have decides := kept_iff isTerminalText manager.storeStatus _ statement.sets
        (fun _ _ sets other _ here => storeStatus_sets now manager other sets here)
        (fun checks other _ here terminal => storeStatus_checks now manager other checks here terminal)
      rw [overwrites, Bool.true_and, ← decides]
      exact ⟨fun kept => kept.store, fun store => ⟨fun _ _ here _ => here, store⟩⟩

section Runs

variable {resultJson : PipelineOutput → Option String} {step : Step}

theorem isEvict_of_takes {call : Call} {steps : List Step} (takes : call.Takes resultJson steps)
    (member : step ∈ steps) : step.isEvict = false := by
  cases takes with
  | failAllActive visits error now succeeds =>
    rcases List.mem_append.mp member with visit | last
    · obtain ⟨_, _, rfl⟩ := List.mem_map.mp visit
      rfl
    · rw [List.mem_singleton.mp last]
      rfl
  | create _ _ _ _ _ | setRunning _ _ _ _ | setCompleted _ _ _ _ _ | setFailed _ _ _ _ _ =>
    rcases List.mem_cons.mp member with rfl | last
    · rfl
    · rw [List.mem_singleton.mp last]
      rfl

theorem isEvict_of_takesAll {calls : List Call} {steps : List Step}
    (takes : TakesAll resultJson calls steps) (member : step ∈ steps) :
    step.isEvict = false := by
  induction takes with
  | nil => cases member
  | cons first _ ih =>
    rcases List.mem_append.mp member with here | later
    · exact isEvict_of_takes first here
    · exact ih later

theorem isEvict_of_runOf {tasks : List (List Call)} {run : List Step}
    (runs : RunOf resultJson tasks run) (member : step ∈ run) :
    step.isEvict = false := by
  obtain ⟨taken, _, takes, interleaved⟩ := runs
  obtain ⟨steps, ofTask, inside⟩ := interleaved.of_task member
  obtain ⟨task, isTaken, rfl⟩ := List.mem_map.mp ofTask
  exact isEvict_of_takesAll (takes task isTaken) inside

end Runs

/-- In the runs of concurrent calls, finished jobs keep their status exactly if no step finds
the job that it writes finished with another status. -/
theorem statusFinal_iff (resultJson : PipelineOutput → Option String) (manager : JobManager)
    (tasks : List (List Call)) (run : List Step) (runs : RunOf resultJson tasks run) :
    StatusFinal manager run ↔
      EveryStep JobManager.step (fun before step => overwrites before step = false) manager run := by
  rw [StatusFinal, throughout_iff_everyStep TerminalKept.refl TerminalKept.trans,
    everyStep_iff_split, everyStep_iff_split]
  have decides : ∀ before step after, run = before ++ step :: after →
      (TerminalKept (runEvents JobManager.step manager before)
          ((runEvents JobManager.step manager before).step step) ↔
        overwrites (runEvents JobManager.step manager before) step = false) := by
    intro before step after split
    refine terminalKept_step_iff _ step (isEvict_of_runOf runs ?_)
    rw [split]
    exact List.mem_append_right before List.mem_cons_self
  constructor
  · intro kept before step after split
    exact (decides before step after split).mp (kept before step after split)
  · intro clean before step after split
    exact (decides before step after split).mpr (clean before step after split)

def freshManager : JobManager where
  jobs := fun _ => none
  pool := some fun _ => none

def sampleOutput : PipelineOutput := ⟨1, 0, 0, 0, 0, 0, []⟩

/-- The calls of the task that `process_async` spawns, for a pipeline that succeeds. -/
def pipelineCalls : List Call :=
  [.create "job" "graph", .setRunning "job", .setCompleted "job" sampleOutput]

def beginningSteps : List Step :=
  [.statement (.insertJob "job" "graph") 0 true, .change (.insert "job" "graph") 1,
    .statement (.updateStatus "job" "running" 0) 2 true, .change (.running "job") 3]

def shutdownSteps : List Step :=
  [.change (.failActive "job" "engine shutdown") 4, .statement (.failStaleJobs "engine shutdown") 5 true]

def finishingSteps : List Step :=
  [.statement (.updateCompleted "job" none) 6 true, .change (.completed "job" sampleOutput) 7]

theorem pipelineCalls_take :
    TakesAll (fun _ => none) pipelineCalls (beginningSteps ++ finishingSteps) := by
  have all : TakesAll (fun _ => none) pipelineCalls ([_, _] ++ ([_, _] ++ ([_, _] ++ []))) :=
    .cons (.create "job" "graph" 0 1 true) (.cons (.setRunning "job" 2 3 true)
      (.cons (.setCompleted "job" sampleOutput 6 7 true) .nil))
  exact all

theorem pipelineCalls_run :
    RunOf (fun _ => none) [pipelineCalls] (beginningSteps ++ finishingSteps) := by
  refine ⟨[(pipelineCalls, beginningSteps ++ finishingSteps)], rfl, ?_, ?_⟩
  · intro task member
    rw [List.mem_singleton.mp member]
    exact pipelineCalls_take
  · exact .turn [] _ _ [] _ (.turn [] _ _ [] _ (.turn [] _ _ [] _ (.turn [] _ _ [] _
      (.turn [] _ _ [] _ (.turn [] _ _ [] _ (.done 1))))))

theorem statusFinal_alone : StatusFinal freshManager (beginningSteps ++ finishingSteps) :=
  (statusFinal_iff (fun _ => none) freshManager [pipelineCalls] _ pipelineCalls_run).mpr (by decide)

/-- The engine is shut down while the pipeline runs: the job is failed, and then the pipeline
completes it. -/
theorem statusFinal_not_always :
    ¬ ∀ (resultJson : PipelineOutput → Option String) (manager : JobManager)
      (tasks : List (List Call)) (run : List Step), RunOf resultJson tasks run →
        StatusFinal manager run := by
  intro always
  have runs : RunOf (fun _ => none) [pipelineCalls, [.failAllActive ["job"] "engine shutdown"]]
      (beginningSteps ++ shutdownSteps ++ finishingSteps) := by
    refine ⟨[(pipelineCalls, beginningSteps ++ finishingSteps),
      ([.failAllActive ["job"] "engine shutdown"], shutdownSteps)], rfl, ?_, ?_⟩
    · intro task member
      rcases List.mem_cons.mp member with rfl | second
      · exact pipelineCalls_take
      · rw [List.mem_singleton.mp second]
        exact .cons (.failAllActive [("job", 4)] "engine shutdown" 5 true) .nil
    · exact .turn [] _ _ [_] _ (.turn [] _ _ [_] _ (.turn [] _ _ [_] _ (.turn [] _ _ [_] _
        (.turn [_] _ _ [] _ (.turn [_] _ _ [] _ (.turn [] _ _ [_] _ (.turn [] _ _ [_] _
          (.done 2))))))))
  have kept := always _ freshManager _ _ runs (beginningSteps ++ shutdownSteps) finishingSteps []
    (List.append_nil _).symm
  have failed := kept.cache "job" (.failed "engine shutdown") (by decide) rfl
  exact absurd failed (by decide)

end Ukip.Engine
