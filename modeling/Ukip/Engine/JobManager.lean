import Ukip.Foundation.EventRun

/-!
# The engine's jobs

A job lives in a cache and in a row of `engine_jobs`.  Every call of the job manager writes
the two apart: one statement, whose failure is only logged, and one change of the cache.
Calls of different tasks may take turns between the two.
-/

namespace Ukip.Engine

open Foundation.EventRun

inductive JobStatus
  | queued
  | running
  | completed
  | failed (error : String)
  deriving DecidableEq

structure PipelineOutput where
  nodesCreated : Int
  nodesDeduplicated : Int
  relationshipsCreated : Int
  relationshipsDeduplicated : Int
  keywordsExtracted : Int
  entitiesClassified : Int
  counters : List (String × Int)

structure JobState where
  pipeline : String
  status : JobStatus
  progress : Rat
  startedAt : Nat
  result : Option PipelineOutput
  completedAt : Option Nat

/-- A row of `engine_jobs`. -/
structure JobRow where
  jobId : String
  pipeline : String
  status : String
  progress : Rat
  resultJson : Option String
  error : Option String
  startedAt : Option Nat
  completedAt : Option Nat

/-- The rows by `job_id`, which is unique. -/
abbrev JobTable := String → Option JobRow

/-- `pool` is the store, if one is attached. -/
structure JobManager where
  jobs : String → Option JobState
  pool : Option JobTable

def modifyAt {Value : Type} (jobId : String) (set : Value → Value) (entries : String → Option Value) :
    String → Option Value :=
  fun other => if other = jobId then (entries other).map set else entries other

/-- `none` is the error of the unique constraint. -/
def insertJob (table : JobTable) (jobId pipeline : String) : Option JobTable :=
  if (table jobId).isSome then none
  else some fun other =>
    if other = jobId then
      some
        { jobId
          pipeline
          status := "queued"
          progress := 0
          resultJson := none
          error := none
          startedAt := none
          completedAt := none }
    else table other

def updateStatus (table : JobTable) (now : Nat) (jobId status : String) (progress : Rat) : JobTable :=
  modifyAt jobId (fun row =>
    { row with
      status
      progress
      startedAt := if status = "running" then row.startedAt.or (some now) else row.startedAt }) table

def updateCompleted (table : JobTable) (now : Nat) (jobId : String) (resultJson : Option String) :
    JobTable :=
  modifyAt jobId (fun row =>
    { row with status := "completed", progress := 1, resultJson, completedAt := some now }) table

def updateFailed (table : JobTable) (now : Nat) (jobId error : String) : JobTable :=
  modifyAt jobId (fun row =>
    { row with status := "failed", error := some error, completedAt := some now }) table

def failStaleJobs (table : JobTable) (now : Nat) (error : String) : JobTable :=
  fun jobId => (table jobId).map fun row =>
    if row.status = "running" ∨ row.status = "queued" then
      { row with status := "failed", error := some error, completedAt := some now }
    else row

inductive Statement
  | insertJob (jobId pipeline : String)
  | updateStatus (jobId status : String) (progress : Rat)
  | updateCompleted (jobId : String) (resultJson : Option String)
  | updateFailed (jobId error : String)
  | failStaleJobs (error : String)

def Statement.execute (now : Nat) (table : JobTable) : Statement → JobTable
  | .insertJob jobId pipeline => (Engine.insertJob table jobId pipeline).getD table
  | .updateStatus jobId status progress => Engine.updateStatus table now jobId status progress
  | .updateCompleted jobId resultJson => Engine.updateCompleted table now jobId resultJson
  | .updateFailed jobId error => Engine.updateFailed table now jobId error
  | .failStaleJobs error => Engine.failStaleJobs table now error

/-- What a call does to the cache; `failActive` is one entry of the loop of
`fail_all_active`. -/
inductive Change
  | insert (jobId pipeline : String)
  | running (jobId : String)
  | completed (jobId : String) (result : PipelineOutput)
  | failed (jobId error : String)
  | failActive (jobId error : String)

def JobState.isActive (state : JobState) : Bool :=
  decide (state.status = .running) || decide (state.status = .queued)

def JobState.fail (now : Nat) (error : String) (state : JobState) : JobState :=
  { state with status := .failed error, completedAt := some now }

def Change.apply (now : Nat) (jobs : String → Option JobState) : Change → String → Option JobState
  | .insert jobId pipeline => fun other =>
    if other = jobId then
      some
        { pipeline
          status := .queued
          progress := 0
          startedAt := now
          result := none
          completedAt := none }
    else jobs other
  | .running jobId => modifyAt jobId (fun state => { state with status := .running }) jobs
  | .completed jobId result =>
    modifyAt jobId (fun state =>
      { state with
        status := .completed
        progress := 1
        result := some result
        completedAt := some now }) jobs
  | .failed jobId error => modifyAt jobId (JobState.fail now error) jobs
  | .failActive jobId error =>
    modifyAt jobId (fun state => if state.isActive then state.fail now error else state) jobs

def JobState.isStale (now ttl : Nat) (state : JobState) : Bool :=
  state.completedAt.any fun completed => ttl ≤ now - completed

def evictStaleCache (now ttl : Nat) (jobs : String → Option JobState) : String → Option JobState :=
  fun jobId => (jobs jobId).filter fun state => !state.isStale now ttl

inductive Step
  | statement (statement : Statement) (now : Nat) (succeeds : Bool)
  | change (change : Change) (now : Nat)
  | evict (now ttl : Nat)

def JobManager.step (manager : JobManager) : Step → JobManager
  | .statement statement now succeeds =>
    if succeeds then { manager with pool := manager.pool.map fun table => statement.execute now table }
    else manager
  | .change change now => { manager with jobs := change.apply now manager.jobs }
  | .evict now ttl => { manager with jobs := evictStaleCache now ttl manager.jobs }

/-- `visited` are the entries that the loop of `fail_all_active` meets. -/
inductive Call
  | create (jobId pipeline : String)
  | setRunning (jobId : String)
  | setCompleted (jobId : String) (result : PipelineOutput)
  | setFailed (jobId error : String)
  | failAllActive (visited : List String) (error : String)

section Calls

-- `serde_json`'s text of a result.
variable (resultJson : PipelineOutput → Option String)

/-- The steps of a call, for any moments and any outcome of its statement. -/
inductive Call.Takes : Call → List Step → Prop
  | create (jobId pipeline : String) (now later : Nat) (succeeds : Bool) :
      Takes (.create jobId pipeline)
        [.statement (.insertJob jobId pipeline) now succeeds, .change (.insert jobId pipeline) later]
  | setRunning (jobId : String) (now later : Nat) (succeeds : Bool) :
      Takes (.setRunning jobId)
        [.statement (.updateStatus jobId "running" 0) now succeeds, .change (.running jobId) later]
  | setCompleted (jobId : String) (result : PipelineOutput) (now later : Nat) (succeeds : Bool) :
      Takes (.setCompleted jobId result)
        [.statement (.updateCompleted jobId (resultJson result)) now succeeds,
          .change (.completed jobId result) later]
  | setFailed (jobId error : String) (now later : Nat) (succeeds : Bool) :
      Takes (.setFailed jobId error)
        [.statement (.updateFailed jobId error) now succeeds, .change (.failed jobId error) later]
  | failAllActive (visits : List (String × Nat)) (error : String) (now : Nat) (succeeds : Bool) :
      Takes (.failAllActive (visits.map Prod.fst) error)
        (visits.map (fun visit => .change (.failActive visit.1 error) visit.2) ++
          [.statement (.failStaleJobs error) now succeeds])

inductive TakesAll : List Call → List Step → Prop
  | nil : TakesAll [] []
  | cons {call : Call} {steps : List Step} {calls : List Call} {rest : List Step}
      (first : call.Takes resultJson steps) (later : TakesAll calls rest) :
      TakesAll (call :: calls) (steps ++ rest)

/-- The calls of concurrent tasks. -/
def RunOf (tasks : List (List Call)) (run : List Step) : Prop :=
  ∃ taken : List (List Call × List Step), taken.map Prod.fst = tasks ∧
    (∀ task ∈ taken, TakesAll resultJson task.1 task.2) ∧ Interleaved (taken.map Prod.snd) run

end Calls

end Ukip.Engine
