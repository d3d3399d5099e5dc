import Ukip.Engine.JobFinality

/-!
# Eviction

`get_job_status` answers from the cache, and from the row of a job that was evicted.  The row
is turned back into a state without its result.  Otherwise the two answers agree after any
calls for the job that do not overlap, whatever the calls for other jobs do meanwhile.
-/

namespace Ukip.Engine

open Foundation.EventRun

inductive ProtoStatus
  | queued
  | running
  | completed
  | failed
  deriving DecidableEq

structure ProcessResult where
  nodesCreated : Int
  nodesDeduplicated : Int
  relationshipsCreated : Int
  relationshipsDeduplicated : Int
  keywordsExtracted : Int
  entitiesClassified : Int
  counters : List (String × Int)
  deriving DecidableEq

def buildProcessResult (output : PipelineOutput) : ProcessResult where
  nodesCreated := output.nodesCreated
  nodesDeduplicated := output.nodesDeduplicated
  relationshipsCreated := output.relationshipsCreated
  relationshipsDeduplicated := output.relationshipsDeduplicated
  keywordsExtracted := output.keywordsExtracted
  entitiesClassified := output.entitiesClassified
  counters := output.counters

structure JobStatusResponse where
  jobId : String
  status : ProtoStatus
  progress : Rat
  result : Option ProcessResult
  error : Option String
  deriving DecidableEq

def rowStatus (row : JobRow) : JobStatus :=
  if row.status = "queued" then .queued
  else if row.status = "running" then .running
  else if row.status = "completed" then .completed
  else if row.status = "failed" then .failed (row.error.getD "")
  else .failed ("unknown status: " ++ row.status)

def jobRowToState (now : Nat) (row : JobRow) : JobState where
  pipeline := row.pipeline
  status := rowStatus row
  progress := row.progress
  startedAt := now
  -- The result is not reconstructed from its JSON.
  result := none
  completedAt := if row.completedAt.isSome then some now else none

namespace JobManager

variable (manager : JobManager) (now : Nat) (reads : Bool) (jobId : String)

/-- `reads` says that the query of the store does not fail. -/
def getOrFetch : Option JobState :=
  match manager.jobs jobId with
  | some state => some state
  | none =>
    if reads then (manager.pool.bind fun table => table jobId).map (jobRowToState now) else none

end JobManager

def statusResponse (jobId : String) (job : JobState) : JobStatusResponse :=
  match job.status with
  | .queued => ⟨jobId, .queued, job.progress, none, none⟩
  | .running => ⟨jobId, .running, job.progress, none, none⟩
  | .completed => ⟨jobId, .completed, job.progress, job.result.map buildProcessResult, none⟩
  | .failed error => ⟨jobId, .failed, job.progress, none, some error⟩

/-- `none` is the answer `NotFound`. -/
def JobManager.getJobStatus (manager : JobManager) (now : Nat) (reads : Bool) (jobId : String) :
    Option JobStatusResponse :=
  (manager.getOrFetch now reads jobId).map (statusResponse jobId)

def JobStatusResponse.withoutResult (answer : JobStatusResponse) : JobStatusResponse :=
  { answer with result := none }

def Statement.concerns (jobId : String) : Statement → Bool
  | .insertJob target _ | .updateStatus target _ _ | .updateCompleted target _
  | .updateFailed target _ => target == jobId
  | .failStaleJobs _ => true

def Change.concerns (jobId : String) : Change → Bool
  | .insert target _ | .running target | .completed target _ | .failed target _
  | .failActive target _ => target == jobId

/-- The step is one of a call for the job, or of `fail_all_active` at the job. -/
def Step.concerns (jobId : String) : Step → Bool
  | .statement made _ _ => made.concerns jobId
  | .change made _ => made.concerns jobId
  | .evict _ _ => false

def Step.succeeds : Step → Bool
  | .statement _ _ succeeds => succeeds
  | .change _ _ | .evict _ _ => true

/-- In the run, the calls for the job come one after the other, and their statements succeed.
Calls for other jobs and evictions come anywhere. -/
structure OneByOne (resultJson : PipelineOutput → Option String) (jobId : String) (calls : List Call)
    (run : List Step) : Prop where
  taken : ∃ steps, TakesAll resultJson calls steps ∧
    run.filter (Step.concerns jobId) = steps.filter (Step.concerns jobId)
  succeeds : ∀ step ∈ run, step.concerns jobId = true → step.succeeds = true
  visited : ∀ visited error, Call.failAllActive visited error ∈ calls → visited.count jobId = 1

/-- The id is new when the job is created, and a job that was completed is not started again. -/
structure Orderly (jobId : String) (row : Option JobRow) (calls : List Call) : Prop where
  created : ∀ before pipeline after, calls = before ++ .create jobId pipeline :: after →
    row = none ∧ ∀ other, Call.create jobId other ∉ before
  started : ∀ before after, calls = before ++ .setRunning jobId :: after →
    ∀ result, Call.setCompleted jobId result ∉ before

namespace JobManager

def rowOf (manager : JobManager) (jobId : String) : Option JobRow :=
  manager.pool.bind fun table => table jobId

@[simp] theorem pool_isSome_step (manager : JobManager) (step : Step) :
    (manager.step step).pool.isSome = manager.pool.isSome := by
  cases step with
  | statement statement now succeeds => cases succeeds <;> simp [JobManager.step]
  | change change now => rfl
  | evict now ttl => rfl

theorem pool_isSome_run (manager : JobManager) (run : List Step) :
    (runEvents JobManager.step manager run).pool.isSome = manager.pool.isSome := by
  induction run generalizing manager with
  | nil => rfl
  | cons step rest ih =>
    rw [runEvents, ih]
    exact pool_isSome_step manager step

end JobManager

section Halves

variable (jobId : String) (now : Nat) {statement : Statement}

theorem execute_of_not_concerns (table : JobTable) (apart : statement.concerns jobId = false) :
    statement.execute now table jobId = table jobId := by
  cases statement with
  | insertJob target pipeline =>
    have other : ¬ jobId = target := fun same => beq_eq_false_iff_ne.mp apart same.symm
    simp only [Statement.execute, insertJob]
    split <;> simp [other]
  | updateStatus target _ _ | updateCompleted target _ | updateFailed target _ =>
    have other : ¬ jobId = target := fun same => beq_eq_false_iff_ne.mp apart same.symm
    exact if_neg other
  | failStaleJobs error => cases apart

variable (jobs : String → Option JobState)

theorem apply_of_not_concerns {change : Change} (apart : change.concerns jobId = false) :
    change.apply now jobs jobId = jobs jobId := by
  cases change with
  | insert target _ | running target | completed target _ | failed target _ | failActive target _ =>
    have other : ¬ jobId = target := fun same => beq_eq_false_iff_ne.mp apart same.symm
    exact if_neg other

theorem execute_local (table : JobTable) (own : statement.concerns jobId = true) :
    statement.execute now table jobId = statement.execute now (fun _ => table jobId) jobId := by
  cases statement with
  | insertJob target pipeline =>
    obtain rfl := beq_iff_eq.mp own
    simp only [Statement.execute, insertJob]
    split <;> simp
  | updateStatus _ _ _ | updateCompleted _ _ | updateFailed _ _ | failStaleJobs _ => rfl

theorem apply_local (change : Change) :
    change.apply now jobs jobId = change.apply now (fun _ => jobs jobId) jobId := by
  cases change <;> rfl

theorem quiet_run (manager : JobManager) {run : List Step}
    (quiet : run.filter (Step.concerns jobId) = []) :
    (runEvents JobManager.step manager run).rowOf jobId = manager.rowOf jobId ∧
      ((runEvents JobManager.step manager run).jobs jobId = manager.jobs jobId ∨
        (runEvents JobManager.step manager run).jobs jobId = none) := by
  induction run generalizing manager with
  | nil => exact ⟨rfl, .inl rfl⟩
  | cons step rest ih =>
    have apart : step.concerns jobId = false := by
      have each := List.filter_eq_nil_iff.mp quiet step List.mem_cons_self
      simpa using each
    rw [List.filter_cons_of_neg (by simpa using apart)] at quiet
    obtain ⟨rowAfter, entryAfter⟩ := ih (manager.step step) quiet
    have here : (manager.step step).rowOf jobId = manager.rowOf jobId ∧
        ((manager.step step).jobs jobId = manager.jobs jobId ∨
          (manager.step step).jobs jobId = none) := by
      cases step with
      | statement statement moment succeeds =>
        cases succeeds with
        | false => exact ⟨rfl, .inl rfl⟩
        | true =>
          refine ⟨?_, .inl rfl⟩
          simp only [JobManager.rowOf, JobManager.step, if_true]
          cases manager.pool with
          | none => rfl
          | some table => exact execute_of_not_concerns jobId moment table apart
      | change change moment => exact ⟨rfl, .inl (apply_of_not_concerns jobId moment manager.jobs apart)⟩
      | evict moment ttl =>
        refine ⟨rfl, ?_⟩
        show Option.filter _ (manager.jobs jobId) = _ ∨ _
        cases here : manager.jobs jobId with
        | none => exact .inl rfl
        | some state =>
          cases stale : state.isStale moment ttl with
          | true => exact .inr (Option.filter_eq_none_iff.mpr (by simpa [here] using stale))
          | false => exact .inl (by simp [stale])
    rw [runEvents]
    refine ⟨rowAfter.trans here.1, ?_⟩
    rcases entryAfter with same | gone
    · rw [same]
      exact here.2
    · exact .inr gone

end Halves

/-- The row tells what the entry tells, but for the result. -/
def Matched (entry : Option JobState) (row : Option JobRow) : Prop :=
  ∀ state, entry = some state → ∃ found, row = some found ∧ rowStatus found = state.status ∧
    found.progress = state.progress

theorem matched_none (row : Option JobRow) : Matched none row :=
  fun _ here => absurd here (Option.some_ne_none _).symm

/-- After the calls `done`, from a store with the row `row` and an empty cache. -/
structure CacheAgrees (jobId : String) (row : Option JobRow) (done : List Call) (manager : JobManager) :
    Prop where
  pool : manager.pool.isSome = true
  matched : Matched (manager.jobs jobId) (manager.rowOf jobId)
  fresh : row = none → (∀ pipeline, Call.create jobId pipeline ∉ done) → manager.rowOf jobId = none
  unfinished : (∀ result, Call.setCompleted jobId result ∉ done) → ∀ state,
    manager.jobs jobId = some state → state.progress = 0

section Calls

variable {jobId : String} {row : Option JobRow} {done : List Call} {manager : JobManager}

variable {statement : Statement}

theorem rowOf_statement (attached : manager.pool.isSome = true) (now : Nat)
    (own : statement.concerns jobId = true) :
    (manager.step (.statement statement now true)).rowOf jobId =
      statement.execute now (fun _ => manager.rowOf jobId) jobId := by
  obtain ⟨table, pool⟩ := Option.isSome_iff_exists.mp attached
  simp only [JobManager.rowOf, JobManager.step, pool, if_true, Option.map_some, Option.bind_some]
  exact execute_local jobId now table own

variable {run : List Step}

theorem halves_run (attached : manager.pool.isSome = true) {change : Change} {now later : Nat}
    (halves : run.filter (Step.concerns jobId) = [.statement statement now true, .change change later] ∨
      run.filter (Step.concerns jobId) = [.change change later, .statement statement now true]) :
    (runEvents JobManager.step manager run).rowOf jobId =
        statement.execute now (fun _ => manager.rowOf jobId) jobId ∧
      ∃ entry, (entry = manager.jobs jobId ∨ entry = none) ∧
        ((runEvents JobManager.step manager run).jobs jobId = change.apply later (fun _ => entry) jobId ∨
          (runEvents JobManager.step manager run).jobs jobId = none) := by
  rcases halves with inOrder | reversed
  · obtain ⟨first, rest, rfl, quietFirst, own, restHalves⟩ := List.filter_eq_cons_iff.mp inOrder
    obtain ⟨second, third, rfl, quietSecond, _, quietThird⟩ := List.filter_eq_cons_iff.mp restHalves
    obtain ⟨rowFirst, entryFirst⟩ := quiet_run jobId manager (List.filter_eq_nil_iff.mpr quietFirst)
    have pool := (manager.pool_isSome_run first).trans attached
    simp only [runEvents_append, runEvents]
    generalize runEvents JobManager.step manager first = started at rowFirst entryFirst pool ⊢
    obtain ⟨rowSecond, entrySecond⟩ := quiet_run jobId (started.step (.statement statement now true))
      (List.filter_eq_nil_iff.mpr quietSecond)
    rw [rowOf_statement pool now own] at rowSecond
    generalize runEvents JobManager.step (started.step (.statement statement now true)) second =
      written at rowSecond entrySecond ⊢
    obtain ⟨rowThird, entryThird⟩ := quiet_run jobId (written.step (.change change later)) quietThird
    refine ⟨?_, written.jobs jobId, ?_, ?_⟩
    · rw [rowThird, ← rowFirst]
      exact rowSecond
    · rcases entrySecond with same | gone
      · rw [same]
        exact entryFirst
      · exact .inr gone
    · rw [← apply_local]
      exact entryThird
  · obtain ⟨first, rest, rfl, quietFirst, _, restHalves⟩ := List.filter_eq_cons_iff.mp reversed
    obtain ⟨second, third, rfl, quietSecond, own, quietThird⟩ := List.filter_eq_cons_iff.mp restHalves
    obtain ⟨rowFirst, entryFirst⟩ := quiet_run jobId manager (List.filter_eq_nil_iff.mpr quietFirst)
    have pool := (manager.pool_isSome_run first).trans attached
    simp only [runEvents_append, runEvents]
    generalize runEvents JobManager.step manager first = started at rowFirst entryFirst pool ⊢
    obtain ⟨rowSecond, entrySecond⟩ := quiet_run jobId (started.step (.change change later))
      (List.filter_eq_nil_iff.mpr quietSecond)
    have poolSecond : (runEvents JobManager.step (started.step (.change change later)) second).pool.isSome =
        true := by
      rw [JobManager.pool_isSome_run, JobManager.pool_isSome_step]
      exact pool
    generalize runEvents JobManager.step (started.step (.change change later)) second =
      written at rowSecond entrySecond poolSecond ⊢
    obtain ⟨rowThird, entryThird⟩ :=
      quiet_run jobId (written.step (.statement statement now true)) quietThird
    rw [rowOf_statement poolSecond now own, rowSecond] at rowThird
    refine ⟨?_, started.jobs jobId, entryFirst, ?_⟩
    · rw [rowThird, ← rowFirst]
      rfl
    · rw [← apply_local]
      rcases entryThird with same | gone
      · rw [same]
        exact entrySecond
      · exact .inr gone

theorem agrees_quiet (agrees : CacheAgrees jobId row done manager) (call : Call)
    (quiet : run.filter (Step.concerns jobId) = []) :
    CacheAgrees jobId row (done ++ [call]) (runEvents JobManager.step manager run) := by
  obtain ⟨rowAfter, entryAfter⟩ := quiet_run jobId manager quiet
  refine
    { pool := (manager.pool_isSome_run run).trans agrees.pool
      matched := ?_
      fresh := fun absent none => ?_
      unfinished := fun none state here => ?_ }
  · rw [rowAfter]
    rcases entryAfter with same | gone
    · rw [same]
      exact agrees.matched
    · rw [gone]
      exact matched_none _
  · rw [rowAfter]
    exact agrees.fresh absent fun pipeline member => none pipeline (List.mem_append_left _ member)
  · rcases entryAfter with same | gone
    · rw [same] at here
      exact agrees.unfinished (fun result member => none result (List.mem_append_left _ member)) state here
    · rw [gone] at here
      cases here

theorem agrees_halves (agrees : CacheAgrees jobId row done manager) (call : Call) {change : Change}
    {now later : Nat}
    (halves : run.filter (Step.concerns jobId) = [.statement statement now true, .change change later] ∨
      run.filter (Step.concerns jobId) = [.change change later, .statement statement now true])
    (matched : ∀ entry, entry = manager.jobs jobId ∨ entry = none →
      Matched (change.apply later (fun _ => entry) jobId)
        (statement.execute now (fun _ => manager.rowOf jobId) jobId))
    (fresh : row = none → (∀ pipeline, Call.create jobId pipeline ∉ done ++ [call]) →
      statement.execute now (fun _ => manager.rowOf jobId) jobId = none)
    (unfinished : (∀ result, Call.setCompleted jobId result ∉ done ++ [call]) → ∀ entry,
      entry = manager.jobs jobId ∨ entry = none → ∀ state,
        change.apply later (fun _ => entry) jobId = some state → state.progress = 0) :
    CacheAgrees jobId row (done ++ [call]) (runEvents JobManager.step manager run) := by
  obtain ⟨rowAfter, entry, origin, entryAfter⟩ := halves_run agrees.pool halves
  refine
    { pool := (manager.pool_isSome_run run).trans agrees.pool
      matched := ?_
      fresh := fun absent none => rowAfter.trans (fresh absent none)
      unfinished := fun none state here => ?_ }
  · rw [rowAfter]
    rcases entryAfter with same | gone
    · rw [same]
      exact matched entry origin
    · rw [gone]
      exact matched_none _
  · rcases entryAfter with same | gone
    · rw [same] at here
      exact unfinished none entry origin state here
    · rw [gone] at here
      cases here

end Calls

variable {entry : Option JobState}

theorem matched_modifyAt {found : Option JobRow} {jobId : String} {setState : JobState → JobState}
    {setRow : JobRow → JobRow} (matched : Matched entry found)
    (sets : ∀ state row, entry = some state → rowStatus row = state.status →
      row.progress = state.progress →
        rowStatus (setRow row) = (setState state).status ∧
          (setRow row).progress = (setState state).progress) :
    Matched (modifyAt jobId setState (fun _ => entry) jobId)
      (modifyAt jobId setRow (fun _ => found) jobId) := by
  intro state here
  simp only [modifyAt, if_true] at here ⊢
  obtain ⟨old, isEntry, rfl⟩ := Option.map_eq_some_iff.mp here
  obtain ⟨row, isRow, status, progress⟩ := matched old isEntry
  refine ⟨setRow row, by rw [isRow]; rfl, sets old row isEntry status progress⟩

theorem modifyAt_none {Value : Type} (jobId : String) (set : Value → Value) :
    modifyAt jobId set (fun _ => none) jobId = none := by simp [modifyAt]

variable {state : JobState}

theorem isActive_iff {row : JobRow} (same : rowStatus row = state.status) :
    state.isActive = true ↔ row.status = "running" ∨ row.status = "queued" := by
  unfold rowStatus at same
  unfold JobState.isActive
  rw [← same]
  by_cases queued : row.status = "queued"
  · simp [queued]
  · by_cases running : row.status = "running"
    · simp [running]
    · by_cases completed : row.status = "completed"
      · simp [completed]
      · by_cases failed : row.status = "failed" <;> simp [queued, running, completed, failed]

section Call

variable {jobId : String} {row : Option JobRow} {done : List Call} {manager : JobManager}
  (agrees : CacheAgrees jobId row done manager)

include agrees

theorem CacheAgrees.matched_of_origin (origin : entry = manager.jobs jobId ∨ entry = none) :
    Matched entry (manager.rowOf jobId) := by
  rcases origin with rfl | rfl
  · exact agrees.matched
  · exact matched_none _

theorem CacheAgrees.unfinished_of_origin (never : ∀ result, Call.setCompleted jobId result ∉ done)
    (origin : entry = manager.jobs jobId ∨ entry = none) (here : entry = some state) :
    state.progress = 0 := by
  rcases origin with rfl | rfl
  · exact agrees.unfinished never state here
  · cases here

theorem CacheAgrees.unfinished_modified {set : JobState → JobState}
    (never : ∀ result, Call.setCompleted jobId result ∉ done)
    (origin : entry = manager.jobs jobId ∨ entry = none)
    (here : modifyAt jobId set (fun _ => entry) jobId = some state)
    (kept : ∀ old, (set old).progress = old.progress) : state.progress = 0 := by
  simp only [modifyAt, if_true] at here
  obtain ⟨old, isEntry, rfl⟩ := Option.map_eq_some_iff.mp here
  exact (kept old).trans (agrees.unfinished_of_origin never origin isEntry)

theorem CacheAgrees.fresh_of_absent {call : Call} (absent : row = none)
    (never : ∀ pipeline, Call.create jobId pipeline ∉ done ++ [call]) :
    manager.rowOf jobId = none :=
  agrees.fresh absent fun pipeline member => never pipeline (List.mem_append_left _ member)

variable {run : List Step} {now later : Nat}

theorem agrees_create {pipeline : String}
    (halves : run.filter (Step.concerns jobId) =
      [.statement (.insertJob jobId pipeline) now true, .change (.insert jobId pipeline) later])
    (absent : row = none) (first : ∀ other, Call.create jobId other ∉ done) :
    CacheAgrees jobId row (done ++ [.create jobId pipeline]) (runEvents JobManager.step manager run) := by
  refine agrees_halves agrees _ (.inl halves) ?_ ?_ ?_
  · intro entry origin state here
    obtain rfl : _ = state := Option.some.inj ((if_pos rfl).symm.trans here)
    refine ⟨⟨jobId, pipeline, "queued", 0, none, none, none, none⟩, ?_, by simp [rowStatus], rfl⟩
    rw [agrees.fresh absent first]
    simp [Statement.execute, insertJob]
  · intro _ uncreated
    exact absurd (List.mem_append_right done List.mem_cons_self) (uncreated pipeline)
  · intro _ entry origin state here
    obtain rfl : _ = state := Option.some.inj ((if_pos rfl).symm.trans here)
    rfl

theorem agrees_setRunning
    (halves : run.filter (Step.concerns jobId) =
      [.statement (.updateStatus jobId "running" 0) now true, .change (.running jobId) later])
    (never : ∀ result, Call.setCompleted jobId result ∉ done) :
    CacheAgrees jobId row (done ++ [.setRunning jobId]) (runEvents JobManager.step manager run) := by
  refine agrees_halves agrees _ (.inl halves) ?_ ?_ ?_
  · intro entry origin
    refine matched_modifyAt (agrees.matched_of_origin origin) ?_
    intro state found isEntry _ _
    exact ⟨by simp [rowStatus], (agrees.unfinished_of_origin never origin isEntry).symm⟩
  · intro absent uncreated
    rw [agrees.fresh_of_absent absent uncreated]
    exact modifyAt_none jobId _
  · intro _ entry origin state here
    exact agrees.unfinished_modified never origin here fun _ => rfl

theorem agrees_setCompleted {result : PipelineOutput} {resultJson : Option String}
    (halves : run.filter (Step.concerns jobId) =
      [.statement (.updateCompleted jobId resultJson) now true,
        .change (.completed jobId result) later]) :
    CacheAgrees jobId row (done ++ [.setCompleted jobId result])
      (runEvents JobManager.step manager run) := by
  refine agrees_halves agrees _ (.inl halves) ?_ ?_ ?_
  · intro entry origin
    refine matched_modifyAt (agrees.matched_of_origin origin) ?_
    intro state found _ _ _
    exact ⟨by simp [rowStatus], rfl⟩
  · intro absent uncreated
    rw [agrees.fresh_of_absent absent uncreated]
    exact modifyAt_none jobId _
  · intro never
    exact absurd (List.mem_append_right done List.mem_cons_self) (never result)

theorem agrees_setFailed {error : String}
    (halves : run.filter (Step.concerns jobId) =
      [.statement (.updateFailed jobId error) now true, .change (.failed jobId error) later]) :
    CacheAgrees jobId row (done ++ [.setFailed jobId error]) (runEvents JobManager.step manager run) := by
  refine agrees_halves agrees _ (.inl halves) ?_ ?_ ?_
  · intro entry origin
    refine matched_modifyAt (agrees.matched_of_origin origin) ?_
    intro state found _ _ progress
    exact ⟨by simp [rowStatus, JobState.fail], progress⟩
  · intro absent uncreated
    rw [agrees.fresh_of_absent absent uncreated]
    exact modifyAt_none jobId _
  · intro never entry origin state here
    exact agrees.unfinished_modified
      (fun result member => never result (List.mem_append_left _ member)) origin here fun _ => rfl

theorem agrees_failAllActive {visited : List String} {error : String}
    (halves : run.filter (Step.concerns jobId) =
      [.change (.failActive jobId error) later, .statement (.failStaleJobs error) now true]) :
    CacheAgrees jobId row (done ++ [.failAllActive visited error])
      (runEvents JobManager.step manager run) := by
  refine agrees_halves agrees _ (.inr halves) ?_ ?_ ?_
  · intro entry origin state here
    simp only [Change.apply, modifyAt, if_true] at here
    obtain ⟨old, isEntry, rfl⟩ := Option.map_eq_some_iff.mp here
    obtain ⟨found, isRow, status, progress⟩ := agrees.matched_of_origin origin old isEntry
    have active := isActive_iff status
    simp only [Statement.execute, failStaleJobs, isRow, Option.map_some]
    refine ⟨_, rfl, ?_⟩
    by_cases isActive : old.isActive = true
    · rw [if_pos isActive, if_pos (active.mp isActive)]
      exact ⟨by simp [rowStatus, JobState.fail], progress⟩
    · rw [if_neg isActive, if_neg (mt active.mpr isActive)]
      exact ⟨status, progress⟩
  · intro absent uncreated
    rw [agrees.fresh_of_absent absent uncreated]
    rfl
  · intro never entry origin state here
    refine agrees.unfinished_modified
      (fun result member => never result (List.mem_append_left _ member)) origin here fun old => ?_
    split <;> rfl

end Call

section Run

variable {resultJson : PipelineOutput → Option String} {jobId : String} {row : Option JobRow}

theorem filter_visits {visits : List (String × Nat)} {error : String}
    (once : (visits.map Prod.fst).count jobId = 1) :
    ∃ later, (visits.map fun visit => Step.change (.failActive visit.1 error) visit.2).filter
      (Step.concerns jobId) = [.change (.failActive jobId error) later] := by
  have length : (visits.filter fun visit => visit.1 == jobId).length = 1 := by
    rw [← once, List.count, List.countP_map, List.countP_eq_length_filter]
    rfl
  obtain ⟨visit, one⟩ := List.length_eq_one_iff.mp length
  have found : visit ∈ visits.filter fun visit => visit.1 == jobId := by
    rw [one]
    exact List.mem_cons_self
  have same : visit.1 = jobId := by simpa using (List.mem_filter.mp found).2
  refine ⟨visit.2, ?_⟩
  rw [List.filter_map]
  have sameFilter : (Step.concerns jobId ∘ fun visit : String × Nat =>
      Step.change (.failActive visit.1 error) visit.2) = fun visit => visit.1 == jobId := rfl
  rw [sameFilter, one, List.map_singleton, same]

variable {manager : JobManager} {run : List Step}

theorem agrees_of_halves {done : List Call} (agrees : CacheAgrees jobId row done manager)
    {call : Call} {statement : Statement} {change : Change} {now later : Nat} {ok : Bool}
    (both : statement.concerns jobId = change.concerns jobId)
    (own : run.filter (Step.concerns jobId) =
      [Step.statement statement now ok, Step.change change later].filter (Step.concerns jobId))
    (succeeds : ∀ step ∈ run, step.concerns jobId = true → step.succeeds = true)
    (forJob : statement.concerns jobId = true → run.filter (Step.concerns jobId) =
        [.statement statement now true, .change change later] →
      CacheAgrees jobId row (done ++ [call]) (runEvents JobManager.step manager run)) :
    CacheAgrees jobId row (done ++ [call]) (runEvents JobManager.step manager run) := by
  cases concerns : statement.concerns jobId with
  | false =>
    rw [concerns] at both
    refine agrees_quiet agrees call ?_
    rw [own, List.filter_eq_nil_iff]
    intro step member
    rcases List.mem_cons.mp member with rfl | second
    · simpa [Step.concerns] using concerns
    · rw [List.mem_singleton.mp second]
      simpa [Step.concerns] using both.symm
  | true =>
    rw [concerns] at both
    have whole : [Step.statement statement now ok, Step.change change later].filter
        (Step.concerns jobId) = [.statement statement now ok, .change change later] := by
      simp [Step.concerns, concerns, ← both]
    rw [whole] at own
    have inRun : Step.statement statement now ok ∈ run.filter (Step.concerns jobId) := by
      rw [own]
      exact List.mem_cons_self
    obtain rfl : ok = true := succeeds _ (List.mem_filter.mp inRun).1 concerns
    exact forJob concerns own

theorem agrees_call {done : List Call} (agrees : CacheAgrees jobId row done manager) {call : Call}
    {steps : List Step} (takes : call.Takes resultJson steps)
    (own : run.filter (Step.concerns jobId) = steps.filter (Step.concerns jobId))
    (succeeds : ∀ step ∈ run, step.concerns jobId = true → step.succeeds = true)
    (visited : ∀ visited error, call = .failAllActive visited error → visited.count jobId = 1)
    (created : ∀ pipeline, call = .create jobId pipeline →
      row = none ∧ ∀ other, Call.create jobId other ∉ done)
    (started : call = .setRunning jobId → ∀ result, Call.setCompleted jobId result ∉ done) :
    CacheAgrees jobId row (done ++ [call]) (runEvents JobManager.step manager run) := by
  cases takes with
  | create target pipeline now later ok =>
    refine agrees_of_halves agrees rfl own succeeds fun forJob halves => ?_
    obtain rfl := beq_iff_eq.mp forJob
    obtain ⟨absent, first⟩ := created pipeline rfl
    exact agrees_create agrees halves absent first
  | setRunning target now later ok =>
    refine agrees_of_halves agrees rfl own succeeds fun forJob halves => ?_
    obtain rfl := beq_iff_eq.mp forJob
    exact agrees_setRunning agrees halves (started rfl)
  | setCompleted target result now later ok =>
    refine agrees_of_halves agrees rfl own succeeds fun forJob halves => ?_
    obtain rfl := beq_iff_eq.mp forJob
    exact agrees_setCompleted agrees halves
  | setFailed target error now later ok =>
    refine agrees_of_halves agrees rfl own succeeds fun forJob halves => ?_
    obtain rfl := beq_iff_eq.mp forJob
    exact agrees_setFailed agrees halves
  | failAllActive visits error now ok =>
    obtain ⟨later, one⟩ := @filter_visits jobId visits error (visited _ error rfl)
    rw [List.filter_append, one] at own
    have inRun : Step.statement (.failStaleJobs error) now ok ∈
        run.filter (Step.concerns jobId) := by
      rw [own]
      exact List.mem_cons_of_mem _ List.mem_cons_self
    obtain rfl : ok = true := succeeds _ (List.mem_filter.mp inRun).1 rfl
    exact agrees_failAllActive agrees own

theorem agrees_calls {done calls : List Call} (agrees : CacheAgrees jobId row done manager)
    {steps : List Step} (takes : TakesAll resultJson calls steps)
    (own : run.filter (Step.concerns jobId) = steps.filter (Step.concerns jobId))
    (succeeds : ∀ step ∈ run, step.concerns jobId = true → step.succeeds = true)
    (visited : ∀ visited error, Call.failAllActive visited error ∈ calls → visited.count jobId = 1)
    (orderly : Orderly jobId row (done ++ calls)) :
    CacheAgrees jobId row (done ++ calls) (runEvents JobManager.step manager run) := by
  induction takes generalizing done manager run with
  | nil =>
    obtain ⟨rowAfter, entryAfter⟩ := quiet_run jobId manager own
    rw [List.append_nil]
    refine
      { pool := (manager.pool_isSome_run run).trans agrees.pool
        matched := ?_
        fresh := fun absent first => rowAfter.trans (agrees.fresh absent first)
        unfinished := fun never state here => ?_ }
    · rw [rowAfter]
      exact agrees.matched_of_origin entryAfter
    · exact agrees.unfinished_of_origin never entryAfter here
  | @cons call callSteps calls rest first _ ih =>
    rw [List.filter_append] at own
    obtain ⟨early, late, rfl, ownEarly, ownLate⟩ := List.filter_eq_append_iff.mp own
    rw [runEvents_append]
    have split : done ++ call :: calls = done ++ [call] ++ calls := by
      rw [List.append_assoc, List.singleton_append]
    have next := agrees_call agrees first ownEarly
      (fun step member => succeeds step (List.mem_append_left _ member))
      (fun others error same => visited others error (same ▸ List.mem_cons_self))
      (fun pipeline same => orderly.created done pipeline calls (same ▸ rfl))
      (fun same => orderly.started done calls (same ▸ rfl))
    rw [split] at orderly ⊢
    exact ih next ownLate (fun step member => succeeds step (List.mem_append_right _ member))
      (fun others error member => visited others error (List.mem_cons_of_mem _ member)) orderly

end Run

theorem getJobStatus_evicted {manager : JobManager} {jobId : String} {now ttl moment : Nat}
    (here : manager.jobs jobId = some state)
    (matched : Matched (manager.jobs jobId) (manager.rowOf jobId))
    (stale : state.isStale now ttl = true) :
    (manager.step (.evict now ttl)).getJobStatus moment true jobId =
      (manager.getJobStatus moment true jobId).map JobStatusResponse.withoutResult := by
  obtain ⟨found, isRow, status, progress⟩ := matched state here
  have gone : (manager.step (.evict now ttl)).jobs jobId = none := by
    show Option.filter _ (manager.jobs jobId) = none
    rw [here, Option.filter_some_neg]
    simp [stale]
  have fetched : (manager.step (.evict now ttl)).getOrFetch moment true jobId =
      some (jobRowToState moment found) := by
    rw [JobManager.getOrFetch, gone]
    show Option.map _ (manager.rowOf jobId) = _
    rw [isRow]
    rfl
  have cached : manager.getOrFetch moment true jobId = some state := by
    rw [JobManager.getOrFetch, here]
  rw [JobManager.getJobStatus, JobManager.getJobStatus, fetched, cached]
  have sameStatus : (jobRowToState moment found).status = state.status := status
  have sameProgress : (jobRowToState moment found).progress = state.progress := progress
  simp only [Option.map_some, statusResponse, sameStatus, sameProgress]
  cases state.status <;> rfl

/-- After calls for a job that do not overlap, from a store that has no row of a job yet to be
created and an empty cache, an eviction changes nothing in the answer for the job but that it
leaves the result out. -/
theorem eviction_leaves_result_out (resultJson : PipelineOutput → Option String)
    (manager : JobManager) (run : List Step) (jobId : String) (calls : List Call)
    (attached : manager.pool.isSome = true) (empty : manager.jobs jobId = none)
    (oneByOne : OneByOne resultJson jobId calls run)
    (orderly : Orderly jobId (manager.rowOf jobId) calls) (now ttl moment : Nat) :
    let reached := runEvents JobManager.step manager run
    (reached.step (.evict now ttl)).getJobStatus moment true jobId =
      if (reached.jobs jobId).any (JobState.isStale now ttl) then
        (reached.getJobStatus moment true jobId).map JobStatusResponse.withoutResult
      else reached.getJobStatus moment true jobId := by
  intro reached
  obtain ⟨steps, takes, own⟩ := oneByOne.taken
  have start : CacheAgrees jobId (manager.rowOf jobId) [] manager :=
    { pool := attached
      matched := by
        rw [empty]
        exact matched_none _
      fresh := fun absent _ => absent
      unfinished := fun _ state here => absurd (empty.symm.trans here) (Option.some_ne_none state).symm }
  have agrees := agrees_calls start takes own oneByOne.succeeds oneByOne.visited orderly
  cases here : reached.jobs jobId with
  | none =>
    rw [Option.any_none, if_neg Bool.false_ne_true]
    have gone : (reached.step (.evict now ttl)).jobs jobId = none := by
      show Option.filter _ (reached.jobs jobId) = none
      rw [here]
      rfl
    simp only [JobManager.getJobStatus, JobManager.getOrFetch, gone, here]
    rfl
  | some state =>
    rw [Option.any_some]
    cases stale : state.isStale now ttl with
    | true =>
      rw [if_pos rfl]
      exact getJobStatus_evicted here agrees.matched stale
    | false =>
      rw [if_neg Bool.false_ne_true]
      have stays : (reached.step (.evict now ttl)).jobs jobId = some state := by
        show Option.filter _ (reached.jobs jobId) = _
        rw [here, Option.filter_some_pos]
        simp [stale]
      simp only [JobManager.getJobStatus, JobManager.getOrFetch, stays, here]

theorem pipelineCalls_orderly : Orderly "job" none pipelineCalls where
  created := by
    intro before pipeline after split
    rcases before with _ | ⟨first, _ | ⟨second, _ | ⟨third, rest⟩⟩⟩ <;> simp [pipelineCalls] at split
    exact ⟨rfl, fun _ => List.not_mem_nil⟩
  started := by
    intro before after split
    rcases before with _ | ⟨first, _ | ⟨second, _ | ⟨third, rest⟩⟩⟩ <;> simp [pipelineCalls] at split
    intro result member
    rw [List.mem_singleton] at member
    rw [← member] at split
    cases split.1

theorem pipelineCalls_oneByOne :
    OneByOne (fun _ => none) "job" pipelineCalls (beginningSteps ++ finishingSteps) where
  taken := ⟨_, pipelineCalls_take, rfl⟩
  succeeds := by decide
  visited := fun visited error member => by simp [pipelineCalls] at member

theorem eviction_leaves_result_out_pipeline :
    ((runEvents JobManager.step freshManager (beginningSteps ++ finishingSteps)).step
      (.evict 100 60)).getJobStatus 100 true "job" = some ⟨"job", .completed, 1, none, none⟩ :=
  (eviction_leaves_result_out (fun _ => none) freshManager _ "job" pipelineCalls rfl rfl
    pipelineCalls_oneByOne pipelineCalls_orderly 100 60 100).trans (by decide)

/-- An eviction changes no answer. -/
def Transparent (manager : JobManager) (jobId : String) : Prop :=
  ∀ now ttl moment, (manager.step (.evict now ttl)).getJobStatus moment true jobId =
    manager.getJobStatus moment true jobId

/-- The pipeline's job is completed with its result, evicted, and read back without it. -/
theorem eviction_not_transparent :
    ¬ ∀ (resultJson : PipelineOutput → Option String) (manager : JobManager)
      (tasks : List (List Call)) (run : List Step), manager.pool.isSome = true →
        (∀ jobId, manager.jobs jobId = none) → RunOf resultJson tasks run →
          ∀ jobId, Transparent (runEvents JobManager.step manager run) jobId := by
  intro always
  have alone := always (fun _ => none) freshManager [pipelineCalls]
    (beginningSteps ++ finishingSteps) rfl (fun _ => rfl)
    pipelineCalls_run
  exact absurd (alone "job" 100 60 100) (by decide)

end Ukip.Engine
