import Ukip.Core.Clock
import Ukip.Foundation.Redelivery
import Ukip.Foundation.UnitOfWork

/-!
# Deliveries of an import

`_execute_import` as one delivery of its job runs it.  Everything it stores is pending
in its own transaction until the commit at its end, so a delivery that is lost before
leaves nothing; look-ups see the committed rows and the delivery's own.  Serial ids of
the new rows are left out, the run columns of the schedule are those of
`Schedules.Records`.
-/

namespace Ukip.Schedules.ImportDelivery

open Core.Clock Foundation.EventRun Foundation.Redelivery Foundation.UnitOfWork

structure ImportSchedule where
  id : Nat
  orgId : Option Nat
  storeId : Nat
  deriving DecidableEq

structure StoreConnection where
  orgId : Option Nat
  isActive : Bool

structure RemoteEntity where
  remoteId : String
  name : String
  canonicalUrl : Option String
  sku : Option String
  price : Option String
  stock : Option String
  status : Option String
  rawData : Option String
  deriving DecidableEq

inductive SyncStatus where
  | pending
  | synced
  | conflict
  | error
  deriving DecidableEq

structure StoreSyncMapping where
  storeId : Nat
  remote : RemoteEntity
  syncStatus : SyncStatus
  createdAt : Time
  deriving DecidableEq

inductive SyncDirection where
  | pull
  | push
  deriving DecidableEq

inductive QueueStatus where
  | pending
  | approved
  | rejected
  | applied
  deriving DecidableEq

structure SyncQueueItem where
  storeId : Nat
  direction : SyncDirection
  entityName : String
  canonicalUrl : Option String
  field : String
  remoteValue : String
  status : QueueStatus
  createdAt : Time
  deriving DecidableEq

inductive SuggestionStatus where
  | autoAcceptable
  | reviewRequired
  | accepted
  | rejected
  | superseded
  deriving DecidableEq

structure MappingSuggestion where
  orgId : Option Nat
  sourceId : String
  sourceSchema : Option String
  sourceField : String
  canonicalTarget : String
  status : SuggestionStatus
  deriving DecidableEq

inductive PullDetails where
  | result (totalFetched newMappings newQueueItems skipped : Nat)
  | error (text : String)
  deriving DecidableEq

inductive LogStatus where
  | success
  | error
  deriving DecidableEq

structure SyncLog where
  storeId : Nat
  action : String
  status : LogStatus
  recordsAffected : Nat
  details : PullDetails
  executedAt : Time
  deriving DecidableEq

structure PullAudit where
  action : String
  entityType : String
  entityId : Nat
  entitiesImported : Nat
  queueItems : Nat
  deriving DecidableEq

structure ImportTotals where
  totalRuns : Option Int
  totalEntitiesImported : Option Int
  deriving DecidableEq

structure ImportEffects where
  totals : ImportTotals
  mappings : List StoreSyncMapping
  queue : List SyncQueueItem
  suggestions : List MappingSuggestion
  /-- each with the delivery that wrote it -/
  syncLogs : List (Nat × SyncLog)
  auditLogs : List PullAudit

structure ImportRun where
  schedule : ImportSchedule
  now : Time
  loaded : ImportTotals
  fetched : List RemoteEntity
  suggested : List MappingSuggestion
  /-- remote entities the loop has not come to yet -/
  rest : List RemoteEntity
  pulled : List RemoteEntity
  skipped : Nat
  deriving DecidableEq

inductive ImportWork where
  | idle
  /-- the handler has returned without a schedule to execute -/
  | skipped
  /-- the running marker is committed -/
  | begun (schedule : ImportSchedule) (now : Time)
  /-- no store, an inactive one, or one of another tenant -/
  | refused
  | fetching (run : ImportRun)
  | profiling (run : ImportRun)
  | pulling (run : ImportRun)
  | returned (success : Bool)
  /-- an exception has escaped, or the process is gone -/
  | lost
  deriving DecidableEq

inductive ImportEvent where
  | begin (now : Time)
  | load (store : Option StoreConnection)
  | fetch (entities : List RemoteEntity)
  /-- the profile proposes a target for a field -/
  | suggest (sourceSchema : Option String) (sourceField canonicalTarget : String)
      (status : SuggestionStatus)
  | profiled
  /-- the loop body, for the next entity -/
  | pull
  | finish
  /-- fetching or profiling raises: the error is committed -/
  | fail (error : String)
  /-- the error of a refused store is committed -/
  | refuse
  | lose

def acceptsStore (schedule : ImportSchedule) (store : Option StoreConnection) : Bool :=
  store.any fun connection => connection.isActive && connection.orgId == schedule.orgId

def sourceId (schedule : ImportSchedule) : String :=
  "scheduled_import:" ++ Nat.repr schedule.id

def isOpenSuggestion (suggestion : MappingSuggestion) : Bool :=
  suggestion.status ∉ [SuggestionStatus.rejected, .superseded]

def sameSuggestion (first second : MappingSuggestion) : Bool :=
  first.orgId == second.orgId && first.sourceId == second.sourceId &&
    first.sourceSchema == second.sourceSchema && first.sourceField == second.sourceField &&
    first.canonicalTarget == second.canonicalTarget

/-- `_persist_suggestion`: an open suggestion of the same content is kept instead. -/
def persistSuggestion (stored pending : List MappingSuggestion) (suggestion : MappingSuggestion) :
    List MappingSuggestion :=
  if (stored ++ pending).any fun found =>
      sameSuggestion found suggestion && isOpenSuggestion found then pending
  else pending ++ [suggestion]

def pullNext (mappings : List StoreSyncMapping) (run : ImportRun) (entity : RemoteEntity)
    (rest : List RemoteEntity) : ImportRun :=
  let known := mappings.any fun mapping =>
    mapping.storeId == run.schedule.storeId && mapping.remote.canonicalUrl == entity.canonicalUrl
  let own := run.pulled.any fun other => other.canonicalUrl == entity.canonicalUrl
  if entity.canonicalUrl.all (· == "") || known || own then
    { run with rest := rest, skipped := run.skipped + 1 }
  else { run with rest := rest, pulled := run.pulled ++ [entity] }

def mappingOf (run : ImportRun) (entity : RemoteEntity) : StoreSyncMapping where
  storeId := run.schedule.storeId
  remote := entity
  syncStatus := .pending
  createdAt := run.now

def queueItemOf (run : ImportRun) (entity : RemoteEntity) : SyncQueueItem where
  storeId := run.schedule.storeId
  direction := .pull
  entityName := entity.name
  canonicalUrl := entity.canonicalUrl
  field := "new_entity"
  remoteValue := entity.name
  status := .pending
  createdAt := run.now

def successLog (run : ImportRun) : SyncLog where
  storeId := run.schedule.storeId
  action := "scheduled_pull"
  status := .success
  recordsAffected := run.pulled.length + run.pulled.length
  details := .result run.fetched.length run.pulled.length run.pulled.length run.skipped
  executedAt := run.now

def errorLog (run : ImportRun) (error : String) : SyncLog where
  storeId := run.schedule.storeId
  action := "scheduled_pull"
  status := .error
  recordsAffected := 0
  details := .error error
  executedAt := run.now

def pullAudit (run : ImportRun) : PullAudit where
  action := "scheduled_pull"
  entityType := "store"
  entityId := run.schedule.storeId
  entitiesImported := run.pulled.length
  queueItems := run.pulled.length

/-- `(column or 0) + amount`, flushed over the stored value. -/
def increased (loaded : Option Int) (amount : Nat) (stored : Option Int) : Option Int :=
  flushColumn loaded (some (loaded.getD 0 + amount)) stored

def committed (delivery : Nat) (run : ImportRun) (effects : ImportEffects) : ImportEffects where
  totals :=
    { totalRuns := increased run.loaded.totalRuns 1 effects.totals.totalRuns
      totalEntitiesImported :=
        increased run.loaded.totalEntitiesImported run.pulled.length
          effects.totals.totalEntitiesImported }
  mappings := effects.mappings ++ run.pulled.map (mappingOf run)
  queue := effects.queue ++ run.pulled.map (queueItemOf run)
  suggestions := effects.suggestions ++ run.suggested
  syncLogs := effects.syncLogs ++ [(delivery, successLog run)]
  auditLogs := effects.auditLogs ++ [pullAudit run]

/-- The last commit after a failed fetch or profile, which keeps the suggestions made
so far. -/
def committedError (delivery : Nat) (run : ImportRun) (error : String) (effects : ImportEffects) :
    ImportEffects :=
  { effects with
    totals :=
      { effects.totals with
        totalRuns := increased run.loaded.totalRuns 1 effects.totals.totalRuns }
    suggestions := effects.suggestions ++ run.suggested
    syncLogs := effects.syncLogs ++ [(delivery, errorLog run error)] }

def actImport (target : Option ImportSchedule) (delivery : Nat) (effects : ImportEffects)
    (work : ImportWork) (event : ImportEvent) : ImportEffects × ImportWork :=
  match event, work with
  | .begin now, .idle =>
    match target with
    | none => (effects, .skipped)
    | some schedule => (effects, .begun schedule now)
  | .load store, .begun schedule now =>
    if acceptsStore schedule store then
      (effects, .fetching ⟨schedule, now, effects.totals, [], [], [], [], 0⟩)
    else (effects, .refused)
  | .refuse, .refused => (effects, .returned false)
  | .fetch entities, .fetching run => (effects, .profiling { run with fetched := entities })
  | .suggest sourceSchema sourceField canonicalTarget status, .profiling run =>
    let suggestion : MappingSuggestion :=
      { orgId := run.schedule.orgId
        sourceId := sourceId run.schedule
        sourceSchema := sourceSchema
        sourceField := sourceField
        canonicalTarget := canonicalTarget
        status := status }
    (effects, .profiling { run with
      suggested := persistSuggestion effects.suggestions run.suggested suggestion })
  | .profiled, .profiling run => (effects, .pulling { run with rest := run.fetched })
  | .fail error, .fetching run => (committedError delivery run error effects, .returned false)
  | .fail error, .profiling run => (committedError delivery run error effects, .returned false)
  | .pull, .pulling run =>
    match run.rest with
    | [] => (effects, work)
    | entity :: rest => (effects, .pulling (pullNext effects.mappings run entity rest))
  | .finish, .pulling run =>
    match run.rest with
    | [] => (committed delivery run effects, .returned true)
    | _ :: _ => (effects, work)
  | .lose, .begun _ _ => (effects, .lost)
  | .lose, .refused => (effects, .lost)
  | .lose, .fetching _ => (effects, .lost)
  | .lose, .profiling _ => (effects, .lost)
  | .lose, .pulling _ => (effects, .lost)
  | _, _ => (effects, work)

abbrev ImportCrowd := Crowd ImportEffects ImportWork

def importStart (totals : ImportTotals) (mappings : List StoreSyncMapping)
    (suggestions : List MappingSuggestion) : ImportCrowd where
  effects := ⟨totals, mappings, [], suggestions, [], []⟩
  works := fun _ => .idle

/-- The handler has executed the import and returned. -/
def ImportSucceeded (work : ImportWork) : Prop := work = .returned true

instance decidableImportSucceeded (work : ImportWork) : Decidable (ImportSucceeded work) :=
  inferInstanceAs (Decidable (work = _))

structure ImportObserved where
  totals : ImportTotals
  mappings : List StoreSyncMapping
  queue : List SyncQueueItem
  suggestions : List MappingSuggestion
  syncLogs : List SyncLog
  auditLogs : List PullAudit
  deriving DecidableEq

def observedImport (effects : ImportEffects) : ImportObserved where
  totals := effects.totals
  mappings := effects.mappings
  queue := effects.queue
  suggestions := effects.suggestions
  syncLogs := effects.syncLogs.map Prod.snd
  auditLogs := effects.auditLogs

/-- The event is the last commit of a success, or of a failed fetch or profile. -/
def CommitsRun (work : ImportWork) (event : ImportEvent) : Prop :=
  (event = .finish ∧ ∃ run, work = .pulling run ∧ run.rest = []) ∨
    ∃ error run, event = .fail error ∧ (work = .fetching run ∨ work = .profiling run)

def Commits (crowd : ImportCrowd) (moved : Nat × ImportEvent) : Prop :=
  CommitsRun (crowd.works moved.1) moved.2

def loggers (effects : ImportEffects) : List Nat := effects.syncLogs.map Prod.fst

variable (target : Option ImportSchedule) (delivery : Nat)

theorem loggers_act (effects : ImportEffects) (work : ImportWork) (event : ImportEvent) :
    (CommitsRun work event → loggers (actImport target delivery effects work event).1 =
        loggers effects ++ [delivery]) ∧
      (¬ CommitsRun work event → (actImport target delivery effects work event).1 = effects) := by
  constructor
  · rintro (⟨rfl, run, rfl, done⟩ | ⟨error, run, rfl, rfl | rfl⟩)
    · simp [actImport, done, committed, loggers]
    · simp [actImport, committedError, loggers]
    · simp [actImport, committedError, loggers]
  · intro keeps
    cases work with
    | idle => cases event <;> cases target <;> rfl
    | begun schedule now =>
      cases event with
      | load store =>
        simp only [actImport]
        split <;> rfl
      | _ => rfl
    | fetching run =>
      cases event with
      | fail error => exact absurd (.inr ⟨error, run, rfl, .inl rfl⟩) keeps
      | _ => rfl
    | profiling run =>
      cases event with
      | fail error => exact absurd (.inr ⟨error, run, rfl, .inr rfl⟩) keeps
      | _ => rfl
    | pulling run =>
      cases remaining : run.rest with
      | nil =>
        cases event with
        | finish => exact absurd (.inl ⟨rfl, run, rfl, remaining⟩) keeps
        | pull => simp only [actImport, remaining]
        | _ => rfl
      | cons entity rest =>
        cases event with
        | finish => simp only [actImport, remaining]
        | pull => simp only [actImport, remaining]
        | _ => rfl
    | _ => cases event <;> rfl

variable (crowd : ImportCrowd) (moved : Nat × ImportEvent)

theorem loggers_marked (commits : Commits crowd moved) :
    loggers (stepDelivery (actImport target) crowd moved).effects =
      loggers crowd.effects ++ [moved.1] :=
  (loggers_act target moved.1 crowd.effects (crowd.works moved.1) moved.2).1 commits

theorem effects_unmarked (keeps : ¬ Commits crowd moved) :
    (stepDelivery (actImport target) crowd moved).effects = crowd.effects :=
  (loggers_act target moved.1 crowd.effects (crowd.works moved.1) moved.2).2 keeps

theorem loggers_unmarked (keeps : ¬ Commits crowd moved) :
    loggers (stepDelivery (actImport target) crowd moved).effects = loggers crowd.effects := by
  rw [effects_unmarked target crowd moved keeps]

def outlineRun (run : ImportRun) : ImportRun :=
  { run with loaded := ⟨none, none⟩, suggested := [], pulled := [], skipped := 0 }

def outline : ImportWork → ImportWork
  | .fetching run => .fetching (outlineRun run)
  | .profiling run => .profiling (outlineRun run)
  | .pulling run => .pulling (outlineRun run)
  | work => work

theorem commitsRun_outline (work : ImportWork) (event : ImportEvent) :
    CommitsRun (outline work) event ↔ CommitsRun work event := by
  cases work <;> simp [CommitsRun, outline, outlineRun]

theorem outlineRun_pullNext (mappings : List StoreSyncMapping) (run : ImportRun)
    (entity : RemoteEntity) (rest : List RemoteEntity) :
    outlineRun (pullNext mappings run entity rest) = outlineRun { run with rest := rest } := by
  unfold pullNext
  simp only
  split <;> rfl

theorem outline_act (effects other : ImportEffects) (work : ImportWork) (event : ImportEvent) :
    outline (actImport target delivery effects work event).2 =
      outline (actImport target delivery other (outline work) event).2 := by
  cases work with
  | idle => cases event <;> cases target <;> rfl
  | begun schedule now =>
    cases event with
    | load store =>
      by_cases accepted : acceptsStore schedule store = true
      · simp only [actImport, outline, if_pos accepted]
        rfl
      · simp only [actImport, outline, if_neg accepted]
    | _ => rfl
  | pulling run =>
    cases event with
    | pull =>
      have sameRest : (outlineRun run).rest = run.rest := rfl
      cases remaining : run.rest with
      | nil => simp only [actImport, outline, sameRest, remaining]; rfl
      | cons entity rest =>
        simp only [actImport, outline, sameRest, remaining]
        rw [outlineRun_pullNext, outlineRun_pullNext]
        rfl
    | finish =>
      cases remaining : run.rest with
      | nil => simp [actImport, outline, outlineRun, remaining]
      | cons entity rest => simp [actImport, outline, outlineRun, remaining]
    | _ => rfl
  | _ => cases event <;> rfl

theorem loggers_count_alone (start : ImportCrowd) (events : List (Nat × ImportEvent)) :
    (loggers (runEvents (stepDelivery (actImport target)) start events).effects).count delivery =
      (loggers (runEvents (stepDelivery (actImport target)) start
        (alone delivery events)).effects).count delivery := by
  have views := view_alone (actImport target) delivery
    (fun effects work => ((loggers effects).count delivery, outline work)) ?_ start events ?_
  · exact congrArg Prod.fst views
  · intro first second firstWork secondWork event same
    obtain ⟨sameCount, sameWork⟩ := Prod.mk.inj same
    have sameCommits : CommitsRun firstWork event ↔ CommitsRun secondWork event := by
      rw [← commitsRun_outline firstWork, sameWork, commitsRun_outline]
    have firstLogs := loggers_act target delivery first firstWork event
    have secondLogs := loggers_act target delivery second secondWork event
    refine Prod.ext ?_ ?_
    · by_cases commits : CommitsRun firstWork event
      · simp only [firstLogs.1 commits, secondLogs.1 (sameCommits.mp commits), List.count_append,
          sameCount]
      · simp only [firstLogs.2 commits, secondLogs.2 (mt sameCommits.mpr commits), sameCount]
    · simp only
      rw [outline_act target delivery first first firstWork, sameWork,
        ← outline_act target delivery second first secondWork]
  · refine everyStep_of_forall start events fun moved _ crowd different => ?_
    refine Prod.ext ?_ rfl
    by_cases commits : Commits crowd moved
    · simp [loggers_marked target crowd moved commits, different]
    · simp only [loggers_unmarked target crowd moved commits]

/-- Every delivery that succeeds in the run makes every last commit of the run. -/
def CommittedByOne (start : ImportCrowd) (events : List (Nat × ImportEvent)) : Prop :=
  ∀ delivery,
    ImportSucceeded ((runEvents (stepDelivery (actImport target)) start events).works delivery) →
      EveryStep (stepDelivery (actImport target))
        (fun crowd moved => Commits crowd moved → moved.1 = delivery) start events

theorem import_effects_alone (start : ImportCrowd) (events : List (Nat × ImportEvent))
    (delivery : Nat)
    (commitsOwn : EveryStep (stepDelivery (actImport target))
      (fun crowd moved => Commits crowd moved → moved.1 = delivery) start events) :
    (runEvents (stepDelivery (actImport target)) start events).effects =
      (runEvents (stepDelivery (actImport target)) start (alone delivery events)).effects := by
  have views := view_alone (actImport target) delivery (fun effects work => (effects, work)) ?_
    start events ?_
  · exact congrArg Prod.fst views
  · intro first second firstWork secondWork event same
    obtain ⟨rfl, rfl⟩ := Prod.mk.inj same
    rfl
  · refine everyStep_mono (fun crowd moved own other => ?_) start events commitsOwn
    rw [effects_unmarked target crowd moved fun commits => other (own commits)]

theorem import_asOneDelivery_iff (totals : ImportTotals) (mappings : List StoreSyncMapping)
    (suggestions : List MappingSuggestion) (events : List (Nat × ImportEvent)) :
    AsOneDelivery (actImport target) ImportSucceeded observedImport
        (importStart totals mappings suggestions) events ↔
      CommittedByOne target (importStart totals mappings suggestions) events := by
  have clean : loggers (importStart totals mappings suggestions).effects = [] := rfl
  refine forall_congr' fun delivery => imp_congr_right fun _ => ?_
  constructor
  · intro same
    have lengths := congrArg (fun observed => observed.syncLogs.length) same
    have only := marks_by_of_length (loggers_marked target) (loggers_unmarked target) delivery _
      events clean (loggers_count_alone target delivery _ events)
      (by simpa [observedImport, loggers] using lengths)
    exact ((marks_by_iff (loggers_marked target) (loggers_unmarked target) delivery _ _).mp only).2
  · intro commitsOwn
    rw [import_effects_alone target _ events delivery commitsOwn]

end Ukip.Schedules.ImportDelivery
