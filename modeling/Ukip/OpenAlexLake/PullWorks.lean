import Ukip.Foundation.EventRun
import Ukip.OpenAlexLake.Store

/-!
# Pulls of works

`run_pull` beside the API that it lists.  A run reads journals or chunks of journals page by
page, while the API may change works between any two requests, and it stops at the rate
limit, at the work limit, by its process's death or at its end.

The days of the runs and of the API's changes are counted by one clock.
-/

namespace Ukip.OpenAlexLake.PullWorks

open Foundation.EventRun Transform Store

/-- A date; its ISO texts compare as these numbers do. -/
abbrev Day := Int

/-- A work as the API has it: `record` is what the lake reads, and `sourceIssns` are all the
ISSNs of its source. -/
structure ProviderWork where
  record : RawWork
  sourceIssns : List String
  updated : Day
  deriving DecidableEq

def ProviderWork.key (work : ProviderWork) : Option String := shortId work.record.id

structure LakeScope where
  issnL : List String
  fieldIds : List Int
  institutionRor : List String
  countryCodes : List String
  yearFrom : Option Int
  yearTo : Option Int
  includeCitations : Bool

inductive Clause where
  | sourceIssn (issns : List String)
  | topicField (fieldIds : List Int)
  | institutionRor (rors : List String)
  | countryCode (codes : List String)
  | fromPublicationDate (year : Int)
  | toPublicationDate (year : Int)
  | fromUpdatedDate (day : Day)

def listClause {Entry : Type} (clause : List Entry → Clause) (entries : List Entry) :
    List Clause :=
  if entries.isEmpty then [] else [clause entries]

def scopeClauses (scope : LakeScope) : List Clause :=
  listClause .topicField scope.fieldIds ++ listClause .institutionRor scope.institutionRor ++
    listClause .countryCode scope.countryCodes ++
    scope.yearFrom.toList.map .fromPublicationDate ++ scope.yearTo.toList.map .toPublicationDate

def buildFilter (scope : LakeScope) (issnChunk : List String) (fromUpdatedDate : Option Day) :
    List Clause :=
  listClause .sourceIssn issnChunk ++ scopeClauses scope ++
    fromUpdatedDate.toList.map .fromUpdatedDate

section

variable (lower : String → String)

def institutionsOf (work : ProviderWork) : List RawInstitution :=
  work.record.authorships.flatMap (·.institutions)

/-- The alternatives of a clause are joined by `|`, and both date bounds are inclusive. -/
def Clause.accepts (work : ProviderWork) : Clause → Bool
  | .sourceIssn issns => issns.any fun issn => work.sourceIssns.contains issn
  | .topicField fieldIds => fieldIds.any fun fieldId =>
    fieldInt (work.record.primaryTopic.bind (·.field)) == some fieldId
  | .institutionRor rors => (institutionsOf work).any fun institution =>
    rors.any fun ror => institution.ror == some ("https://ror.org/" ++ ror)
  | .countryCode codes => (institutionsOf work).any fun institution =>
    codes.any fun code => institution.countryCode.map lower == some (lower code)
  | .fromPublicationDate year =>
    work.record.publicationYear.any fun published => decide (year ≤ published)
  | .toPublicationDate year =>
    work.record.publicationYear.any fun published => decide (published ≤ year)
  | .fromUpdatedDate day => decide (day ≤ work.updated)

def accepts (filter : List Clause) (work : ProviderWork) : Bool :=
  filter.all (Clause.accepts lower work)

def inScope (scope : LakeScope) (work : ProviderWork) : Bool :=
  accepts lower (buildFilter scope scope.issnL none) work

end

/-- The cursor of a listing: `*`, one with the works still to come, or none.  The API lists
each work that matches at the first request and does not change until its page. -/
inductive Cursor where
  | first
  | next (owed : List (Option String))
  | stop
  deriving DecidableEq

/-- `listed` and `remaining` are the journals or chunks that the loop has behind it and
before it; `done` and `pending` belong to a backfill. -/
structure Run where
  runStarted : Day
  existingWatermark : Option Day
  limit : Option Int
  done : List String
  pending : List String
  buffer : RowBuffer
  worksSeen : Nat
  listed : List (List String)
  remaining : List (List String)
  cursor : Cursor
  results : List ProviderWork

structure State where
  today : Day
  provider : List ProviderWork
  store : LakeStore
  watermark : Option Day
  doneIssns : List String
  run : Option Run

inductive Event where
  | passDays (days : Nat)
  /-- The API adds the work or changes it. -/
  | change (work : ProviderWork)
  | withdraw (key : Option String)
  | start (limit : Option Int) (flushEvery : Int)
  | respond (results : List ProviderWork) (last : Bool)
  | rateLimit
  | handle
  /-- The listing of a journal or chunk is over. -/
  | turn
  /-- The loop is over; a backfill that does not clear its checkpoint dies before it can. -/
  | finish (clears : Bool)
  /-- The process dies, perhaps in a flush that has written some tables, and perhaps with
  the next work in its buffer. -/
  | die (takes : Bool) (written : List LakeTable)

def isBackfill (scope : LakeScope) (existingWatermark : Option Day) : Bool :=
  existingWatermark.isNone && !scope.issnL.isEmpty

/-- `list(dict.fromkeys(scope.issn_l))` -/
def allIssns (scope : LakeScope) : List String := scope.issnL.eraseDups

def chunks {Entry : Type} (size : Nat) : Nat → List Entry → List (List Entry)
  | 0, _ => []
  | fuel + 1, entries =>
    if entries.isEmpty then [] else entries.take size :: chunks size fuel (entries.drop size)

/-- `chunk_issns`; the slices are no more than the entries. -/
def chunkIssns (issns : List String) : List (List String) :=
  if issns.isEmpty then [[]] else chunks 50 issns.length issns

def listings (scope : LakeScope) (existingWatermark : Option Day) (pending : List String) :
    List (List String) :=
  if isBackfill scope existingWatermark then pending.map fun issn => [issn]
  else chunkIssns scope.issnL

def Cursor.without (key : Option String) : Cursor → Cursor
  | .first => .first
  | .next owed => .next (owed.filter fun other => other ≠ key)
  | .stop => .stop

def amend (state : State) (key : Option String) (works : List ProviderWork) : State :=
  { state with
    provider := state.provider.filter (fun work => work.key ≠ key) ++ works
    run := state.run.map fun run => { run with cursor := run.cursor.without key } }

def startRun (scope : LakeScope) (state : State) (limit : Option Int) (flushEvery : Int) : Run :=
  let pending := (allIssns scope).filter fun issn => issn ∉ state.doneIssns
  { runStarted := state.today
    existingWatermark := state.watermark
    limit := limit
    done := state.doneIssns
    pending := pending
    buffer := newBuffer flushEvery
    worksSeen := 0
    listed := []
    remaining := listings scope state.watermark pending
    cursor := .first
    results := [] }

/-- In a backfill `existing_watermark` is none, as is the date that its filters pass. -/
def runFilter (scope : LakeScope) (run : Run) (chunk : List String) : List Clause :=
  buildFilter scope chunk run.existingWatermark

section

variable (lower : String → String) (scope : LakeScope)

def versionOf (work : ProviderWork) : Version := ⟨scope.includeCitations, work.record⟩

def owedBefore (state : State) (run : Run) (chunk : List String) : Option (List (Option String)) :=
  match run.cursor with
  | .first =>
    some ((state.provider.filter (accepts lower (runFilter scope run chunk))).map
      ProviderWork.key)
  | .next owed => some owed
  | .stop => none

def respond (state : State) (run : Run) (results : List ProviderWork) (last : Bool) : State :=
  match run.remaining with
  | [] => state
  | chunk :: _ =>
    match owedBefore lower scope state run chunk with
    | none => state
    | some owed =>
      let rest := owed.filter fun key => !results.any fun work => work.key == key
      if run.results = [] ∧
          (∀ work ∈ results,
            work ∈ state.provider ∧ accepts lower (runFilter scope run chunk) work) ∧
          (last → rest = []) then
        { state with
          run := some
            { run with
              results := results
              cursor := if last then .stop else .next rest } }
      else state

def handle (state : State) (run : Run) : State :=
  match run.results with
  | [] => state
  | work :: rest =>
    let worksSeen := run.worksSeen + 1
    let added := addWorkRows ⟨state.store, run.buffer⟩ ((versionOf scope work).rows lower)
    let lake := if worksSeen % 1000 = 0 then flush added else added
    if run.limit.any fun limit => decide (limit ≤ (worksSeen : Int)) then
      { state with store := (flush lake).store, run := none }
    else
      { state with
        store := lake.store
        run := some { run with buffer := lake.buffer, worksSeen := worksSeen, results := rest } }

def turn (state : State) (run : Run) : State :=
  match run.remaining with
  | [] => state
  | chunk :: rest =>
    if run.results = [] ∧ run.cursor = .stop then
      let moved : Run :=
        { run with listed := run.listed ++ [chunk], remaining := rest, cursor := .first }
      if isBackfill scope run.existingWatermark then
        let done := run.done ++ chunk.filter fun issn => issn ∉ run.done
        let lake := flush ⟨state.store, run.buffer⟩
        { state with
          store := lake.store
          doneIssns := done
          run := some { moved with done := done, buffer := lake.buffer } }
      else { state with run := some moved }
    else state

/-- `RateLimitExhausted` at a request. -/
def rateLimit (state : State) (run : Run) : State :=
  if run.remaining ≠ [] ∧ run.results = [] ∧ run.cursor ≠ .stop then
    { state with store := (flush ⟨state.store, run.buffer⟩).store, run := none }
  else state

def complete (run : Run) : Bool :=
  !isBackfill scope run.existingWatermark || decide ((allIssns scope).length ≤ run.done.length)

def finish (state : State) (run : Run) (clears : Bool) : State :=
  if run.remaining = [] then
    let flushed : State :=
      { state with store := (flush ⟨state.store, run.buffer⟩).store, run := none }
    if complete scope run then
      { flushed with
        watermark := some run.runStarted
        doneIssns :=
          if isBackfill scope run.existingWatermark && clears then [] else state.doneIssns }
    else flushed
  else state

def lastBuffer (run : Run) (takes : Bool) : RowBuffer :=
  match takes, run.results with
  | true, work :: _ => extend run.buffer ((versionOf scope work).rows lower)
  | _, _ => run.buffer

def die (state : State) (run : Run) (takes : Bool) (written : List LakeTable) : State :=
  { state with
    store := insertTables (lastBuffer lower scope run takes) state.store written
    run := none }

def advance (state : State) (run : Run) : Event → State
  | .respond results last => respond lower scope state run results last
  | .rateLimit => rateLimit state run
  | .handle => handle lower scope state run
  | .turn => turn scope state run
  | .finish clears => finish scope state run clears
  | .die takes written => die lower scope state run takes written
  | _ => state

def step (state : State) (event : Event) : State :=
  match event with
  | .passDays days => { state with today := state.today + days }
  | .change work => amend state work.key [{ work with updated := state.today }]
  | .withdraw key => amend state key []
  | .start limit flushEvery =>
    match state.run with
    | some _ => state
    | none => { state with run := some (startRun scope state limit flushEvery) }
  | event =>
    match state.run with
    | some run => advance lower scope state run event
    | none => state

def freshState (today : Day) : State where
  today := today
  provider := []
  store := emptyStore
  watermark := none
  doneIssns := []
  run := none

/-- A work of the scope whose rows are missing or older than the API's was updated on the
watermark's day or later, which the next filter lets through. -/
def HidesNothing (state : State) : Prop :=
  ∀ day, state.watermark = some day → ∀ work ∈ state.provider, inScope lower scope work →
    ¬ Holds lower state.store (versionOf scope work) → day ≤ work.updated

/-- A backfill sets its watermark only where the works whose journals were all listed by
earlier runs are still in the lake as the API has them, or were updated since it started. -/
def CheckpointsCurrent (state : State) : Event → Prop
  | .finish _ => ∀ run, state.run = some run → run.remaining = [] → complete scope run →
      isBackfill scope run.existingWatermark → ∀ work ∈ state.provider, inScope lower scope work →
        (∀ issn ∈ work.sourceIssns, issn ∉ run.pending) →
          Holds lower state.store (versionOf scope work) ∨ run.runStarted ≤ work.updated
  | _ => True

end

section

variable {lower : String → String} {scope : LakeScope} {provider : List ProviderWork}
  {started : Day}

/-- The version is the API's of its work, which was otherwise updated since the run began. -/
def Fresh (scope : LakeScope) (provider : List ProviderWork) (started : Day)
    (version : Version) : Prop :=
  ∀ work ∈ provider, version.workId = (versionOf scope work).workId →
    version = versionOf scope work ∨ started ≤ work.updated

structure Buffered (lower : String → String) (scope : LakeScope) (provider : List ProviderWork)
    (started : Day) (lake : Lake) (held : List Version) : Prop where
  carried : ∀ table, lake.buffer.buffers table = rowsOf lower held table
  fresh : ∀ version ∈ held, Fresh scope provider started version

/-- The work is in the lake or on its way, or was updated since the run began. -/
def Covered (lower : String → String) (scope : LakeScope) (started : Day) (lake : Lake)
    (held : List Version) (work : ProviderWork) : Prop :=
  started ≤ work.updated ∨ Holds lower lake.store (versionOf scope work) ∨
    versionOf scope work ∈ held

variable {work : ProviderWork} {held : List Version} {lake : Lake}

theorem stored_of_write (tables : List LakeTable)
    (buffered : Buffered lower scope provider started lake held) (member : work ∈ provider)
    (ready : Holds lower lake.store (versionOf scope work) ∨
      versionOf scope work ∈ held ∧ ∀ table, table ∈ tables) :
    started ≤ work.updated ∨
      Holds lower (insertTables lake.buffer lake.store tables) (versionOf scope work) := by
  by_cases own : ∀ other ∈ held, other.workId = (versionOf scope work).workId →
      other = versionOf scope work
  · exact .inr (holds_insertTables buffered.carried own ready)
  · simp only [not_forall] at own
    obtain ⟨other, among, same, differs⟩ := own
    rcases buffered.fresh other among work member same with equal | updated
    · exact absurd equal differs
    · exact .inl updated

/-- What a lake's step does for the works: `new` are the versions that it takes in. -/
structure Moves (lower : String → String) (scope : LakeScope) (provider : List ProviderWork)
    (started : Day) (lake : Lake) (held : List Version) (new : List Version) (after : Lake)
    (heldAfter : List Version) : Prop where
  buffered : Buffered lower scope provider started after heldAfter
  covers : ∀ work ∈ provider,
    versionOf scope work ∈ new ∨ Covered lower scope started lake held work →
      Covered lower scope started after heldAfter work
  keeps : ∀ work ∈ provider, Holds lower lake.store (versionOf scope work) →
    started ≤ work.updated ∨ Holds lower after.store (versionOf scope work)

theorem Moves.trans {lake middle after : Lake} {held heldMiddle heldAfter new : List Version}
    (first : Moves lower scope provider started lake held new middle heldMiddle)
    (second : Moves lower scope provider started middle heldMiddle [] after heldAfter) :
    Moves lower scope provider started lake held new after heldAfter where
  buffered := second.buffered
  covers := fun work member ready =>
    second.covers work member (.inr (first.covers work member ready))
  keeps := by
    intro work member holds
    rcases first.keeps work member holds with updated | kept
    · exact .inl updated
    · exact second.keeps work member kept

theorem moves_flush (buffered : Buffered lower scope provider started lake held) :
    Moves lower scope provider started lake held [] (flush lake) [] where
  buffered := ⟨fun _ => rfl, fun _ impossible => nomatch impossible⟩
  covers := by
    rintro work member (impossible | updated | ready)
    · cases impossible
    · exact .inl updated
    · have written := stored_of_write allTables buffered member
        (ready.imp_right fun carried => ⟨carried, mem_allTables⟩)
      exact written.imp_right .inl
  keeps := fun work member holds => stored_of_write allTables buffered member (.inl holds)

theorem moves_extend {version : Version}
    (buffered : Buffered lower scope provider started lake held)
    (fresh : Fresh scope provider started version) :
    Moves lower scope provider started lake held [version]
      { lake with buffer := extend lake.buffer (version.rows lower) } (held ++ [version]) where
  buffered := by
    constructor
    · intro table
      rw [rowsOf_append, ← buffered.carried table]
      exact congrArg _ (List.append_nil _).symm
    · intro other member
      rcases List.mem_append.mp member with old | new
      · exact buffered.fresh other old
      · rw [List.mem_singleton.mp new]
        exact fresh
  covers := by
    rintro work _ (new | updated | holds | old)
    · exact .inr (.inr (List.mem_append_right held new))
    · exact .inl updated
    · exact .inr (.inl holds)
    · exact .inr (.inr (List.mem_append_left [version] old))
  keeps := fun _ _ holds => .inr holds

theorem moves_addWorkRows {version : Version}
    (buffered : Buffered lower scope provider started lake held)
    (fresh : Fresh scope provider started version) :
    ∃ heldAfter, Moves lower scope provider started lake held [version]
      (addWorkRows lake (version.rows lower)) heldAfter := by
  have extended := moves_extend buffered fresh
  unfold addWorkRows
  simp only []
  split
  · exact ⟨[], extended.trans (moves_flush extended.buffered)⟩
  · exact ⟨held ++ [version], extended⟩

/-- What holds of a run beside the API: the journals behind it are covered, and the one at
hand is but for the works of its page and those that the cursor owes. -/
structure Underway (lower : String → String) (scope : LakeScope) (state : State) (run : Run)
    (held : List Version) : Prop where
  begun : run.runStarted ≤ state.today
  existing : state.watermark = run.existingWatermark
  notAfter : ∀ day, run.existingWatermark = some day → day ≤ run.runStarted
  loop : run.listed ++ run.remaining = listings scope run.existingWatermark run.pending
  buffered : Buffered lower scope state.provider run.runStarted ⟨state.store, run.buffer⟩ held
  page : ∀ work ∈ run.results, Fresh scope state.provider run.runStarted (versionOf scope work)
  behind : ∀ chunk ∈ run.listed, ∀ work ∈ state.provider,
    accepts lower (runFilter scope run chunk) work →
      Covered lower scope run.runStarted ⟨state.store, run.buffer⟩ held work
  ahead : ∀ chunk rest, run.remaining = chunk :: rest → run.cursor ≠ .first →
    ∀ work ∈ state.provider, accepts lower (runFilter scope run chunk) work →
      Covered lower scope run.runStarted ⟨state.store, run.buffer⟩ held work ∨
        work ∈ run.results ∨ ∃ owed, run.cursor = .next owed ∧ work.key ∈ owed
  atFirst : run.cursor = .first →
    run.results = [] ∧ (isBackfill scope run.existingWatermark → held = [])
  atEnd : run.remaining = [] → run.cursor = .first

structure Dated (lower : String → String) (scope : LakeScope) (state : State) : Prop where
  updated : ∀ work ∈ state.provider, work.updated ≤ state.today
  watermark : ∀ day, state.watermark = some day → day ≤ state.today
  distinct : (state.provider.map ProviderWork.key).Nodup
  underway : ∀ run, state.run = some run → ∃ held, Underway lower scope state run held

variable {state : State}

theorem dated_passDays (days : Nat) (dated : Dated lower scope state) :
    Dated lower scope { state with today := state.today + days } := by
  have later : state.today ≤ state.today + days :=
    Int.le_add_of_nonneg_right (Int.natCast_nonneg days)
  refine ⟨?_, ?_, dated.distinct, ?_⟩
  · intro work member
    exact Int.le_trans (dated.updated work member) later
  · intro day marked
    exact Int.le_trans (dated.watermark day marked) later
  · intro run running
    obtain ⟨held, underway⟩ := dated.underway run running
    exact ⟨held, { underway with begun := Int.le_trans underway.begun later }⟩

variable {key : Option String} {works : List ProviderWork}

theorem mem_amend (member : work ∈ (amend state key works).provider) :
    work ∈ state.provider ∧ work.key ≠ key ∨ work ∈ works := by
  rcases List.mem_append.mp member with old | new
  · obtain ⟨among, other⟩ := List.mem_filter.mp old
    exact .inl ⟨among, of_decide_eq_true other⟩
  · exact .inr new

theorem without_eq_first {cursor : Cursor} : cursor.without key = .first ↔ cursor = .first := by
  cases cursor <;> simp [Cursor.without]

theorem underway_amend {run : Run} (today : ∀ work ∈ works, work.updated = state.today)
    (underway : Underway lower scope state run held) :
    Underway lower scope (amend state key works)
      { run with cursor := run.cursor.without key } held := by
  have since : ∀ work ∈ works, run.runStarted ≤ work.updated := by
    intro work new
    rw [today work new]
    exact underway.begun
  have fresh : ∀ version, Fresh scope state.provider run.runStarted version →
      Fresh scope (amend state key works).provider run.runStarted version := by
    intro version before work member same
    rcases mem_amend member with ⟨old, _⟩ | new
    · exact before work old same
    · exact .inr (since work new)
  refine
    { begun := underway.begun
      existing := underway.existing
      notAfter := underway.notAfter
      loop := underway.loop
      buffered := ⟨underway.buffered.carried, ?_⟩
      page := ?_
      behind := ?_
      ahead := ?_
      atFirst := ?_
      atEnd := ?_ }
  · intro version among
    exact fresh version (underway.buffered.fresh version among)
  · intro work among
    exact fresh _ (underway.page work among)
  · intro chunk listed work member accepted
    rcases mem_amend member with ⟨old, _⟩ | new
    · exact underway.behind chunk listed work old accepted
    · exact .inl (since work new)
  · intro chunk rest remaining notFirst work member accepted
    rcases mem_amend member with ⟨old, other⟩ | new
    · rcases underway.ahead chunk rest remaining (fun first => notFirst
          (without_eq_first.mpr first)) work old accepted with covered | paged | ⟨owed, next, due⟩
      · exact .inl covered
      · exact .inr (.inl paged)
      · refine .inr (.inr ⟨owed.filter fun later => later ≠ key, ?_, ?_⟩)
        · simp only [next, Cursor.without]
        · exact List.mem_filter.mpr ⟨due, decide_eq_true other⟩
    · exact .inl (.inl (since work new))
  · intro first
    exact underway.atFirst (without_eq_first.mp first)
  · intro ended
    exact without_eq_first.mpr (underway.atEnd ended)

theorem dated_amend (today : ∀ work ∈ works, work.updated = state.today ∧ work.key = key)
    (single : (works.map ProviderWork.key).Nodup) (dated : Dated lower scope state) :
    Dated lower scope (amend state key works) := by
  refine ⟨?_, dated.watermark, ?_, ?_⟩
  · intro work member
    rcases mem_amend member with ⟨old, _⟩ | new
    · exact dated.updated work old
    · exact Int.le_of_eq (today work new).1
  · change ((state.provider.filter (fun work => work.key ≠ key) ++ works).map
      ProviderWork.key).Nodup
    rw [List.map_append, List.nodup_append]
    refine ⟨dated.distinct.sublist (List.filter_sublist.map _), single, ?_⟩
    intro first firstKey second secondKey same
    obtain ⟨old, kept, rfl⟩ := List.mem_map.mp firstKey
    obtain ⟨new, among, rfl⟩ := List.mem_map.mp secondKey
    exact of_decide_eq_true (List.mem_filter.mp kept).2 (same.trans (today new among).2)
  · intro run running
    obtain ⟨before, began, rfl⟩ := Option.map_eq_some_iff.mp running
    obtain ⟨held, underway⟩ := dated.underway before began
    exact ⟨held, underway_amend (fun work new => (today work new).1) underway⟩

variable {state : State} {run : Run} {held : List Version} {after : State}

theorem dated_after (dated : Dated lower scope state) (today : after.today = state.today)
    (provider : after.provider = state.provider) (mark : after.watermark = state.watermark)
    (underway : ∀ next, after.run = some next → ∃ held, Underway lower scope after next held) :
    Dated lower scope after where
  updated := by
    rw [today, provider]
    exact dated.updated
  watermark := by
    rw [today, mark]
    exact dated.watermark
  distinct := by
    rw [provider]
    exact dated.distinct
  underway := underway

theorem dated_stopped (dated : Dated lower scope state) (today : after.today = state.today)
    (provider : after.provider = state.provider) (mark : after.watermark = state.watermark)
    (stopped : after.run = none) :
    Dated lower scope after := by
  refine dated_after dated today provider mark fun next running => ?_
  rw [stopped] at running
  cases running

theorem dated_start (dated : Dated lower scope state) (limit : Option Int) (flushEvery : Int) :
    Dated lower scope { state with run := some (startRun scope state limit flushEvery) } := by
  refine dated_after dated rfl rfl rfl fun next begun => ⟨[], ?_⟩
  obtain rfl := Option.some.inj begun
  exact
    { begun := Int.le_refl _
      existing := rfl
      notAfter := dated.watermark
      loop := rfl
      buffered := ⟨fun _ => rfl, fun _ impossible => nomatch impossible⟩
      page := fun _ impossible => nomatch impossible
      behind := fun _ impossible => nomatch impossible
      ahead := fun _ _ _ notFirst => absurd rfl notFirst
      atFirst := fun _ => ⟨rfl, fun _ => rfl⟩
      atEnd := fun _ => rfl }

theorem owed_of_uncovered (underway : Underway lower scope state run held) {chunk : List String}
    {rest : List (List String)} {owed : List (Option String)}
    (remaining : run.remaining = chunk :: rest) (read : run.results = [])
    (before : owedBefore lower scope state run chunk = some owed) (member : work ∈ state.provider)
    (accepted : accepts lower (runFilter scope run chunk) work) :
    Covered lower scope run.runStarted ⟨state.store, run.buffer⟩ held work ∨ work.key ∈ owed := by
  cases cursor : run.cursor with
  | first =>
    rw [owedBefore, cursor] at before
    obtain rfl := Option.some.inj before
    exact .inr (List.mem_map.mpr ⟨work, List.mem_filter.mpr ⟨member, accepted⟩, rfl⟩)
  | next later =>
    rw [owedBefore, cursor] at before
    obtain rfl := Option.some.inj before
    rcases underway.ahead chunk rest remaining (by rw [cursor]; nofun) work member accepted with
      covered | paged | ⟨owed, next, due⟩
    · exact .inl covered
    · rw [read] at paged
      cases paged
    · rw [cursor] at next
      cases next
      exact .inr due
  | stop =>
    rw [owedBefore, cursor] at before
    cases before

theorem dated_respond (dated : Dated lower scope state) (running : state.run = some run)
    (results : List ProviderWork) (last : Bool) :
    Dated lower scope (respond lower scope state run results last) := by
  obtain ⟨held, underway⟩ := dated.underway run running
  unfold respond
  split
  · exact dated
  rename_i chunk rest remaining
  split
  · exact dated
  rename_i owed before
  dsimp only
  split
  · rename_i valid
    obtain ⟨read, matching, exhausted⟩ := valid
    refine dated_after dated rfl rfl rfl fun next stepped => ⟨held, ?_⟩
    obtain rfl := Option.some.inj stepped
    have same : ∀ work ∈ state.provider, ∀ listed ∈ results, listed.key = work.key →
        listed = work := by
      intro work member listed among keyed
      exact List.inj_on_of_nodup_map dated.distinct (matching listed among).1 member keyed
    refine
      { underway with
        page := ?_
        ahead := ?_
        atFirst := ?_
        atEnd := ?_ }
    · intro listed among work member keyed
      rw [same work member listed among keyed]
      exact .inl rfl
    · intro other others split _ work member accepted
      obtain ⟨rfl, rfl⟩ := List.cons.inj (remaining.symm.trans split)
      rcases owed_of_uncovered underway remaining read before member accepted with covered | due
      · exact .inl covered
      · cases paged : results.any fun listed => listed.key == work.key with
        | true =>
          obtain ⟨listed, among, keyed⟩ := List.any_eq_true.mp paged
          exact .inr (.inl (same work member listed among (eq_of_beq keyed) ▸ among))
        | false =>
          have later : work.key ∈ owed.filter fun key =>
              !results.any fun listed => listed.key == key :=
            List.mem_filter.mpr ⟨due, by rw [paged]; rfl⟩
          cases last with
          | true =>
            rw [exhausted rfl] at later
            cases later
          | false => exact .inr (.inr ⟨_, rfl, later⟩)
    · intro first
      cases last <;> cases first
    · intro ended
      rw [remaining] at ended
      cases ended
  · exact dated

theorem moves_handle (underway : Underway lower scope state run held) {rest : List ProviderWork}
    (page : run.results = work :: rest) (flushes : Prop) [Decidable flushes] :
    ∃ heldAfter, Moves lower scope state.provider run.runStarted ⟨state.store, run.buffer⟩ held
      [versionOf scope work]
      (if flushes then flush (addWorkRows ⟨state.store, run.buffer⟩
          ((versionOf scope work).rows lower))
        else addWorkRows ⟨state.store, run.buffer⟩ ((versionOf scope work).rows lower))
      heldAfter := by
  have fresh := underway.page work (page ▸ List.mem_cons_self)
  obtain ⟨heldAdded, added⟩ := moves_addWorkRows underway.buffered fresh
  split
  · exact ⟨[], added.trans (moves_flush added.buffered)⟩
  · exact ⟨heldAdded, added⟩

theorem dated_handle (dated : Dated lower scope state) (running : state.run = some run) :
    Dated lower scope (handle lower scope state run) := by
  obtain ⟨held, underway⟩ := dated.underway run running
  unfold handle
  split
  · exact dated
  rename_i work rest page
  dsimp only
  obtain ⟨heldAfter, moves⟩ := moves_handle underway page ((run.worksSeen + 1) % 1000 = 0)
  split
  · exact dated_stopped dated rfl rfl rfl rfl
  refine dated_after dated rfl rfl rfl fun next stepped => ⟨heldAfter, ?_⟩
  obtain rfl := Option.some.inj stepped
  refine
    { begun := underway.begun
      existing := underway.existing
      notAfter := underway.notAfter
      loop := underway.loop
      buffered := moves.buffered
      page := ?_
      behind := ?_
      ahead := ?_
      atFirst := ?_
      atEnd := underway.atEnd }
  · intro other later
    exact underway.page other (page ▸ List.mem_cons_of_mem work later)
  · intro chunk listed other member accepted
    exact moves.covers other member
      (.inr (underway.behind chunk listed other member accepted))
  · intro chunk others remaining notFirst other member accepted
    rcases underway.ahead chunk others remaining notFirst other member accepted with
      covered | paged | owed
    · exact .inl (moves.covers other member (.inr covered))
    · rw [page] at paged
      rcases List.mem_cons.mp paged with rfl | later
      · exact .inl (moves.covers other member (.inl List.mem_cons_self))
      · exact .inr (.inl later)
    · exact .inr (.inr owed)
  · intro first
    have read := (underway.atFirst first).1
    rw [page] at read
    cases read

theorem dated_turn (dated : Dated lower scope state) (running : state.run = some run) :
    Dated lower scope (turn scope state run) := by
  obtain ⟨held, underway⟩ := dated.underway run running
  unfold turn
  split
  · exact dated
  rename_i chunk rest remaining
  split
  swap
  · exact dated
  rename_i ended
  obtain ⟨read, stopped⟩ := ended
  have loop : (run.listed ++ [chunk]) ++ rest =
      listings scope run.existingWatermark run.pending := by
    rw [List.append_assoc, List.singleton_append, ← remaining]
    exact underway.loop
  have covered : ∀ other ∈ run.listed ++ [chunk], ∀ work ∈ state.provider,
      accepts lower (runFilter scope run other) work →
        Covered lower scope run.runStarted ⟨state.store, run.buffer⟩ held work := by
    intro other listed work member accepted
    rcases List.mem_append.mp listed with old | new
    · exact underway.behind other old work member accepted
    · obtain rfl := List.mem_singleton.mp new
      rcases underway.ahead other rest remaining (by rw [stopped]; nofun) work member accepted with
        covered | paged | ⟨owed, next, _⟩
      · exact covered
      · rw [read] at paged
        cases paged
      · rw [stopped] at next
        cases next
  dsimp only
  split
  · have moves := moves_flush underway.buffered
    refine dated_after dated rfl rfl rfl fun next stepped => ⟨[], ?_⟩
    obtain rfl := Option.some.inj stepped
    exact
      { begun := underway.begun
        existing := underway.existing
        notAfter := underway.notAfter
        loop := loop
        buffered := moves.buffered
        page := underway.page
        behind := fun other listed work member accepted =>
          moves.covers work member (.inr (covered other listed work member accepted))
        ahead := fun _ _ _ notFirst => absurd rfl notFirst
        atFirst := fun _ => ⟨read, fun _ => rfl⟩
        atEnd := fun _ => rfl }
  · rename_i incremental
    refine dated_after dated rfl rfl rfl fun next stepped => ⟨held, ?_⟩
    obtain rfl := Option.some.inj stepped
    exact
      { begun := underway.begun
        existing := underway.existing
        notAfter := underway.notAfter
        loop := loop
        buffered := underway.buffered
        page := underway.page
        behind := covered
        ahead := fun _ _ _ notFirst => absurd rfl notFirst
        atFirst := fun _ => ⟨read, fun backfill => absurd backfill incremental⟩
        atEnd := fun _ => rfl }

theorem dated_finish (dated : Dated lower scope state) (running : state.run = some run)
    (clears : Bool) : Dated lower scope (finish scope state run clears) := by
  obtain ⟨held, underway⟩ := dated.underway run running
  unfold finish
  split
  · dsimp only
    split
    · refine ⟨dated.updated, ?_, dated.distinct, fun _ impossible => nomatch impossible⟩
      intro day marked
      obtain rfl := Option.some.inj marked
      exact underway.begun
    · exact dated_stopped dated rfl rfl rfl rfl
  · exact dated

theorem dated_step (event : Event) (dated : Dated lower scope state) :
    Dated lower scope (step lower scope state event) := by
  have running : ∀ event, (∀ run, state.run = some run →
        Dated lower scope (advance lower scope state run event)) →
      Dated lower scope
        (match state.run with
        | some run => advance lower scope state run event
        | none => state) := by
    intro event stepped
    cases running : state.run with
    | none => exact dated
    | some run => exact stepped run running
  cases event with
  | passDays days => exact dated_passDays days dated
  | change work =>
    refine dated_amend ?_ (by simp) dated
    intro new among
    obtain rfl := List.mem_singleton.mp among
    exact ⟨rfl, rfl⟩
  | withdraw key => exact dated_amend (fun _ impossible => nomatch impossible) (by simp) dated
  | start limit flushEvery =>
    simp only [step]
    split
    · exact dated
    · exact dated_start dated limit flushEvery
  | respond results last =>
    exact running _ fun run current => dated_respond dated current results last
  | rateLimit =>
    refine running _ fun run current => ?_
    simp only [advance, rateLimit]
    split
    · exact dated_stopped dated rfl rfl rfl rfl
    · exact dated
  | handle => exact running _ fun run current => dated_handle dated current
  | turn => exact running _ fun run current => dated_turn dated current
  | finish clears => exact running _ fun run current => dated_finish dated current clears
  | die takes written =>
    exact running _ fun run current => dated_stopped dated rfl rfl rfl rfl

theorem accepts_append (first second : List Clause) (work : ProviderWork) :
    accepts lower (first ++ second) work ↔ accepts lower first work ∧ accepts lower second work := by
  rw [accepts, List.all_append, Bool.and_eq_true]
  rfl

theorem accepts_buildFilter (chunk : List String) (fromUpdatedDate : Option Day)
    (work : ProviderWork) :
    accepts lower (buildFilter scope chunk fromUpdatedDate) work ↔
      (chunk = [] ∨ ∃ issn ∈ chunk, issn ∈ work.sourceIssns) ∧
        accepts lower (scopeClauses scope) work ∧
          ∀ day, fromUpdatedDate = some day → day ≤ work.updated := by
  have listed : accepts lower (listClause .sourceIssn chunk) work ↔
      (chunk = [] ∨ ∃ issn ∈ chunk, issn ∈ work.sourceIssns) := by
    cases chunk with
    | nil => simp [listClause, accepts]
    | cons issn rest => simp [listClause, accepts, Clause.accepts]
  have dated : accepts lower (fromUpdatedDate.toList.map .fromUpdatedDate) work ↔
      ∀ day, fromUpdatedDate = some day → day ≤ work.updated := by
    cases fromUpdatedDate with
    | none => simp [accepts]
    | some day => simp [accepts, Clause.accepts]
  rw [buildFilter, accepts_append, accepts_append, listed, dated, and_assoc]

theorem mem_chunks {Entry : Type} {size : Nat} (positive : 0 < size) {entry : Entry} :
    ∀ (fuel : Nat) (entries : List Entry), entries.length ≤ fuel → entry ∈ entries →
      ∃ chunk ∈ chunks size fuel entries, entry ∈ chunk := by
  intro fuel
  induction fuel with
  | zero =>
    intro entries short member
    rw [List.length_eq_zero_iff.mp (Nat.le_zero.mp short)] at member
    cases member
  | succ fuel ih =>
    intro entries short member
    have filled : entries.isEmpty = false := by
      cases entries with
      | nil => cases member
      | cons head rest => rfl
    rw [chunks, filled]
    rw [← List.take_append_drop size entries] at member
    rcases List.mem_append.mp member with here | later
    · exact ⟨_, List.mem_cons_self, here⟩
    · have shorter : (entries.drop size).length ≤ fuel := by
        rw [List.length_drop]
        omega
      obtain ⟨chunk, listed, among⟩ := ih _ shorter later
      exact ⟨chunk, List.mem_cons_of_mem _ listed, among⟩

theorem listed_of_inScope {existing : Option Day} {pending : List String}
    (incremental : isBackfill scope existing = false) (within : inScope lower scope work)
    (since : ∀ day, existing = some day → day ≤ work.updated) :
    ∃ chunk ∈ listings scope existing pending,
      accepts lower (buildFilter scope chunk existing) work := by
  obtain ⟨issns, clauses, _⟩ := (accepts_buildFilter _ _ _).mp within
  rw [listings, incremental]
  simp only [Bool.false_eq_true, if_false]
  rcases issns with none | ⟨issn, member, listed⟩
  · refine ⟨[], ?_, (accepts_buildFilter _ _ _).mpr ⟨.inl rfl, clauses, since⟩⟩
    rw [none, chunkIssns, List.isEmpty_nil, if_pos rfl]
    exact List.mem_singleton_self _
  · obtain ⟨chunk, among, here⟩ := mem_chunks (by decide : 0 < 50) scope.issnL.length scope.issnL
      (Nat.le_refl _) member
    refine ⟨chunk, ?_, (accepts_buildFilter _ _ _).mpr
      ⟨.inr ⟨issn, here, listed⟩, clauses, since⟩⟩
    have filled : scope.issnL.isEmpty = false := by
      cases issnL : scope.issnL with
      | nil =>
        rw [issnL] at member
        cases member
      | cons head rest => rfl
    rw [chunkIssns, filled]
    exact among

theorem listed_of_pending {pending : List String} (backfill : isBackfill scope none = true)
    (within : inScope lower scope work) {issn : String} (listed : issn ∈ work.sourceIssns)
    (waits : issn ∈ pending) :
    ∃ chunk ∈ listings scope none pending, accepts lower (buildFilter scope chunk none) work := by
  obtain ⟨_, clauses, _⟩ := (accepts_buildFilter _ _ _).mp within
  rw [listings, backfill]
  refine ⟨[issn], List.mem_map.mpr ⟨issn, waits, rfl⟩, (accepts_buildFilter _ _ _).mpr
    ⟨.inr ⟨issn, List.mem_singleton_self _, listed⟩, clauses, fun _ impossible => ?_⟩⟩
  cases impossible

theorem hides_kept (underway : Underway lower scope state run held)
    (hides : HidesNothing lower scope state) (provider : after.provider = state.provider)
    (mark : after.watermark = state.watermark)
    (keeps : ∀ work ∈ state.provider, Holds lower state.store (versionOf scope work) →
      run.runStarted ≤ work.updated ∨ Holds lower after.store (versionOf scope work)) :
    HidesNothing lower scope after := by
  intro day marked work member within stale
  rw [mark] at marked
  rw [provider] at member
  by_cases holds : Holds lower state.store (versionOf scope work)
  · rcases keeps work member holds with updated | kept
    · exact Int.le_trans (underway.notAfter day (underway.existing.symm.trans marked)) updated
    · exact absurd kept stale
  · exact hides day marked work member within holds

theorem hides_amend (dated : Dated lower scope state)
    (today : ∀ work ∈ works, work.updated = state.today) (hides : HidesNothing lower scope state) :
    HidesNothing lower scope (amend state key works) := by
  intro day marked work member within stale
  rcases mem_amend member with ⟨old, _⟩ | new
  · exact hides day marked work old within stale
  · rw [today work new]
    exact dated.watermark day marked

theorem hides_respond (hides : HidesNothing lower scope state) (results : List ProviderWork)
    (last : Bool) : HidesNothing lower scope (respond lower scope state run results last) := by
  unfold respond
  split
  · exact hides
  split
  · exact hides
  dsimp only
  split
  · exact hides
  · exact hides

section

variable (underway : Underway lower scope state run held)

include underway

theorem hides_handle (hides : HidesNothing lower scope state) :
    HidesNothing lower scope (handle lower scope state run) := by
  unfold handle
  split
  · exact hides
  rename_i work rest page
  dsimp only
  obtain ⟨heldAfter, moves⟩ := moves_handle underway page ((run.worksSeen + 1) % 1000 = 0)
  split
  · exact hides_kept underway hides rfl rfl (moves.trans (moves_flush moves.buffered)).keeps
  · exact hides_kept underway hides rfl rfl moves.keeps

theorem hides_turn (hides : HidesNothing lower scope state) :
    HidesNothing lower scope (turn scope state run) := by
  unfold turn
  split
  · exact hides
  split
  swap
  · exact hides
  dsimp only
  split
  · exact hides_kept underway hides rfl rfl (moves_flush underway.buffered).keeps
  · exact hides

theorem hides_rateLimit (hides : HidesNothing lower scope state) :
    HidesNothing lower scope (rateLimit state run) := by
  unfold rateLimit
  split
  · exact hides_kept underway hides rfl rfl (moves_flush underway.buffered).keeps
  · exact hides

theorem hides_die (hides : HidesNothing lower scope state) (takes : Bool)
    (written : List LakeTable) :
    HidesNothing lower scope (die lower scope state run takes written) := by
  refine hides_kept underway hides rfl rfl fun work member holds => ?_
  have buffered : ∃ heldLast, Buffered lower scope state.provider run.runStarted
      ⟨state.store, lastBuffer lower scope run takes⟩ heldLast := by
    unfold lastBuffer
    split
    · rename_i next rest page
      exact ⟨_, (moves_extend underway.buffered
        (underway.page next (page ▸ List.mem_cons_self))).buffered⟩
    · exact ⟨held, underway.buffered⟩
  obtain ⟨heldLast, buffered⟩ := buffered
  exact stored_of_write written buffered member (.inl holds)

theorem stored_of_listed (ended : run.remaining = []) (member : work ∈ state.provider)
    (listed : ∃ chunk ∈ listings scope run.existingWatermark run.pending,
      accepts lower (runFilter scope run chunk) work) :
    run.runStarted ≤ work.updated ∨
      Holds lower (flush ⟨state.store, run.buffer⟩).store (versionOf scope work) := by
  obtain ⟨chunk, among, accepted⟩ := listed
  rw [← underway.loop, ended, List.append_nil] at among
  have covered := underway.behind chunk among work member accepted
  rcases (moves_flush underway.buffered).covers work member (.inr covered) with
    updated | holds | impossible
  · exact .inl updated
  · exact .inr holds
  · cases impossible

theorem hides_incremental (hides : HidesNothing lower scope state) (ended : run.remaining = [])
    (incremental : isBackfill scope run.existingWatermark = false) (doneIssns : List String) :
    HidesNothing lower scope
      { state with
        store := (flush ⟨state.store, run.buffer⟩).store
        watermark := some run.runStarted
        doneIssns := doneIssns
        run := none } := by
  intro day marked work member within stale
  obtain rfl := Option.some.inj marked
  by_cases since : ∀ day, run.existingWatermark = some day → day ≤ work.updated
  · exact (stored_of_listed underway ended member
      (listed_of_inScope incremental within since)).resolve_right stale
  · simp only [not_forall] at since
    obtain ⟨old, existing, before⟩ := since
    have holds : Holds lower state.store (versionOf scope work) := by
      by_contra missing
      exact before (hides old (underway.existing.trans existing) work member within missing)
    exact ((moves_flush underway.buffered).keeps work member holds).resolve_right stale

end

theorem flush_store_of_empty {started : Day} {provider : List ProviderWork}
    (buffered : Buffered lower scope provider started lake []) :
    (flush lake).store = lake.store := by
  funext table key
  rw [flush_store, settled, buffered.carried]
  rfl

theorem hides_backfill_iff (underway : Underway lower scope state run held)
    (ended : run.remaining = []) (backfill : isBackfill scope run.existingWatermark = true)
    (doneIssns : List String) :
    HidesNothing lower scope
      { state with
        store := (flush ⟨state.store, run.buffer⟩).store
        watermark := some run.runStarted
        doneIssns := doneIssns
        run := none } ↔
      ∀ work ∈ state.provider, inScope lower scope work →
        (∀ issn ∈ work.sourceIssns, issn ∉ run.pending) →
          Holds lower state.store (versionOf scope work) ∨ run.runStarted ≤ work.updated := by
  obtain ⟨_, noneHeld⟩ := underway.atFirst (underway.atEnd ended)
  obtain rfl := noneHeld backfill
  have unchanged := flush_store_of_empty underway.buffered
  rw [unchanged]
  constructor
  · intro hides work member within _
    by_cases holds : Holds lower state.store (versionOf scope work)
    · exact .inl holds
    · exact .inr (hides run.runStarted rfl work member within holds)
  · intro current day marked work member within stale
    obtain rfl := Option.some.inj marked
    by_cases earlier : ∀ issn ∈ work.sourceIssns, issn ∉ run.pending
    · exact (current work member within earlier).resolve_left stale
    · simp only [not_forall, not_not] at earlier
      obtain ⟨issn, listed, waits⟩ := earlier
      have none : run.existingWatermark = none := by
        cases existing : run.existingWatermark with
        | none => rfl
        | some day =>
          rw [existing] at backfill
          cases backfill
      have lists : ∃ chunk ∈ listings scope run.existingWatermark run.pending,
          accepts lower (runFilter scope run chunk) work := by
        rw [none] at backfill
        unfold runFilter
        rw [none]
        exact listed_of_pending backfill within listed waits
      have stored := stored_of_listed underway ended member lists
      rw [unchanged] at stored
      exact stored.resolve_right stale

theorem hides_finish_iff (dated : Dated lower scope state) (running : state.run = some run)
    (hides : HidesNothing lower scope state) (clears : Bool) :
    HidesNothing lower scope (finish scope state run clears) ↔
      CheckpointsCurrent lower scope state (.finish clears) := by
  obtain ⟨held, underway⟩ := dated.underway run running
  have only : ∀ current, state.run = some current → current = run := fun current here =>
    Option.some.inj (here.symm.trans running)
  unfold finish
  split
  swap
  · rename_i looping
    refine iff_of_true hides fun current here ended => ?_
    rw [only current here] at ended
    exact absurd ended looping
  rename_i ended
  dsimp only
  split
  swap
  · rename_i incomplete
    refine iff_of_true ?_ fun current here _ completed => ?_
    · exact hides_kept underway hides rfl rfl (moves_flush underway.buffered).keeps
    · rw [only current here] at completed
      exact absurd completed incomplete
  rename_i completed
  cases mode : isBackfill scope run.existingWatermark with
  | false =>
    refine iff_of_true (hides_incremental underway hides ended mode _) ?_
    intro current here _ _ backfill
    rw [only current here, mode] at backfill
    cases backfill
  | true =>
    rw [hides_backfill_iff underway ended mode]
    constructor
    · intro current run' here _ _ _
      rw [only run' here]
      exact current
    · intro guarded
      exact guarded run running ended completed mode

theorem hides_step_iff (event : Event) (dated : Dated lower scope state)
    (hides : HidesNothing lower scope state) :
    HidesNothing lower scope (step lower scope state event) ↔
      CheckpointsCurrent lower scope state event := by
  have kept : ∀ event, (∀ run held, state.run = some run → Underway lower scope state run held →
        HidesNothing lower scope (advance lower scope state run event)) →
      HidesNothing lower scope
        (match state.run with
        | some run => advance lower scope state run event
        | none => state) := by
    intro event stepped
    cases running : state.run with
    | none => exact hides
    | some run =>
      obtain ⟨held, underway⟩ := dated.underway run running
      exact stepped run held running underway
  cases event with
  | passDays days => exact iff_of_true hides trivial
  | change work =>
    refine iff_of_true (hides_amend dated ?_ hides) trivial
    intro new among
    obtain rfl := List.mem_singleton.mp among
    rfl
  | withdraw key =>
    exact iff_of_true (hides_amend dated (fun _ impossible => nomatch impossible) hides) trivial
  | start limit flushEvery =>
    refine iff_of_true ?_ trivial
    simp only [step]
    split
    · exact hides
    · exact hides
  | respond results last =>
    refine iff_of_true (kept (.respond results last) ?_) trivial
    intro run held running underway
    exact hides_respond hides results last
  | rateLimit =>
    refine iff_of_true (kept .rateLimit ?_) trivial
    intro run held running underway
    exact hides_rateLimit underway hides
  | handle =>
    refine iff_of_true (kept .handle ?_) trivial
    intro run held running underway
    exact hides_handle underway hides
  | turn =>
    refine iff_of_true (kept .turn ?_) trivial
    intro run held running underway
    exact hides_turn underway hides
  | die takes written =>
    refine iff_of_true (kept (.die takes written) ?_) trivial
    intro run held running underway
    exact hides_die underway hides takes written
  | finish clears =>
    cases running : state.run with
    | none =>
      simp only [step, running]
      refine iff_of_true hides fun run here => ?_
      rw [running] at here
      cases here
    | some run =>
      simp only [step, running, advance]
      exact hides_finish_iff dated running hides clears

end

/-- The watermark hides no update in any state of a run of events exactly where each backfill
that ends finds current what the earlier runs listed. -/
theorem hidesNothing_everyState_iff (lower : String → String) (scope : LakeScope) (today : Day)
    (events : List Event) :
    EveryState (step lower scope) (HidesNothing lower scope) (freshState today) events ↔
      EveryStep (step lower scope) (CheckpointsCurrent lower scope) (freshState today) events := by
  refine everyState_iff_everyStep_within (fun state event => dated_step event)
    (fun state event => hides_step_iff event) (freshState today) events ?_ ?_
  · exact
      { updated := fun _ impossible => nomatch impossible
        watermark := fun _ impossible => nomatch impossible
        distinct := List.nodup_nil
        underway := fun _ impossible => nomatch impossible }
  · intro day impossible
    cases impossible

def twoJournals : LakeScope where
  issnL := ["0028-0836", "0140-6736"]
  fieldIds := []
  institutionRor := []
  countryCodes := []
  yearFrom := none
  yearTo := none
  includeCitations := false

def articleOf (id issn : String) (citedByCount : Int) (updated : Day) : ProviderWork where
  record := { id := some id, citedByCount := some citedByCount }
  sourceIssns := [issn]
  updated := updated

/-- The first journal is listed on day 1, its work changes on day 2, and the run of day 3 lists
the second journal and ends the backfill. -/
def resumedBackfill : List Event :=
  [.change (articleOf "W1" "0028-0836" 0 1), .change (articleOf "W2" "0140-6736" 0 1),
    .start none 1000, .respond [articleOf "W1" "0028-0836" 0 1] true, .handle, .turn, .rateLimit,
    .passDays 1, .change (articleOf "W1" "0028-0836" 7 2), .passDays 1,
    .start none 1000, .respond [articleOf "W2" "0140-6736" 0 1] true, .handle, .turn, .finish true]

/-- The watermark is day 3 then, and no filter lets the change of day 2 through. -/
theorem resumed_backfill_hides_change :
    ¬ EveryState (step String.toLower twoJournals) (HidesNothing String.toLower twoJournals)
      (freshState 1) resumedBackfill := by
  intro every
  have last := (everyState_iff_front _ _).mp every resumedBackfill [] (List.append_nil _).symm
  have visible := last 3 (by decide) (articleOf "W1" "0028-0836" 7 2) (by decide)
    (by decide) (by decide)
  exact absurd visible (by decide)

end Ukip.OpenAlexLake.PullWorks
