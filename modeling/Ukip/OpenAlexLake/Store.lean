import Ukip.Foundation.KeyedTable
import Ukip.OpenAlexLake.Transform

/-!
# The lake's tables and the row buffer

`store.py` upserts rows by primary key, and its row buffer collects the rows of many works
between two flushes.  A flush writes table by table and keeps the last row of each key.
-/

namespace Ukip.OpenAlexLake.Store

open Foundation.KeyedTable Transform

/-- The rows of each table by their primary keys. -/
abbrev LakeStore := LakeTable → Key → Option Row

def emptyStore : LakeStore := fun _ _ => none

def allTables : List LakeTable :=
  factTables ++ [.dimSource, .dimInstitution, .dimAuthor, .dimTopic]

def dedupByPk (table : LakeTable) (rows : List Row) : List Row := distinct (primaryKey table) rows

def insertRows (store : LakeStore) (table : LakeTable) (rows : List Row) : LakeStore :=
  if rows = [] then store
  else fun other =>
    if other = table then upsertAll (primaryKey table) (store table) (dedupByPk table rows)
    else store other

structure RowBuffer where
  flushEvery : Int
  buffers : LakeTable → List Row
  pending : Int

/-- `RowBuffer(store, flush_every=flush_every)` -/
def newBuffer (flushEvery : Int) : RowBuffer where
  flushEvery := flushEvery
  buffers := fun _ => []
  pending := 0

structure Lake where
  store : LakeStore
  buffer : RowBuffer

def insertTables (buffer : RowBuffer) (store : LakeStore) (tables : List LakeTable) : LakeStore :=
  tables.foldl (fun store table => insertRows store table (buffer.buffers table)) store

def flush (lake : Lake) : Lake where
  store := insertTables lake.buffer lake.store allTables
  buffer := newBuffer lake.buffer.flushEvery

/-- `add_work_rows` before its flush. -/
def extend (buffer : RowBuffer) (rowsByTable : LakeTable → List Row) : RowBuffer :=
  { buffer with
    buffers := fun table => buffer.buffers table ++ rowsByTable table
    pending := buffer.pending + 1 }

def addWorkRows (lake : Lake) (rowsByTable : LakeTable → List Row) : Lake :=
  let extended : Lake := { lake with buffer := extend lake.buffer rowsByTable }
  if extended.buffer.flushEvery ≤ extended.buffer.pending then flush extended else extended

/-- A work as one ingestion passes it to `transform_work`. -/
structure Version where
  includeCitations : Bool
  work : RawWork
  deriving DecidableEq

def Version.workId (version : Version) : Option String := shortId version.work.id

def Version.rows (lower : String → String) (version : Version) : LakeTable → List Row :=
  transformWork lower version.includeCitations version.work

inductive BufferCall where
  | addWorkRows (version : Version)
  | flush

structure Session where
  flushEvery : Int
  calls : List BufferCall

section

variable (lower : String → String)

def handle (lake : Lake) : BufferCall → Lake
  | .addWorkRows version => addWorkRows lake (version.rows lower)
  | .flush => flush lake

def runSession (store : LakeStore) (session : Session) : LakeStore :=
  (flush (session.calls.foldl (handle lower) ⟨store, newBuffer session.flushEvery⟩)).store

def ingest (sessions : List Session) : LakeStore := sessions.foldl (runSession lower) emptyStore

end

def BufferCall.version : BufferCall → Option Version
  | .addWorkRows version => some version
  | .flush => none

def ingested (sessions : List Session) : List Version :=
  sessions.flatMap fun session => session.calls.filterMap BufferCall.version

def rowsOf (lower : String → String) (versions : List Version) (table : LakeTable) : List Row :=
  versions.flatMap fun version => version.rows lower table

theorem insertRows_apply (store : LakeStore) (table : LakeTable) (rows : List Row)
    (other : LakeTable) (key : Key) :
    insertRows store table rows other key =
      if other = table then (lastFor (primaryKey other) key rows).or (store other key)
      else store other key := by
  by_cases empty : rows = []
  · rw [insertRows, if_pos empty, empty, lastFor, Option.none_or, ite_self]
  · rw [insertRows, if_neg empty]
    by_cases same : other = table
    · subst same
      simp only [if_true]
      rw [dedupByPk, upsertAll_distinct, upsertAll_apply]
    · simp only [if_neg same]

theorem insertTables_apply (buffer : RowBuffer) (store : LakeStore) (tables : List LakeTable)
    (table : LakeTable) (key : Key) :
    insertTables buffer store tables table key =
      if table ∈ tables then
        (lastFor (primaryKey table) key (buffer.buffers table)).or (store table key)
      else store table key := by
  induction tables generalizing store with
  | nil => rfl
  | cons head rest ih =>
    rw [insertTables, List.foldl_cons, ← insertTables, ih, insertRows_apply]
    by_cases here : table = head
    · subst here
      rw [if_pos rfl, if_pos List.mem_cons_self, ← Option.or_assoc, Option.or_self, ite_self]
    · rw [if_neg here]
      simp [here]

def settled (lake : Lake) : LakeStore := fun table key =>
  (lastFor (primaryKey table) key (lake.buffer.buffers table)).or (lake.store table key)

theorem mem_allTables (table : LakeTable) : table ∈ allTables := by
  cases table <;> decide

theorem flush_store (lake : Lake) : (flush lake).store = settled lake := by
  funext table key
  have written := insertTables_apply lake.buffer lake.store allTables table key
  rw [if_pos (mem_allTables table)] at written
  exact written

theorem settled_flush (lake : Lake) : settled (flush lake) = settled lake := by
  rw [← flush_store lake]
  rfl

theorem settled_addWorkRows (lake : Lake) (rowsByTable : LakeTable → List Row)
    (table : LakeTable) (key : Key) :
    settled (addWorkRows lake rowsByTable) table key =
      (lastFor (primaryKey table) key (rowsByTable table)).or (settled lake table key) := by
  have extended : settled { lake with buffer := extend lake.buffer rowsByTable } table key =
      (lastFor (primaryKey table) key (rowsByTable table)).or (settled lake table key) := by
    rw [settled, extend, lastFor_append, Option.or_assoc]
    rfl
  rw [← extended]
  unfold addWorkRows
  simp only []
  split
  · rw [settled_flush]
  · rfl

variable (lower : String → String)

theorem rowsOf_append (first second : List Version) (table : LakeTable) :
    rowsOf lower (first ++ second) table = rowsOf lower first table ++ rowsOf lower second table :=
  List.flatMap_append

theorem settled_calls (calls : List BufferCall) (lake : Lake) (table : LakeTable) (key : Key) :
    settled (calls.foldl (handle lower) lake) table key =
      (lastFor (primaryKey table) key (rowsOf lower (calls.filterMap BufferCall.version) table)).or
        (settled lake table key) := by
  induction calls generalizing lake with
  | nil => rfl
  | cons call rest ih =>
    rw [List.foldl_cons, ih]
    cases call with
    | addWorkRows version =>
      rw [handle, settled_addWorkRows, ← Option.or_assoc, ← lastFor_append]
      rfl
    | flush =>
      rw [handle, settled_flush]
      rfl

theorem runSession_apply (store : LakeStore) (session : Session) (table : LakeTable) (key : Key) :
    runSession lower store session table key =
      (lastFor (primaryKey table) key
        (rowsOf lower (session.calls.filterMap BufferCall.version) table)).or (store table key) := by
  rw [runSession, flush_store, settled_calls]
  rfl

theorem ingest_apply (sessions : List Session) (table : LakeTable) (key : Key) :
    ingest lower sessions table key =
      lastFor (primaryKey table) key (rowsOf lower (ingested sessions) table) := by
  suffices after : ∀ store : LakeStore, sessions.foldl (runSession lower) store table key =
      (lastFor (primaryKey table) key (rowsOf lower (ingested sessions) table)).or
        (store table key) by
    exact (after emptyStore).trans Option.or_none
  induction sessions with
  | nil =>
    intro store
    rfl
  | cons session rest ih =>
    intro store
    rw [List.foldl_cons, ih, runSession_apply, ← Option.or_assoc, ← lastFor_append,
      ← rowsOf_append]
    rfl

def lastVersion (versions : List Version) (workId : String) : Option Version :=
  lastFor Version.workId (some workId) versions

def Stored (store : LakeStore) (table : LakeTable) (row : Row) : Prop :=
  ∃ key, store table key = some row

/-- The fact tables hold of each work exactly the rows of its last version. -/
def Replaced (lower : String → String) (store : LakeStore) (versions : List Version) : Prop :=
  ∀ workId, ∀ table ∈ factTables, ∀ row : Row, row.get "work_id" = .text workId →
    (Stored store table row ↔
      ∃ version, lastVersion versions workId = some version ∧ row ∈ version.rows lower table)

/-- Other flush sizes and other flushes leave the same store. -/
def FlushFree (lower : String → String) (sessions : List Session) : Prop :=
  ∀ others, ingested others = ingested sessions → ingest lower others = ingest lower sessions

/-- The last version of each work has a row for each key that a version of the work has had,
and no two rows for one key. -/
def KeepsItsKeys (lower : String → String) (versions : List Version) : Prop :=
  ∀ workId version, lastVersion versions workId = some version → ∀ table ∈ factTables,
    (∀ older ∈ versions, older.workId = some workId → ∀ row ∈ older.rows lower table,
      ∃ kept ∈ version.rows lower table, primaryKey table kept = primaryKey table row) ∧
    ∀ first ∈ version.rows lower table, ∀ second ∈ version.rows lower table,
      primaryKey table first = primaryKey table second → first = second

section

variable {lower : String → String} {versions : List Version} {table : LakeTable}

variable {version : Version} {row : Row} {workId : String}

theorem workId_of_row (fact : table ∈ factTables) (yields : row ∈ version.rows lower table)
    (named : row.get "work_id" = .text workId) :
    version.workId = some workId := by
  obtain ⟨own, identified, ownName⟩ := work_of_row fact yields
  rw [named] at ownName
  obtain rfl := Value.text.inj ownName
  exact identified

theorem row_of_workId (fact : table ∈ factTables) (yields : row ∈ version.rows lower table)
    (identified : version.workId = some workId) :
    row.get "work_id" = .text workId := by
  obtain ⟨own, owned, ownName⟩ := work_of_row fact yields
  obtain rfl := Option.some.inj (owned.symm.trans identified)
  exact ownName

theorem work_of_key (fact : table ∈ factTables) {first second : Row}
    (same : primaryKey table first = primaryKey table second) :
    first.get "work_id" = second.get "work_id" := by
  have heads := congrArg List.head? same
  rw [primaryKey_head fact, primaryKey_head fact] at heads
  exact Option.some.inj heads

theorem lastFor_of_lastVersion (fact : table ∈ factTables)
    (last : lastVersion versions workId = some version) (yields : row ∈ version.rows lower table) :
    lastFor (primaryKey table) (primaryKey table row) (rowsOf lower versions table) =
      lastFor (primaryKey table) (primaryKey table row) (version.rows lower table) := by
  obtain ⟨before, after, rfl, others⟩ := lastFor_split last
  have own : version.workId = some workId := (lastFor_some last).2
  have named := row_of_workId fact yields own
  have silent : lastFor (primaryKey table) (primaryKey table row)
      (rowsOf lower after table) = none := by
    refine lastFor_eq_none.mpr fun later member same => ?_
    obtain ⟨other, among, otherYields⟩ := List.mem_flatMap.mp member
    exact others other among (workId_of_row fact otherYields ((work_of_key fact same).trans named))
  obtain ⟨found, _, _, present⟩ := lastFor_of_mem (primaryKey table) yields
  have split : rowsOf lower (before ++ version :: after) table =
      rowsOf lower before table ++ (version.rows lower table ++ rowsOf lower after table) :=
    List.flatMap_append
  rw [split, lastFor_append, lastFor_append, silent, present]
  rfl

/-- The fact tables hold under the version's keys what its ingestion alone leaves there. -/
def Holds (lower : String → String) (store : LakeStore) (version : Version) : Prop :=
  ∀ table ∈ factTables, ∀ row ∈ version.rows lower table,
    store table (primaryKey table row) =
      lastFor (primaryKey table) (primaryKey table row) (version.rows lower table)

instance (lower : String → String) (store : LakeStore) (version : Version) :
    Decidable (Holds lower store version) :=
  inferInstanceAs (Decidable (∀ table ∈ factTables, ∀ row ∈ version.rows lower table, _))

theorem lastFor_of_own (fact : table ∈ factTables) (yields : row ∈ version.rows lower table)
    (own : ∀ other ∈ versions, other.workId = version.workId → other = version) :
    lastFor (primaryKey table) (primaryKey table row) (rowsOf lower versions table) =
      if version ∈ versions then
        lastFor (primaryKey table) (primaryKey table row) (version.rows lower table)
      else none := by
  obtain ⟨workId, identified, _⟩ := work_of_row fact yields
  have named := row_of_workId fact yields identified
  split
  · rename_i member
    obtain ⟨last, _, _, found⟩ := lastFor_of_mem Version.workId member
    have same : last = version := own last (lastFor_some found).1 (lastFor_some found).2
    have newest : lastVersion versions workId = some version := by
      rw [lastVersion, ← identified]
      exact found.trans (congrArg some same)
    exact lastFor_of_lastVersion fact newest yields
  · rename_i absent
    refine lastFor_eq_none.mpr fun later member same => ?_
    obtain ⟨other, among, otherYields⟩ := List.mem_flatMap.mp member
    have otherId := workId_of_row fact otherYields ((work_of_key fact same).trans named)
    exact absent (own other among (otherId.trans identified.symm) ▸ among)

theorem holds_insertTables {store : LakeStore} {buffer : RowBuffer} {tables : List LakeTable}
    (carried : ∀ table, buffer.buffers table = rowsOf lower versions table)
    (own : ∀ other ∈ versions, other.workId = version.workId → other = version)
    (ready : Holds lower store version ∨ version ∈ versions ∧ ∀ table, table ∈ tables) :
    Holds lower (insertTables buffer store tables) version := by
  intro table fact row yields
  rw [insertTables_apply, carried, lastFor_of_own fact yields own]
  obtain ⟨last, _, _, present⟩ := lastFor_of_mem (primaryKey table) yields
  by_cases member : version ∈ versions
  · rw [if_pos member, present]
    split
    · rfl
    · rename_i unwritten
      rcases ready with holds | ⟨_, all⟩
      · rw [holds table fact row yields, present]
      · exact absurd (all table) unwritten
  · rw [if_neg member, Option.none_or, ite_self]
    rcases ready with holds | ⟨carries, _⟩
    · exact holds table fact row yields
    · exact absurd carries member

theorem stored_iff (sessions : List Session) (row : Row) :
    Stored (ingest lower sessions) table row ↔
      lastFor (primaryKey table) (primaryKey table row)
        (rowsOf lower (ingested sessions) table) = some row := by
  constructor
  · rintro ⟨key, holds⟩
    rw [ingest_apply] at holds
    rw [(lastFor_some holds).2]
    exact holds
  · intro last
    exact ⟨primaryKey table row, (ingest_apply lower sessions table _).trans last⟩

end

theorem replaced_of_keepsItsKeys (lower : String → String) (sessions : List Session)
    (keeps : KeepsItsKeys lower (ingested sessions)) :
    Replaced lower (ingest lower sessions) (ingested sessions) := by
  intro workId table fact row named
  rw [stored_iff]
  constructor
  · intro holds
    obtain ⟨older, among, yields⟩ := List.mem_flatMap.mp (lastFor_some holds).1
    have own := workId_of_row fact yields named
    obtain ⟨version, _, _, last⟩ := lastFor_of_mem Version.workId among
    rw [own] at last
    obtain ⟨kept, keptRow, same⟩ := (keeps workId version last table fact).1 older among own row
      yields
    have here := lastFor_of_lastVersion fact last keptRow
    rw [same, holds] at here
    exact ⟨version, last, (lastFor_some here.symm).1⟩
  · rintro ⟨version, last, yields⟩
    rw [lastFor_of_lastVersion fact last yields]
    obtain ⟨found, foundRow, same, present⟩ := lastFor_of_mem (primaryKey table) yields
    rw [present, (keeps workId version last table fact).2 found foundRow row yields same]

theorem keepsItsKeys_of_replaced (lower : String → String) (sessions : List Session)
    (replaced : Replaced lower (ingest lower sessions) (ingested sessions)) :
    KeepsItsKeys lower (ingested sessions) := by
  intro workId version last table fact
  constructor
  · intro older among own row yields
    have member : row ∈ rowsOf lower (ingested sessions) table :=
      List.mem_flatMap.mpr ⟨older, among, yields⟩
    obtain ⟨kept, _, same, present⟩ := lastFor_of_mem (primaryKey table) member
    have named := (work_of_key fact same).trans (row_of_workId fact yields own)
    have stored : Stored (ingest lower sessions) table kept := by
      rw [stored_iff, same]
      exact present
    obtain ⟨newest, newestLast, keptRow⟩ := (replaced workId table fact kept named).mp stored
    obtain rfl := Option.some.inj (newestLast.symm.trans last)
    exact ⟨kept, keptRow, same⟩
  · intro first firstRow second secondRow same
    have own : version.workId = some workId := (lastFor_some last).2
    have stored : ∀ row ∈ version.rows lower table,
        lastFor (primaryKey table) (primaryKey table row)
          (rowsOf lower (ingested sessions) table) = some row := by
      intro row yields
      rw [← stored_iff]
      exact (replaced workId table fact row (row_of_workId fact yields own)).mpr
        ⟨version, last, yields⟩
    have firstLast := stored first firstRow
    rw [same, stored second secondRow] at firstLast
    exact (Option.some.inj firstLast).symm

theorem flushFree (lower : String → String) (sessions : List Session) :
    FlushFree lower sessions := by
  intro others same
  funext table key
  rw [ingest_apply, ingest_apply, same]

/-- Re-ingestion replaces the works whose last versions keep the keys of the older ones. -/
theorem reingest_replaces_iff (lower : String → String) (sessions : List Session) :
    (Replaced lower (ingest lower sessions) (ingested sessions) ∧ FlushFree lower sessions) ↔
      KeepsItsKeys lower (ingested sessions) := by
  constructor
  · rintro ⟨replaced, _⟩
    exact keepsItsKeys_of_replaced lower sessions replaced
  · intro keeps
    exact ⟨replaced_of_keepsItsKeys lower sessions keeps, flushFree lower sessions⟩

def onTwoTopics : RawWork where
  id := some "https://openalex.org/W1"
  topics := [{ id := some "https://openalex.org/T1" }, { id := some "https://openalex.org/T2" }]
  updatedDate := some "2026-01-01"

def onOneTopic : RawWork where
  id := some "https://openalex.org/W1"
  topics := [{ id := some "https://openalex.org/T1" }]
  updatedDate := some "2026-02-01"

def twoPulls : List Session :=
  [⟨1000, [.addWorkRows ⟨false, onTwoTopics⟩]⟩, ⟨1000, [.addWorkRows ⟨false, onOneTopic⟩]⟩]

def droppedRow : Row :=
  [("work_id", .text "W1"), ("topic_id", .text "T2"), ("score", .null),
    ("is_primary", .boolean false)]

/-- The row of the topic that the work no longer has is still there. -/
theorem dropped_topic_survives :
    ¬ (Replaced String.toLower (ingest String.toLower twoPulls) (ingested twoPulls) ∧
      FlushFree String.toLower twoPulls) := by
  rintro ⟨replaced, _⟩
  have stored : Stored (ingest String.toLower twoPulls) .factWorkTopic droppedRow :=
    ⟨[.text "W1", .text "T2"], by decide⟩
  have newest : lastVersion (ingested twoPulls) "W1" = some ⟨false, onOneTopic⟩ := by
    decide
  obtain ⟨version, last, yields⟩ :=
    (replaced "W1" .factWorkTopic (by decide) droppedRow (by decide)).mp stored
  obtain rfl := Option.some.inj (last.symm.trans newest)
  exact absurd yields (by decide)

end Ukip.OpenAlexLake.Store
