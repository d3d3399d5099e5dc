import Ukip.Analytics.CramersV
import Ukip.Analytics.Delegation

/-!
# The rows behind the engine's contingency tables

The engine reads every field with a query of its own, without the rows where it is NULL and in
whatever order the query lists them, and zips two columns by position.  The Python analyzer
selects the rows where both fields have a value.
-/

namespace Ukip.Analytics.RowAlignment

open Foundation.ContingencyTable Foundation.FallibleLoop Foundation.Tally Corpus Correlation
open CramersV Delegation Analytics.Engine TopicModeling

def isUsableField (values : List String) : Bool :=
  values.dedup.length ≤ maxCardinality && 1 < values.dedup.length

/-- The table that `cramers_v` builds for two loaded columns, if it gets that far. -/
def tableFor (x y : List String) : Option (List Nat) :=
  if isUsableField x ∧ isUsableField y ∧ 5 ≤ x.length ∧ x.length = y.length then contingency x y
  else none

def loaded (rowOrder : RowOrder) (rows : List RawEntity) (domainId : String)
    (fieldFilters : List String) : List (String × List String) :=
  match loadFieldData rowOrder rows domainId fieldFilters with
  | .ok data => data
  | .error _ => []

def entities (rows : List RawEntity) (domainId : String) : List RawEntity :=
  rows.filter fun row => row.domain == some domainId

def cellOf (field : String) : RawEntity → Option String := (column field).getD fun _ => none

def valuesOf (rows : List RawEntity) (domainId field : String) : List String :=
  (entities rows domainId).filterMap (cellOf field)

/-- The values as the query of the field lists them. -/
def listed (rowOrder : RowOrder) (rows : List RawEntity) (domainId field : String) : List String :=
  (rowOrder.list field (entities rows domainId)).filterMap (cellOf field)

def holders (rows : List RawEntity) (domainId a b u v : String) : Nat :=
  (entities rows domainId).countP fun row => decide (cellOf a row = some u ∧ cellOf b row = some v)

/-- Every table that is built for the two fields counts the entities with both values. -/
def RowsAligned (rowOrder : RowOrder) (rows : List RawEntity) (domainId : String)
    (fieldFilters : List String) (a b : String) : Prop :=
  a ≠ b → ∀ x y ct, (a, x) ∈ loaded rowOrder rows domainId fieldFilters →
    (b, y) ∈ loaded rowOrder rows domainId fieldFilters → tableFor x y = some ct →
      ∀ i u j v, (sortedSet x)[i]? = some u → (sortedSet y)[j]? = some v →
        ct[i * (sortedSet y).length + j]? = some (holders rows domainId a b u v)

/-- The request reads the field, and no field that is no column. -/
def Loads (fieldFilters : List String) (field : String) : Prop :=
  ∃ fields, candidateFields fieldFilters = .ok fields ∧ field ∈ queriedFields fields ∧
    ∀ other ∈ queriedFields fields, (column other).isSome

structure Compared (rows : List RawEntity) (domainId : String) (fieldFilters : List String)
    (a b : String) : Prop where
  apart : a ≠ b
  loads : Loads fieldFilters a ∧ Loads fieldFilters b
  usable : isUsableField (valuesOf rows domainId a) ∧ isUsableField (valuesOf rows domainId b)
  long : 5 ≤ (valuesOf rows domainId a).length
  equal : (valuesOf rows domainId a).length = (valuesOf rows domainId b).length

theorem listed_perm (rowOrder : RowOrder) (rows : List RawEntity) (domainId field : String) :
    (listed rowOrder rows domainId field).Perm (valuesOf rows domainId field) :=
  (rowOrder.perm field _).filterMap _

variable {rowOrder : RowOrder} {rows : List RawEntity} {domainId : String}
  {fieldFilters : List String}

variable {field : String}

theorem selectField_known (rowOrder : RowOrder) (rows : List RawEntity) (domainId : String)
    (known : (column field).isSome) :
    selectField rowOrder rows domainId field = .ok (listed rowOrder rows domainId field) := by
  obtain ⟨cell, isCell⟩ := Option.isSome_iff_exists.mp known
  rw [selectField, listed, cellOf, isCell]
  rfl

theorem selectField_unknown (unknown : ¬(column field).isSome) :
    selectField rowOrder rows domainId field = .error .database := by
  rw [selectField, Option.not_isSome_iff_eq_none.mp unknown]

theorem mem_loaded_iff (field : String) (values : List String) :
    (field, values) ∈ loaded rowOrder rows domainId fieldFilters ↔
      Loads fieldFilters field ∧ values = listed rowOrder rows domainId field ∧ values ≠ [] := by
  unfold loaded loadFieldData Loads
  cases candidates : candidateFields fieldFilters with
  | error raised => simp [bind, Except.bind]
  | ok fields =>
    cases read : (queriedFields fields).mapM fun field =>
        (selectField rowOrder rows domainId field).map fun values => (field, values) with
    | error raised =>
      have unknown : ¬∀ other ∈ queriedFields fields, (column other).isSome := by
        intro known
        have answered := mapM_eq_ok_map (queriedFields fields)
          fun other member => congrArg (Except.map fun values => (other, values))
            (selectField_known rowOrder rows domainId (known other member))
        exact nomatch read.symm.trans answered
      simp [bind, Except.bind, read, unknown]
    | ok data =>
      have known : ∀ other ∈ queriedFields fields, (column other).isSome := by
        intro other member
        by_contra unknown
        obtain ⟨_, _, answered⟩ := exists_of_mapM_ok read other member
        rw [selectField_unknown unknown] at answered
        exact nomatch answered
      have answered := mapM_eq_ok_map (queriedFields fields)
        fun other member => congrArg (Except.map fun values => (other, values))
          (selectField_known rowOrder rows domainId (known other member))
      cases Except.ok.inj (read.symm.trans answered)
      simp only [bind, Except.bind, read, List.mem_filter, List.mem_map, Prod.mk.injEq,
        Except.ok.injEq, exists_eq_left']
      constructor
      · rintro ⟨⟨other, queried, rfl, rfl⟩, filled⟩
        exact ⟨⟨queried, known⟩, rfl, by simpa using filled⟩
      · rintro ⟨⟨queried, _⟩, rfl, filled⟩
        exact ⟨⟨field, queried, rfl, rfl⟩, by simpa using filled⟩

theorem holders_eq_cell (a b u v : String) : holders rows domainId a b u v =
    cell (joint (entities rows domainId) (cellOf a) (cellOf b)) u v := by
  rw [holders, cell, joint, List.countP_filterMap]
  refine List.countP_congr fun row _ => ?_
  cases cellOf a row <;> cases cellOf b row <;> simp

theorem tableFor_eq {x y : List String} (usable : isUsableField x ∧ isUsableField y)
    (long : 5 ≤ x.length) (equal : x.length = y.length) : tableFor x y = contingency x y := by
  rw [tableFor, if_pos ⟨usable.1, usable.2, long, equal⟩]

theorem of_tableFor {x y : List String} {ct : List Nat} (built : tableFor x y = some ct) :
    (isUsableField x ∧ isUsableField y) ∧ 5 ≤ x.length ∧ x.length = y.length := by
  unfold tableFor at built
  split at built
  · next met => exact ⟨⟨met.1, met.2.1⟩, met.2.2⟩
  · cases built

theorem isUsableField_perm {values others : List String} (perm : values.Perm others) :
    isUsableField values = isUsableField others := by
  rw [isUsableField, isUsableField, perm.dedup.length_eq]

/-- In one order of the rows: the tables of compared fields count what they should. -/
theorem rowsAligned_iff_cells (a b : String) : RowsAligned rowOrder rows domainId fieldFilters a b ↔
    (Compared rows domainId fieldFilters a b →
      ∀ u ∈ listed rowOrder rows domainId a, ∀ v ∈ listed rowOrder rows domainId b,
        cell ((listed rowOrder rows domainId a).zip (listed rowOrder rows domainId b)) u v =
          holders rows domainId a b u v) := by
  have permA := listed_perm rowOrder rows domainId a
  have permB := listed_perm rowOrder rows domainId b
  obtain ⟨ct, table, counted⟩ :=
    exists_contingency (listed rowOrder rows domainId a) (listed rowOrder rows domainId b)
  have filled {field : String} (usable : isUsableField (listed rowOrder rows domainId field)) :
      listed rowOrder rows domainId field ≠ [] := by
    intro empty
    simp [isUsableField, empty] at usable
  constructor
  · rintro aligned ⟨apart, ⟨loadsA, loadsB⟩, ⟨usableA, usableB⟩, long, equal⟩ u inA v inB
    rw [← isUsableField_perm permA] at usableA
    rw [← isUsableField_perm permB] at usableB
    rw [← permA.length_eq] at long equal
    rw [← permB.length_eq] at equal
    have built := (tableFor_eq ⟨usableA, usableB⟩ long equal).trans table
    obtain ⟨i, _, atI⟩ := exists_index inA
    obtain ⟨j, _, atJ⟩ := exists_index inB
    have expected := aligned apart _ _ ct ((mem_loaded_iff a _).mpr ⟨loadsA, rfl, filled usableA⟩)
      ((mem_loaded_iff b _).mpr ⟨loadsB, rfl, filled usableB⟩) built i u j v atI atJ
    rw [counted.2 i u j v atI atJ] at expected
    exact Option.some.inj expected
  · intro cells apart x y built inA inB isBuilt i u j v atI atJ
    obtain ⟨loadsA, rfl, _⟩ := (mem_loaded_iff a x).mp inA
    obtain ⟨loadsB, rfl, _⟩ := (mem_loaded_iff b y).mp inB
    obtain ⟨⟨usableA, usableB⟩, long, equal⟩ := of_tableFor isBuilt
    have compared : Compared rows domainId fieldFilters a b := by
      refine ⟨apart, ⟨loadsA, loadsB⟩, ⟨?_, ?_⟩, ?_, ?_⟩
      · rw [← isUsableField_perm permA]
        exact usableA
      · rw [← isUsableField_perm permB]
        exact usableB
      · rw [← permA.length_eq]
        exact long
      · rw [← permA.length_eq, ← permB.length_eq]
        exact equal
    rw [tableFor_eq ⟨usableA, usableB⟩ long equal, table] at isBuilt
    cases isBuilt
    rw [counted.2 i u j v atI atJ]
    exact congrArg some (cells compared u ((mem_sortedSet_iff _ u).mp (List.mem_of_getElem? atI)) v
      ((mem_sortedSet_iff _ v).mp (List.mem_of_getElem? atJ)))

theorem rowsAligned_of_one_order (a b : String)
    (same : rowOrder.list a (entities rows domainId) = rowOrder.list b (entities rows domainId)) :
    RowsAligned rowOrder rows domainId fieldFilters a b ↔
      (Compared rows domainId fieldFilters a b →
        Together (entities rows domainId) (cellOf a) (cellOf b)) := by
  have perm := rowOrder.perm a (entities rows domainId)
  rw [rowsAligned_iff_cells]
  refine imp_congr_right fun compared => ?_
  have equal := compared.equal
  rw [← (listed_perm rowOrder rows domainId a).length_eq,
    ← (listed_perm rowOrder rows domainId b).length_eq] at equal
  unfold listed at equal ⊢
  rw [← same] at equal ⊢
  have counted : ∀ u v, holders rows domainId a b u v =
      cell (joint (rowOrder.list a (entities rows domainId)) (cellOf a) (cellOf b)) u v :=
    fun u v => (holders_eq_cell a b u v).trans (cell_perm (perm.symm.filterMap _) u v)
  simp only [counted]
  refine (cells_zip_iff equal).trans ?_
  exact forall_congr' fun row => imp_congr_left perm.mem_iff

theorem exists_first {Item : Type} {items : List Item} {item : Item} (member : item ∈ items) :
    ∃ rest, (item :: rest).Perm items := by
  obtain ⟨before, after, rfl⟩ := List.append_of_mem member
  exact ⟨before ++ after, List.perm_middle.symm⟩

/-- Two rows with different values of the field can come first. -/
theorem exists_front (usable : isUsableField (valuesOf rows domainId field)) :
    ∃ first second rest u v, (first :: second :: rest).Perm (entities rows domainId) ∧
      cellOf field first = some u ∧ cellOf field second = some v ∧ u ≠ v := by
  have several : 1 < (valuesOf rows domainId field).dedup.length := by
    simp only [isUsableField, Bool.and_eq_true, decide_eq_true_eq] at usable
    exact usable.2
  have distinct := List.nodup_dedup (valuesOf rows domainId field)
  have values : ∀ value ∈ (valuesOf rows domainId field).dedup,
      ∃ row ∈ entities rows domainId, cellOf field row = some value :=
    fun value member => List.mem_filterMap.mp (List.mem_dedup.mp member)
  generalize (valuesOf rows domainId field).dedup = listing at several distinct values
  match listing with
  | [] => exact absurd several (by decide)
  | [_] => exact absurd several (by simp)
  | u :: v :: others =>
    obtain ⟨first, firstIn, firstValue⟩ := values u (by simp)
    obtain ⟨second, secondIn, secondValue⟩ := values v (by simp)
    have apart : u ≠ v := by
      rintro rfl
      simp at distinct
    obtain ⟨rest, front⟩ := exists_first firstIn
    have behind : second ∈ rest := by
      refine (List.mem_cons.mp (front.mem_iff.mpr secondIn)).resolve_left ?_
      rintro rfl
      exact apart (Option.some.inj (firstValue.symm.trans secondValue))
    obtain ⟨last, next⟩ := exists_first behind
    exact ⟨first, second, last, u, v, (next.cons first).trans front, firstValue, secondValue, apart⟩

theorem exists_rowOrder {items forA forB : List RawEntity} {a b : String} (apart : a ≠ b)
    (permA : forA.Perm items) (permB : forB.Perm items) :
    ∃ rowOrder : RowOrder, rowOrder.list a items = forA ∧ rowOrder.list b items = forB := by
  classical
  refine ⟨{ list := fun field rows =>
              if rows = items then if field = a then forA else if field = b then forB else rows
              else rows
            perm := fun field rows => ?_ }, by simp, by simp [apart.symm]⟩
  split_ifs with same
  · exact same ▸ permA
  · exact same ▸ permB
  · exact .refl _
  · exact .refl _

theorem exists_misaligned (a b : String) (compared : Compared rows domainId fieldFilters a b) :
    ∃ rowOrder, ¬RowsAligned rowOrder rows domainId fieldFilters a b := by
  obtain ⟨rowA, otherA, restA, u, u', permA, atU, atU', apart⟩ := exists_front compared.usable.1
  obtain ⟨rowB, otherB, restB, v, v', permB, atV, atV', differ⟩ := exists_front compared.usable.2
  obtain ⟨straight, straightA, straightB⟩ := exists_rowOrder compared.apart permA permB
  obtain ⟨crossed, crossedA, crossedB⟩ :=
    exists_rowOrder compared.apart permA ((List.Perm.swap _ _ _).trans permB)
  by_contra aligned
  rw [not_exists_not] at aligned
  have first := (rowsAligned_iff_cells a b).mp (aligned straight) compared
  have second := (rowsAligned_iff_cells a b).mp (aligned crossed) compared
  simp only [listed, straightA, straightB, crossedA, crossedB, List.filterMap_cons, atU, atU', atV,
    atV'] at first second
  refine cell_zip_crossed apart differ (restA.filterMap (cellOf a)) (restB.filterMap (cellOf b)) ?_
  exact (first u (by simp) v (by simp)).trans (second u (by simp) v (by simp)).symm

/-- Every order of the rows gives the right tables exactly if there is no table; where the two
queries list the rows in one order, the fields may also be NULL on the same entities. -/
theorem rowsAligned_iff (rows : List RawEntity) (domainId : String) (fieldFilters : List String)
    (a b : String) :
    ((∀ rowOrder, RowsAligned rowOrder rows domainId fieldFilters a b) ↔
        ¬Compared rows domainId fieldFilters a b) ∧
      ∀ rowOrder : RowOrder,
        rowOrder.list a (entities rows domainId) = rowOrder.list b (entities rows domainId) →
          (RowsAligned rowOrder rows domainId fieldFilters a b ↔
            (Compared rows domainId fieldFilters a b →
              Together (entities rows domainId) (cellOf a) (cellOf b))) := by
  refine ⟨⟨fun aligned compared => ?_, fun apart rowOrder => ?_⟩,
    fun rowOrder same => rowsAligned_of_one_order a b same⟩
  · obtain ⟨rowOrder, misaligned⟩ := exists_misaligned a b compared
    exact misaligned (aligned rowOrder)
  · exact (rowsAligned_iff_cells a b).mpr fun compared => absurd compared apart

def paper (id : Nat) (secondaryLabel entityType : Option String) : RawEntity :=
  { aiRow with id, domain := some "science", secondaryLabel, entityType }

def sixPapers : List RawEntity :=
  [paper 1 none (some "article"), paper 2 (some "Soil") (some "article"),
    paper 3 (some "Soil") (some "article"), paper 4 (some "Water") (some "book"),
    paper 5 (some "Water") (some "book"), paper 6 (some "Water") none]

theorem rowsAligned_iff_sixPapers :
    RowsAligned plainEngine.rowOrder sixPapers "science" [] "secondary_label" "entity_type" ↔
      (Compared sixPapers "science" [] "secondary_label" "entity_type" →
        Together (entities sixPapers "science") (cellOf "secondary_label")
          (cellOf "entity_type")) :=
  (rowsAligned_iff sixPapers "science" [] "secondary_label" "entity_type").2 plainEngine.rowOrder rfl

/-- No article is about water, but one is counted. -/
theorem articles_on_water :
    ¬RowsAligned plainEngine.rowOrder sixPapers "science" [] "secondary_label" "entity_type" := by
  intro aligned
  have counted := aligned (by decide) ["Soil", "Soil", "Water", "Water", "Water"]
    ["article", "article", "article", "book", "book"] [2, 0, 1, 2] (by decide) (by decide)
    (by decide) 1 "Water" 0 "article" (by decide) (by decide)
  exact absurd counted (by decide)

end Ukip.Analytics.RowAlignment
