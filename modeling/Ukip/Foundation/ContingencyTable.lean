import Mathlib.Algebra.BigOperators.Field
import Mathlib.Algebra.Order.BigOperators.Ring.Finset
import Mathlib.Tactic.FieldSimp
import Mathlib.Tactic.Linarith
import Mathlib.Tactic.Positivity

/-!
# Contingency tables

Observed amounts in rows and columns, and how far they are from the products of their margins.
Pearson's sum is bounded by the shorter side of the table, is zero at a product of margins and
reaches the bound where rows and columns stand for each other.
-/

namespace Foundation.ContingencyTable

variable {Row Column Number : Type} [Field Number] [LinearOrder Number] [IsStrictOrderedRing Number]

/-- A table with something in every row and in every column. -/
structure Table (Row Column Number : Type) [Field Number] [LinearOrder Number]
    [IsStrictOrderedRing Number] where
  rows : Finset Row
  columns : Finset Column
  observed : Row → Column → Number
  nonneg : ∀ row column, 0 ≤ observed row column
  rowFilled : ∀ row ∈ rows, 0 < ∑ column ∈ columns, observed row column
  columnFilled : ∀ column ∈ columns, 0 < ∑ row ∈ rows, observed row column

namespace Table

variable (table : Table Row Column Number)

def rowSum (row : Row) : Number := ∑ column ∈ table.columns, table.observed row column

def columnSum (column : Column) : Number := ∑ row ∈ table.rows, table.observed row column

def total : Number := ∑ row ∈ table.rows, table.rowSum row

def expected (row : Row) (column : Column) : Number :=
  table.rowSum row * table.columnSum column / table.total

def chiSquared : Number :=
  ∑ row ∈ table.rows, ∑ column ∈ table.columns,
    (table.observed row column - table.expected row column) ^ 2 / table.expected row column

def transpose : Table Column Row Number where
  rows := table.columns
  columns := table.rows
  observed column row := table.observed row column
  nonneg column row := table.nonneg row column
  rowFilled := table.columnFilled
  columnFilled := table.rowFilled

variable {table} {row : Row} {column : Column}

theorem rowSum_pos (member : row ∈ table.rows) : 0 < table.rowSum row := table.rowFilled row member

theorem columnSum_pos (member : column ∈ table.columns) : 0 < table.columnSum column :=
  table.columnFilled column member

theorem total_pos (member : row ∈ table.rows) : 0 < table.total :=
  Finset.sum_pos (fun _ => rowSum_pos) ⟨row, member⟩

theorem sum_columnSum : ∑ column ∈ table.columns, table.columnSum column = table.total :=
  Finset.sum_comm

theorem observed_le_columnSum (member : row ∈ table.rows) :
    table.observed row column ≤ table.columnSum column :=
  Finset.single_le_sum (fun other _ => table.nonneg other column) member

theorem expected_pos (rowIn : row ∈ table.rows) (columnIn : column ∈ table.columns) :
    0 < table.expected row column :=
  div_pos (mul_pos (rowSum_pos rowIn) (columnSum_pos columnIn)) (total_pos rowIn)

theorem sum_expected (filled : table.total ≠ 0) :
    ∑ row ∈ table.rows, ∑ column ∈ table.columns, table.expected row column = table.total := by
  have inner : ∀ row, ∑ column ∈ table.columns, table.expected row column = table.rowSum row := by
    intro row
    unfold expected
    rw [← Finset.sum_div, ← Finset.mul_sum, sum_columnSum, mul_div_assoc, div_self filled, mul_one]
  exact Finset.sum_congr rfl fun row _ => inner row

def squares (table : Table Row Column Number) : Number :=
  ∑ row ∈ table.rows, ∑ column ∈ table.columns,
    table.observed row column ^ 2 / (table.rowSum row * table.columnSum column)

theorem chiSquared_eq (filled : table.total ≠ 0) :
    table.chiSquared = table.total * (table.squares - 1) := by
  have cell : ∀ row ∈ table.rows, ∀ column ∈ table.columns,
      (table.observed row column - table.expected row column) ^ 2 / table.expected row column =
        table.total * (table.observed row column ^ 2 / (table.rowSum row * table.columnSum column)) -
          2 * table.observed row column + table.expected row column := by
    intro row rowIn column columnIn
    have rowPos := (rowSum_pos rowIn).ne'
    have columnPos := (columnSum_pos columnIn).ne'
    unfold expected
    field_simp
    ring
  have summed : table.chiSquared = ∑ row ∈ table.rows, ∑ column ∈ table.columns,
      (table.total * (table.observed row column ^ 2 / (table.rowSum row * table.columnSum column)) -
        2 * table.observed row column + table.expected row column) :=
    Finset.sum_congr rfl fun row rowIn => Finset.sum_congr rfl fun column columnIn =>
      cell row rowIn column columnIn
  rw [summed]
  simp only [Finset.sum_add_distrib, Finset.sum_sub_distrib, ← Finset.mul_sum]
  rw [sum_expected filled, show ∑ row ∈ table.rows, ∑ column ∈ table.columns,
    table.observed row column = table.total from rfl]
  unfold squares
  ring

theorem squares_le_rows : table.squares ≤ table.rows.card := by
  have each : ∀ row ∈ table.rows, ∑ column ∈ table.columns,
      table.observed row column ^ 2 / (table.rowSum row * table.columnSum column) ≤ 1 := by
    intro row rowIn
    have cell : ∀ column ∈ table.columns,
        table.observed row column ^ 2 / (table.rowSum row * table.columnSum column) ≤
          table.observed row column / table.rowSum row := by
      intro column columnIn
      have rowPos := rowSum_pos rowIn
      have columnPos := columnSum_pos columnIn
      rw [div_le_div_iff₀ (mul_pos rowPos columnPos) rowPos]
      have within : table.observed row column ≤ table.columnSum column := observed_le_columnSum rowIn
      have nonneg := mul_nonneg (table.nonneg row column) rowPos.le
      calc table.observed row column ^ 2 * table.rowSum row
          = table.observed row column * (table.observed row column * table.rowSum row) := by ring
        _ ≤ table.columnSum column * (table.observed row column * table.rowSum row) :=
            mul_le_mul_of_nonneg_right within nonneg
        _ = table.observed row column * (table.rowSum row * table.columnSum column) := by ring
    calc ∑ column ∈ table.columns,
          table.observed row column ^ 2 / (table.rowSum row * table.columnSum column)
        ≤ ∑ column ∈ table.columns, table.observed row column / table.rowSum row :=
          Finset.sum_le_sum cell
      _ = 1 := by
          rw [← Finset.sum_div]
          exact div_self (rowSum_pos rowIn).ne'
  calc table.squares ≤ ∑ row ∈ table.rows, (1 : Number) := Finset.sum_le_sum each
    _ = table.rows.card := by simp

theorem squares_transpose : table.transpose.squares = table.squares := by
  have swapped := Finset.sum_comm (s := table.columns) (t := table.rows) (f := fun column row =>
    table.observed row column ^ 2 / (table.columnSum column * table.rowSum row))
  refine swapped.trans (Finset.sum_congr rfl fun row _ => Finset.sum_congr rfl fun column _ => ?_)
  rw [mul_comm]

theorem squares_le_columns : table.squares ≤ table.columns.card := by
  rw [← squares_transpose]
  exact squares_le_rows

theorem squares_le : table.squares ≤ min table.rows.card table.columns.card := by
  rw [Nat.cast_min]
  exact le_min squares_le_rows squares_le_columns

theorem total_transpose : table.transpose.total = table.total := sum_columnSum

theorem cell_nonneg (rowIn : row ∈ table.rows) (columnIn : column ∈ table.columns) :
    0 ≤ (table.observed row column - table.expected row column) ^ 2 / table.expected row column :=
  div_nonneg (sq_nonneg _) (expected_pos rowIn columnIn).le

theorem chiSquared_nonneg : 0 ≤ table.chiSquared :=
  Finset.sum_nonneg fun _ rowIn => Finset.sum_nonneg fun _ columnIn => cell_nonneg rowIn columnIn

theorem chiSquared_eq_zero_iff :
    table.chiSquared = 0 ↔ ∀ row ∈ table.rows, ∀ column ∈ table.columns,
      table.observed row column = table.expected row column := by
  unfold chiSquared
  rw [Finset.sum_eq_zero_iff_of_nonneg fun row rowIn => Finset.sum_nonneg fun column columnIn =>
    cell_nonneg rowIn columnIn]
  refine forall₂_congr fun row rowIn => ?_
  rw [Finset.sum_eq_zero_iff_of_nonneg fun column columnIn => cell_nonneg rowIn columnIn]
  refine forall₂_congr fun column columnIn => ?_
  rw [div_eq_zero_iff, or_iff_left (expected_pos rowIn columnIn).ne', sq_eq_zero_iff, sub_eq_zero]

theorem squares_eq_rows {partner : Row → Column}
    (paired : ∀ row ∈ table.rows, partner row ∈ table.columns)
    (only : ∀ row ∈ table.rows, ∀ column ∈ table.columns, column ≠ partner row →
      table.observed row column = 0)
    (own : ∀ row ∈ table.rows, ∀ other ∈ table.rows, other ≠ row →
      table.observed other (partner row) = 0) :
    table.squares = table.rows.card := by
  have each : ∀ row ∈ table.rows, ∑ column ∈ table.columns,
      table.observed row column ^ 2 / (table.rowSum row * table.columnSum column) = 1 := by
    intro row rowIn
    have inRow : table.rowSum row = table.observed row (partner row) :=
      Finset.sum_eq_single_of_mem _ (paired row rowIn) (only row rowIn)
    have inColumn : table.columnSum (partner row) = table.observed row (partner row) :=
      Finset.sum_eq_single_of_mem _ rowIn (own row rowIn)
    have filled := (rowSum_pos rowIn).ne'
    rw [Finset.sum_eq_single_of_mem (partner row) (paired row rowIn)]
    · rw [inColumn, inRow, pow_two]
      rw [inRow] at filled
      exact div_self (mul_ne_zero filled filled)
    · intro column columnIn apart
      rw [only row rowIn column columnIn apart]
      simp
  rw [squares, Finset.sum_congr rfl each]
  simp

def association (table : Table Row Column Number) : Number :=
  table.chiSquared / (table.total * ((min table.rows.card table.columns.card : Nat) - 1))

variable (table)

/-- At least two rows and two columns. -/
def Proper : Prop := 1 < table.rows.card ∧ 1 < table.columns.card

variable {table}

theorem Proper.total_pos (proper : table.Proper) : 0 < table.total := by
  obtain ⟨row, rowIn⟩ := Finset.card_pos.mp (zero_lt_one.trans proper.1)
  exact Table.total_pos rowIn

theorem Proper.degrees_pos (proper : table.Proper) :
    (0 : Number) < (min table.rows.card table.columns.card : Nat) - 1 := by
  have two : 1 < min table.rows.card table.columns.card := lt_min proper.1 proper.2
  exact sub_pos.mpr (by exact_mod_cast two)

theorem Proper.bound_pos (proper : table.Proper) :
    0 < table.total * ((min table.rows.card table.columns.card : Nat) - 1) :=
  mul_pos proper.total_pos proper.degrees_pos

theorem association_eq (filled : table.total ≠ 0) :
    table.association =
      (table.squares - 1) / ((min table.rows.card table.columns.card : Nat) - 1) := by
  rw [association, chiSquared_eq filled]
  exact mul_div_mul_left _ _ filled

theorem association_nonneg (proper : table.Proper) : 0 ≤ table.association :=
  div_nonneg chiSquared_nonneg proper.bound_pos.le

theorem association_le_one (proper : table.Proper) : table.association ≤ 1 := by
  rw [association_eq proper.total_pos.ne', div_le_one proper.degrees_pos]
  exact sub_le_sub_right squares_le 1

theorem association_eq_zero_iff (proper : table.Proper) :
    table.association = 0 ↔ ∀ row ∈ table.rows, ∀ column ∈ table.columns,
      table.observed row column = table.expected row column := by
  rw [association, div_eq_zero_iff, or_iff_left proper.bound_pos.ne', chiSquared_eq_zero_iff]

theorem association_eq_one (proper : table.Proper) (square : table.rows.card = table.columns.card)
    (full : table.squares = table.rows.card) : table.association = 1 := by
  have bound : min table.rows.card table.columns.card = table.rows.card := min_eq_left square.le
  have degrees := proper.degrees_pos
  rw [bound] at degrees
  rw [association_eq proper.total_pos.ne', full, bound]
  exact div_self degrees.ne'

theorem association_transpose (proper : table.Proper) :
    table.transpose.association = table.association := by
  have filled := proper.total_pos.ne'
  rw [association_eq filled, association_eq (by rw [total_transpose]; exact filled),
    squares_transpose, show table.transpose.rows = table.columns from rfl,
    show table.transpose.columns = table.rows from rfl, min_comm]

structure Renamed {OtherRow OtherColumn : Type} (table : Table Row Column Number)
    (other : Table OtherRow OtherColumn Number) (nameRow : Row → OtherRow)
    (nameColumn : Column → OtherColumn) : Prop where
  rows : Set.BijOn nameRow table.rows other.rows
  columns : Set.BijOn nameColumn table.columns other.columns
  observed : ∀ row ∈ table.rows, ∀ column ∈ table.columns,
    other.observed (nameRow row) (nameColumn column) = table.observed row column

section Renaming

variable {OtherRow OtherColumn : Type} {other : Table OtherRow OtherColumn Number}
  {nameRow : Row → OtherRow} {nameColumn : Column → OtherColumn}

omit [LinearOrder Number] [IsStrictOrderedRing Number] in
theorem sum_of_bijOn {Item OtherItem : Type} {items : Finset Item} {others : Finset OtherItem}
    {name : Item → OtherItem} (names : Set.BijOn name items others) (amount : OtherItem → Number) :
    ∑ item ∈ others, amount item = ∑ item ∈ items, amount (name item) :=
  (Finset.sum_nbij name names.mapsTo names.injOn names.surjOn fun _ _ => rfl).symm

section

variable (renamed : Renamed table other nameRow nameColumn)

include renamed

theorem Renamed.rowSum_eq (member : row ∈ table.rows) :
    other.rowSum (nameRow row) = table.rowSum row :=
  (sum_of_bijOn renamed.columns _).trans
    (Finset.sum_congr rfl fun column columnIn => renamed.observed row member column columnIn)

theorem Renamed.columnSum_eq (member : column ∈ table.columns) :
    other.columnSum (nameColumn column) = table.columnSum column :=
  (sum_of_bijOn renamed.rows _).trans
    (Finset.sum_congr rfl fun row rowIn => renamed.observed row rowIn column member)

theorem Renamed.total_eq :
    other.total = table.total :=
  (sum_of_bijOn renamed.rows _).trans (Finset.sum_congr rfl fun _ => renamed.rowSum_eq)

theorem Renamed.squares_eq :
    other.squares = table.squares := by
  refine (sum_of_bijOn renamed.rows _).trans (Finset.sum_congr rfl fun row rowIn => ?_)
  refine (sum_of_bijOn renamed.columns _).trans (Finset.sum_congr rfl fun column columnIn => ?_)
  rw [renamed.observed row rowIn column columnIn, renamed.rowSum_eq rowIn,
    renamed.columnSum_eq columnIn]

theorem Renamed.association_eq (filled : table.total ≠ 0) :
    other.association = table.association := by
  have rows : table.rows.card = other.rows.card :=
    Finset.card_nbij nameRow renamed.rows.mapsTo renamed.rows.injOn renamed.rows.surjOn
  have columns : table.columns.card = other.columns.card :=
    Finset.card_nbij nameColumn renamed.columns.mapsTo renamed.columns.injOn renamed.columns.surjOn
  rw [Table.association_eq filled, Table.association_eq (renamed.total_eq ▸ filled),
    renamed.squares_eq, rows, columns]

end

end Renaming

end Table

section Pairs

variable [DecidableEq Row] [DecidableEq Column]

def cell (pairs : List (Row × Column)) (row : Row) (column : Column) : Nat :=
  pairs.countP fun pair => decide (pair.1 = row ∧ pair.2 = column)

theorem cell_cons (pair : Row × Column) (pairs : List (Row × Column)) (row : Row) (column : Column) :
    cell (pair :: pairs) row column =
      cell pairs row column + if pair.1 = row ∧ pair.2 = column then 1 else 0 := by
  simp [cell, List.countP_cons]

theorem cell_pos_iff {pairs : List (Row × Column)} {row : Row} {column : Column} :
    0 < cell pairs row column ↔ (row, column) ∈ pairs := by
  unfold cell
  rw [List.countP_pos_iff]
  constructor
  · rintro ⟨pair, member, same⟩
    obtain ⟨rfl, rfl⟩ := of_decide_eq_true same
    exact member
  · exact fun member => ⟨(row, column), member, decide_eq_true ⟨rfl, rfl⟩⟩

theorem cell_perm {pairs others : List (Row × Column)} (perm : pairs.Perm others) (row : Row)
    (column : Column) : cell pairs row column = cell others row column := perm.countP_eq _

variable (pairs : List (Row × Column))

theorem cell_swap (row : Row) (column : Column) :
    cell (pairs.map Prod.swap) column row = cell pairs row column := by
  unfold cell
  rw [List.countP_map]
  simp [Function.comp_def, and_comm]

theorem sum_cell_row (row : Row) (columns : Finset Column)
    (within : ∀ pair ∈ pairs, pair.2 ∈ columns) :
    ∑ column ∈ columns, cell pairs row column = (pairs.map Prod.fst).count row := by
  induction pairs with
  | nil => simp [cell]
  | cons pair rest ih =>
    obtain ⟨here, later⟩ := List.forall_mem_cons.mp within
    simp only [cell_cons]
    rw [Finset.sum_add_distrib, ih later, List.map_cons, List.count_cons]
    by_cases same : pair.1 = row
    · simp [same, here]
    · simp [same]

theorem sum_cell_column (column : Column) (rows : Finset Row)
    (within : ∀ pair ∈ pairs, pair.1 ∈ rows) :
    ∑ row ∈ rows, cell pairs row column = (pairs.map Prod.snd).count column := by
  have withinSwapped : ∀ pair ∈ pairs.map Prod.swap, pair.2 ∈ rows := by
    intro pair member
    obtain ⟨old, inPairs, rfl⟩ := List.mem_map.mp member
    exact within old inPairs
  have swapped := sum_cell_row (pairs.map Prod.swap) column rows withinSwapped
  rw [List.map_map] at swapped
  rw [← show (pairs.map (Prod.fst ∘ Prod.swap)).count column = (pairs.map Prod.snd).count column from rfl,
    ← swapped]
  exact Finset.sum_congr rfl fun row _ => (cell_swap pairs row column).symm

variable (Number) in
def ofPairs (pairs : List (Row × Column)) : Table Row Column Number where
  rows := (pairs.map Prod.fst).toFinset
  columns := (pairs.map Prod.snd).toFinset
  observed row column := cell pairs row column
  nonneg row column := Nat.cast_nonneg _
  rowFilled row member := by
    have within : ∀ pair ∈ pairs, pair.2 ∈ (pairs.map Prod.snd).toFinset :=
      fun pair inPairs => List.mem_toFinset.mpr (List.mem_map_of_mem inPairs)
    rw [← Nat.cast_sum, sum_cell_row pairs row _ within, Nat.cast_pos]
    exact List.count_pos_iff.mpr (List.mem_toFinset.mp member)
  columnFilled column member := by
    have within : ∀ pair ∈ pairs, pair.1 ∈ (pairs.map Prod.fst).toFinset :=
      fun pair inPairs => List.mem_toFinset.mpr (List.mem_map_of_mem inPairs)
    rw [← Nat.cast_sum, sum_cell_column pairs column _ within, Nat.cast_pos]
    exact List.count_pos_iff.mpr (List.mem_toFinset.mp member)

variable (pairs : List (Row × Column))

theorem mem_rows_iff (row : Row) : row ∈ (ofPairs Number pairs).rows ↔ row ∈ pairs.map Prod.fst :=
  List.mem_toFinset

theorem mem_columns_iff (column : Column) :
    column ∈ (ofPairs Number pairs).columns ↔ column ∈ pairs.map Prod.snd :=
  List.mem_toFinset

theorem rowSum_ofPairs (row : Row) :
    (ofPairs Number pairs).rowSum row = (pairs.map Prod.fst).count row := by
  rw [← sum_cell_row pairs row (pairs.map Prod.snd).toFinset, Nat.cast_sum]
  · rfl
  · exact fun pair inPairs => List.mem_toFinset.mpr (List.mem_map_of_mem inPairs)

theorem columnSum_ofPairs (column : Column) :
    (ofPairs Number pairs).columnSum column = (pairs.map Prod.snd).count column := by
  rw [← sum_cell_column pairs column (pairs.map Prod.fst).toFinset, Nat.cast_sum]
  · rfl
  · exact fun pair inPairs => List.mem_toFinset.mpr (List.mem_map_of_mem inPairs)

theorem total_ofPairs : (ofPairs Number pairs).total = pairs.length := by
  have counted := List.sum_toFinset_count_eq_length (pairs.map Prod.fst)
  rw [List.length_map] at counted
  rw [Table.total, ← counted, Nat.cast_sum]
  exact Finset.sum_congr rfl fun row _ => rowSum_ofPairs pairs row

variable {pairs}

theorem bijOn_toFinset {Key OtherKey : Type} [DecidableEq Key] [DecidableEq OtherKey]
    {name : Key → OtherKey} {keys : List Key} {others : List OtherKey}
    (inj : Set.InjOn name {key | key ∈ keys}) (perm : others.Perm (keys.map name)) :
    Set.BijOn name keys.toFinset others.toFinset := by
  refine ⟨?_, inj.mono fun key member => List.mem_toFinset.mp member, ?_⟩
  · intro key member
    exact List.mem_toFinset.mpr (perm.mem_iff.mpr (List.mem_map_of_mem (List.mem_toFinset.mp member)))
  · intro renamed member
    obtain ⟨key, isKey, rfl⟩ := List.mem_map.mp (perm.mem_iff.mp (List.mem_toFinset.mp member))
    exact ⟨key, List.mem_toFinset.mpr isKey, rfl⟩

theorem renamed_ofPairs {OtherRow OtherColumn : Type} [DecidableEq OtherRow] [DecidableEq OtherColumn]
    {nameRow : Row → OtherRow} {nameColumn : Column → OtherColumn} {others : List (OtherRow × OtherColumn)}
    (rowInj : Set.InjOn nameRow {row | row ∈ pairs.map Prod.fst})
    (columnInj : Set.InjOn nameColumn {column | column ∈ pairs.map Prod.snd})
    (perm : others.Perm (pairs.map fun pair => (nameRow pair.1, nameColumn pair.2))) :
    Table.Renamed (ofPairs Number pairs) (ofPairs Number others) nameRow nameColumn where
  rows := bijOn_toFinset rowInj (by simpa [Function.comp_def] using perm.map Prod.fst)
  columns := bijOn_toFinset columnInj (by simpa [Function.comp_def] using perm.map Prod.snd)
  observed row rowIn column columnIn := by
    show ((cell others (nameRow row) (nameColumn column) : Nat) : Number) = cell pairs row column
    rw [cell_perm perm, cell, List.countP_map, cell]
    congr 1
    refine List.countP_congr fun pair inPairs => ?_
    have rowHere : pair.1 ∈ pairs.map Prod.fst := List.mem_map_of_mem inPairs
    have columnHere : pair.2 ∈ pairs.map Prod.snd := List.mem_map_of_mem inPairs
    simp only [Function.comp_apply, decide_eq_true_eq]
    rw [rowInj.eq_iff rowHere (List.mem_toFinset.mp rowIn),
      columnInj.eq_iff columnHere (List.mem_toFinset.mp columnIn)]

section Gaps

variable {Item : Type} {items : List Item} {first : Item → Option Row} {second : Item → Option Column}

def joint (items : List Item) (first : Item → Option Row) (second : Item → Option Column) :
    List (Row × Column) :=
  items.filterMap fun item => (first item).bind fun row => (second item).map fun column => (row, column)

/-- The gaps of the two columns are in the same items. -/
def Together (items : List Item) (first : Item → Option Row) (second : Item → Option Column) : Prop :=
  ∀ item ∈ items, (first item).isSome = (second item).isSome

omit [DecidableEq Row] [DecidableEq Column] in
theorem zip_eq_joint (together : Together items first second) :
    (items.filterMap first).zip (items.filterMap second) = joint items first second := by
  induction items with
  | nil => rfl
  | cons item rest ih =>
    obtain ⟨here, later⟩ := List.forall_mem_cons.mp together
    have tail := ih later
    unfold joint at tail ⊢
    rw [List.filterMap_cons, List.filterMap_cons, List.filterMap_cons]
    cases row : first item with
    | none =>
      cases column : second item with
      | none => exact tail
      | some _ => simp [row, column] at here
    | some _ =>
      cases column : second item with
      | none => simp [row, column] at here
      | some _ => exact congrArg _ tail

theorem sum_cells (pairs : List (Row × Column)) {rows : Finset Row} {columns : Finset Column}
    (rowsIn : ∀ pair ∈ pairs, pair.1 ∈ rows) (columnsIn : ∀ pair ∈ pairs, pair.2 ∈ columns) :
    ∑ row ∈ rows, ∑ column ∈ columns, cell pairs row column = pairs.length := by
  rw [Finset.sum_congr rfl fun row _ => sum_cell_row pairs row columns columnsIn]
  have counted := Multiset.sum_count_eq_card (s := rows) (m := (pairs.map Prod.fst : Multiset Row))
    (by simpa using fun row column member => rowsIn (row, column) member)
  simpa using counted

omit [DecidableEq Row] [DecidableEq Column] in
theorem length_joint : (joint items first second).length =
    ((items.filter fun item => (first item).isSome).filter fun item => (second item).isSome).length := by
  rw [joint, List.length_filterMap_eq_countP, List.filter_filter, ← List.countP_eq_length_filter]
  refine List.countP_congr fun item _ => ?_
  cases first item <;> cases second item <;> simp

omit [DecidableEq Row] [DecidableEq Column] in
theorem mem_joint {row : Row} {column : Column} : (row, column) ∈ joint items first second ↔
    ∃ item ∈ items, first item = some row ∧ second item = some column := by
  simp only [joint, List.mem_filterMap, Option.bind_eq_some_iff, Option.map_eq_some_iff, Prod.mk.injEq]
  constructor
  · rintro ⟨item, member, _, here, _, there, rfl, rfl⟩
    exact ⟨item, member, here, there⟩
  · rintro ⟨item, member, here, there⟩
    exact ⟨item, member, row, here, column, there, rfl, rfl⟩

/-- Columns zipped by position count the items that have both values only where their gaps are
in the same items. -/
theorem cells_zip_iff (equal : (items.filterMap first).length = (items.filterMap second).length) :
    (∀ row ∈ items.filterMap first, ∀ column ∈ items.filterMap second,
      cell ((items.filterMap first).zip (items.filterMap second)) row column =
        cell (joint items first second) row column) ↔ Together items first second := by
  refine ⟨fun cells => ?_, fun together _ _ _ _ => by rw [zip_eq_joint together]⟩
  have zipped := sum_cells ((items.filterMap first).zip (items.filterMap second))
    (fun pair member => List.mem_toFinset.mpr (List.of_mem_zip member).1)
    (fun pair member => List.mem_toFinset.mpr (List.of_mem_zip member).2)
  have joined : ∑ row ∈ (items.filterMap first).toFinset, ∑ column ∈ (items.filterMap second).toFinset,
      cell (joint items first second) row column = (joint items first second).length := by
    refine sum_cells _ (fun pair member => ?_) fun pair member => ?_
    · obtain ⟨item, inItems, here, _⟩ := mem_joint.mp member
      exact List.mem_toFinset.mpr (List.mem_filterMap.mpr ⟨item, inItems, here⟩)
    · obtain ⟨item, inItems, _, there⟩ := mem_joint.mp member
      exact List.mem_toFinset.mpr (List.mem_filterMap.mpr ⟨item, inItems, there⟩)
  have sameLength : (joint items first second).length = (items.filterMap first).length := by
    rw [List.length_zip, equal, min_self, ← equal] at zipped
    rw [← joined, ← zipped]
    exact Finset.sum_congr rfl fun row rowIn => Finset.sum_congr rfl fun column columnIn =>
      (cells row (List.mem_toFinset.mp rowIn) column (List.mem_toFinset.mp columnIn)).symm
  have forward := sameLength
  have backward := sameLength.trans equal
  rw [length_joint, List.length_filterMap_eq_countP, List.countP_eq_length_filter,
    List.length_filter_eq_length_iff] at forward
  rw [length_joint, List.filter_comm, List.length_filterMap_eq_countP, List.countP_eq_length_filter,
    List.length_filter_eq_length_iff] at backward
  intro item member
  rw [Bool.eq_iff_iff]
  exact ⟨fun here => forward item (List.mem_filter.mpr ⟨member, here⟩),
    fun there => backward item (List.mem_filter.mpr ⟨member, there⟩)⟩

end Gaps

theorem cell_zip_crossed {row other : Row} {column another : Column} (apart : row ≠ other)
    (differ : column ≠ another) (rows : List Row) (columns : List Column) :
    cell ((row :: other :: rows).zip (column :: another :: columns)) row column ≠
      cell ((row :: other :: rows).zip (another :: column :: columns)) row column := by
  simp [cell_cons, apart.symm, differ.symm]

end Pairs

end Foundation.ContingencyTable
