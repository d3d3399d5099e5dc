import Ukip.Analytics.GreedyClusters
import Ukip.Foundation.ContingencyTable
import Ukip.Foundation.FallibleLoop
import Ukip.Foundation.Quotients

/-!
# Cramér's V of the engine

`cramers_v` of `correlation.rs` on exact numbers, up to the square root.  The table is one
vector, row after row, addressed through the positions of the sorted categories.  An index
out of range, a missing key and a division by zero make the run fail.
-/

namespace Ukip.Analytics.CramersV

open Foundation.ContingencyTable Foundation.FallibleLoop Foundation.Quotients Analytics.Engine
open TopicModeling

inductive Fault where
  /-- the `Err` of the function -/
  | refused (message : String)
  | failed

/-- `ct[position] += 1` -/
def increment (ct : List Nat) (position : Nat) : Option (List Nat) :=
  if position < ct.length then some (ct.modify position (· + 1)) else none

def countPair (xCats yCats : List String) (ct : List Nat) (pair : String × String) :
    Option (List Nat) := do
  let ri ← xCats.idxOf? pair.1
  let ci ← yCats.idxOf? pair.2
  increment ct (ri * yCats.length + ci)

def contingency (x y : List String) : Option (List Nat) :=
  (x.zip y).foldlM (countPair (sortedSet x) (sortedSet y))
    (List.replicate ((sortedSet x).length * (sortedSet y).length) 0)

/-- `ct[first..last]` -/
def slice (ct : List Nat) (first last : Nat) : Option (List Nat) :=
  if last ≤ ct.length then some ((ct.take last).drop first) else none

def rowSums (ct : List Nat) (r c : Nat) : Option (List Nat) :=
  (List.range r).mapM fun i => (slice ct (i * c) ((i + 1) * c)).map List.sum

def colSums (ct : List Nat) (r c : Nat) : Option (List Nat) :=
  (List.range c).mapM fun j => ((List.range r).mapM fun i => ct[i * c + j]?).map List.sum

def addCell (ct rowSums colSums : List Nat) (c n i : Nat) (chi2 : Rat) (j : Nat) : Option Rat := do
  let rowSum ← rowSums[i]?
  let colSum ← colSums[j]?
  let expected ← divide ((rowSum : Rat) * colSum) n
  if 0 < expected then
    let observed ← ct[i * c + j]?
    let term ← divide (((observed : Rat) - expected) ^ 2) expected
    some (chi2 + term)
  else some chi2

def chi2 (x y : List String) : Option Rat := do
  let r := (sortedSet x).length
  let c := (sortedSet y).length
  let ct ← contingency x y
  let rows ← rowSums ct r c
  let cols ← colSums ct r c
  (List.range r).foldlM (fun sum i => (List.range c).foldlM (addCell ct rows cols c x.length i) sum) 0

def squareOf (x y : List String) : Option Rat := do
  let chi2 ← chi2 x y
  let k := min (sortedSet x).length (sortedSet y).length
  if k ≤ 1 ∨ x.length ≤ 1 then some 0 else divide chi2 ((x.length : Rat) * ((k : Rat) - 1))

def lengthMessage (x y : List String) : String :=
  "arrays must have equal length: x=" ++ toString x.length ++ ", y=" ++ toString y.length

/-- `cramers_v` before the square root, the clamp and the rounding -/
def cramersV (x y : List String) : Except Fault Rat :=
  if x.length ≠ y.length then .error (.refused (lengthMessage x y))
  else if x.length = 0 then .ok 0
  else if (sortedSet x).length ≤ 1 ∨ (sortedSet y).length ≤ 1 then .ok 0
  else
    match squareOf x y with
    | none => .error .failed
    | some square => .ok square

/-- Every pair counted so far stands in its cell. -/
def Filled (xCats yCats : List String) (counted : List (String × String)) (ct : List Nat) : Prop :=
  ct.length = xCats.length * yCats.length ∧
    ∀ i a j b, xCats[i]? = some a → yCats[j]? = some b →
      ct[i * yCats.length + j]? = some (cell counted a b)

theorem lt_of_getElem? {cats : List String} {i : Nat} {a : String} (at_ : cats[i]? = some a) :
    i < cats.length := (List.getElem?_eq_some_iff.mp at_).1

theorem position_lt {r c i j : Nat} (iLt : i < r) (jLt : j < c) : i * c + j < r * c := by
  have row : (i + 1) * c ≤ r * c := Nat.mul_le_mul_right c iLt
  rw [Nat.succ_mul] at row
  omega

theorem position_inj {c i j i' j' : Nat} (jLt : j < c) (jLt' : j' < c)
    (same : i * c + j = i' * c + j') : i = i' ∧ j = j' := by
  have rows := congrArg (· / c) same
  have columns := congrArg (· % c) same
  simp only [Nat.mul_comm _ c, Nat.mul_add_div (Nat.zero_lt_of_lt jLt), Nat.div_eq_of_lt jLt,
    Nat.div_eq_of_lt jLt', Nat.mul_add_mod, Nat.mod_eq_of_lt jLt, Nat.mod_eq_of_lt jLt'] at rows columns
  exact ⟨rows, columns⟩

theorem getElem?_eq_iff_of_nodup {cats : List String} (once : cats.Nodup) {i j : Nat} {a b : String}
    (atI : cats[i]? = some a) (atJ : cats[j]? = some b) : i = j ↔ a = b := by
  constructor
  · rintro rfl
    exact Option.some.inj (atI.symm.trans atJ)
  · rintro rfl
    exact (List.getElem?_inj (lt_of_getElem? atI) once).mp (atI.trans atJ.symm)

theorem exists_index {column : List String} {value : String} (member : value ∈ column) :
    ∃ i, (sortedSet column).idxOf? value = some i ∧ (sortedSet column)[i]? = some value := by
  have inCats := (mem_sortedSet_iff column value).mpr member
  cases found : (sortedSet column).idxOf? value with
  | none => exact absurd inCats (List.idxOf?_eq_none_iff.mp found)
  | some i =>
    obtain ⟨inRange, here, _⟩ := List.idxOf?_eq_some_iff.mp found
    exact ⟨i, rfl, List.getElem?_eq_some_iff.mpr ⟨inRange, here⟩⟩

theorem filled_start (xCats yCats : List String) :
    Filled xCats yCats [] (List.replicate (xCats.length * yCats.length) 0) := by
  refine ⟨List.length_replicate, fun i a j b atI atJ => ?_⟩
  exact List.getElem?_replicate_of_lt (position_lt (lt_of_getElem? atI) (lt_of_getElem? atJ))

theorem cell_concat (counted : List (String × String)) (pair : String × String) (a b : String) :
    cell (counted ++ [pair]) a b = cell counted a b + if pair.1 = a ∧ pair.2 = b then 1 else 0 := by
  rw [cell_perm (List.perm_append_singleton pair counted), cell_cons]

variable {pair : String × String} {x y : List String} {counted : List (String × String)}

theorem filled_countPair {ct : List Nat} (filled : Filled (sortedSet x) (sortedSet y) counted ct)
    (xIn : pair.1 ∈ x) (yIn : pair.2 ∈ y) :
    ∃ next, countPair (sortedSet x) (sortedSet y) ct pair = some next ∧
      Filled (sortedSet x) (sortedSet y) (counted ++ [pair]) next := by
  obtain ⟨ri, foundRow, atRow⟩ := exists_index xIn
  obtain ⟨ci, foundColumn, atColumn⟩ := exists_index yIn
  have inRange : ri * (sortedSet y).length + ci < ct.length := by
    rw [filled.1]
    exact position_lt (lt_of_getElem? atRow) (lt_of_getElem? atColumn)
  refine ⟨ct.modify (ri * (sortedSet y).length + ci) (· + 1), ?_, ?_, ?_⟩
  · simp [countPair, increment, foundRow, foundColumn, inRange]
  · rw [List.length_modify, filled.1]
  · intro i a j b atI atJ
    rw [List.getElem?_modify, filled.2 i a j b atI atJ, cell_concat]
    have rows := getElem?_eq_iff_of_nodup (nodup_sortedSet x) atRow atI
    have columns := getElem?_eq_iff_of_nodup (nodup_sortedSet y) atColumn atJ
    by_cases same : pair.1 = a ∧ pair.2 = b
    · rw [rows.mpr same.1, columns.mpr same.2]
      simp [same]
    · have apart : ri * (sortedSet y).length + ci ≠ i * (sortedSet y).length + j := by
        intro position
        obtain ⟨row, column⟩ := position_inj (lt_of_getElem? atColumn) (lt_of_getElem? atJ) position
        exact same ⟨rows.mp row, columns.mp column⟩
      simp [apart, same]

theorem filled_run (rest : List (String × String)) {ct : List Nat}
    (filled : Filled (sortedSet x) (sortedSet y) counted ct)
    (within : ∀ pair ∈ rest, pair.1 ∈ x ∧ pair.2 ∈ y) :
    ∃ final, rest.foldlM (countPair (sortedSet x) (sortedSet y)) ct = some final ∧
      Filled (sortedSet x) (sortedSet y) (counted ++ rest) final := by
  induction rest generalizing counted ct with
  | nil => exact ⟨ct, rfl, by rwa [List.append_nil]⟩
  | cons pair rest ih =>
    obtain ⟨here, later⟩ := List.forall_mem_cons.mp within
    obtain ⟨next, turn, filledNext⟩ := filled_countPair filled here.1 here.2
    obtain ⟨final, finished, filledFinal⟩ := ih filledNext later
    refine ⟨final, ?_, by rwa [List.append_cons]⟩
    rw [List.foldlM_cons, turn]
    exact finished

theorem mem_of_mem_zip : ∀ pair ∈ x.zip y, pair.1 ∈ x ∧ pair.2 ∈ y :=
  fun _ member => List.of_mem_zip member

theorem exists_contingency (x y : List String) :
    ∃ ct, contingency x y = some ct ∧ Filled (sortedSet x) (sortedSet y) (x.zip y) ct :=
  filled_run (x.zip y) (filled_start _ _) mem_of_mem_zip

section Margins

variable {x y : List String} {ct : List Nat}

theorem mem_rowCats (member : pair ∈ x.zip y) : pair.1 ∈ (sortedSet x).toFinset :=
  List.mem_toFinset.mpr ((mem_sortedSet_iff x _).mpr (mem_of_mem_zip pair member).1)

theorem mem_colCats (member : pair ∈ x.zip y) : pair.2 ∈ (sortedSet y).toFinset :=
  List.mem_toFinset.mpr ((mem_sortedSet_iff y _).mpr (mem_of_mem_zip pair member).2)

theorem slice_row (filled : Filled (sortedSet x) (sortedSet y) (x.zip y) ct) {i : Nat} {a : String}
    (atI : (sortedSet x)[i]? = some a) :
    slice ct (i * (sortedSet y).length) ((i + 1) * (sortedSet y).length) =
      some ((sortedSet y).map (cell (x.zip y) a)) := by
  have within : (i + 1) * (sortedSet y).length ≤ ct.length := by
    rw [filled.1]
    exact Nat.mul_le_mul_right _ (lt_of_getElem? atI)
  rw [slice, if_pos within]
  refine congrArg some (List.ext_getElem? fun j => ?_)
  rw [List.getElem?_drop, List.getElem?_take, List.getElem?_map, Nat.succ_mul]
  cases atJ : (sortedSet y)[j]? with
  | some b =>
    rw [if_pos (by have := lt_of_getElem? atJ; omega), filled.2 i a j b atI atJ]
    rfl
  | none =>
    rw [if_neg (by have := List.getElem?_eq_none_iff.mp atJ; omega)]
    rfl

theorem rowSums_eq (filled : Filled (sortedSet x) (sortedSet y) (x.zip y) ct) :
    rowSums ct (sortedSet x).length (sortedSet y).length =
      some ((sortedSet x).map fun a => ((x.zip y).map Prod.fst).count a) := by
  refine mapM_range (sortedSet x) fun i a atI => ?_
  rw [slice_row filled atI, ← sum_cell_row (x.zip y) a (sortedSet y).toFinset fun _ => mem_colCats,
    List.sum_toFinset _ (nodup_sortedSet y)]
  rfl

theorem colSums_eq (filled : Filled (sortedSet x) (sortedSet y) (x.zip y) ct) :
    colSums ct (sortedSet x).length (sortedSet y).length =
      some ((sortedSet y).map fun b => ((x.zip y).map Prod.snd).count b) := by
  refine mapM_range (sortedSet y) fun j b atJ => ?_
  rw [mapM_range (sortedSet x) fun i a atI => filled.2 i a j b atI atJ,
    ← sum_cell_column (x.zip y) b (sortedSet x).toFinset fun _ => mem_rowCats,
    List.sum_toFinset _ (nodup_sortedSet x)]
  rfl

end Margins

def tableOf (x y : List String) : Table String String Rat := ofPairs Rat (x.zip y)

section Sum

variable {x y : List String}

theorem map_fst_zip (equal : x.length = y.length) : (x.zip y).map Prod.fst = x :=
  List.map_fst_zip equal.le

theorem map_snd_zip (equal : x.length = y.length) : (x.zip y).map Prod.snd = y :=
  List.map_snd_zip equal.ge

theorem rows_tableOf (equal : x.length = y.length) : (tableOf x y).rows = (sortedSet x).toFinset := by
  ext a
  rw [tableOf, mem_rows_iff, map_fst_zip equal, List.mem_toFinset, mem_sortedSet_iff]

theorem columns_tableOf (equal : x.length = y.length) :
    (tableOf x y).columns = (sortedSet y).toFinset := by
  ext b
  rw [tableOf, mem_columns_iff, map_snd_zip equal, List.mem_toFinset, mem_sortedSet_iff]

theorem card_toFinset_sortedSet (column : List String) :
    (sortedSet column).toFinset.card = (sortedSet column).length :=
  List.toFinset_card_of_nodup (nodup_sortedSet column)

theorem total_tableOf (equal : x.length = y.length) : (tableOf x y).total = x.length := by
  rw [tableOf, total_ofPairs, List.length_zip, equal, min_self]

theorem proper_tableOf (equal : x.length = y.length) (xCats : 1 < (sortedSet x).length)
    (yCats : 1 < (sortedSet y).length) : (tableOf x y).Proper := by
  rw [Table.Proper, rows_tableOf equal, columns_tableOf equal, card_toFinset_sortedSet,
    card_toFinset_sortedSet]
  exact ⟨xCats, yCats⟩

theorem addCell_eq {ct : List Nat} (filled : Filled (sortedSet x) (sortedSet y) (x.zip y) ct)
    (equal : x.length = y.length) {i j : Nat} {a b : String} (atI : (sortedSet x)[i]? = some a)
    (atJ : (sortedSet y)[j]? = some b) (sum : Rat) :
    addCell ct ((sortedSet x).map fun a => ((x.zip y).map Prod.fst).count a)
        ((sortedSet y).map fun b => ((x.zip y).map Prod.snd).count b) (sortedSet y).length x.length i
        sum j =
      some (sum + ((tableOf x y).observed a b - (tableOf x y).expected a b) ^ 2 /
        (tableOf x y).expected a b) := by
  have rowIn : a ∈ (tableOf x y).rows := by
    rw [rows_tableOf equal, List.mem_toFinset]
    exact List.mem_of_getElem? atI
  have columnIn : b ∈ (tableOf x y).columns := by
    rw [columns_tableOf equal, List.mem_toFinset]
    exact List.mem_of_getElem? atJ
  have positive := Table.expected_pos rowIn columnIn
  have filledRows : (x.length : Rat) ≠ 0 := total_tableOf equal ▸ (Table.total_pos rowIn).ne'
  have expected : ((((x.zip y).map Prod.fst).count a : Nat) : Rat) *
      (((x.zip y).map Prod.snd).count b : Nat) / x.length = (tableOf x y).expected a b := by
    rw [Table.expected, total_tableOf equal, tableOf, rowSum_ofPairs, columnSum_ofPairs]
  simp only [addCell, List.getElem?_map, atI, atJ, Option.map_some, Option.bind_eq_bind,
    Option.bind_some, divide_of_ne_zero _ filledRows, expected, if_pos positive,
    filled.2 i a j b atI atJ, divide_of_ne_zero _ positive.ne']
  rfl

theorem chi2_eq (equal : x.length = y.length) : chi2 x y = some (tableOf x y).chiSquared := by
  obtain ⟨ct, counted, filled⟩ := exists_contingency x y
  have inner : ∀ i a, (sortedSet x)[i]? = some a → ∀ sum : Rat,
      (List.range (sortedSet y).length).foldlM (addCell ct
        ((sortedSet x).map fun a => ((x.zip y).map Prod.fst).count a)
        ((sortedSet y).map fun b => ((x.zip y).map Prod.snd).count b) (sortedSet y).length x.length i)
        sum = some (sum + ((sortedSet y).map fun b => ((tableOf x y).observed a b -
          (tableOf x y).expected a b) ^ 2 / (tableOf x y).expected a b).sum) :=
    fun i a atI sum => foldlM_range_add (sortedSet y)
      (fun j b atJ running => addCell_eq filled equal atI atJ running) sum
  simp only [chi2, counted, rowSums_eq filled, colSums_eq filled, Option.bind_eq_bind,
    Option.bind_some]
  rw [foldlM_range_add (sortedSet x) inner 0, zero_add, Table.chiSquared, rows_tableOf equal,
    columns_tableOf equal, List.sum_toFinset _ (nodup_sortedSet x)]
  refine congrArg some (congrArg List.sum (List.map_congr_left fun a _ => ?_))
  exact (List.sum_toFinset _ (nodup_sortedSet y)).symm

theorem cramersV_eq (equal : x.length = y.length) (xCats : 1 < (sortedSet x).length)
    (yCats : 1 < (sortedSet y).length) : cramersV x y = .ok (tableOf x y).association := by
  have proper := proper_tableOf equal xCats yCats
  have distinct : (sortedSet x).length ≤ x.length :=
    (Foundation.Tally.sortedBy_perm _ _).length_eq.le.trans (List.dedup_sublist x).length_le
  have bound := proper.bound_pos
  have square : squareOf x y = some (tableOf x y).association := by
    rw [rows_tableOf equal, columns_tableOf equal, card_toFinset_sortedSet, card_toFinset_sortedSet,
      total_tableOf equal] at bound
    rw [squareOf, chi2_eq equal, Option.bind_eq_bind, Option.bind_some, if_neg (by omega),
      divide_of_ne_zero _ bound.ne', Table.association, rows_tableOf equal, columns_tableOf equal,
      card_toFinset_sortedSet, card_toFinset_sortedSet, total_tableOf equal]
  rw [cramersV, if_neg (not_not_intro equal), if_neg (by omega), if_neg (by omega), square]

end Sum

/-- The second list is the first under other names, one for each category. -/
def Recoded (x y : List String) : Prop :=
  ∃ rename : String → String, Set.InjOn rename {a | a ∈ x} ∧ y = x.map rename

theorem length_sortedSet (column : List String) :
    (sortedSet column).length = column.toFinset.card := by
  rw [← card_toFinset_sortedSet]
  congr 1
  ext a
  rw [List.mem_toFinset, List.mem_toFinset, mem_sortedSet_iff]

section Invariance

variable {x y : List String} (equal : x.length = y.length) (xCats : 1 < (sortedSet x).length)
  (yCats : 1 < (sortedSet y).length)

include equal xCats yCats

theorem cramersV_renamed {xs ys : List String} (equalOther : xs.length = ys.length)
    {renameX renameY : String → String} (injX : Set.InjOn renameX {a | a ∈ x})
    (injY : Set.InjOn renameY {b | b ∈ y})
    (perm : (xs.zip ys).Perm ((x.zip y).map fun pair => (renameX pair.1, renameY pair.2))) :
    cramersV xs ys = .ok (tableOf x y).association := by
  have renamed : Table.Renamed (tableOf x y) (tableOf xs ys) renameX renameY :=
    renamed_ofPairs (by rwa [map_fst_zip equal]) (by rwa [map_snd_zip equal]) perm
  have proper := proper_tableOf equal xCats yCats
  have rows : (tableOf x y).rows.card = (tableOf xs ys).rows.card :=
    Finset.card_nbij renameX renamed.rows.mapsTo renamed.rows.injOn renamed.rows.surjOn
  have columns : (tableOf x y).columns.card = (tableOf xs ys).columns.card :=
    Finset.card_nbij renameY renamed.columns.mapsTo renamed.columns.injOn renamed.columns.surjOn
  rw [rows_tableOf equal, rows_tableOf equalOther, card_toFinset_sortedSet,
    card_toFinset_sortedSet] at rows
  rw [columns_tableOf equal, columns_tableOf equalOther, card_toFinset_sortedSet,
    card_toFinset_sortedSet] at columns
  rw [cramersV_eq equalOther (rows ▸ xCats) (columns ▸ yCats), renamed.association_eq proper.total_pos.ne']

theorem cramersV_swap : cramersV y x = .ok (tableOf x y).association := by
  have proper := proper_tableOf equal xCats yCats
  have cells : ∀ a b, cell (y.zip x) b a = cell (x.zip y) a b := by
    intro a b
    rw [← cell_swap, List.zip_swap]
  have swapped : Table.Renamed (tableOf x y).transpose (tableOf y x) id id :=
    { rows := by
        rw [rows_tableOf equal.symm, ← columns_tableOf equal]
        exact Set.bijOn_id _
      columns := by
        rw [columns_tableOf equal.symm, ← rows_tableOf equal]
        exact Set.bijOn_id _
      observed := fun b _ a _ => congrArg Nat.cast (cells a b) }
  rw [cramersV_eq equal.symm yCats xCats, swapped.association_eq (by
    rw [Table.total_transpose]
    exact proper.total_pos.ne'), Table.association_transpose proper]

theorem association_of_recoded (recoded : Recoded x y) : (tableOf x y).association = 1 := by
  obtain ⟨rename, inj, rfl⟩ := recoded
  have pairs : x.zip (x.map rename) = x.map fun a => (a, rename a) :=
    List.map_prod_left_eq_zip.symm
  have empty : ∀ a b, b ≠ rename a → cell (x.zip (x.map rename)) a b = 0 := by
    intro a b apart
    refine Nat.eq_zero_of_not_pos fun positive => ?_
    have member := cell_pos_iff.mp positive
    rw [pairs] at member
    obtain ⟨old, _, same⟩ := List.mem_map.mp member
    obtain ⟨rfl, rfl⟩ := Prod.mk.inj same
    exact apart rfl
  have mem : ∀ a, a ∈ (tableOf x (x.map rename)).rows ↔ a ∈ x := by
    intro a
    rw [rows_tableOf equal, List.mem_toFinset, mem_sortedSet_iff]
  have cards : (tableOf x (x.map rename)).rows.card = (tableOf x (x.map rename)).columns.card := by
    have names : Set.BijOn rename x.toFinset (x.map rename).toFinset :=
      bijOn_toFinset inj (List.Perm.refl _)
    rw [rows_tableOf equal, columns_tableOf equal, card_toFinset_sortedSet, card_toFinset_sortedSet,
      length_sortedSet, length_sortedSet]
    exact Finset.card_nbij rename names.mapsTo names.injOn names.surjOn
  have paired : ∀ a ∈ (tableOf x (x.map rename)).rows,
      rename a ∈ (tableOf x (x.map rename)).columns := by
    intro a member
    rw [columns_tableOf equal, List.mem_toFinset, mem_sortedSet_iff]
    exact List.mem_map_of_mem ((mem a).mp member)
  refine Table.association_eq_one (proper_tableOf equal xCats yCats) cards
    (Table.squares_eq_rows paired ?_ ?_)
  · intro a _ b _ apart
    exact congrArg Nat.cast (empty a b apart)
  · intro a member other otherIn apart
    refine congrArg Nat.cast (empty other (rename a) fun same => apart ?_)
    exact (inj ((mem a).mp member) ((mem other).mp otherIn) same).symm

end Invariance

/-- No division by zero, a value between zero and one that the clamp leaves alone, zero at the
products of the margins, one for recoded lists, and the same value under every symmetry. -/
theorem cramersV_well_defined (x y : List String) (equal : x.length = y.length)
    (xCats : 1 < (sortedSet x).length) (yCats : 1 < (sortedSet y).length) :
    ∃ v : Rat, cramersV x y = .ok v ∧ 0 ≤ v ∧ v ≤ 1 ∧
      min (Real.sqrt v) 1 = Real.sqrt v ∧
      (v = 0 ↔ ∀ a ∈ x, ∀ b ∈ y,
        (cell (x.zip y) a b : Rat) = x.count a * y.count b / x.length) ∧
      (Recoded x y → v = 1) ∧
      cramersV y x = .ok v ∧
      (∀ xs ys : List String, xs.length = ys.length → (xs.zip ys).Perm (x.zip y) →
        cramersV xs ys = .ok v) ∧
      ∀ renameX renameY : String → String, Set.InjOn renameX {a | a ∈ x} →
        Set.InjOn renameY {b | b ∈ y} → cramersV (x.map renameX) (y.map renameY) = .ok v := by
  have proper := proper_tableOf equal xCats yCats
  have atMost := Table.association_le_one proper
  refine ⟨(tableOf x y).association, cramersV_eq equal xCats yCats, Table.association_nonneg proper,
    atMost, ?_, ?_, association_of_recoded equal xCats yCats, cramersV_swap equal xCats yCats, ?_, ?_⟩
  · exact min_eq_left (Real.sqrt_le_one.mpr (by exact_mod_cast atMost))
  · rw [Table.association_eq_zero_iff proper]
    simp only [rows_tableOf equal, columns_tableOf equal, List.mem_toFinset, mem_sortedSet_iff,
      Table.expected, total_tableOf equal]
    simp only [tableOf, rowSum_ofPairs, columnSum_ofPairs, map_fst_zip equal, map_snd_zip equal]
    rfl
  · intro xs ys equalOther perm
    refine cramersV_renamed equal xCats yCats equalOther (Set.injOn_id _)
      (Set.injOn_id _) ?_
    simpa using perm
  · intro renameX renameY injX injY
    refine cramersV_renamed equal xCats yCats (by simpa using equal) injX injY ?_
    rw [List.zip_map]
    exact List.Perm.refl _

/-- Two columns of two categories. -/
theorem cramersV_of_two :
    ∃ v : Rat, cramersV ["a", "b"] ["u", "v"] = .ok v ∧ 0 ≤ v ∧ v ≤ 1 := by
  obtain ⟨v, value, nonneg, atMost, _⟩ :=
    cramersV_well_defined ["a", "b"] ["u", "v"] rfl (by decide) (by decide)
  exact ⟨v, value, nonneg, atMost⟩

end Ukip.Analytics.CramersV
