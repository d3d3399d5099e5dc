import Mathlib.Data.List.Basic

/-!
# Tables by primary key

A table holds at most one row for each key, and an upsert puts its row in the place of the
old one.  After a list of upserts, a key holds the last row that was written for it.  A
batch that keeps only the last row of each key has distinct keys and writes the same.
-/

namespace Foundation.KeyedTable

variable {Row Key : Type} [DecidableEq Key]

def lastFor (keyOf : Row → Key) (key : Key) : List Row → Option Row
  | [] => none
  | row :: rest => (lastFor keyOf key rest).or (if keyOf row = key then some row else none)

def upsert (keyOf : Row → Key) (table : Key → Option Row) (row : Row) : Key → Option Row :=
  fun key => if keyOf row = key then some row else table key

def upsertAll (keyOf : Row → Key) (table : Key → Option Row) (rows : List Row) :
    Key → Option Row :=
  rows.foldl (upsert keyOf) table

def assign (keyOf : Row → Key) (seen : List Row) (row : Row) : List Row :=
  if seen.any fun old => decide (keyOf old = keyOf row) then
    seen.map fun old => if keyOf old = keyOf row then row else old
  else seen ++ [row]

def distinct (keyOf : Row → Key) (rows : List Row) : List Row := rows.foldl (assign keyOf) []

variable {keyOf : Row → Key}

variable (key : Key)

@[simp] theorem lastFor_nil : lastFor keyOf key [] = none := rfl

@[simp] theorem lastFor_cons (row : Row) (rest : List Row) :
    lastFor keyOf key (row :: rest) =
      (lastFor keyOf key rest).or (if keyOf row = key then some row else none) := rfl

theorem lastFor_append (first second : List Row) :
    lastFor keyOf key (first ++ second) =
      (lastFor keyOf key second).or (lastFor keyOf key first) := by
  induction first with
  | nil => simp
  | cons row rest ih =>
    rw [List.cons_append, lastFor_cons, lastFor_cons, ih, Option.or_assoc]

variable {rows : List Row} {row : Row}

theorem lastFor_some {key : Key} (last : lastFor keyOf key rows = some row) :
    row ∈ rows ∧ keyOf row = key := by
  induction rows with
  | nil => simp at last
  | cons head rest ih =>
    rw [lastFor_cons, Option.or_eq_some_iff] at last
    rcases last with later | ⟨_, here⟩
    · obtain ⟨member, keyed⟩ := ih later
      exact ⟨List.mem_cons_of_mem head member, keyed⟩
    · split at here
      · obtain rfl := Option.some.inj here
        exact ⟨List.mem_cons_self, ‹_›⟩
      · cases here

theorem lastFor_eq_none {key : Key} :
    lastFor keyOf key rows = none ↔ ∀ row ∈ rows, keyOf row ≠ key := by
  induction rows with
  | nil => simp
  | cons row rest ih =>
    rw [lastFor_cons, Option.or_eq_none_iff, ih, List.forall_mem_cons, and_comm]
    exact and_congr_left' (by simp)

theorem lastFor_of_mem (keyOf : Row → Key) (member : row ∈ rows) :
    ∃ last ∈ rows, keyOf last = keyOf row ∧ lastFor keyOf (keyOf row) rows = some last := by
  cases found : lastFor keyOf (keyOf row) rows with
  | none => exact absurd rfl (lastFor_eq_none.mp found row member)
  | some last =>
    obtain ⟨among, keyed⟩ := lastFor_some found
    exact ⟨last, among, keyed, rfl⟩

theorem lastFor_split {key : Key} (last : lastFor keyOf key rows = some row) :
    ∃ before after, rows = before ++ row :: after ∧ ∀ later ∈ after, keyOf later ≠ key := by
  induction rows with
  | nil => simp at last
  | cons head rest ih =>
    rw [lastFor_cons, Option.or_eq_some_iff] at last
    rcases last with later | ⟨none, here⟩
    · obtain ⟨before, after, rfl, other⟩ := ih later
      exact ⟨head :: before, after, rfl, other⟩
    · split at here
      · obtain rfl := Option.some.inj here
        exact ⟨[], rest, rfl, lastFor_eq_none.mp none⟩
      · cases here

theorem upsertAll_apply (table : Key → Option Row) (rows : List Row) (key : Key) :
    upsertAll keyOf table rows key = (lastFor keyOf key rows).or (table key) := by
  induction rows generalizing table with
  | nil => rfl
  | cons row rest ih =>
    rw [upsertAll, List.foldl_cons, ← upsertAll, ih, lastFor_cons, Option.or_assoc]
    congr 1
    unfold upsert
    split <;> rfl

theorem lastFor_replaced (row : Row) (seen : List Row) :
    lastFor keyOf key (seen.map fun old => if keyOf old = keyOf row then row else old) =
      (lastFor keyOf key seen).map fun old => if keyOf row = key then row else old := by
  induction seen with
  | nil => rfl
  | cons old rest ih =>
    rw [List.map_cons, lastFor_cons, lastFor_cons, ih, Option.map_or]
    congr 1
    by_cases same : keyOf old = keyOf row
    · rw [if_pos same, same]
      by_cases keyed : keyOf row = key
      · simp [keyed]
      · simp [keyed]
    · rw [if_neg same]
      by_cases keyed : keyOf old = key
      · have other : keyOf row ≠ key := fun rowKeyed => same (keyed.trans rowKeyed.symm)
        simp [keyed, other]
      · simp [keyed]

variable (seen : List Row)

theorem lastFor_assign (row : Row) :
    lastFor keyOf key (assign keyOf seen row) = lastFor keyOf key (seen ++ [row]) := by
  unfold assign
  split
  · rename_i present
    rw [lastFor_replaced, lastFor_append]
    by_cases keyed : keyOf row = key
    · obtain ⟨old, member, same⟩ := List.any_eq_true.mp present
      obtain ⟨last, _, _, found⟩ := lastFor_of_mem keyOf member
      rw [of_decide_eq_true same, keyed] at found
      simp [found, keyed]
    · simp [keyed]
  · rfl

theorem lastFor_foldl_assign (rows seen : List Row) :
    lastFor keyOf key (rows.foldl (assign keyOf) seen) = lastFor keyOf key (seen ++ rows) := by
  induction rows generalizing seen with
  | nil => simp
  | cons row rest ih =>
    rw [List.foldl_cons, ih, lastFor_append, lastFor_assign, ← lastFor_append,
      List.append_assoc, List.singleton_append]

theorem lastFor_distinct (rows : List Row) :
    lastFor keyOf key (distinct keyOf rows) = lastFor keyOf key rows := by
  rw [distinct, lastFor_foldl_assign, List.nil_append]

theorem upsertAll_distinct (table : Key → Option Row) (rows : List Row) :
    upsertAll keyOf table (distinct keyOf rows) = upsertAll keyOf table rows := by
  funext key
  rw [upsertAll_apply, upsertAll_apply, lastFor_distinct]

theorem assign_keys_nodup (row : Row) (nodup : (seen.map keyOf).Nodup) :
    ((assign keyOf seen row).map keyOf).Nodup := by
  unfold assign
  split
  · have same : (seen.map fun old => if keyOf old = keyOf row then row else old).map keyOf =
        seen.map keyOf := by
      rw [List.map_map]
      refine List.map_congr_left fun old _ => ?_
      rw [Function.comp_apply]
      split
      · exact Eq.symm ‹_›
      · rfl
    rw [same]
    exact nodup
  · rename_i absent
    rw [List.map_append, List.nodup_append]
    refine ⟨nodup, by simp, ?_⟩
    rintro first firstKey second secondKey rfl
    obtain ⟨old, member, keyed⟩ := List.mem_map.mp firstKey
    rw [List.map_singleton, List.mem_singleton] at secondKey
    exact absent (List.any_eq_true.mpr ⟨old, member, decide_eq_true (keyed.trans secondKey)⟩)

theorem mem_assign {seen : List Row} {row other : Row} (member : other ∈ assign keyOf seen row) :
    other ∈ seen ∨ other = row := by
  unfold assign at member
  split at member
  · obtain ⟨old, stored, rfl⟩ := List.mem_map.mp member
    split
    · exact .inr rfl
    · exact .inl stored
  · simpa using member

theorem assign_filter {keeps : Row → Bool} (kept : ∀ old, keyOf old = keyOf row → keeps old = true)
    :
    (assign keyOf seen row).filter keeps = assign keyOf (seen.filter keeps) row := by
  have sameTest : ((seen.filter keeps).any fun old => decide (keyOf old = keyOf row)) =
      seen.any fun old => decide (keyOf old = keyOf row) := by
    rw [List.any_filter]
    refine List.any_congr rfl fun old => ?_
    by_cases same : keyOf old = keyOf row
    · simp [same, kept old same]
    · simp [same]
  unfold assign
  rw [sameTest]
  split
  · rw [List.filter_map]
    congr 1
    refine List.filter_congr fun old _ => ?_
    rw [Function.comp_apply]
    split
    · rename_i same
      rw [kept old same, kept row rfl]
    · rfl
  · rw [List.filter_append, List.filter_singleton, kept row rfl, cond_true]

theorem assign_map {Other OtherKey : Type} [DecidableEq OtherKey] {otherKeyOf : Other → OtherKey}
    {write : Row → Other} (row : Row)
    (sameKey : ∀ old, otherKeyOf (write old) = otherKeyOf (write row) ↔ keyOf old = keyOf row) :
    (assign keyOf seen row).map write = assign otherKeyOf (seen.map write) (write row) := by
  unfold assign
  simp only [List.any_map, Function.comp_def, sameKey]
  split
  · simp only [List.map_map]
    refine List.map_congr_left fun old _ => ?_
    simp only [Function.comp_apply, sameKey]
    split <;> rfl
  · rw [List.map_append, List.map_singleton]

end Foundation.KeyedTable
