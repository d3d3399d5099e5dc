import Mathlib.Data.List.Basic
import Mathlib.Data.List.Pairwise

/-!
# Tables with a serial primary key and a unique constraint

A `SerialTable` carries its own integrity: keys are pairwise different and below
the sequence's next value, and no two rows violate the unique constraint.  The
three ways SQL changes a table keep it by construction: `updateWhere` takes a SET
clause that leaves key and unique columns alone, `insert` answers `none` (the
integrity error) on a clash, `deleteWhere` only drops rows.

`RowsStep relation before after` traces every row of `after` back: its key is new,
or it comes along `relation` from the row that had its key.  Each of the three
operations has one rule saying when it holds, so a law about every change of a
column is proved per operation and never by unfolding the table.
-/

namespace Foundation.Relational

structure Schema (Row : Type) where
  key : Row → Nat
  withKey : Nat → Row → Row
  key_withKey : ∀ value row, key (withKey value row) = value
  /-- The two rows cannot both be stored. -/
  clash : Row → Row → Bool
  clash_comm : ∀ first second, clash first second = clash second first
  clash_withKey : ∀ value row other, clash (withKey value row) other = clash row other

variable {Row : Type}

@[ext]
structure SerialTable (schema : Schema Row) where
  rows : List Row
  nextKey : Nat
  key_lt : ∀ row ∈ rows, schema.key row < nextKey
  distinct : rows.Pairwise fun first second => schema.key first ≠ schema.key second
  unclashing : rows.Pairwise fun first second => schema.clash first second = false

/-- A SET clause that assigns neither the key nor a column of the constraint. -/
structure SetClause (schema : Schema Row) where
  apply : Row → Row
  key_apply : ∀ row, schema.key (apply row) = schema.key row
  clash_apply : ∀ row other, schema.clash (apply row) other = schema.clash row other

variable {schema : Schema Row}

variable (set : SetClause schema)

theorem SetClause.clash_apply_right (row other : Row) :
    schema.clash row (set.apply other) = schema.clash row other := by
  rw [schema.clash_comm, set.clash_apply, schema.clash_comm]

/-- One row under `UPDATE ... WHERE`. -/
def SetClause.onRow (set : SetClause schema) (matched : Row → Bool) (row : Row) : Row :=
  if matched row then set.apply row else row

variable (matched : Row → Bool) (row : Row)

@[simp] theorem SetClause.key_onRow :
    schema.key (set.onRow matched row) = schema.key row := by
  unfold SetClause.onRow
  split
  · exact set.key_apply row
  · rfl

theorem SetClause.onRow_holds {holds : Row → Prop} (stays : holds row)
    (moves : matched row = true → holds (set.apply row)) :
    holds (set.onRow matched row) := by
  unfold SetClause.onRow
  split
  · rename_i hit
    exact moves hit
  · exact stays

variable {relation : Row → Row → Prop}

theorem SetClause.onRow_along (stays : relation row row)
    (moves : matched row = true → relation row (set.apply row)) :
    relation row (set.onRow matched row) :=
  set.onRow_holds matched row stays moves

theorem SetClause.clash_onRow (first second : Row) :
    schema.clash (set.onRow matched first) (set.onRow matched second) =
      schema.clash first second := by
  unfold SetClause.onRow
  split <;> split <;> simp only [set.clash_apply, set.clash_apply_right]

/-- A SET clause that leaves the key alone but may assign columns of the constraint. -/
structure Assignment (schema : Schema Row) where
  apply : Row → Row
  key_apply : ∀ row, schema.key (apply row) = schema.key row

def Assignment.onRow (set : Assignment schema) (matched : Row → Bool) (row : Row) : Row :=
  if matched row then set.apply row else row

@[simp] theorem Assignment.key_onRow (set : Assignment schema) (matched : Row → Bool) (row : Row) :
    schema.key (set.onRow matched row) = schema.key row := by
  unfold Assignment.onRow
  split
  · exact set.key_apply row
  · rfl

namespace SerialTable

def empty (schema : Schema Row) : SerialTable schema where
  rows := []
  nextKey := 1
  key_lt := by simp
  distinct := List.Pairwise.nil
  unclashing := List.Pairwise.nil

def get? (table : SerialTable schema) (value : Nat) : Option Row :=
  table.rows.find? fun row => schema.key row == value

theorem key_lt_map (table : SerialTable schema) {set : Row → Row}
    (sameKey : ∀ row, schema.key (set row) = schema.key row) :
    ∀ row ∈ table.rows.map set, schema.key row < table.nextKey := by
  intro row member
  obtain ⟨old, oldMember, rfl⟩ := List.mem_map.mp member
  rw [sameKey]
  exact table.key_lt old oldMember

def updateWhere (table : SerialTable schema) (matched : Row → Bool) (set : SetClause schema) :
    SerialTable schema where
  rows := table.rows.map (set.onRow matched)
  nextKey := table.nextKey
  key_lt := table.key_lt_map (set.key_onRow matched)
  distinct := by
    rw [List.pairwise_map]
    exact table.distinct.imp fun different => by simpa using different
  unclashing := by
    rw [List.pairwise_map]
    exact table.unclashing.imp fun apart => by rw [set.clash_onRow]; exact apart

def deleteWhere (table : SerialTable schema) (matched : Row → Bool) : SerialTable schema where
  rows := table.rows.filter fun row => !matched row
  nextKey := table.nextKey
  key_lt := fun row member => table.key_lt row (List.mem_filter.mp member).1
  distinct := table.distinct.filter _
  unclashing := table.unclashing.filter _

/-- Some stored row keeps `row` out. -/
def rejects (table : SerialTable schema) (row : Row) : Bool :=
  table.rows.any fun stored => schema.clash stored row

def keyed (table : SerialTable schema) (row : Row) : Row :=
  schema.withKey table.nextKey row

variable (table : SerialTable schema)

theorem clash_keyed_of_accepted (row stored : Row) (accepted : table.rejects row = false)
    (member : stored ∈ table.rows) : schema.clash stored (table.keyed row) = false := by
  have apart : schema.clash stored row = false := by
    have := List.any_eq_false.mp accepted stored member
    simpa using this
  rw [schema.clash_comm, keyed, schema.clash_withKey, schema.clash_comm]
  exact apart

def append (table : SerialTable schema) (row : Row) (accepted : table.rejects row = false) :
    SerialTable schema where
  rows := table.rows ++ [table.keyed row]
  nextKey := table.nextKey + 1
  key_lt := by
    intro stored member
    rcases List.mem_append.mp member with old | new
    · exact Nat.lt_succ_of_lt (table.key_lt stored old)
    · rw [List.mem_singleton.mp new, keyed, schema.key_withKey]
      exact Nat.lt_succ_self table.nextKey
  distinct := by
    rw [List.pairwise_append]
    refine ⟨table.distinct, List.pairwise_singleton _ _, ?_⟩
    intro stored member new newMember
    rw [List.mem_singleton.mp newMember, keyed, schema.key_withKey]
    exact Nat.ne_of_lt (table.key_lt stored member)
  unclashing := by
    rw [List.pairwise_append]
    refine ⟨table.unclashing, List.pairwise_singleton _ _, ?_⟩
    intro stored member new newMember
    rw [List.mem_singleton.mp newMember]
    exact table.clash_keyed_of_accepted row stored accepted member

/-- INSERT; `none` is the integrity error of the unique constraint. -/
def insert (table : SerialTable schema) (row : Row) : Option (SerialTable schema) :=
  if accepted : table.rejects row = false then some (table.append row accepted) else none

theorem eq_of_key_eq {first second : Row} (firstMember : first ∈ table.rows)
    (secondMember : second ∈ table.rows) (same : schema.key first = schema.key second) :
    first = second := by
  by_contra different
  have : Std.Symm fun a b : Row => schema.key a ≠ schema.key b := ⟨fun _ _ apart => apart.symm⟩
  exact table.distinct.forall firstMember secondMember different same

theorem eq_of_clash {first second : Row} (firstMember : first ∈ table.rows)
    (secondMember : second ∈ table.rows) (clashes : schema.clash first second = true) :
    first = second := by
  by_contra different
  have : Std.Symm fun a b : Row => schema.clash a b = false :=
    ⟨fun a b apart => (schema.clash_comm b a).trans apart⟩
  have apart := table.unclashing.forall firstMember secondMember different
  rw [apart] at clashes
  cases clashes

theorem get?_eq_some_iff (value : Nat) (row : Row) :
    table.get? value = some row ↔ row ∈ table.rows ∧ schema.key row = value := by
  constructor
  · intro found
    exact ⟨List.mem_of_find?_eq_some found, by simpa using List.find?_some found⟩
  · rintro ⟨member, rfl⟩
    cases found : table.get? (schema.key row) with
    | none =>
      have absent := List.find?_eq_none.mp found row member
      simp at absent
    | some other =>
      have otherKey : schema.key other = schema.key row := by
        simpa using List.find?_some found
      rw [table.eq_of_key_eq (List.mem_of_find?_eq_some found) member otherKey]

theorem get?_eq_none_iff (value : Nat) :
    table.get? value = none ↔ ∀ row ∈ table.rows, schema.key row ≠ value := by
  simp [get?, List.find?_eq_none]

variable (matched : Row → Bool)

theorem mem_updateWhere (set : SetClause schema) (row : Row) :
    row ∈ (table.updateWhere matched set).rows ↔
      ∃ old ∈ table.rows, set.onRow matched old = row := by
  simp [updateWhere]

theorem mem_deleteWhere (row : Row) :
    row ∈ (table.deleteWhere matched).rows ↔ row ∈ table.rows ∧ matched row = false := by
  simp [deleteWhere]

theorem insert_eq_some_iff (table after : SerialTable schema) (row : Row) :
    table.insert row = some after ↔
      ∃ accepted : table.rejects row = false, table.append row accepted = after := by
  unfold insert
  split
  · rename_i accepted
    simp [accepted]
  · rename_i rejected
    simp [rejected]

theorem insert_eq_none_iff (row : Row) : table.insert row = none ↔ table.rejects row = true := by
  unfold insert
  split
  · rename_i accepted
    simp [accepted]
  · rename_i rejected
    simpa using rejected

theorem mem_append (row stored : Row) (accepted : table.rejects row = false) :
    stored ∈ (table.append row accepted).rows ↔ stored ∈ table.rows ∨ stored = table.keyed row := by
  simp [append]

def insertAll : SerialTable schema → List Row → Option (SerialTable schema)
  | table, [] => some table
  | table, row :: rest => (table.insert row).bind fun after => after.insertAll rest

variable (rows : List Row)

theorem insertAll_of_apart
    (apart : rows.Pairwise fun first second => schema.clash first second = false)
    (free : ∀ row ∈ rows, ∀ stored ∈ table.rows, schema.clash row stored = false) :
    ∃ after, table.insertAll rows = some after ∧ table.nextKey ≤ after.nextKey ∧
      (∀ stored ∈ table.rows, stored ∈ after.rows) ∧
      (∀ stored ∈ after.rows, stored ∈ table.rows ∨
        ∃ row ∈ rows, ∃ value, stored = schema.withKey value row) ∧
      ∀ row ∈ rows, ∃ value, schema.withKey value row ∈ after.rows := by
  induction rows generalizing table with
  | nil =>
    exact ⟨table, rfl, Nat.le_refl _, fun _ member => member, fun _ member => .inl member,
      fun _ member => absurd member List.not_mem_nil⟩
  | cons row rest ih =>
    obtain ⟨headApart, restApart⟩ := List.pairwise_cons.mp apart
    have accepted : table.rejects row = false := by
      refine List.any_eq_false.mpr fun stored member => ?_
      rw [schema.clash_comm, free row List.mem_cons_self stored member]
      exact Bool.false_ne_true
    have restFree : ∀ later ∈ rest, ∀ stored ∈ (table.append row accepted).rows,
        schema.clash later stored = false := by
      intro later member stored storedMember
      rcases (table.mem_append row stored accepted).mp storedMember with old | rfl
      · exact free later (List.mem_cons_of_mem row member) stored old
      · rw [keyed, schema.clash_comm, schema.clash_withKey]
        exact headApart later member
    obtain ⟨after, inserted, grown, kept, traced, stored⟩ :=
      ih (table.append row accepted) restApart restFree
    refine ⟨after, ?_, Nat.le_trans (Nat.le_succ _) grown, ?_, ?_, ?_⟩
    · rw [insertAll, (table.insert_eq_some_iff _ row).mpr ⟨accepted, rfl⟩]
      exact inserted
    · intro old member
      exact kept old ((table.mem_append row old accepted).mpr (.inl member))
    · intro new member
      rcases traced new member with present | ⟨origin, inside, value, rfl⟩
      · rcases (table.mem_append row new accepted).mp present with old | rfl
        · exact .inl old
        · exact .inr ⟨row, List.mem_cons_self, table.nextKey, rfl⟩
      · exact .inr ⟨origin, List.mem_cons_of_mem row inside, value, rfl⟩
    · intro new member
      rcases List.mem_cons.mp member with rfl | member
      · exact ⟨table.nextKey, kept _ ((table.mem_append new _ accepted).mpr (.inr rfl))⟩
      · exact stored new member

theorem insertAll_isSome_iff :
    (table.insertAll rows).isSome ↔
      (rows.Pairwise fun first second => schema.clash first second = false) ∧
        ∀ row ∈ rows, ∀ stored ∈ table.rows, schema.clash row stored = false := by
  constructor
  · intro all
    induction rows generalizing table with
    | nil => exact ⟨List.Pairwise.nil, nofun⟩
    | cons row rest ih =>
      rw [insertAll] at all
      cases first : table.insert row with
      | none => simp [first] at all
      | some next =>
        rw [first, Option.bind_some] at all
        obtain ⟨accepted, rfl⟩ := (table.insert_eq_some_iff next row).mp first
        obtain ⟨apart, free⟩ := ih _ all
        refine ⟨List.pairwise_cons.mpr ⟨fun later member => ?_, apart⟩,
          List.forall_mem_cons.mpr ⟨fun stored member => ?_, fun later member stored storedIn =>
            free later member stored ((table.mem_append row stored accepted).mpr (.inl storedIn))⟩⟩
        · have kept := free later member _ ((table.mem_append row _ accepted).mpr (.inr rfl))
          rwa [keyed, schema.clash_comm, schema.clash_withKey] at kept
        · rw [schema.clash_comm]
          simpa using List.any_eq_false.mp accepted stored member
  · rintro ⟨apart, free⟩
    obtain ⟨after, inserted, _⟩ := table.insertAll_of_apart rows apart free
    rw [inserted, Option.isSome_some]

def insertOrIgnore (table : SerialTable schema) (row : Row) : SerialTable schema :=
  if accepted : table.rejects row = false then table.append row accepted else table

def insertAllOrIgnore (table : SerialTable schema) (rows : List Row) : SerialTable schema :=
  rows.foldl insertOrIgnore table

theorem insertOrIgnore_spec (row : Row) :
    (∀ stored ∈ table.rows, stored ∈ (table.insertOrIgnore row).rows) ∧
      (∀ stored ∈ (table.insertOrIgnore row).rows, stored ∈ table.rows ∨
        ∃ value, stored = schema.withKey value row) ∧
      ∃ stored ∈ (table.insertOrIgnore row).rows,
        schema.clash stored row = true ∨ ∃ value, stored = schema.withKey value row := by
  unfold insertOrIgnore
  split
  · next accepted =>
      refine ⟨fun stored member => (table.mem_append row stored accepted).mpr (.inl member), ?_,
        table.keyed row, (table.mem_append row _ accepted).mpr (.inr rfl),
        .inr ⟨table.nextKey, rfl⟩⟩
      intro stored member
      exact ((table.mem_append row stored accepted).mp member).imp_right fun same =>
        ⟨table.nextKey, same⟩
  · next rejected =>
      rw [Bool.not_eq_false, rejects, List.any_eq_true] at rejected
      obtain ⟨stored, member, clashes⟩ := rejected
      exact ⟨fun _ member => member, fun _ member => .inl member, stored, member, .inl clashes⟩

/-- Stored rows stay, a new one is one of the rows, and each of the rows is stored or kept out
by a stored one. -/
theorem insertAllOrIgnore_spec :
    (∀ stored ∈ table.rows, stored ∈ (table.insertAllOrIgnore rows).rows) ∧
      (∀ stored ∈ (table.insertAllOrIgnore rows).rows, stored ∈ table.rows ∨
        ∃ row ∈ rows, ∃ value, stored = schema.withKey value row) ∧
      ∀ row ∈ rows, ∃ stored ∈ (table.insertAllOrIgnore rows).rows,
        schema.clash stored row = true ∨ ∃ value, stored = schema.withKey value row := by
  induction rows generalizing table with
  | nil =>
    exact ⟨fun _ member => member, fun _ member => .inl member,
      fun _ member => absurd member List.not_mem_nil⟩
  | cons row rest ih =>
    obtain ⟨keptFirst, tracedFirst, present, presentMember, presentFits⟩ :=
      table.insertOrIgnore_spec row
    obtain ⟨kept, traced, stored⟩ := ih (table.insertOrIgnore row)
    refine ⟨fun old member => kept old (keptFirst old member), ?_, ?_⟩
    · intro new member
      rcases traced new member with old | ⟨origin, inside, value, rfl⟩
      · rcases tracedFirst new old with older | ⟨value, rfl⟩
        · exact .inl older
        · exact .inr ⟨row, List.mem_cons_self, value, rfl⟩
      · exact .inr ⟨origin, List.mem_cons_of_mem row inside, value, rfl⟩
    · intro new member
      rcases List.mem_cons.mp member with rfl | later
      · exact ⟨present, kept present presentMember, presentFits⟩
      · exact stored new later

theorem nodup_rows : table.rows.Nodup :=
  table.distinct.imp fun different same => different (congrArg schema.key same)

theorem filter_eq_singleton_iff (row : Row) :
    table.rows.filter matched = [row] ↔
      (row ∈ table.rows ∧ matched row = true) ∧
        ∀ other ∈ table.rows, matched other = true → other = row := by
  constructor
  · intro one
    have answers : ∀ other, other ∈ table.rows.filter matched ↔ other = row := by
      intro other
      rw [one, List.mem_singleton]
    refine ⟨List.mem_filter.mp ((answers row).mpr rfl), fun other member hit => ?_⟩
    exact (answers other).mp (List.mem_filter.mpr ⟨member, hit⟩)
  · rintro ⟨found, only⟩
    have unique : ∀ other ∈ table.rows.filter matched, other = row := by
      intro other member
      exact only other (List.mem_filter.mp member).1 (List.mem_filter.mp member).2
    have distinct := table.nodup_rows.filter matched
    have present : row ∈ table.rows.filter matched := List.mem_filter.mpr found
    match answers : table.rows.filter matched with
    | [] =>
      rw [answers] at present
      cases present
    | [answer] =>
      rw [answers] at unique
      rw [unique answer List.mem_cons_self]
    | first :: second :: rest =>
      rw [answers] at unique distinct
      have same : first = second := by
        rw [unique first List.mem_cons_self,
          unique second (List.mem_cons_of_mem first List.mem_cons_self)]
      exact absurd (same ▸ List.mem_cons_self) (List.nodup_cons.mp distinct).1

theorem updateWhere_of_unmatched (set : SetClause schema)
    (unmatched : ∀ row ∈ table.rows, matched row = false) :
    table.updateWhere matched set = table := by
  apply SerialTable.ext
  · conv_rhs => rw [← List.map_id table.rows]
    apply List.map_congr_left
    intro row member
    simp [SetClause.onRow, unmatched row member]
  · rfl

/-- UPDATE; `none` is the integrity error of the unique constraint. -/
def updateChecked (table : SerialTable schema) (matched : Row → Bool) (set : Assignment schema) :
    Option (SerialTable schema) :=
  if apart : (table.rows.map (set.onRow matched)).Pairwise
      fun first second => schema.clash first second = false then
    some
      { rows := table.rows.map (set.onRow matched)
        nextKey := table.nextKey
        key_lt := table.key_lt_map (set.key_onRow matched)
        distinct := by
          rw [List.pairwise_map]
          exact table.distinct.imp fun different => by simpa using different
        unclashing := apart }
  else none

theorem rows_updateChecked {table after : SerialTable schema} {matched : Row → Bool}
    {set : Assignment schema} (updated : table.updateChecked matched set = some after) :
    after.rows = table.rows.map (set.onRow matched) := by
  unfold updateChecked at updated
  split at updated
  · rw [← Option.some.inj updated]
  · cases updated

theorem updateChecked_eq_none_iff (set : Assignment schema) (target : Row)
    (member : target ∈ table.rows) :
    table.updateChecked (fun row => schema.key row == schema.key target) set = none ↔
      ∃ row ∈ table.rows, schema.key row ≠ schema.key target ∧
        schema.clash (set.apply target) row = true := by
  have onTarget : set.onRow (fun row => schema.key row == schema.key target) target =
      set.apply target := by simp [Assignment.onRow]
  have onOther : ∀ row, schema.key row ≠ schema.key target →
      set.onRow (fun row => schema.key row == schema.key target) row = row := by
    intro row other
    simp [Assignment.onRow, other]
  have symmetric : Std.Symm fun first second : Row => schema.clash first second = false :=
    ⟨fun first second apart => by rw [schema.clash_comm]; exact apart⟩
  constructor
  · intro failed
    by_contra apart
    push Not at apart
    refine absurd failed ?_
    unfold updateChecked
    rw [dif_pos]
    · exact Option.some_ne_none _
    · rw [List.pairwise_map]
      refine List.Pairwise.imp_of_mem ?_ (table.unclashing.and table.distinct)
      rintro first second firstMember secondMember ⟨stored, different⟩
      by_cases firstIs : schema.key first = schema.key target
      · obtain rfl := table.eq_of_key_eq firstMember member firstIs
        rw [onTarget, onOther second (Ne.symm different)]
        simpa using apart second secondMember (Ne.symm different)
      · rw [onOther first firstIs]
        by_cases secondIs : schema.key second = schema.key target
        · obtain rfl := table.eq_of_key_eq secondMember member secondIs
          rw [onTarget, schema.clash_comm]
          simpa using apart first firstMember firstIs
        · rw [onOther second secondIs]
          exact stored
  · rintro ⟨row, rowMember, other, clashes⟩
    unfold updateChecked
    rw [dif_neg]
    intro apart
    have different : set.apply target ≠ row := by
      intro same
      rw [← same, set.key_apply] at other
      exact other rfl
    have targetMember := List.mem_map_of_mem
      (f := set.onRow fun row => schema.key row == schema.key target) member
    have otherMember := List.mem_map_of_mem
      (f := set.onRow fun row => schema.key row == schema.key target) rowMember
    rw [onTarget] at targetMember
    rw [onOther row other] at otherMember
    have unclashing := apart.forall targetMember otherMember different
    rw [clashes] at unclashing
    cases unclashing

theorem filter_outside (assign : Row → Row) (dropped outside : Row → Bool)
    (kept : ∀ row ∈ rows, outside row = true → assign row = row ∧ dropped row = false)
    (inside : ∀ row ∈ rows, outside row = false → outside (assign row) = false) :
    ((rows.map assign).filter fun row => !dropped row).filter outside = rows.filter outside := by
  induction rows with
  | nil => rfl
  | cons row rest ih =>
    have restKept := ih (fun other member => kept other (List.mem_cons_of_mem row member))
      (fun other member => inside other (List.mem_cons_of_mem row member))
    cases out : outside row with
    | true =>
      obtain ⟨same, stays⟩ := kept row List.mem_cons_self out
      rw [List.map_cons, same, List.filter_cons_of_pos (by rw [stays]; rfl),
        List.filter_cons_of_pos out, List.filter_cons_of_pos out, restKept]
    | false =>
      have moved := inside row List.mem_cons_self out
      rw [List.map_cons, List.filter_cons_of_neg (l := rest) (by rw [out]; decide), ← restKept]
      cases gone : dropped (assign row) with
      | true => rw [List.filter_cons_of_neg (by rw [gone]; decide)]
      | false =>
        rw [List.filter_cons_of_pos (by rw [gone]; decide),
          List.filter_cons_of_neg (by rw [moved]; decide)]

/-- Every row of `after` has a key the sequence of `before` had not given out, or
comes along `relation` from the row with its key. -/
def RowsStep (relation : Row → Row → Prop) (before after : SerialTable schema) : Prop :=
  before.nextKey ≤ after.nextKey ∧
    ∀ new ∈ after.rows, before.nextKey ≤ schema.key new ∨
      ∃ old ∈ before.rows, schema.key old = schema.key new ∧ relation old new

instance decidableRowsStep (relation : Row → Row → Prop) [∀ old new, Decidable (relation old new)]
    (before after : SerialTable schema) : Decidable (RowsStep relation before after) :=
  inferInstanceAs (Decidable (_ ∧ ∀ new ∈ after.rows, _ ∨
    ∃ old ∈ before.rows, schema.key old = schema.key new ∧ relation old new))

theorem RowsStep.related {before after : SerialTable schema}
    (moved : RowsStep relation before after) {old new : Row} (oldMember : old ∈ before.rows)
    (newMember : new ∈ after.rows) (same : schema.key new = schema.key old) : relation old new := by
  rcases moved.2 new newMember with past | ⟨source, sourceMember, sourceKey, related⟩
  · rw [same] at past
    exact absurd (before.key_lt old oldMember) (by omega)
  · rw [before.eq_of_key_eq oldMember sourceMember (by rw [sourceKey, same])]
    exact related

theorem RowsStep.trans {before middle after : SerialTable schema}
    (compose : ∀ {first second third}, relation first second → relation second third →
      relation first third) (earlier : RowsStep relation before middle)
    (later : RowsStep relation middle after) : RowsStep relation before after := by
  refine ⟨Nat.le_trans earlier.1 later.1, fun new newMember => ?_⟩
  rcases later.2 new newMember with past | ⟨between, betweenMember, betweenKey, moved⟩
  · exact .inl (Nat.le_trans earlier.1 past)
  · rcases earlier.2 between betweenMember with past | ⟨old, oldMember, oldKey, related⟩
    · exact .inl (betweenKey ▸ past)
    · exact .inr ⟨old, oldMember, oldKey.trans betweenKey, compose related moved⟩

theorem rowsStep_updateWhere_iff (relation : Row → Row → Prop) (table : SerialTable schema)
    (matched : Row → Bool) (set : SetClause schema) :
    RowsStep relation table (table.updateWhere matched set) ↔
      ∀ old ∈ table.rows, relation old (set.onRow matched old) := by
  constructor
  · intro moved old member
    exact moved.related member ((table.mem_updateWhere matched set _).mpr ⟨old, member, rfl⟩)
      (set.key_onRow matched old)
  · intro each
    refine ⟨Nat.le_refl _, fun new newMember => .inr ?_⟩
    obtain ⟨old, member, rfl⟩ := (table.mem_updateWhere matched set new).mp newMember
    exact ⟨old, member, (set.key_onRow matched old).symm, each old member⟩

theorem rowsStep_refl (stay : ∀ row, relation row row) (table : SerialTable schema) :
    RowsStep relation table table :=
  ⟨Nat.le_refl _, fun row member => .inr ⟨row, member, rfl, stay row⟩⟩

theorem rowsStep_deleteWhere (stay : ∀ row, relation row row) (table : SerialTable schema)
    (matched : Row → Bool) : RowsStep relation table (table.deleteWhere matched) := by
  refine ⟨Nat.le_refl _, fun row member => .inr ?_⟩
  exact ⟨row, ((table.mem_deleteWhere matched row).mp member).1, rfl, stay row⟩

theorem rowsStep_append (stay : ∀ row, relation row row) (table : SerialTable schema) (row : Row)
    (accepted : table.rejects row = false) :
    RowsStep relation table (table.append row accepted) := by
  refine ⟨Nat.le_succ _, fun new newMember => ?_⟩
  rcases (table.mem_append row new accepted).mp newMember with kept | rfl
  · exact .inr ⟨new, kept, rfl, stay new⟩
  · left
    have newKey : schema.key (table.keyed row) = table.nextKey := schema.key_withKey _ row
    omega

theorem forall_updateWhere_iff (holds : Row → Prop) (table : SerialTable schema)
    (matched : Row → Bool) (set : SetClause schema) :
    (∀ row ∈ (table.updateWhere matched set).rows, holds row) ↔
      ∀ old ∈ table.rows, holds (set.onRow matched old) := by
  simp [updateWhere]

theorem forall_append_iff (holds : Row → Prop) (table : SerialTable schema) (row : Row)
    (accepted : table.rejects row = false) :
    (∀ stored ∈ (table.append row accepted).rows, holds stored) ↔
      (∀ stored ∈ table.rows, holds stored) ∧ holds (table.keyed row) := by
  simp [append, or_imp, forall_and]

section OnePerLabel

variable {Label : Type} {label : Row → Option Label}

/-- No two stored rows carry the same label. -/
def OnePerLabel (label : Row → Option Label) (table : SerialTable schema) : Prop :=
  ∀ first ∈ table.rows, ∀ second ∈ table.rows, ∀ shown,
    label first = some shown → label second = some shown → first = second

theorem onePerLabel_empty : OnePerLabel label (SerialTable.empty schema) := by
  intro first member
  simp [SerialTable.empty] at member

theorem onePerLabel_updateWhere (set : SetClause schema)
    (fades : ∀ row ∈ table.rows, ∀ shown, label (set.onRow matched row) = some shown →
      label row = some shown) (unique : OnePerLabel label table) :
    OnePerLabel label (table.updateWhere matched set) := by
  intro first firstMember second secondMember shown firstShows secondShows
  obtain ⟨oldFirst, oldFirstMember, rfl⟩ := (mem_updateWhere _ _ _ _).mp firstMember
  obtain ⟨oldSecond, oldSecondMember, rfl⟩ := (mem_updateWhere _ _ _ _).mp secondMember
  rw [unique oldFirst oldFirstMember oldSecond oldSecondMember shown
    (fades oldFirst oldFirstMember shown firstShows)
    (fades oldSecond oldSecondMember shown secondShows)]

theorem onePerLabel_deleteWhere (unique : OnePerLabel label table) :
    OnePerLabel label (table.deleteWhere matched) := by
  intro first firstMember second secondMember
  exact unique first ((mem_deleteWhere _ _ _).mp firstMember).1 second
    ((mem_deleteWhere _ _ _).mp secondMember).1

theorem onePerLabel_append_iff (row : Row) (accepted : table.rejects row = false) :
    OnePerLabel label (table.append row accepted) ↔
      OnePerLabel label table ∧ ∀ shown, label (table.keyed row) = some shown →
        ∀ stored ∈ table.rows, label stored ≠ some shown := by
  have new : ∀ stored ∈ table.rows, stored ≠ table.keyed row := by
    rintro stored member rfl
    have below := table.key_lt _ member
    rw [keyed, schema.key_withKey] at below
    omega
  constructor
  · intro unique
    have kept : ∀ stored ∈ table.rows, stored ∈ (table.append row accepted).rows :=
      fun stored member => (mem_append _ _ _ accepted).mpr (.inl member)
    refine ⟨fun first firstMember second secondMember =>
      unique first (kept first firstMember) second (kept second secondMember), ?_⟩
    intro shown rowShows stored member storedShows
    exact new stored member (unique stored (kept stored member) _
      ((mem_append _ _ _ accepted).mpr (.inr rfl)) shown storedShows rowShows)
  · rintro ⟨unique, apart⟩ first firstMember second secondMember shown firstShows secondShows
    rcases (mem_append _ _ _ accepted).mp firstMember with oldFirst | rfl <;>
      rcases (mem_append _ _ _ accepted).mp secondMember with oldSecond | rfl
    · exact unique first oldFirst second oldSecond shown firstShows secondShows
    · exact absurd firstShows (apart shown secondShows first oldFirst)
    · exact absurd secondShows (apart shown firstShows second oldSecond)
    · rfl

theorem onePerLabel_updateKey_iff (set : SetClause schema) (target : Row)
    (member : target ∈ table.rows) (only : ∀ row ∈ table.rows, matched row = true ↔ row = target)
    (unique : OnePerLabel label table) :
    OnePerLabel label (table.updateWhere matched set) ↔
      ∀ shown, label (set.apply target) = some shown →
        ∀ other ∈ table.rows, label other = some shown → other = target := by
  have moved : set.onRow matched target = set.apply target := by
    rw [SetClause.onRow, if_pos ((only target member).mpr rfl)]
  have stays : ∀ row ∈ table.rows, row ≠ target → set.onRow matched row = row := by
    intro row rowMember different
    rw [SetClause.onRow, if_neg (mt (only row rowMember).mp different)]
  constructor
  · intro after shown targetShows other otherMember otherShows
    by_contra different
    have same : set.onRow matched other = set.onRow matched target :=
      after _ ((mem_updateWhere _ _ _ _).mpr ⟨other, otherMember, rfl⟩)
        _ ((mem_updateWhere _ _ _ _).mpr ⟨target, member, rfl⟩) shown
        (by rw [stays other otherMember different]; exact otherShows)
        (by rw [moved]; exact targetShows)
    have keys := congrArg schema.key same
    rw [set.key_onRow, set.key_onRow] at keys
    exact different (table.eq_of_key_eq otherMember member keys)
  · intro apart first firstMember second secondMember shown firstShows secondShows
    obtain ⟨oldFirst, oldFirstMember, rfl⟩ := (mem_updateWhere _ _ _ _).mp firstMember
    obtain ⟨oldSecond, oldSecondMember, rfl⟩ := (mem_updateWhere _ _ _ _).mp secondMember
    by_cases firstIs : oldFirst = target <;> by_cases secondIs : oldSecond = target
    · rw [firstIs, secondIs]
    · subst firstIs
      rw [moved] at firstShows
      rw [stays oldSecond oldSecondMember secondIs] at secondShows
      exact absurd (apart shown firstShows oldSecond oldSecondMember secondShows) secondIs
    · subst secondIs
      rw [moved] at secondShows
      rw [stays oldFirst oldFirstMember firstIs] at firstShows
      exact absurd (apart shown secondShows oldFirst oldFirstMember firstShows) firstIs
    · rw [stays oldFirst oldFirstMember firstIs] at firstShows ⊢
      rw [stays oldSecond oldSecondMember secondIs] at secondShows ⊢
      exact unique oldFirst oldFirstMember oldSecond oldSecondMember shown firstShows secondShows

end OnePerLabel

end SerialTable

end Foundation.Relational
