import Mathlib.Data.List.Basic
import Mathlib.Data.List.Induction

/-!
# Upserts by key

An operation changes the first row with its key, or appends a new row that it then
changes.  A list of operations run a second time finds all its rows; where an operation
overwrites what it wrote before, the second run changes nothing.
-/

namespace Foundation.Upsert

variable {Row Key Op : Type} [DecidableEq Key]

structure Upserts (Row Key Op : Type) where
  keyOf : Row → Key
  key : Op → Key
  patch : Op → Row → Row
  /-- The new row under the next value of the sequence, before its change. -/
  blank : Op → Nat → Row
  keyOf_patch : ∀ op row, keyOf (patch op row) = keyOf row
  keyOf_blank : ∀ op value, keyOf (blank op value) = key op

structure Store (Row : Type) where
  rows : List Row
  next : Nat

variable (upserts : Upserts Row Key Op)

namespace Upserts

def holds (store : Store Row) (key : Key) : Bool :=
  store.rows.any fun row => upserts.keyOf row = key

def modifyFirst (key : Key) (change : Row → Row) : List Row → List Row
  | [] => []
  | row :: rest =>
    if upserts.keyOf row = key then change row :: rest
    else row :: modifyFirst key change rest

theorem modifyFirst_cons (key : Key) (change : Row → Row) (row : Row) (rest : List Row) :
    upserts.modifyFirst key change (row :: rest) =
      if upserts.keyOf row = key then change row :: rest
      else row :: upserts.modifyFirst key change rest := rfl

def upsert (store : Store Row) (op : Op) : Store Row :=
  if upserts.holds store (upserts.key op) then
    { store with rows := upserts.modifyFirst (upserts.key op) (upserts.patch op) store.rows }
  else ⟨store.rows ++ [upserts.patch op (upserts.blank op store.next)], store.next + 1⟩

def upsertAll (store : Store Row) (ops : List Op) : Store Row := ops.foldl upserts.upsert store

def patchAll (ops : List Op) (row : Row) : Row :=
  ops.foldl (fun row op => if upserts.keyOf row = upserts.key op then upserts.patch op row else row)
    row

/-- An operation overwrites what it wrote, whatever came between. -/
def Absorbing : Prop :=
  ∀ op ops row, upserts.keyOf row = upserts.key op →
    upserts.patch op (upserts.patchAll ops (upserts.patch op row)) =
      upserts.patch op (upserts.patchAll ops row)

def mapFirst (change : Row → Row) : List Key → List Row → List Row
  | _, [] => []
  | seen, row :: rest =>
    (if upserts.keyOf row ∈ seen then row else change row) ::
      mapFirst change (upserts.keyOf row :: seen) rest

variable (change : Row → Row)

theorem mapFirst_cons (seen : List Key) (row : Row) (rest : List Row) :
    upserts.mapFirst change seen (row :: rest) =
      (if upserts.keyOf row ∈ seen then row else change row) ::
        upserts.mapFirst change (upserts.keyOf row :: seen) rest := rfl

variable (store : Store Row) (first second : List Op)

theorem upsertAll_append :
    upserts.upsertAll store (first ++ second) =
      upserts.upsertAll (upserts.upsertAll store first) second :=
  List.foldl_append

theorem patchAll_append (row : Row) :
    upserts.patchAll (first ++ second) row = upserts.patchAll second (upserts.patchAll first row) :=
  List.foldl_append

variable (ops : List Op)

theorem keyOf_patchAll (row : Row) :
    upserts.keyOf (upserts.patchAll ops row) = upserts.keyOf row := by
  induction ops generalizing row with
  | nil => rfl
  | cons op rest ih =>
    rw [patchAll, List.foldl_cons]
    split
    · exact (ih _).trans (upserts.keyOf_patch op row)
    · exact ih row

theorem patchAll_of_other (row : Row) (other : ∀ op ∈ ops, upserts.key op ≠ upserts.keyOf row) :
    upserts.patchAll ops row = row := by
  induction ops with
  | nil => rfl
  | cons op rest ih =>
    rw [patchAll, List.foldl_cons,
      if_neg fun same => other op List.mem_cons_self same.symm]
    exact ih fun later member => other later (List.mem_cons_of_mem op member)

variable (seen : List Key) (rows : List Row)

theorem mapFirst_congr {first second : Row → Row} (same : ∀ row ∈ rows, first row = second row) :
    upserts.mapFirst first seen rows = upserts.mapFirst second seen rows := by
  induction rows generalizing seen with
  | nil => rfl
  | cons row rest ih =>
    rw [mapFirst_cons, mapFirst_cons, same row List.mem_cons_self,
      ih _ fun later member => same later (List.mem_cons_of_mem row member)]

theorem mapFirst_comp (first second : Row → Row)
    (keeps : ∀ row, upserts.keyOf (first row) = upserts.keyOf row) (seen : List Key)
    (rows : List Row) :
    upserts.mapFirst second seen (upserts.mapFirst first seen rows) =
      upserts.mapFirst (fun row => second (first row)) seen rows := by
  induction rows generalizing seen with
  | nil => rfl
  | cons row rest ih =>
    rw [mapFirst_cons, mapFirst_cons, mapFirst_cons]
    by_cases old : upserts.keyOf row ∈ seen
    · rw [if_pos old, if_pos old, if_pos old, ih]
    · rw [if_neg old, keeps row, if_neg old, if_neg old, ih]

theorem mapFirst_append_new (new : Row) (unseen : upserts.keyOf new ∉ seen)
    (absent : ∀ row ∈ rows, upserts.keyOf row ≠ upserts.keyOf new) :
    upserts.mapFirst change seen (rows ++ [new]) =
      upserts.mapFirst change seen rows ++ [change new] := by
  induction rows generalizing seen with
  | nil => simp [mapFirst, unseen]
  | cons row rest ih =>
    rw [List.cons_append, mapFirst_cons, mapFirst_cons, List.cons_append]
    refine congrArg _ (ih _ ?_ fun later member => absent later (List.mem_cons_of_mem row member))
    rw [List.mem_cons, not_or]
    exact ⟨fun same => absent row List.mem_cons_self same.symm, unseen⟩

theorem mapFirst_seen (fixed : ∀ row ∈ rows, upserts.keyOf row ∉ seen → change row = row) :
    upserts.mapFirst change seen rows = rows := by
  induction rows generalizing seen with
  | nil => rfl
  | cons row rest ih =>
    rw [mapFirst_cons]
    have tail := ih (upserts.keyOf row :: seen) fun later member unseen =>
      fixed later (List.mem_cons_of_mem row member) fun old =>
        unseen (List.mem_cons_of_mem _ old)
    rw [tail]
    by_cases old : upserts.keyOf row ∈ seen
    · rw [if_pos old]
    · rw [if_neg old, fixed row List.mem_cons_self old]

theorem modifyFirst_eq (key : Key) (change : Row → Row) (seen : List Key) (rows : List Row)
    (unseen : key ∉ seen) :
    upserts.modifyFirst key change rows =
      upserts.mapFirst (fun row => if upserts.keyOf row = key then change row else row) seen rows := by
  induction rows generalizing seen with
  | nil => rfl
  | cons row rest ih =>
    rw [modifyFirst_cons, mapFirst_cons]
    by_cases own : upserts.keyOf row = key
    · subst own
      rw [if_pos rfl, if_neg unseen, if_pos rfl,
        upserts.mapFirst_seen _ (upserts.keyOf row :: seen) rest]
      intro later _ unseenLater
      exact if_neg fun same => unseenLater (List.mem_cons.mpr (.inl same))
    · rw [if_neg own, if_neg own, ite_self]
      refine congrArg _ (ih (upserts.keyOf row :: seen) ?_)
      rw [List.mem_cons, not_or]
      exact ⟨fun same => own same.symm, unseen⟩

theorem upsert_present (op : Op) (present : upserts.holds store (upserts.key op) = true) :
    upserts.upsert store op =
      { store with rows := upserts.mapFirst (upserts.patchAll [op]) [] store.rows } := by
  rw [upsert, if_pos present, upserts.modifyFirst_eq _ _ [] _ List.not_mem_nil]
  rfl

theorem holds_mapFirst (change : Row → Row) (seen : List Key) (key : Key)
    (keeps : ∀ row, upserts.keyOf (change row) = upserts.keyOf row) :
    upserts.holds { store with rows := upserts.mapFirst change seen store.rows } key =
      upserts.holds store key := by
  unfold holds
  dsimp only
  induction store.rows generalizing seen with
  | nil => rfl
  | cons row rest ih =>
    rw [mapFirst_cons, List.any_cons, List.any_cons, ih]
    split
    · rfl
    · rw [keeps]

theorem holds_upsert (op : Op) (key : Key) :
    upserts.holds (upserts.upsert store op) key = true ↔
      upserts.holds store key = true ∨ key = upserts.key op := by
  cases present : upserts.holds store (upserts.key op) with
  | true =>
    rw [upserts.upsert_present store op present,
      upserts.holds_mapFirst store _ [] key (upserts.keyOf_patchAll [op])]
    constructor
    · exact .inl
    · rintro (held | rfl)
      · exact held
      · exact present
  | false =>
    rw [upsert, if_neg (by simp [present])]
    unfold holds
    rw [List.any_append, Bool.or_eq_true, List.any_cons, List.any_nil, Bool.or_false,
      upserts.keyOf_patch, upserts.keyOf_blank, decide_eq_true_iff]
    exact or_congr_right eq_comm

theorem holds_upsertAll (key : Key) :
    upserts.holds (upserts.upsertAll store ops) key = true ↔
      upserts.holds store key = true ∨ ∃ op ∈ ops, key = upserts.key op := by
  induction ops generalizing store with
  | nil => simp [upsertAll]
  | cons op rest ih =>
    rw [upsertAll, List.foldl_cons]
    refine (ih (upserts.upsert store op)).trans ?_
    rw [upserts.holds_upsert store op key]
    simp [or_assoc]

theorem upsertAll_present (present : ∀ op ∈ ops, upserts.holds store (upserts.key op) = true) :
    upserts.upsertAll store ops =
      { store with rows := upserts.mapFirst (upserts.patchAll ops) [] store.rows } := by
  induction ops generalizing store with
  | nil =>
    have still := upserts.mapFirst_seen (upserts.patchAll []) [] store.rows fun row _ _ => rfl
    rw [still]
    rfl
  | cons op rest ih =>
    have head := upserts.upsert_present store op (present op List.mem_cons_self)
    rw [upsertAll, List.foldl_cons, head]
    refine (ih _ fun later member => ?_).trans ?_
    · rw [upserts.holds_mapFirst store _ [] _ (upserts.keyOf_patchAll [op])]
      exact present later (List.mem_cons_of_mem op member)
    · dsimp only
      rw [upserts.mapFirst_comp _ _ (upserts.keyOf_patchAll [op])]
      rfl

theorem patchAll_absorbs (absorbing : upserts.Absorbing) (ops : List Op) (op : Op) (row : Row) :
    upserts.patchAll (ops ++ [op]) (upserts.patchAll [op] row) =
      upserts.patchAll [op] (upserts.patchAll ops row) := by
  rw [upserts.patchAll_append ops [op]]
  by_cases own : upserts.keyOf row = upserts.key op
  · have here : upserts.patchAll [op] row = upserts.patch op row := if_pos own
    have after : ∀ other, upserts.keyOf other = upserts.keyOf row →
        upserts.patchAll [op] (upserts.patchAll ops other) =
          upserts.patch op (upserts.patchAll ops other) := fun other same =>
      if_pos (by rw [upserts.keyOf_patchAll, same, own])
    rw [here, after _ (upserts.keyOf_patch op row), after row rfl, absorbing op ops row own]
  · have here : upserts.patchAll [op] row = row := if_neg own
    rw [here]

theorem patchAll_new (absorbing : upserts.Absorbing) (ops : List Op) (op : Op) (value : Nat)
    (others : ∀ other ∈ ops, upserts.key other ≠ upserts.key op) :
    upserts.patchAll (ops ++ [op]) (upserts.patch op (upserts.blank op value)) =
      upserts.patch op (upserts.blank op value) := by
  have blankKey := upserts.keyOf_blank op value
  have newKey := (upserts.keyOf_patch op (upserts.blank op value)).trans blankKey
  rw [upserts.patchAll_append, upserts.patchAll_of_other ops _ fun other member => by
    rw [newKey]
    exact others other member]
  have here : upserts.patchAll [op] (upserts.patch op (upserts.blank op value)) =
      upserts.patch op (upserts.patch op (upserts.blank op value)) := if_pos newKey
  rw [here]
  exact absorbing op [] _ blankKey

theorem settled_upsertAll (absorbing : upserts.Absorbing) (store : Store Row) (ops : List Op) :
    upserts.mapFirst (upserts.patchAll ops) [] (upserts.upsertAll store ops).rows =
      (upserts.upsertAll store ops).rows := by
  induction ops using List.reverseRecOn with
  | nil => exact upserts.mapFirst_seen _ [] _ fun row _ _ => rfl
  | append_singleton ops op ih =>
    rw [upsertAll_append]
    change upserts.mapFirst _ [] (upserts.upsert (upserts.upsertAll store ops) op).rows =
      (upserts.upsert (upserts.upsertAll store ops) op).rows
    cases present : upserts.holds (upserts.upsertAll store ops) (upserts.key op) with
    | true =>
      rw [upserts.upsert_present _ op present]
      dsimp only
      rw [upserts.mapFirst_comp _ _ (upserts.keyOf_patchAll [op]),
        upserts.mapFirst_congr [] _ fun row _ => upserts.patchAll_absorbs absorbing ops op row,
        ← upserts.mapFirst_comp _ _ (upserts.keyOf_patchAll ops), ih]
    | false =>
      have unheld : ∀ row ∈ (upserts.upsertAll store ops).rows,
          upserts.keyOf row ≠ upserts.key op := by
        intro row member same
        have absent := List.any_eq_false.mp present row member
        exact absent (decide_eq_true same)
      have others : ∀ other ∈ ops, upserts.key other ≠ upserts.key op := by
        intro other member same
        have held := (upserts.holds_upsertAll store ops (upserts.key op)).mpr
          (.inr ⟨other, member, same.symm⟩)
        rw [held] at present
        cases present
      rw [upsert, if_neg (by simp [present])]
      dsimp only
      rw [upserts.mapFirst_append_new _ [] _ _ List.not_mem_nil fun row member => by
        rw [upserts.keyOf_patch, upserts.keyOf_blank]
        exact unheld row member, upserts.patchAll_new absorbing ops op _ others]
      congr 1
      refine (upserts.mapFirst_congr [] _ fun row member => ?_).trans ih
      rw [upserts.patchAll_append ops [op]]
      exact if_neg (by rw [upserts.keyOf_patchAll]; exact unheld row member)

theorem upsertAll_idempotent (absorbing : upserts.Absorbing) (store : Store Row) (ops : List Op) :
    upserts.upsertAll (upserts.upsertAll store ops) ops = upserts.upsertAll store ops := by
  rw [upserts.upsertAll_present _ ops fun op member =>
    (upserts.holds_upsertAll store ops _).mpr (.inr ⟨op, member, rfl⟩),
    upserts.settled_upsertAll absorbing store ops]

theorem absorbing_of (again : ∀ op row, upserts.patch op (upserts.patch op row) = upserts.patch op row)
    (congruent : ∀ op other first second, upserts.patch op first = upserts.patch op second →
      upserts.patch op (upserts.patch other first) = upserts.patch op (upserts.patch other second)) :
    upserts.Absorbing := by
  have through : ∀ op ops first second, upserts.keyOf first = upserts.keyOf second →
      upserts.patch op first = upserts.patch op second →
      upserts.patch op (upserts.patchAll ops first) =
        upserts.patch op (upserts.patchAll ops second) := by
    intro op ops
    induction ops with
    | nil => exact fun first second _ equal => equal
    | cons other rest ih =>
      intro first second sameKey equal
      rw [patchAll, List.foldl_cons, patchAll, List.foldl_cons, sameKey]
      by_cases own : upserts.keyOf second = upserts.key other
      · rw [if_pos own, if_pos own]
        refine ih _ _ ?_ (congruent op other first second equal)
        rw [upserts.keyOf_patch, upserts.keyOf_patch, sameKey]
      · rw [if_neg own, if_neg own]
        exact ih first second sameKey equal
  exact fun op ops row _ =>
    through op ops (upserts.patch op row) row (upserts.keyOf_patch op row) (again op row)

variable {row : Row} {key : Key} {rows : List Row}

theorem mem_modifyFirst {change : Row → Row} (member : row ∈ upserts.modifyFirst key change rows) :
    row ∈ rows ∨ ∃ old ∈ rows, upserts.keyOf old = key ∧ row = change old := by
  induction rows with
  | nil => exact .inl member
  | cons first rest ih =>
    rw [modifyFirst_cons] at member
    split at member
    · rename_i own
      rcases List.mem_cons.mp member with rfl | later
      · exact .inr ⟨first, List.mem_cons_self, own, rfl⟩
      · exact .inl (List.mem_cons_of_mem first later)
    · rcases List.mem_cons.mp member with rfl | later
      · exact .inl List.mem_cons_self
      · rcases ih later with old | ⟨old, oldMember, own, equal⟩
        · exact .inl (List.mem_cons_of_mem first old)
        · exact .inr ⟨old, List.mem_cons_of_mem first oldMember, own, equal⟩

variable {store : Store Row}

theorem mem_upsert {op : Op} (member : row ∈ (upserts.upsert store op).rows) :
    row ∈ store.rows ∨
      (∃ old ∈ store.rows, upserts.keyOf old = upserts.key op ∧ row = upserts.patch op old) ∨
      row = upserts.patch op (upserts.blank op store.next) := by
  unfold upsert at member
  split at member
  · exact (upserts.mem_modifyFirst member).imp_right .inl
  · rcases List.mem_append.mp member with old | new
    · exact .inl old
    · exact .inr (.inr (List.mem_singleton.mp new))

theorem next_upsert_le (store : Store Row) (op : Op) :
    store.next ≤ (upserts.upsert store op).next := by
  unfold upsert
  split
  · exact Nat.le_refl _
  · exact Nat.le_succ store.next

theorem upsertAll_forall (holdsOf : Row → Prop) (ops : List Op) (store : Store Row)
    (patched : ∀ op ∈ ops, ∀ row, holdsOf row → upserts.keyOf row = upserts.key op →
      holdsOf (upserts.patch op row))
    (created : ∀ op ∈ ops, ∀ value, store.next ≤ value →
      holdsOf (upserts.patch op (upserts.blank op value)))
    (start : ∀ row ∈ store.rows, holdsOf row) :
    ∀ row ∈ (upserts.upsertAll store ops).rows, holdsOf row := by
  induction ops generalizing store with
  | nil => exact start
  | cons op rest ih =>
    rw [upsertAll, List.foldl_cons]
    refine ih (upserts.upsert store op)
      (fun later member => patched later (List.mem_cons_of_mem op member))
      (fun later member value after => created later (List.mem_cons_of_mem op member) value
        (Nat.le_trans (upserts.next_upsert_le store op) after)) ?_
    intro row member
    rcases upserts.mem_upsert member with old | ⟨old, oldMember, own, rfl⟩ | rfl
    · exact start row old
    · exact patched op List.mem_cons_self old (start old oldMember) own
    · exact created op List.mem_cons_self store.next (Nat.le_refl _)

theorem mem_modifyFirst_of_other (member : row ∈ rows) (other : upserts.keyOf row ≠ key) :
    row ∈ upserts.modifyFirst key change rows := by
  induction rows with
  | nil => cases member
  | cons first rest ih =>
    rw [modifyFirst_cons]
    rcases List.mem_cons.mp member with rfl | later
    · rw [if_neg other]
      exact List.mem_cons_self
    · split
      · exact List.mem_cons_of_mem _ later
      · exact List.mem_cons_of_mem _ (ih later)

theorem mem_upsert_of_other {op : Op} (member : row ∈ store.rows)
    (other : upserts.keyOf row ≠ upserts.key op) : row ∈ (upserts.upsert store op).rows := by
  unfold upsert
  split
  · exact upserts.mem_modifyFirst_of_other _ member other
  · exact List.mem_append_left _ member

theorem mem_upsertAll_of_other {ops : List Op} (member : row ∈ store.rows)
    (other : ∀ op ∈ ops, upserts.keyOf row ≠ upserts.key op) :
    row ∈ (upserts.upsertAll store ops).rows := by
  induction ops generalizing store with
  | nil => exact member
  | cons op rest ih =>
    rw [upsertAll, List.foldl_cons]
    exact ih (upserts.mem_upsert_of_other member (other op List.mem_cons_self))
      fun later laterMember => other later (List.mem_cons_of_mem op laterMember)

theorem changed_mem_modifyFirst (present : (rows.any fun row => upserts.keyOf row = key) = true) :
    ∃ row, upserts.keyOf row = key ∧ change row ∈ upserts.modifyFirst key change rows := by
  induction rows with
  | nil => cases present
  | cons first rest ih =>
    rw [modifyFirst_cons]
    by_cases own : upserts.keyOf first = key
    · rw [if_pos own]
      exact ⟨first, own, List.mem_cons_self⟩
    · rw [List.any_cons, decide_eq_false own, Bool.false_or] at present
      obtain ⟨row, isKey, member⟩ := ih present
      rw [if_neg own]
      exact ⟨row, isKey, List.mem_cons_of_mem first member⟩

theorem patched_mem_upsert (store : Store Row) (op : Op) :
    ∃ row, upserts.keyOf row = upserts.key op ∧
      upserts.patch op row ∈ (upserts.upsert store op).rows := by
  unfold upsert
  split
  · rename_i present
    exact upserts.changed_mem_modifyFirst (upserts.patch op) present
  · exact ⟨_, upserts.keyOf_blank op store.next,
      List.mem_append_right _ (List.mem_singleton.mpr rfl)⟩

theorem patched_mem_upsertAll (store : Store Row) (before : List Op) (op : Op) (after : List Op)
    (last : ∀ later ∈ after, upserts.key op ≠ upserts.key later) :
    ∃ row, upserts.keyOf row = upserts.key op ∧
      upserts.patch op row ∈ (upserts.upsertAll store (before ++ op :: after)).rows := by
  rw [upsertAll_append, upsertAll, List.foldl_cons]
  obtain ⟨row, key, member⟩ := upserts.patched_mem_upsert (upserts.upsertAll store before) op
  refine ⟨row, key, upserts.mem_upsertAll_of_other member fun later laterMember => ?_⟩
  rw [upserts.keyOf_patch, key]
  exact last later laterMember

theorem filter_modifyFirst {change : Row → Row} {apart : Row → Bool}
    (keeps : ∀ row, upserts.keyOf (change row) = upserts.keyOf row)
    (own : ∀ row, upserts.keyOf row = key → apart row = false) (rows : List Row) :
    (upserts.modifyFirst key change rows).filter apart = rows.filter apart := by
  induction rows with
  | nil => rfl
  | cons row rest ih =>
    rw [modifyFirst_cons]
    split
    · rename_i same
      have changed : apart (change row) = false := own _ ((keeps row).trans same)
      rw [List.filter_cons_of_neg (by simp [changed]),
        List.filter_cons_of_neg (by simp [own row same])]
    · rw [List.filter_cons, List.filter_cons, ih]

theorem filter_upsertAll (apart : Row → Bool) (store : Store Row) (ops : List Op)
    (untouched : ∀ op ∈ ops, ∀ row, upserts.keyOf row = upserts.key op → apart row = false) :
    (upserts.upsertAll store ops).rows.filter apart = store.rows.filter apart := by
  induction ops generalizing store with
  | nil => rfl
  | cons op rest ih =>
    rw [upsertAll, List.foldl_cons]
    refine (ih (upserts.upsert store op) fun later member =>
      untouched later (List.mem_cons_of_mem op member)).trans ?_
    have own := untouched op List.mem_cons_self
    unfold upsert
    split
    · exact upserts.filter_modifyFirst (upserts.keyOf_patch op) own store.rows
    · have new : apart (upserts.patch op (upserts.blank op store.next)) = false :=
        own _ ((upserts.keyOf_patch op _).trans (upserts.keyOf_blank op _))
      rw [List.filter_append, List.filter_cons_of_neg (by simp [new]), List.filter_nil,
        List.append_nil]

end Upserts

end Foundation.Upsert
