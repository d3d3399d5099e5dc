import Mathlib.Algebra.BigOperators.Group.Finset.Basic

/-!
# Rewriting of whole values

A rewrite names a cell, a value and its replacement: where the cell holds the value, the
replacement takes its place.  A list of rewrites acts on each cell through its own
rewrites alone, and two lists act alike when they treat alike the values that they name.
-/

namespace Foundation.Rewriting

variable {Key Value : Type} [DecidableEq Key]

structure Rewrite (Key Value : Type) where
  key : Key
  original : Value
  normalized : Value

def ownRewrites (key : Key) (rewrites : List (Rewrite Key Value)) : List (Value × Value) :=
  rewrites.filterMap fun rewrite =>
    if rewrite.key = key then some (rewrite.original, rewrite.normalized) else none

variable (rewrite : Rewrite Key Value) (rest : List (Rewrite Key Value))

theorem ownRewrites_cons_self :
    ownRewrites rewrite.key (rewrite :: rest) =
      (rewrite.original, rewrite.normalized) :: ownRewrites rewrite.key rest := by
  simp [ownRewrites]

theorem ownRewrites_cons_of_ne (key : Key) (rewrite : Rewrite Key Value)
    (rest : List (Rewrite Key Value)) (other : rewrite.key ≠ key) :
    ownRewrites key (rewrite :: rest) = ownRewrites key rest := by
  simp [ownRewrites, other]

theorem mem_ownRewrites (key : Key) (rewrites : List (Rewrite Key Value)) (pair : Value × Value) :
    pair ∈ ownRewrites key rewrites ↔
      ∃ rewrite ∈ rewrites, rewrite.key = key ∧
        (rewrite.original, rewrite.normalized) = pair := by
  unfold ownRewrites
  rw [List.mem_filterMap]
  constructor
  · rintro ⟨rewrite, member, found⟩
    split at found
    · exact ⟨rewrite, member, ‹_›, Option.some.inj found⟩
    · cases found
  · rintro ⟨rewrite, member, rfl, same⟩
    exact ⟨rewrite, member, by rw [if_pos rfl, same]⟩

section Values

variable [DecidableEq Value]

def rewriteValue : List (Value × Value) → Option Value → Option Value × Nat
  | [], value => (value, 0)
  | (original, normalized) :: rest, value =>
    if value = some original then
      let result := rewriteValue rest (some normalized)
      (result.1, 1 + result.2)
    else rewriteValue rest value

theorem rewriteValue_nil (value : Option Value) :
    rewriteValue ([] : List (Value × Value)) value = (value, 0) := rfl

theorem rewriteValue_cons (original normalized : Value) (rest : List (Value × Value))
    (value : Option Value) :
    rewriteValue ((original, normalized) :: rest) value =
      if value = some original then
        ((rewriteValue rest (some normalized)).1, 1 + (rewriteValue rest (some normalized)).2)
      else rewriteValue rest value := rfl

def applyRewrite (rewrite : Rewrite Key Value) (cells : Key → Option Value) :
    (Key → Option Value) × Nat :=
  if cells rewrite.key = some rewrite.original then
    (Function.update cells rewrite.key (some rewrite.normalized), 1)
  else (cells, 0)

def applyAll : List (Rewrite Key Value) → (Key → Option Value) → (Key → Option Value) × Nat
  | [], cells => (cells, 0)
  | rewrite :: rest, cells =>
    let first := applyRewrite rewrite cells
    let result := applyAll rest first.1
    (result.1, first.2 + result.2)

variable (cells : Key → Option Value)

theorem applyAll_cons :
    applyAll (rewrite :: rest) cells =
      ((applyAll rest (applyRewrite rewrite cells).1).1,
        (applyRewrite rewrite cells).2 + (applyAll rest (applyRewrite rewrite cells).1).2) := rfl

theorem rewriteValue_none (pairs : List (Value × Value)) : rewriteValue pairs none = (none, 0) := by
  induction pairs with
  | nil => rfl
  | cons pair rest ih => exact ih

theorem rewriteValue_of_not_named (pairs : List (Value × Value)) (value : Value)
    (unnamed : ∀ pair ∈ pairs, pair.1 ≠ value) :
    rewriteValue pairs (some value) = (some value, 0) := by
  induction pairs with
  | nil => rfl
  | cons pair rest ih =>
    have differs : ¬ some value = some pair.1 := fun same =>
      unnamed pair List.mem_cons_self (Option.some.inj same).symm
    rw [rewriteValue_cons, if_neg differs]
    exact ih fun other member => unnamed other (List.mem_cons_of_mem pair member)

theorem rewriteValue_agree_iff (first second : List (Value × Value)) :
    (∀ value, rewriteValue first value = rewriteValue second value) ↔
      ∀ pair ∈ first ++ second,
        rewriteValue first (some pair.1) = rewriteValue second (some pair.1) := by
  constructor
  · intro agree pair _
    exact agree (some pair.1)
  · intro named value
    cases value with
    | none => rw [rewriteValue_none, rewriteValue_none]
    | some value =>
      by_cases occurs : ∃ pair ∈ first ++ second, pair.1 = value
      · obtain ⟨pair, member, rfl⟩ := occurs
        exact named pair member
      · have outside : ∀ pair ∈ first ++ second, pair.1 ≠ value :=
          fun pair member same => occurs ⟨pair, member, same⟩
        rw [rewriteValue_of_not_named first value fun pair member =>
            outside pair (List.mem_append_left second member),
          rewriteValue_of_not_named second value fun pair member =>
            outside pair (List.mem_append_right first member)]

theorem applyRewrite_hit (holds : cells rewrite.key = some rewrite.original) :
    applyRewrite rewrite cells =
      (Function.update cells rewrite.key (some rewrite.normalized), 1) :=
  if_pos holds

theorem applyRewrite_miss (holds : cells rewrite.key ≠ some rewrite.original) :
    applyRewrite rewrite cells = (cells, 0) :=
  if_neg holds

theorem applyRewrite_other (key : Key) (other : rewrite.key ≠ key) :
    (applyRewrite rewrite cells).1 key = cells key := by
  by_cases holds : cells rewrite.key = some rewrite.original
  · rw [applyRewrite_hit rewrite cells holds]
    exact Function.update_of_ne (Ne.symm other) _ _
  · rw [applyRewrite_miss rewrite cells holds]

theorem rewriteValue_step :
    rewriteValue (ownRewrites rewrite.key (rewrite :: rest)) (cells rewrite.key) =
      ((rewriteValue (ownRewrites rewrite.key rest)
          ((applyRewrite rewrite cells).1 rewrite.key)).1,
        (applyRewrite rewrite cells).2 + (rewriteValue (ownRewrites rewrite.key rest)
          ((applyRewrite rewrite cells).1 rewrite.key)).2) := by
  rw [ownRewrites_cons_self, rewriteValue_cons]
  by_cases holds : cells rewrite.key = some rewrite.original
  · rw [if_pos holds, applyRewrite_hit rewrite cells holds]
    simp only [Function.update_self]
  · rw [if_neg holds, applyRewrite_miss rewrite cells holds, Nat.zero_add]

variable (rewrites : List (Rewrite Key Value))

theorem applyAll_cell (cells : Key → Option Value) (key : Key) :
    (applyAll rewrites cells).1 key = (rewriteValue (ownRewrites key rewrites) (cells key)).1 := by
  induction rewrites generalizing cells with
  | nil => rfl
  | cons rewrite rest ih =>
    rw [applyAll_cons]
    dsimp only
    rw [ih]
    by_cases own : rewrite.key = key
    · subst own
      rw [rewriteValue_step]
    · rw [ownRewrites_cons_of_ne key rewrite rest own, applyRewrite_other rewrite cells key own]

theorem applyAll_count (cells : Key → Option Value) (keys : Finset Key)
    (covers : ∀ rewrite ∈ rewrites, rewrite.key ∈ keys) :
    (applyAll rewrites cells).2 =
      ∑ key ∈ keys, (rewriteValue (ownRewrites key rewrites) (cells key)).2 := by
  induction rewrites generalizing cells with
  | nil => simp [applyAll, ownRewrites, rewriteValue_nil]
  | cons rewrite rest ih =>
    have member := covers rewrite List.mem_cons_self
    have others : ∀ key ∈ keys.erase rewrite.key,
        (rewriteValue (ownRewrites key (rewrite :: rest)) (cells key)).2 =
          (rewriteValue (ownRewrites key rest) ((applyRewrite rewrite cells).1 key)).2 := by
      intro key inside
      have other : rewrite.key ≠ key := fun same =>
        (Finset.mem_erase.mp inside).1 same.symm
      rw [ownRewrites_cons_of_ne key rewrite rest other, applyRewrite_other rewrite cells key other]
    rw [applyAll_cons]
    dsimp only
    rw [ih _ fun later inside => covers later (List.mem_cons_of_mem rewrite inside),
      ← Finset.add_sum_erase keys _ member, ← Finset.add_sum_erase keys _ member,
      rewriteValue_step, Finset.sum_congr rfl others]
    omega

theorem applyAll_single (others : Key → Option Value)
    (unnamed : ∀ rewrite ∈ rewrites, others rewrite.key = none) (key : Key) (value : Option Value) :
    (applyAll rewrites (Function.update others key value)).2 =
      (rewriteValue (ownRewrites key rewrites) value).2 := by
  have covers : ∀ rewrite ∈ rewrites, rewrite.key ∈ (rewrites.map Rewrite.key).toFinset :=
    fun rewrite member => List.mem_toFinset.mpr (List.mem_map_of_mem member)
  rw [applyAll_count rewrites _ _ covers, Finset.sum_eq_single key]
  · rw [Function.update_self]
  · intro other inside differs
    obtain ⟨rewrite, member, rfl⟩ := List.mem_map.mp (List.mem_toFinset.mp inside)
    rw [Function.update_of_ne differs, unnamed rewrite member, rewriteValue_none]
  · intro absent
    have own : ownRewrites key rewrites = [] := by
      rw [List.eq_nil_iff_forall_not_mem]
      intro pair member
      obtain ⟨rewrite, inside, rfl, -⟩ := (mem_ownRewrites key rewrites pair).mp member
      exact absent (covers rewrite inside)
    rw [own, rewriteValue_nil]

variable (first second : List (Rewrite Key Value))

/-- Two lists act alike on every row when they do on every cell, for each value that a
rewrite of the cell names. -/
theorem applyAll_agree (named : ∀ rewrite ∈ first ++ second,
      rewriteValue (ownRewrites rewrite.key first) (some rewrite.original) =
        rewriteValue (ownRewrites rewrite.key second) (some rewrite.original))
    (cells : Key → Option Value) : applyAll first cells = applyAll second cells := by
  have alike : ∀ key value, rewriteValue (ownRewrites key first) value =
      rewriteValue (ownRewrites key second) value := by
    intro key
    rw [rewriteValue_agree_iff]
    intro pair member
    rw [List.mem_append, mem_ownRewrites, mem_ownRewrites] at member
    rcases member with ⟨rewrite, inside, rfl, rfl⟩ | ⟨rewrite, inside, rfl, rfl⟩
    · exact named rewrite (List.mem_append_left second inside)
    · exact named rewrite (List.mem_append_right first inside)
  refine Prod.ext ?_ ?_
  · funext key
    rw [applyAll_cell, applyAll_cell, alike]
  · have covers : ∀ rewrite ∈ first ++ second, rewrite.key ∈
        ((first ++ second).map Rewrite.key).toFinset := fun rewrite member =>
      List.mem_toFinset.mpr (List.mem_map_of_mem member)
    rw [applyAll_count first cells _ fun rewrite member =>
        covers rewrite (List.mem_append_left second member),
      applyAll_count second cells _ fun rewrite member =>
        covers rewrite (List.mem_append_right first member)]
    exact Finset.sum_congr rfl fun key _ => by rw [alike]

theorem rewriteValue_of_applyAll (others : Key → Option Value) (key : Key) (value : Option Value)
    (unnamed : ∀ rewrite ∈ first ++ second, others rewrite.key = none)
    (same : applyAll first (Function.update others key value) =
      applyAll second (Function.update others key value)) :
    rewriteValue (ownRewrites key first) value = rewriteValue (ownRewrites key second) value := by
  refine Prod.ext ?_ ?_
  · have cell := congrFun (congrArg Prod.fst same) key
    rwa [applyAll_cell, applyAll_cell, Function.update_self] at cell
  · have count := congrArg Prod.snd same
    rwa [applyAll_single first others fun rewrite member =>
        unnamed rewrite (List.mem_append_left second member),
      applyAll_single second others fun rewrite member =>
        unnamed rewrite (List.mem_append_right first member)] at count

theorem applyAll_of_miss (cells : Key → Option Value)
    (miss : ∀ rewrite ∈ rewrites, cells rewrite.key ≠ some rewrite.original) :
    applyAll rewrites cells = (cells, 0) := by
  induction rewrites with
  | nil => rfl
  | cons rewrite rest ih =>
    rw [applyAll_cons, applyRewrite_miss rewrite cells (miss rewrite List.mem_cons_self)]
    dsimp only
    rw [ih fun later member => miss later (List.mem_cons_of_mem rewrite member)]
    rfl

end Values

end Foundation.Rewriting
