import Mathlib.Algebra.BigOperators.Field
import Mathlib.Algebra.Order.BigOperators.Ring.Finset
import Mathlib.Algebra.Order.Field.Basic
import Mathlib.Tactic.FieldSimp
import Mathlib.Tactic.Linarith

/-!
# Damped walks

A walker on finitely many nodes goes on from a node with a probability, and starts anew at a
random node with the rest.  The shares that a node gives away sum to one at most: where they sum to
less, mass leaks.  Rounds are walked until one of them changes the ranks by little.
-/

namespace Foundation.DampedWalk

variable {Node Number : Type} [Field Number] [LinearOrder Number]

structure Substochastic (nodes : Finset Node) (share : Node → Node → Number) : Prop where
  nonneg : ∀ from_ into, 0 ≤ share from_ into
  given : ∀ from_ ∈ nodes, ∑ into ∈ nodes, share from_ into ≤ 1

def step (nodes : Finset Node) (share : Node → Node → Number) (damping : Number)
    (rank : Node → Number) (node : Node) : Number :=
  (1 - damping) / nodes.card + damping * ∑ from_ ∈ nodes, rank from_ * share from_ node

def mass (nodes : Finset Node) (rank : Node → Number) : Number := ∑ node ∈ nodes, rank node

/-- What every round keeps: no rank is below the part of the fresh starts, and no mass is made. -/
structure Proper (nodes : Finset Node) (damping : Number) (rank : Node → Number) : Prop where
  floor : ∀ node ∈ nodes, (1 - damping) / nodes.card ≤ rank node
  bounded : mass nodes rank ≤ 1

variable {nodes : Finset Node} {share : Node → Node → Number} {damping : Number}
  {rank : Node → Number}

section Ordered

variable [IsStrictOrderedRing Number]

theorem card_pos_cast (filled : nodes.Nonempty) : (0 : Number) < nodes.card := by
  exact_mod_cast filled.card_pos

theorem uniform_mass (filled : nodes.Nonempty) :
    mass nodes (fun _ => (1 : Number) / nodes.card) = 1 := by
  rw [mass, Finset.sum_const, nsmul_eq_mul, mul_one_div_cancel (card_pos_cast filled).ne']

theorem mass_step (filled : nodes.Nonempty) :
    mass nodes (step nodes share damping rank) =
      1 - damping + damping * ∑ from_ ∈ nodes, rank from_ * ∑ into ∈ nodes, share from_ into := by
  have starts : ∑ _node ∈ nodes, (1 - damping) / nodes.card = 1 - damping := by
    rw [Finset.sum_const, nsmul_eq_mul, mul_div_cancel₀ _ (card_pos_cast filled).ne']
  simp only [mass, step]
  rw [Finset.sum_add_distrib, starts, ← Finset.mul_sum, Finset.sum_comm]
  simp only [Finset.mul_sum]

section Damped

variable (nonneg : 0 ≤ damping) (proper : damping < 1)
include nonneg proper

omit nonneg in
theorem floor_pos (filled : nodes.Nonempty) : 0 < (1 - damping) / (nodes.card : Number) :=
  div_pos (sub_pos.mpr proper) (card_pos_cast filled)

omit proper in
theorem uniform_proper (filled : nodes.Nonempty) :
    Proper nodes damping fun _ => (1 : Number) / nodes.card where
  floor := fun _ _ => div_le_div_of_nonneg_right (by linarith) (card_pos_cast filled).le
  bounded := (uniform_mass filled).le

omit nonneg in
theorem Proper.rank_pos (held : Proper nodes damping rank) {node : Node} (member : node ∈ nodes) :
    0 < rank node :=
  (floor_pos proper ⟨node, member⟩).trans_le (held.floor node member)

theorem Proper.step (walk : Substochastic nodes share) (filled : nodes.Nonempty)
    (held : Proper nodes damping rank) : Proper nodes damping (step nodes share damping rank) where
  floor := by
    intro node _
    refine le_add_of_nonneg_right (mul_nonneg nonneg (Finset.sum_nonneg fun from_ member => ?_))
    exact mul_nonneg (held.rank_pos proper member).le (walk.nonneg from_ node)
  bounded := by
    rw [mass_step filled]
    have given : ∑ from_ ∈ nodes, rank from_ * ∑ into ∈ nodes, share from_ into ≤ mass nodes rank :=
      Finset.sum_le_sum fun from_ member =>
        mul_le_of_le_one_right (held.rank_pos proper member).le (walk.given from_ member)
    have damped := mul_le_mul_of_nonneg_left (given.trans held.bounded) nonneg
    linarith

theorem Proper.iterate (walk : Substochastic nodes share) (filled : nodes.Nonempty)
    (held : Proper nodes damping rank) (rounds : Nat) :
    Proper nodes damping ((DampedWalk.step nodes share damping)^[rounds] rank) := by
  induction rounds generalizing rank with
  | zero => exact held
  | succ rounds ih =>
    rw [Function.iterate_succ_apply]
    exact ih (held.step nonneg proper walk filled)

end Damped

theorem mass_step_eq_one (filled : nodes.Nonempty)
    (closed : ∀ from_ ∈ nodes, ∑ into ∈ nodes, share from_ into = 1) (one : mass nodes rank = 1) :
    mass nodes (step nodes share damping rank) = 1 := by
  have all : ∑ from_ ∈ nodes, rank from_ * ∑ into ∈ nodes, share from_ into = mass nodes rank :=
    Finset.sum_congr rfl fun from_ member => by rw [closed from_ member, mul_one]
  rw [mass_step filled, all, one]
  ring

theorem mass_iterate_eq_one (filled : nodes.Nonempty)
    (closed : ∀ from_ ∈ nodes, ∑ into ∈ nodes, share from_ into = 1) (one : mass nodes rank = 1)
    (rounds : Nat) : mass nodes ((step nodes share damping)^[rounds] rank) = 1 := by
  induction rounds generalizing rank with
  | zero => exact one
  | succ rounds ih =>
    rw [Function.iterate_succ_apply]
    exact ih (mass_step_eq_one filled closed one)

end Ordered

def gap (nodes : Finset Node) (first second : Node → Number) : Number :=
  ∑ node ∈ nodes, |first node - second node|

def settle (nodes : Finset Node) (share : Node → Node → Number) (damping tolerance : Number) :
    Nat → (Node → Number) → Node → Number
  | 0, rank => rank
  | rounds + 1, rank =>
    if gap nodes (step nodes share damping rank) rank < tolerance then step nodes share damping rank
    else settle nodes share damping tolerance rounds (step nodes share damping rank)

theorem settle_succ (tolerance : Number) (rounds : Nat) :
    settle nodes share damping tolerance (rounds + 1) rank =
      if gap nodes (step nodes share damping rank) rank < tolerance then step nodes share damping rank
      else settle nodes share damping tolerance rounds (step nodes share damping rank) := rfl

theorem settle_eq_iterate (nodes : Finset Node) (share : Node → Node → Number)
    (damping tolerance : Number) (bound : Nat) (rank : Node → Number) :
    ∃ rounds, settle nodes share damping tolerance bound rank =
      (step nodes share damping)^[rounds] rank := by
  induction bound generalizing rank with
  | zero => exact ⟨0, rfl⟩
  | succ bound ih =>
    rw [settle_succ]
    split
    · exact ⟨1, rfl⟩
    · obtain ⟨rounds, same⟩ := ih (step nodes share damping rank)
      exact ⟨rounds + 1, same⟩

section Rename

variable {Other : Type} (rename : Node ↪ Other) {renamedShare : Other → Other → Number}
  {renamedRank : Other → Number}
  (shares : ∀ from_ ∈ nodes, ∀ into ∈ nodes,
    renamedShare (rename from_) (rename into) = share from_ into)
  (ranks : ∀ node ∈ nodes, renamedRank (rename node) = rank node)
include shares ranks

omit [LinearOrder Number] in
theorem step_rename {node : Node} (member : node ∈ nodes) :
    step (nodes.map rename) renamedShare damping renamedRank (rename node) =
      step nodes share damping rank node := by
  rw [step, step, Finset.card_map, Finset.sum_map]
  refine congrArg (fun sum => _ + damping * sum) (Finset.sum_congr rfl fun from_ inside => ?_)
  rw [ranks from_ inside, shares from_ inside node member]

theorem settle_rename (tolerance : Number) (bound : Nat) {node : Node} (member : node ∈ nodes) :
    settle (nodes.map rename) renamedShare damping tolerance bound renamedRank (rename node) =
      settle nodes share damping tolerance bound rank node := by
  induction bound generalizing rank renamedRank with
  | zero => exact ranks node member
  | succ bound ih =>
    have stepped : ∀ node ∈ nodes,
        step (nodes.map rename) renamedShare damping renamedRank (rename node) =
          step nodes share damping rank node :=
      fun _ inside => step_rename rename shares ranks inside
    have gaps : gap (nodes.map rename) (step (nodes.map rename) renamedShare damping renamedRank)
        renamedRank = gap nodes (step nodes share damping rank) rank := by
      rw [gap, gap, Finset.sum_map]
      exact Finset.sum_congr rfl fun node inside => by rw [stepped node inside, ranks node inside]
    rw [settle_succ, settle_succ, gaps]
    split
    · exact stepped node member
    · exact ih stepped

end Rename

end Foundation.DampedWalk
