import Mathlib.Data.Finset.Card

/-!
# Forests by parent

Every node has a parent, and a root is its own.  Pointing a node at the root it leads to
anyway changes no root; pointing one root at another joins their two trees.  Climbing
finds the root where some rank rises along the parents.
-/

namespace Foundation.RootedForest

variable {Node : Type}

/-- `node` leads to the root `root`. -/
inductive Leads (parent : Node → Node) : Node → Node → Prop
  | here {root : Node} (isRoot : parent root = root) : Leads parent root root
  | up {node root : Node} (moves : parent node ≠ node) (rest : Leads parent (parent node) root) :
      Leads parent node root

def Rooted (parent : Node → Node) : Prop := ∀ node, ∃ root, Leads parent node root

/-- The two nodes lead to one root. -/
def Together (parent : Node → Node) (first second : Node) : Prop :=
  ∃ root, Leads parent first root ∧ Leads parent second root

section Roots

variable {parent : Node → Node} {node root other : Node}

theorem Leads.isRoot (leads : Leads parent node root) : parent root = root := by
  induction leads with
  | here isRoot => exact isRoot
  | up moves rest ih => exact ih

theorem Leads.unique (leads : Leads parent node root) (again : Leads parent node other) :
    root = other := by
  induction leads with
  | here isRoot =>
    cases again with
    | here _ => rfl
    | up moves _ => exact absurd isRoot moves
  | up moves rest ih =>
    cases again with
    | here isRoot => exact absurd isRoot moves
    | up _ later => exact ih later

theorem Leads.of_parent (leads : Leads parent (parent node) root) : Leads parent node root := by
  by_cases isRoot : parent node = node
  · rwa [isRoot] at leads
  · exact .up isRoot leads

theorem together_of_leads (leads : Leads parent node root) : Together parent node root :=
  ⟨root, leads, .here leads.isRoot⟩

theorem together_equivalence (rooted : Rooted parent) : Equivalence (Together parent) where
  refl node := by
    obtain ⟨root, leads⟩ := rooted node
    exact ⟨root, leads, leads⟩
  symm := by
    intro first second together
    obtain ⟨root, firstLeads, secondLeads⟩ := together
    exact ⟨root, secondLeads, firstLeads⟩
  trans := by
    intro first second third together later
    obtain ⟨root, firstLeads, secondLeads⟩ := together
    obtain ⟨same, again, thirdLeads⟩ := later
    obtain rfl := secondLeads.unique again
    exact ⟨root, firstLeads, thirdLeads⟩

theorem together_iff {first second firstRoot secondRoot : Node}
    (firstLeads : Leads parent first firstRoot) (secondLeads : Leads parent second secondRoot) :
    Together parent first second ↔ firstRoot = secondRoot := by
  constructor
  · intro together
    obtain ⟨root, firstAgain, secondAgain⟩ := together
    rw [firstLeads.unique firstAgain, secondLeads.unique secondAgain]
  · intro same
    subst same
    exact ⟨_, firstLeads, secondLeads⟩

end Roots

section Updates

variable [DecidableEq Node] {parent : Node → Node}

theorem leads_compress {node root : Node} (leads : Leads parent node root) {start end_ : Node}
    (old : Leads parent start end_) : Leads (Function.update parent node root) start end_ := by
  have rootStays : Leads (Function.update parent node root) root root := by
    apply Leads.here
    by_cases same : root = node
    · rw [same, Function.update_self]
    · rw [Function.update_of_ne same, leads.isRoot]
  induction old with
  | @here start isRoot =>
    by_cases same : start = node
    · subst same
      rw [← leads.unique (.here isRoot)] at rootStays ⊢
      exact rootStays
    · exact .here (by rw [Function.update_of_ne same, isRoot])
  | @up start end_ moves rest ih =>
    by_cases same : start = node
    · subst same
      obtain rfl := leads.unique (.up moves rest)
      apply Leads.of_parent
      rw [Function.update_self]
      exact rootStays
    · apply Leads.of_parent
      rw [Function.update_of_ne same]
      exact ih

theorem leads_compress_iff (rooted : Rooted parent) {node root : Node}
    (leads : Leads parent node root) (start end_ : Node) :
    Leads (Function.update parent node root) start end_ ↔ Leads parent start end_ := by
  constructor
  · intro new
    obtain ⟨before, old⟩ := rooted start
    rwa [new.unique (leads_compress leads old)]
  · exact leads_compress leads

theorem leads_link {winner loser : Node} (winnerRoot : parent winner = winner)
    (loserRoot : parent loser = loser) (differ : loser ≠ winner) {start end_ : Node}
    (old : Leads parent start end_) :
    Leads (Function.update parent loser winner) start (if end_ = loser then winner else end_) := by
  have winnerStays : Leads (Function.update parent loser winner) winner winner := by
    apply Leads.here
    rw [Function.update_of_ne differ.symm, winnerRoot]
  induction old with
  | @here start isRoot =>
    by_cases lost : start = loser
    · rw [if_pos lost, lost]
      apply Leads.of_parent
      rwa [Function.update_self]
    · rw [if_neg lost]
      exact .here (by rw [Function.update_of_ne lost, isRoot])
  | @up start end_ moves rest ih =>
    have kept : start ≠ loser := by
      intro lost
      exact moves (by rw [lost, loserRoot])
    apply Leads.of_parent
    rw [Function.update_of_ne kept]
    exact ih

theorem together_link_iff (rooted : Rooted parent) {winner loser : Node}
    (winnerRoot : parent winner = winner) (loserRoot : parent loser = loser)
    (differ : loser ≠ winner) (first second : Node) :
    Together (Function.update parent loser winner) first second ↔
      Together parent first second ∨
        (Together parent first winner ∧ Together parent second loser) ∨
        (Together parent first loser ∧ Together parent second winner) := by
  obtain ⟨firstRoot, firstLeads⟩ := rooted first
  obtain ⟨secondRoot, secondLeads⟩ := rooted second
  have winnerHere : Leads parent winner winner := .here winnerRoot
  have loserHere : Leads parent loser loser := .here loserRoot
  rw [together_iff (leads_link winnerRoot loserRoot differ firstLeads)
      (leads_link winnerRoot loserRoot differ secondLeads), together_iff firstLeads secondLeads,
    together_iff firstLeads winnerHere, together_iff secondLeads loserHere,
    together_iff firstLeads loserHere, together_iff secondLeads winnerHere]
  by_cases firstLost : firstRoot = loser <;> by_cases secondLost : secondRoot = loser <;> grind

end Updates

section Climbing

variable [DecidableEq Node] {parent : Node → Node}

def climb (parent : Node → Node) : Nat → Node → Node
  | 0, node => node
  | fuel + 1, node => if parent node = node then node else climb parent fuel (parent node)

/-- The loop that follows the parents again and points every node at `root`. -/
def compress (root : Node) : Nat → (Node → Node) → Node → Node → Node
  | 0, parent, _ => parent
  | fuel + 1, parent, node =>
    if parent node = root then parent
    else compress root fuel (Function.update parent node root) (parent node)

/-- With as much fuel as some measure that falls along the parents, the loop finds the root. -/
theorem leads_climb {height : Node → Nat}
    (falls : ∀ node, parent node ≠ node → height (parent node) < height node) {fuel : Nat}
    {node : Node} (enough : height node ≤ fuel) : Leads parent node (climb parent fuel node) := by
  induction fuel generalizing node with
  | zero =>
    apply Leads.here
    by_contra moves
    have lower := falls node moves
    omega
  | succ fuel ih =>
    unfold climb
    split
    · next isRoot => exact .here isRoot
    · next moves =>
        have lower := falls node moves
        exact .up moves (ih (by omega))

theorem rooted_of_falls {height : Node → Nat}
    (falls : ∀ node, parent node ≠ node → height (parent node) < height node) : Rooted parent :=
  fun node => ⟨_, leads_climb falls (le_refl (height node))⟩

theorem rooted_compress_step (rooted : Rooted parent) {node root : Node}
    (leads : Leads parent node root) : Rooted (Function.update parent node root) := by
  intro start
  obtain ⟨end_, old⟩ := rooted start
  exact ⟨end_, leads_compress leads old⟩

theorem leads_compress_path_iff {fuel : Nat} {node root : Node} (rooted : Rooted parent)
    (leads : Leads parent node root) (start end_ : Node) :
    Leads (compress root fuel parent node) start end_ ↔ Leads parent start end_ := by
  induction fuel generalizing parent node with
  | zero => rfl
  | succ fuel ih =>
    unfold compress
    split
    · rfl
    · next farther =>
        cases leads with
        | here isRoot => exact absurd isRoot farther
        | up moves rest =>
          have leads : Leads parent node root := .up moves rest
          rw [ih (rooted_compress_step rooted leads) (leads_compress leads rest),
            leads_compress_iff rooted leads]

end Climbing

section Ranks

variable {elements : Finset Node} {parent : Node → Node} {rank : Node → Nat}

/-- The elements point at elements, nothing else points anywhere, and ranks rise. -/
structure Ranked (elements : Finset Node) (parent : Node → Node) (rank : Node → Nat) : Prop where
  closed : ∀ node ∈ elements, parent node ∈ elements
  outside : ∀ node, node ∉ elements → parent node = node
  rises : ∀ node, parent node ≠ node → rank node < rank (parent node)

def above (elements : Finset Node) (rank : Node → Nat) (node : Node) : Nat :=
  (elements.filter fun other => rank node < rank other).card

theorem above_lt_card {node : Node} (member : node ∈ elements) :
    above elements rank node < elements.card := by
  apply Finset.card_lt_card
  rw [Finset.ssubset_iff_of_subset (Finset.filter_subset _ _)]
  exact ⟨node, member, by simp⟩

namespace Ranked

variable (ranked : Ranked elements parent rank)
include ranked

theorem above_falls (node : Node) (moves : parent node ≠ node) :
    above elements rank (parent node) < above elements rank node := by
  have member : node ∈ elements := by
    by_contra outside
    exact moves (ranked.outside node outside)
  have rises := ranked.rises node moves
  apply Finset.card_lt_card
  rw [Finset.ssubset_iff_of_subset]
  · refine ⟨parent node, Finset.mem_filter.mpr ⟨ranked.closed node member, rises⟩, ?_⟩
    simp
  · intro other
    simp only [Finset.mem_filter]
    intro higher
    exact ⟨higher.1, rises.trans higher.2⟩

variable {node root : Node}

theorem leads_mem (leads : Leads parent node root) (member : node ∈ elements) :
    root ∈ elements := by
  induction leads with
  | here _ => exact member
  | up moves rest ih => exact ih (ranked.closed _ member)

theorem rank_lt_root (leads : Leads parent node root) :
    node = root ∨ rank node < rank root := by
  induction leads with
  | here _ => exact .inl rfl
  | @up node root moves rest ih =>
    have rises := ranked.rises node moves
    rcases ih with same | higher
    · exact .inr (same ▸ rises)
    · exact .inr (rises.trans higher)

variable [DecidableEq Node]

theorem rooted : Rooted parent := rooted_of_falls ranked.above_falls

theorem leads_climb {node : Node} (member : node ∈ elements) :
    Leads parent node (climb parent elements.card node) :=
  RootedForest.leads_climb ranked.above_falls (above_lt_card member).le

theorem pointAt (leads : Leads parent node root) (member : node ∈ elements) :
    Ranked elements (Function.update parent node root) rank where
  closed other inside := by
    by_cases same : other = node
    · subst same
      rw [Function.update_self]
      exact ranked.leads_mem leads member
    · rw [Function.update_of_ne same]
      exact ranked.closed other inside
  outside other out := by
    have differ : other ≠ node := fun same => out (same ▸ member)
    rw [Function.update_of_ne differ, ranked.outside other out]
  rises other moves := by
    by_cases same : other = node
    · subst same
      rw [Function.update_self] at moves ⊢
      exact (ranked.rank_lt_root leads).resolve_left fun isRoot => moves isRoot.symm
    · rw [Function.update_of_ne same] at moves ⊢
      exact ranked.rises other moves

omit ranked in
theorem compress {fuel : Nat} {node root : Node} (ranked : Ranked elements parent rank)
    (leads : Leads parent node root) (member : node ∈ elements) :
    Ranked elements (compress root fuel parent node) rank := by
  induction fuel generalizing parent node with
  | zero => exact ranked
  | succ fuel ih =>
    unfold RootedForest.compress
    split
    · exact ranked
    · next farther =>
        cases leads with
        | here isRoot => exact absurd isRoot farther
        | up moves rest =>
          have leads : Leads parent node root := .up moves rest
          exact ih (ranked.pointAt leads member) (leads_compress leads rest)
            (ranked.closed node member)

theorem link {winner loser : Node} (winnerRoot : parent winner = winner) (differ : loser ≠ winner)
    (winnerIn : winner ∈ elements) (loserIn : loser ∈ elements) (noLower : rank loser ≤ rank winner) :
    Ranked elements (Function.update parent loser winner)
      (if rank winner = rank loser then Function.update rank winner (rank winner + 1) else rank) where
  closed other inside := by
    by_cases same : other = loser
    · rw [same, Function.update_self]
      exact winnerIn
    · rw [Function.update_of_ne same]
      exact ranked.closed other inside
  outside other out := by
    have kept : other ≠ loser := fun same => out (same ▸ loserIn)
    rw [Function.update_of_ne kept, ranked.outside other out]
  rises other moves := by
    by_cases same : other = loser
    · subst same
      rw [Function.update_self]
      split
      · rw [Function.update_self, Function.update_of_ne differ]
        omega
      · omega
    · rw [Function.update_of_ne same] at moves ⊢
      have rises := ranked.rises other moves
      have notWinner : other ≠ winner := fun isWinner => moves (isWinner ▸ winnerRoot)
      split
      · rw [Function.update_of_ne notWinner]
        by_cases toWinner : parent other = winner
        · rw [toWinner, Function.update_self]
          rw [toWinner] at rises
          omega
        · rwa [Function.update_of_ne toWinner]
      · exact rises

end Ranked

end Ranks

end Foundation.RootedForest
