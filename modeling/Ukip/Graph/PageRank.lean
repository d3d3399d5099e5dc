import Ukip.Foundation.DampedWalk
import Ukip.Foundation.FallibleLoop
import Ukip.Foundation.Fibers
import Ukip.Foundation.OrderBy
import Ukip.Foundation.Quotients

/-!
# PageRank

`pagerank` of `graph_analytics.py` on exact numbers, without the rounding of the scores.  A missing
key and a division by zero make the run fail.  The rounds are those of a damped walk that leaves a
node along its edges, each as likely as the others.
-/

namespace Ukip.Graph.PageRank

open Foundation (SetOrder)
open Foundation.DampedWalk Foundation.FallibleLoop Foundation.Fibers Foundation.Quotients

/-- An item of `EdgeList`. -/
structure Edge (Node : Type) where
  source : Node
  target : Node
  relationType : String
  weight : Rat

/-- A dictionary of ranks. -/
abbrev Ranks (Node : Type) := List (Node × Rat)

section PageRank

variable {Node : Type} [DecidableEq Node]

/-- `nodes` -/
def nodesOf (order : SetOrder Node) (edges : List (Edge Node)) : List Node :=
  order.visit (edges.flatMap fun edge => [edge.source, edge.target]).dedup

/-- `out_neighbors.get(node, [])`, as the edges filled it. -/
def outNeighbors (edges : List (Edge Node)) (node : Node) : List Node :=
  (fiber Edge.source edges node).map Edge.target

/-- `in_neighbors.get(node, [])` -/
def inNeighbors (edges : List (Edge Node)) (node : Node) : List Node :=
  (fiber Edge.target edges node).map Edge.source

section Rounds

variable (nodes : List Node) (edges : List (Edge Node)) (damping : Rat)

def addShare (rank : Ranks Node) (r : Rat) (pred : Node) : Option Rat :=
  if 0 < (outNeighbors edges pred).length then do
    let held ← rank.lookup pred
    let share ← divide (damping * held) ((outNeighbors edges pred).length : Rat)
    some (r + share)
  else some r

def newRank (rank : Ranks Node) (node : Node) : Option (Node × Rat) := do
  let start ← divide (1 - damping) (nodes.length : Rat)
  let r ← (inNeighbors edges node).foldlM (addShare edges damping rank) start
  some (node, r)

/-- `sum(abs(new_rank[n] - rank[n]) for n in nodes)` -/
def difference (newRank rank : Ranks Node) : Option Rat := do
  let changes ← nodes.mapM fun node => do
    let now ← newRank.lookup node
    let before ← rank.lookup node
    some |now - before|
  some changes.sum

def iterate (tol : Rat) : Nat → Ranks Node → Option (Ranks Node)
  | 0, rank => some rank
  | rounds + 1, rank => do
    let next ← nodes.mapM (newRank nodes edges damping rank)
    let diff ← difference nodes next rank
    if diff < tol then some next else iterate tol rounds next

end Rounds

/-- `rank` after the loop. -/
def rawRanks (order : SetOrder Node) (edges : List (Edge Node)) (damping : Rat) (maxIter : Int)
    (tol : Rat) : Option (Ranks Node) := do
  let nodes := nodesOf order edges
  let start ← nodes.mapM fun node => (divide 1 (nodes.length : Rat)).map fun r => (node, r)
  iterate nodes edges damping tol maxIter.toNat start

/-- `total = sum(rank.values()) or 1.0`, and the division by it. -/
def normalise (rank : Ranks Node) : Option (Ranks Node) :=
  let sum := (rank.map Prod.snd).sum
  let total := if sum = 0 then 1 else sum
  rank.mapM fun entry => (divide entry.2 total).map fun score => (entry.1, score)

def pagerank (order : SetOrder Node) (edges : List (Edge Node)) (damping : Rat) (maxIter : Int)
    (tol : Rat) : Option (Ranks Node) :=
  if (nodesOf order edges).length = 0 then some []
  else (rawRanks order edges damping maxIter tol).bind normalise

theorem nodup_nodesOf (order : SetOrder Node) (edges : List (Edge Node)) :
    (nodesOf order edges).Nodup :=
  (order.perm _).nodup_iff.mpr (List.nodup_dedup _)

variable {edges : List (Edge Node)} {order : SetOrder Node} {node : Node}

theorem mem_nodesOf :
    node ∈ nodesOf order edges ↔ ∃ edge ∈ edges, node = edge.source ∨ node = edge.target := by
  rw [nodesOf, (order.perm _).mem_iff, List.mem_dedup, List.mem_flatMap]
  simp

theorem source_mem : ∀ edge ∈ edges, edge.source ∈ nodesOf order edges :=
  fun edge member => mem_nodesOf.mpr ⟨edge, member, .inl rfl⟩

theorem target_mem : ∀ edge ∈ edges, edge.target ∈ nodesOf order edges :=
  fun edge member => mem_nodesOf.mpr ⟨edge, member, .inr rfl⟩

theorem nodesOf_ne_nil (filled : edges ≠ []) : nodesOf order edges ≠ [] := by
  obtain ⟨edge, others, rfl⟩ := List.exists_cons_of_ne_nil filled
  exact List.ne_nil_of_mem (source_mem edge List.mem_cons_self)

theorem out_pos_of_mem_inNeighbors {node pred : Node} (member : pred ∈ inNeighbors edges node) :
    0 < (outNeighbors edges pred).length := by
  obtain ⟨edge, inFiber, rfl⟩ := List.mem_map.mp member
  refine List.length_pos_of_mem (List.mem_map_of_mem (mem_fiber.mpr ⟨?_, rfl⟩))
  exact (mem_fiber.mp inFiber).1

def edgeShare (edges : List (Edge Node)) (from_ into : Node) : Rat :=
  ((fiber Edge.target (fiber Edge.source edges from_) into).length : Rat) /
    ((outNeighbors edges from_).length : Rat)

variable {order : SetOrder Node} {edges : List (Edge Node)}

theorem sum_edgeShare (from_ : Node) :
    ∑ into ∈ (nodesOf order edges).toFinset, edgeShare edges from_ into =
      ((outNeighbors edges from_).length : Rat) / ((outNeighbors edges from_).length : Rat) := by
  have targets : ∀ edge ∈ fiber Edge.source edges from_,
      edge.target ∈ (nodesOf order edges).toFinset :=
    fun edge member => List.mem_toFinset.mpr (target_mem edge (mem_fiber.mp member).1)
  have counted : (∑ into ∈ (nodesOf order edges).toFinset,
      ((fiber Edge.target (fiber Edge.source edges from_) into).length : Rat)) =
        ((outNeighbors edges from_).length : Rat) := by
    rw [outNeighbors, List.length_map, ← sum_length_fiber _ targets, Nat.cast_sum]
  simp only [edgeShare]
  rw [← Finset.sum_div, counted]

theorem substochastic_edgeShare : Substochastic (nodesOf order edges).toFinset (edgeShare edges) where
  nonneg := fun _ _ => div_nonneg (Nat.cast_nonneg _) (Nat.cast_nonneg _)
  given := fun from_ _ => (sum_edgeShare from_).trans_le (div_self_le_one _)

def table (nodes : List Node) (rank : Node → Rat) : Ranks Node :=
  nodes.map fun node => (node, rank node)

variable {nodes : List Node} {rank : Node → Rat}

theorem lookup_table (member : node ∈ nodes) :
    (table nodes rank).lookup node = some (rank node) := by
  induction nodes with
  | nil => cases member
  | cons first others ih =>
    rw [table, List.map_cons, List.lookup_cons]
    by_cases same : node = first
    · subst same
      simp
    · have differ : (node == first) = false := beq_eq_false_iff_ne.mpr same
      rw [differ]
      exact ih ((List.mem_cons.mp member).resolve_left same)

theorem lookup_table_none (absent : node ∉ nodes) :
    (table nodes rank).lookup node = none := by
  rw [List.lookup_eq_none_iff]
  intro entry member
  obtain ⟨other, inside, rfl⟩ := List.mem_map.mp member
  have differ : node ≠ other := fun same => absent (same ▸ inside)
  simpa using differ

theorem sum_table (nodes : List Node) (distinct : nodes.Nodup) (rank : Node → Rat) :
    ((table nodes rank).map Prod.snd).sum = mass nodes.toFinset rank := by
  rw [table, List.map_map, mass, List.sum_toFinset rank distinct]
  rfl

section Walk

variable (damping : Rat) (rank : Node → Rat)

theorem foldlM_addShare (preds : List Node)
    (known : ∀ pred ∈ preds, pred ∈ nodes ∧ 0 < (outNeighbors edges pred).length) (r : Rat) :
    preds.foldlM (addShare edges damping (table nodes rank)) r =
      some (r + (preds.map fun pred =>
        damping * rank pred / ((outNeighbors edges pred).length : Rat)).sum) := by
  induction preds generalizing r with
  | nil => simp
  | cons pred rest ih =>
    obtain ⟨inside, leaves⟩ := known pred List.mem_cons_self
    have nonzero : ((outNeighbors edges pred).length : Rat) ≠ 0 := by exact_mod_cast leaves.ne'
    have first : addShare edges damping (table nodes rank) r pred =
        some (r + damping * rank pred / ((outNeighbors edges pred).length : Rat)) := by
      rw [addShare, if_pos leaves, lookup_table inside, Option.bind_eq_bind, Option.bind_some,
        divide_of_ne_zero _ nonzero]
      rfl
    have later := ih (fun other member => known other (List.mem_cons_of_mem pred member))
    rw [List.foldlM_cons, first, Option.bind_eq_bind, Option.bind_some, later, List.map_cons,
      List.sum_cons, add_assoc]

theorem sum_inNeighbors (node : Node) :
    ((inNeighbors edges node).map fun pred =>
        damping * rank pred / ((outNeighbors edges pred).length : Rat)).sum =
      damping * ∑ from_ ∈ (nodesOf order edges).toFinset, rank from_ * edgeShare edges from_ node := by
  have sources : ∀ edge ∈ fiber Edge.target edges node,
      edge.source ∈ (nodesOf order edges).toFinset :=
    fun edge member => List.mem_toFinset.mpr (source_mem edge (mem_fiber.mp member).1)
  have swapped : ∀ from_, fiber Edge.source (fiber Edge.target edges node) from_ =
      fiber Edge.target (fiber Edge.source edges from_) node := fun _ => List.filter_comm _ _ _
  rw [inNeighbors, List.map_map]
  refine (sum_map_key _ (fun pred =>
    damping * rank pred / ((outNeighbors edges pred).length : Rat)) sources).trans ?_
  rw [Finset.mul_sum]
  refine Finset.sum_congr rfl fun from_ _ => ?_
  rw [swapped, edgeShare, nsmul_eq_mul]
  ring

theorem card_nodes (order : SetOrder Node) (edges : List (Edge Node)) :
    (nodesOf order edges).toFinset.card = (nodesOf order edges).length :=
  List.toFinset_card_of_nodup (nodup_nodesOf order edges)

variable (filled : edges ≠ [])
include filled

theorem length_ne_zero : ((nodesOf order edges).length : Rat) ≠ 0 := by
  rw [Nat.cast_ne_zero, ne_eq, List.length_eq_zero_iff]
  exact nodesOf_ne_nil filled

theorem newRank_table (node : Node) :
    newRank (nodesOf order edges) edges damping (table (nodesOf order edges) rank) node =
      some (node, step (nodesOf order edges).toFinset (edgeShare edges) damping rank node) := by
  have known : ∀ pred ∈ inNeighbors edges node,
      pred ∈ nodesOf order edges ∧ 0 < (outNeighbors edges pred).length := by
    intro pred member
    refine ⟨?_, out_pos_of_mem_inNeighbors member⟩
    obtain ⟨edge, inFiber, rfl⟩ := List.mem_map.mp member
    exact source_mem edge (mem_fiber.mp inFiber).1
  simp only [newRank, divide_of_ne_zero _ (length_ne_zero filled), Option.bind_eq_bind,
    Option.bind_some, foldlM_addShare damping rank _ known, @sum_inNeighbors _ _ order, step,
    card_nodes]

omit filled in
theorem difference_table (nodes : List Node) (distinct : nodes.Nodup) (now before : Node → Rat) :
    difference nodes (table nodes now) (table nodes before) = some (gap nodes.toFinset now before) := by
  have changes : nodes.mapM (fun node => do
      let now ← (table nodes now).lookup node
      let before ← (table nodes before).lookup node
      some |now - before|) = some (nodes.map fun node => |now node - before node|) := by
    refine mapM_eq_some_map nodes fun node member => ?_
    rw [lookup_table member, lookup_table member]
    rfl
  rw [difference, changes, gap, List.sum_toFinset _ distinct]
  rfl

theorem iterate_table (tol : Rat) (rounds : Nat) :
    iterate (nodesOf order edges) edges damping tol rounds (table (nodesOf order edges) rank) =
      some (table (nodesOf order edges)
        (settle (nodesOf order edges).toFinset (edgeShare edges) damping tol rounds rank)) := by
  induction rounds generalizing rank with
  | zero => rfl
  | succ rounds ih =>
    have next : (nodesOf order edges).mapM (newRank (nodesOf order edges) edges damping
        (table (nodesOf order edges) rank)) = some (table (nodesOf order edges)
          (step (nodesOf order edges).toFinset (edgeShare edges) damping rank)) :=
      mapM_eq_some_map _ fun node _ => newRank_table damping rank filled node
    rw [iterate, next, settle_succ]
    simp only [Option.bind_eq_bind, Option.bind_some,
      difference_table _ (nodup_nodesOf order edges)]
    split
    · rfl
    · exact ih _

end Walk

def rawRank (order : SetOrder Node) (edges : List (Edge Node)) (damping : Rat) (maxIter : Int)
    (tol : Rat) : Node → Rat :=
  settle (nodesOf order edges).toFinset (edgeShare edges) damping tol maxIter.toNat
    fun _ => 1 / ((nodesOf order edges).toFinset.card : Rat)

def score (order : SetOrder Node) (edges : List (Edge Node)) (damping : Rat) (maxIter : Int)
    (tol : Rat) (node : Node) : Rat :=
  rawRank order edges damping maxIter tol node /
    mass (nodesOf order edges).toFinset (rawRank order edges damping maxIter tol)

theorem normalise_table (distinct : nodes.Nodup) (positive : 0 < mass nodes.toFinset rank) :
    normalise (table nodes rank) =
      some (table nodes fun node => rank node / mass nodes.toFinset rank) := by
  have scores : (table nodes rank).mapM (fun entry =>
      (divide entry.2 (mass nodes.toFinset rank)).map fun score => (entry.1, score)) =
        some ((table nodes rank).map fun entry => (entry.1, entry.2 / mass nodes.toFinset rank)) := by
    refine mapM_eq_some_map _ fun entry _ => ?_
    rw [divide_of_ne_zero _ positive.ne']
    rfl
  simp only [normalise, sum_table nodes distinct, if_neg positive.ne', scores]
  rw [table, List.map_map]
  rfl

section Results

variable {damping tol : Rat} {maxIter : Int} (filled : edges ≠ [])
include filled

theorem nodes_nonempty : (nodesOf order edges).toFinset.Nonempty := by
  rw [List.toFinset_nonempty_iff]
  exact nodesOf_ne_nil filled

theorem rawRanks_eq : rawRanks order edges damping maxIter tol =
    some (table (nodesOf order edges) (rawRank order edges damping maxIter tol)) := by
  have start : (nodesOf order edges).mapM (fun node =>
      (divide 1 ((nodesOf order edges).length : Rat)).map fun r => (node, r)) =
        some (table (nodesOf order edges) fun _ =>
          1 / ((nodesOf order edges).toFinset.card : Rat)) := by
    refine mapM_eq_some_map _ fun node _ => ?_
    rw [divide_of_ne_zero _ (length_ne_zero filled), card_nodes]
    rfl
  rw [rawRanks, start]
  exact iterate_table damping _ filled tol maxIter.toNat

section Damped

variable (nonneg : 0 ≤ damping) (proper : damping < 1)
include nonneg proper

theorem rawRank_proper :
    Proper (nodesOf order edges).toFinset damping (rawRank order edges damping maxIter tol) := by
  obtain ⟨rounds, walked⟩ := settle_eq_iterate (nodesOf order edges).toFinset (edgeShare edges)
    damping tol maxIter.toNat fun _ => 1 / ((nodesOf order edges).toFinset.card : Rat)
  rw [rawRank, walked]
  exact (uniform_proper nonneg (nodes_nonempty filled)).iterate nonneg proper
    substochastic_edgeShare (nodes_nonempty filled) rounds

theorem mass_pos :
    0 < mass (nodesOf order edges).toFinset (rawRank order edges damping maxIter tol) :=
  Finset.sum_pos (fun _ member => (rawRank_proper filled nonneg proper).rank_pos proper member)
    (nodes_nonempty filled)

theorem pagerank_eq : pagerank order edges damping maxIter tol =
    some (table (nodesOf order edges) (score order edges damping maxIter tol)) := by
  have some_node : (nodesOf order edges).length ≠ 0 := by
    rw [ne_eq, List.length_eq_zero_iff]
    exact nodesOf_ne_nil filled
  rw [pagerank, if_neg some_node, rawRanks_eq filled, Option.bind_some]
  exact normalise_table (nodup_nodesOf order edges) (mass_pos filled nonneg proper)

theorem mass_score : mass (nodesOf order edges).toFinset (score order edges damping maxIter tol) = 1 := by
  simp only [mass, score]
  rw [← Finset.sum_div]
  exact div_self (mass_pos filled nonneg proper).ne'

end Damped

theorem rawRank_mass_one (leaves : ∀ node ∈ nodesOf order edges, outNeighbors edges node ≠ []) :
    mass (nodesOf order edges).toFinset (rawRank order edges damping maxIter tol) = 1 := by
  obtain ⟨rounds, walked⟩ := settle_eq_iterate (nodesOf order edges).toFinset (edgeShare edges)
    damping tol maxIter.toNat fun _ => 1 / ((nodesOf order edges).toFinset.card : Rat)
  rw [rawRank, walked]
  refine mass_iterate_eq_one (nodes_nonempty filled) ?_ (uniform_mass (nodes_nonempty filled)) rounds
  intro from_ member
  rw [sum_edgeShare, div_self]
  rw [Nat.cast_ne_zero, ne_eq, List.length_eq_zero_iff]
  exact leaves from_ (List.mem_toFinset.mp member)

end Results

end PageRank

section Relabel

variable {Node Other : Type} [DecidableEq Node] [DecidableEq Other]

def relabel (rename : Node → Other) (edge : Edge Node) : Edge Other :=
  ⟨rename edge.source, rename edge.target, edge.relationType, edge.weight⟩

variable {rename : Node → Other} (injective : Function.Injective rename)
  {order : SetOrder Node} {edges : List (Edge Node)}
  {otherOrder : SetOrder Other} {others : List (Edge Other)}
  (same : others.Perm (edges.map (relabel rename)))
include injective same

theorem fiber_source_perm (node : Node) :
    (fiber Edge.source others (rename node)).Perm
      ((fiber Edge.source edges node).map (relabel rename)) := by
  rw [← fiber_map injective fun edge => (rfl : (relabel rename edge).source = rename edge.source)]
  exact fiber_perm same

theorem edgeShare_relabel (from_ into : Node) :
    edgeShare others (rename from_) (rename into) = edgeShare edges from_ into := by
  have leaving := fiber_source_perm injective same from_
  have arriving : (fiber Edge.target (fiber Edge.source others (rename from_)) (rename into)).Perm
      ((fiber Edge.target (fiber Edge.source edges from_) into).map (relabel rename)) := by
    rw [← fiber_map injective fun edge => (rfl : (relabel rename edge).target = rename edge.target)]
    exact fiber_perm leaving
  rw [edgeShare, edgeShare, arriving.length_eq, List.length_map, outNeighbors, outNeighbors,
    List.length_map, List.length_map, leaving.length_eq, List.length_map]

omit [DecidableEq Node] [DecidableEq Other] injective in
theorem mem_others (other : Edge Other) :
    other ∈ others ↔ ∃ edge ∈ edges, relabel rename edge = other := by
  rw [same.mem_iff, List.mem_map]

omit injective in
theorem mem_nodesOf_relabel (other : Other) :
    other ∈ nodesOf otherOrder others ↔ ∃ node ∈ nodesOf order edges, rename node = other := by
  simp only [mem_nodesOf, mem_others same]
  constructor
  · rintro ⟨_, ⟨edge, member, rfl⟩, rfl | rfl⟩
    · exact ⟨edge.source, ⟨edge, member, .inl rfl⟩, rfl⟩
    · exact ⟨edge.target, ⟨edge, member, .inr rfl⟩, rfl⟩
  · rintro ⟨node, ⟨edge, member, rfl | rfl⟩, rfl⟩
    · exact ⟨_, ⟨edge, member, rfl⟩, .inl rfl⟩
    · exact ⟨_, ⟨edge, member, rfl⟩, .inr rfl⟩

theorem nodes_relabel : (nodesOf otherOrder others).toFinset =
    (nodesOf order edges).toFinset.map ⟨rename, injective⟩ := by
  ext other
  rw [List.mem_toFinset, @mem_nodesOf_relabel _ _ _ _ _ order _ _ _ same, Finset.mem_map]
  simp

theorem rawRank_relabel (damping : Rat) (maxIter : Int) (tol : Rat) {node : Node}
    (member : node ∈ nodesOf order edges) :
    rawRank otherOrder others damping maxIter tol (rename node) =
      rawRank order edges damping maxIter tol node := by
  rw [rawRank, rawRank, @nodes_relabel _ _ _ _ _ injective order edges otherOrder others same,
    Finset.card_map]
  refine settle_rename ⟨rename, injective⟩ ?_ (fun _ _ => rfl) tol maxIter.toNat
    (List.mem_toFinset.mpr member)
  exact fun from_ _ into _ => edgeShare_relabel injective same from_ into

theorem score_relabel (damping : Rat) (maxIter : Int) (tol : Rat) {node : Node}
    (member : node ∈ nodesOf order edges) :
    score otherOrder others damping maxIter tol (rename node) =
      score order edges damping maxIter tol node := by
  have masses : mass (nodesOf otherOrder others).toFinset (rawRank otherOrder others damping maxIter tol) =
      mass (nodesOf order edges).toFinset (rawRank order edges damping maxIter tol) := by
    rw [mass, @nodes_relabel _ _ _ _ _ injective order edges otherOrder others same, Finset.sum_map]
    exact Finset.sum_congr rfl fun node inside =>
      rawRank_relabel injective same damping maxIter tol (List.mem_toFinset.mp inside)
  rw [score, score, rawRank_relabel injective same damping maxIter tol member, masses]

theorem pagerank_relabel {damping : Rat} (maxIter : Int) (tol : Rat) (filled : edges ≠ [])
    (nonneg : 0 ≤ damping) (proper : damping < 1) :
    ∃ scores, pagerank otherOrder others damping maxIter tol = some scores ∧
      ∀ node, scores.lookup (rename node) =
        (table (nodesOf order edges) (score order edges damping maxIter tol)).lookup node := by
  have othersFilled : others ≠ [] := by
    rintro rfl
    exact filled (List.map_eq_nil_iff.mp (List.nil_perm.mp same))
  refine ⟨_, pagerank_eq othersFilled nonneg proper, fun node => ?_⟩
  by_cases member : node ∈ nodesOf order edges
  · have renamed : rename node ∈ nodesOf otherOrder others :=
      (mem_nodesOf_relabel same _).mpr ⟨node, member, rfl⟩
    rw [lookup_table member, lookup_table renamed,
      score_relabel injective same damping maxIter tol member]
  · have absent : rename node ∉ nodesOf otherOrder others := by
      intro inside
      obtain ⟨known, inNodes, sameName⟩ := (@mem_nodesOf_relabel _ _ _ _ _ order _ _ _ same _).mp inside
      exact member (injective sameName ▸ inNodes)
    rw [lookup_table_none member, lookup_table_none absent]

end Relabel

/-- PageRank divides by zero nowhere.  The raw ranks keep the part of the fresh starts and sum to at
most one, to one if every node can be left; the scores sum to one; and neither the order of the
edges nor the names of the nodes matter. -/
theorem pagerank_distribution {Node : Type} [DecidableEq Node] (order : SetOrder Node)
    (edges : List (Edge Node)) (damping : Rat) (maxIter : Int) (tol : Rat) (filled : edges ≠ [])
    (nonneg : 0 ≤ damping) (proper : damping < 1) :
    ∃ raw scores, rawRanks order edges damping maxIter tol = some raw ∧
      pagerank order edges damping maxIter tol = some scores ∧
      raw.map Prod.fst = nodesOf order edges ∧ scores.map Prod.fst = nodesOf order edges ∧
      (∀ entry ∈ raw, (1 - damping) / ((nodesOf order edges).length : Rat) ≤ entry.2) ∧
      (raw.map Prod.snd).sum ≤ 1 ∧
      ((∀ node ∈ nodesOf order edges, outNeighbors edges node ≠ []) → (raw.map Prod.snd).sum = 1) ∧
      (scores.map Prod.snd).sum = 1 ∧
      (∀ (otherOrder : SetOrder Node) (others : List (Edge Node)), others.Perm edges →
        ∃ otherScores, pagerank otherOrder others damping maxIter tol = some otherScores ∧
          ∀ node, otherScores.lookup node = scores.lookup node) ∧
      ∀ (Other : Type) [DecidableEq Other] (rename : Node → Other), Function.Injective rename →
        ∀ otherOrder : SetOrder Other,
          ∃ otherScores, pagerank otherOrder (edges.map (relabel rename)) damping maxIter tol =
              some otherScores ∧
            ∀ node, otherScores.lookup (rename node) = scores.lookup node := by
  have distinct := nodup_nodesOf order edges
  have keys : ∀ rank : Node → Rat, (table (nodesOf order edges) rank).map Prod.fst =
      nodesOf order edges := by
    intro rank
    rw [table, List.map_map]
    exact List.map_id' _
  have walked : Proper (nodesOf order edges).toFinset damping
      (rawRank order edges damping maxIter tol) := rawRank_proper filled nonneg proper
  refine ⟨_, _, rawRanks_eq filled, pagerank_eq filled nonneg proper, keys _, keys _, ?_, ?_, ?_, ?_,
    ?_, ?_⟩
  · intro entry member
    obtain ⟨node, inside, rfl⟩ := List.mem_map.mp member
    rw [← card_nodes]
    exact walked.floor node (List.mem_toFinset.mpr inside)
  · rw [sum_table _ distinct]
    exact walked.bounded
  · intro leaves
    rw [sum_table _ distinct]
    exact rawRank_mass_one filled leaves
  · rw [sum_table _ distinct]
    exact mass_score filled nonneg proper
  · intro otherOrder others perm
    have unnamed : edges.map (relabel id) = edges := List.map_id' edges
    exact pagerank_relabel Function.injective_id (unnamed.symm ▸ perm) maxIter tol filled nonneg proper
  · intro Other _ rename injective otherOrder
    exact pagerank_relabel injective (List.Perm.refl _) maxIter tol filled nonneg proper

/-- Three papers, one of them cited twice by the same and one that cites nothing. -/
theorem pagerank_distribution_papers :
    ∃ scores, pagerank ⟨id, fun _ => List.Perm.refl _⟩
        ([⟨1, 2, "cites", 1⟩, ⟨1, 2, "cites", 1⟩, ⟨2, 3, "cites", 1⟩] : List (Edge Nat)) (85 / 100) 100
        (1 / 10 ^ 6) = some scores ∧ (scores.map Prod.snd).sum = 1 := by
  obtain ⟨_, scores, _, found, _, _, _, _, _, one, _⟩ :=
    pagerank_distribution ⟨id, fun _ => List.Perm.refl _⟩
      ([⟨1, 2, "cites", 1⟩, ⟨1, 2, "cites", 1⟩, ⟨2, 3, "cites", 1⟩] : List (Edge Nat)) (85 / 100) 100
      (1 / 10 ^ 6) (by simp) (by norm_num) (by norm_num)
  exact ⟨scores, found, one⟩

end Ukip.Graph.PageRank
