import Ukip.Foundation.BreadthFirst
import Ukip.Graph.PageRank

/-!
# Shortest path

`shortest_path` of `graph_analytics.py`: a breadth-first search along directed edges.
-/

namespace Ukip.Graph.ShortestPath

open Foundation.BreadthFirst
open Graph.PageRank (Edge)

variable {Node : Type} [DecidableEq Node]

structure PathResult (Node : Type) where
  path : List Node
  relations : List String
  length : Nat

/-- `adj.get(curr, [])` -/
def adjacent (edges : List (Edge Node)) (curr : Node) : List (Node × String) :=
  (edges.filter fun edge => edge.source = curr).map fun edge => (edge.target, edge.relationType)

def adjacency (edges : List (Edge Node)) : Foundation.BreadthFirst.Graph Node String where
  next := adjacent edges
  nodes := (edges.map Edge.target).toFinset
  next_mem := by
    intro node arc member
    obtain ⟨edge, found, rfl⟩ := List.mem_map.mp member
    exact List.mem_toFinset.mpr (List.mem_map_of_mem (List.mem_filter.mp found).1)

def shortestPath (source target : Node) (edges : List (Edge Node)) : Option (PathResult Node) :=
  if source = target then some ⟨[source], [], 0⟩
  else (search (adjacency edges) target {source} [⟨source, [source], []⟩]).map fun found =>
    ⟨found.path, found.labels, found.path.length - 1⟩

/-- A directed path with the relation types of its edges. -/
inductive Path (edges : List (Edge Node)) (source : Node) : Node → List Node → List String → Prop where
  | start : Path edges source source [source] []
  | extend {node : Node} {path : List Node} {relations : List String}
      (before : Path edges source node path relations) (edge : Edge Node) (edgeIn : edge ∈ edges)
      (leaves : edge.source = node) :
      Path edges source edge.target (path ++ [edge.target]) (relations ++ [edge.relationType])

def Reachable (edges : List (Edge Node)) : Node → Node → Prop :=
  Relation.ReflTransGen fun from_ into => ∃ edge ∈ edges, edge.source = from_ ∧ edge.target = into

variable {edges : List (Edge Node)} {source target : Node}

omit [DecidableEq Node] in
theorem reachable_iff_exists_path :
    Reachable edges source target ↔ ∃ path relations, Path edges source target path relations := by
  constructor
  · intro reaches
    induction reaches with
    | refl => exact ⟨_, _, .start⟩
    | tail _ step ih =>
      obtain ⟨path, relations, before⟩ := ih
      obtain ⟨edge, edgeIn, leaves, rfl⟩ := step
      exact ⟨_, _, before.extend edge edgeIn leaves⟩
  · rintro ⟨path, relations, route⟩
    induction route with
    | start => exact .refl
    | extend before edge edgeIn leaves ih => exact ih.tail ⟨edge, edgeIn, leaves, rfl⟩

theorem walk_iff_path {path : List Node} {relations : List String} :
    Walk (adjacency edges).next source target path relations ↔ Path edges source target path relations := by
  constructor <;> intro route
  · induction route with
    | start => exact .start
    | extend walk arc arcIn ih =>
      obtain ⟨edge, found, rfl⟩ := List.mem_map.mp arcIn
      obtain ⟨edgeIn, leaves⟩ := List.mem_filter.mp found
      exact ih.extend edge edgeIn (of_decide_eq_true leaves)
  · induction route with
    | start => exact .start
    | extend before edge edgeIn leaves ih =>
      exact ih.extend (edge.target, edge.relationType) (List.mem_map.mpr
        ⟨edge, List.mem_filter.mpr ⟨edgeIn, decide_eq_true leaves⟩, rfl⟩)

/-- A path without repeated nodes, and no longer than any other to the same node. -/
def Shortest (edges : List (Edge Node)) (source target : Node) (result : PathResult Node) : Prop :=
  Path edges source target result.path result.relations ∧ result.path.Nodup ∧
    result.length = result.relations.length ∧
    ∀ path relations, Path edges source target path relations → result.length ≤ relations.length

theorem shortestPath_shortest (source target : Node) (edges : List (Edge Node)) :
    (shortestPath source target edges = none ↔ ¬ Reachable edges source target) ∧
      ∀ result, shortestPath source target edges = some result → Shortest edges source target result := by
  unfold shortestPath
  split
  · next same =>
      subst same
      refine ⟨iff_of_false nofun fun never => never .refl, ?_⟩
      rintro _ ⟨⟩
      exact ⟨.start, List.nodup_singleton source, rfl, fun _ _ _ => Nat.zero_le _⟩
  · next different =>
      have start : Layered (adjacency edges) source target {source} [⟨source, [source], []⟩] :=
        layered_start different
      have spec := search_spec start
      simp only [walk_iff_path] at spec
      rw [reachable_iff_exists_path]
      split at spec
      · next missed =>
          rw [missed]
          exact ⟨iff_of_true rfl fun ⟨path, relations, route⟩ => spec path relations route, nofun⟩
      · next found hit =>
          obtain ⟨route, nodup, least⟩ := spec
          have long : found.path.length - 1 = found.labels.length := by
            rw [(walk_iff_path.mpr route).length_path, Nat.add_sub_cancel]
          rw [hit]
          refine ⟨iff_of_false nofun fun never => never ⟨_, _, route⟩, ?_⟩
          rintro _ ⟨⟩
          exact ⟨route, nodup, long, fun path relations other => long.le.trans (least path relations other)⟩

end Ukip.Graph.ShortestPath
