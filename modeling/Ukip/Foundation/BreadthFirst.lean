import Mathlib.Data.Finset.Card

/-!
# Breadth-first search

A queue of walks over labelled arcs.  Nodes are marked when they are discovered, and the search
stops at the first discovery of the target.
-/

namespace Foundation.BreadthFirst

variable {Node Label : Type}

structure Graph (Node Label : Type) where
  next : Node → List (Node × Label)
  nodes : Finset Node
  next_mem : ∀ node, ∀ arc ∈ next node, arc.1 ∈ nodes

structure Item (Node Label : Type) where
  node : Node
  path : List Node
  labels : List Label

def Item.extend (item : Item Node Label) (arc : Node × Label) : Item Node Label :=
  ⟨arc.1, item.path ++ [arc.1], item.labels ++ [arc.2]⟩

/-- The nodes and the labels of a walk, from its source to its last node. -/
inductive Walk (next : Node → List (Node × Label)) (source : Node) :
    Node → List Node → List Label → Prop where
  | start : Walk next source source [source] []
  | extend {node : Node} {path : List Node} {labels : List Label} (walk : Walk next source node path labels)
      (arc : Node × Label) (arcIn : arc ∈ next node) :
      Walk next source arc.1 (path ++ [arc.1]) (labels ++ [arc.2])

variable {labels : List Label} {path : List Node}

theorem Walk.length_path {next : Node → List (Node × Label)} {source node : Node}
    (walk : Walk next source node path labels) : path.length = labels.length + 1 := by
  induction walk with
  | start => rfl
  | extend walk arc arcIn ih => rw [List.length_append, List.length_append, ih]; rfl

/-- The state between two rounds: a node is marked with its shortest walk, and only nodes in the
queue have unmarked neighbours. -/
structure Layered (graph : Graph Node Label) (source target : Node) (visited : Finset Node)
    (queue : List (Item Node Label)) : Prop where
  source_mem : source ∈ visited
  target_notMem : target ∉ visited
  walks : ∀ item ∈ queue, Walk graph.next source item.node item.path item.labels ∧
    item.path.Nodup ∧ ∀ node ∈ item.path, node ∈ visited
  least : ∀ item ∈ queue, ∀ path labels, Walk graph.next source item.node path labels →
    item.labels.length ≤ labels.length
  closed : ∀ node ∈ visited, (∃ item ∈ queue, item.node = node) ∨
    ∀ arc ∈ graph.next node, arc.1 ∈ visited
  sorted : queue.Pairwise fun first second => first.labels.length ≤ second.labels.length
  level : ∀ first ∈ queue, ∀ second ∈ queue, first.labels.length ≤ second.labels.length + 1

variable {graph : Graph Node Label} {source target : Node} {visited : Finset Node}
  {item : Item Node Label} {queue : List (Item Node Label)}

theorem layered_start (different : source ≠ target) :
    Layered graph source target {source} [⟨source, [source], []⟩] where
  source_mem := Finset.mem_singleton_self source
  target_notMem := fun same => different (Finset.mem_singleton.mp same).symm
  walks := by simpa using Walk.start
  least := by simp
  closed := by simp
  sorted := List.pairwise_singleton _ _
  level := by simp

/-- A walk to an unmarked node passes a queued item that it cannot overtake. -/
theorem Layered.frontier (layered : Layered graph source target visited queue) {node : Node}
    (walk : Walk graph.next source node path labels) (unseen : node ∉ visited) :
    ∃ item ∈ queue, item.labels.length + 1 ≤ labels.length := by
  induction walk with
  | start => exact absurd layered.source_mem unseen
  | @extend node path labels walk arc arcIn ih =>
    rw [List.length_append, List.length_singleton]
    by_cases seen : node ∈ visited
    · rcases layered.closed node seen with ⟨item, queued, rfl⟩ | passed
      · exact ⟨item, queued, Nat.succ_le_succ (layered.least item queued path labels walk)⟩
      · exact absurd (passed arc arcIn) unseen
    · obtain ⟨item, queued, short⟩ := ih seen
      exact ⟨item, queued, Nat.le_succ_of_le short⟩

theorem Layered.head_frontier (layered : Layered graph source target visited (item :: queue))
    {node : Node} (walk : Walk graph.next source node path labels) (unseen : node ∉ visited) :
    item.labels.length + 1 ≤ labels.length := by
  obtain ⟨other, queued, short⟩ := layered.frontier walk unseen
  rcases List.mem_cons.mp queued with rfl | later
  · exact short
  · exact (Nat.succ_le_succ ((List.pairwise_cons.mp layered.sorted).1 other later)).trans short

theorem Layered.extend_walk (layered : Layered graph source target visited (item :: queue))
    {arc : Node × Label} (arcIn : arc ∈ graph.next item.node) (unseen : arc.1 ∉ visited) :
    Walk graph.next source arc.1 (item.extend arc).path (item.extend arc).labels ∧
      (item.extend arc).path.Nodup := by
  obtain ⟨walk, nodup, inside⟩ := layered.walks item List.mem_cons_self
  refine ⟨walk.extend arc arcIn, List.nodup_append.mpr ⟨nodup, List.nodup_singleton _, ?_⟩⟩
  rintro node member _ last rfl
  exact unseen (List.mem_singleton.mp last ▸ inside node member)

variable [DecidableEq Node]

/-- The target ends the loop over the neighbours; otherwise the nodes marked and queued. -/
def scan (target : Node) (item : Item Node Label) :
    List (Node × Label) → Finset Node → Except (Item Node Label) (Finset Node × List (Item Node Label))
  | [], visited => .ok (visited, [])
  | arc :: rest, visited =>
    if arc.1 ∈ visited then scan target item rest visited
    else if arc.1 = target then .error (item.extend arc)
    else match scan target item rest (insert arc.1 visited) with
      | .error found => .error found
      | .ok (marked, queued) => .ok (marked, item.extend arc :: queued)

/-- What a completed loop over the neighbours leaves. -/
structure Scanned (target : Node) (item : Item Node Label) (arcs : List (Node × Label))
    (visited marked : Finset Node) (queued : List (Item Node Label)) : Prop where
  keeps : visited ⊆ marked
  covers : ∀ arc ∈ arcs, arc.1 ∈ marked
  spares : target ∉ visited → target ∉ marked
  discovers : ∀ node ∈ marked, node ∈ visited ∨ ∃ new ∈ queued, new.node = node
  extends_ : ∀ new ∈ queued, ∃ arc ∈ arcs, new = item.extend arc ∧ arc.1 ∉ visited ∧ arc.1 ∈ marked
  fits : ∀ nodes : Finset Node, (∀ arc ∈ arcs, arc.1 ∈ nodes) →
    (nodes \ marked).card + queued.length ≤ (nodes \ visited).card

variable {queued : List (Item Node Label)} {arcs : List (Node × Label)}

theorem scan_ok {marked : Finset Node}
    (scanned : scan target item arcs visited = .ok (marked, queued)) :
    Scanned target item arcs visited marked queued := by
  induction arcs generalizing visited marked queued with
  | nil =>
    obtain ⟨rfl, rfl⟩ : visited = marked ∧ [] = queued := by simpa [scan] using scanned
    exact ⟨subset_rfl, nofun, id, fun node member => .inl member, nofun, fun _ _ => le_rfl⟩
  | cons arc rest ih =>
    rw [scan] at scanned
    split at scanned
    · next seen =>
        have tail := ih scanned
        refine ⟨tail.keeps, List.forall_mem_cons.mpr ⟨tail.keeps seen, tail.covers⟩, tail.spares,
          tail.discovers, fun new member => ?_, fun nodes inside => tail.fits nodes fun other member =>
            inside other (List.mem_cons_of_mem arc member)⟩
        obtain ⟨other, otherIn, shown⟩ := tail.extends_ new member
        exact ⟨other, List.mem_cons_of_mem arc otherIn, shown⟩
    · next unseen =>
        split at scanned
        · cases scanned
        next other =>
          split at scanned
          · cases scanned
          next marked queued inner =>
            cases scanned
            have tail := ih inner
            have arcMarked := tail.keeps (Finset.mem_insert_self arc.1 visited)
            refine ⟨fun node member => tail.keeps (Finset.mem_insert_of_mem member),
              List.forall_mem_cons.mpr ⟨arcMarked, tail.covers⟩, fun absent => tail.spares ?_,
              fun node member => ?_, List.forall_mem_cons.mpr
                ⟨⟨arc, List.mem_cons_self, rfl, unseen, arcMarked⟩, fun new member => ?_⟩,
              fun nodes inside => ?_⟩
            · exact fun member => (Finset.mem_insert.mp member).elim (fun same => other same.symm) absent
            · rcases tail.discovers node member with before | ⟨new, newIn, shown⟩
              · refine (Finset.mem_insert.mp before).elim (fun same => .inr ?_) .inl
                exact ⟨_, List.mem_cons_self, same.symm⟩
              · exact .inr ⟨new, List.mem_cons_of_mem _ newIn, shown⟩
            · obtain ⟨later, laterIn, shown, fresh, reached⟩ := tail.extends_ new member
              exact ⟨later, List.mem_cons_of_mem arc laterIn, shown,
                fun old => fresh (Finset.mem_insert_of_mem old), reached⟩
            · have bound := tail.fits nodes fun later member =>
                inside later (List.mem_cons_of_mem arc member)
              have drops := Finset.card_erase_add_one
                (Finset.mem_sdiff.mpr ⟨inside arc List.mem_cons_self, unseen⟩)
              rw [Finset.sdiff_insert] at bound
              rw [List.length_cons]
              omega

theorem scan_error {found : Item Node Label}
    (scanned : scan target item arcs visited = .error found) :
    target ∉ visited ∧ ∃ arc ∈ arcs, arc.1 = target ∧ found = item.extend arc := by
  induction arcs generalizing visited with
  | nil => cases scanned
  | cons arc rest ih =>
    have later (shown : ∃ other ∈ rest, other.1 = target ∧ found = item.extend other) :
        ∃ other ∈ arc :: rest, other.1 = target ∧ found = item.extend other :=
      shown.imp fun other meets => ⟨List.mem_cons_of_mem arc meets.1, meets.2⟩
    rw [scan] at scanned
    split at scanned
    · exact (ih scanned).imp_right later
    · next unseen =>
        split at scanned
        · next isTarget =>
            cases scanned
            exact ⟨isTarget ▸ unseen, arc, List.mem_cons_self, isTarget, rfl⟩
        · split at scanned
          · next inner =>
              cases scanned
              exact (ih inner).imp (fun absent old => absent (Finset.mem_insert_of_mem old)) later
          · cases scanned

def search (graph : Graph Node Label) (target : Node) (visited : Finset Node) :
    List (Item Node Label) → Option (Item Node Label)
  | [] => none
  | item :: rest =>
    match scanned : scan target item (graph.next item.node) visited with
    | .error found => some found
    | .ok (marked, queued) => search graph target marked (rest ++ queued)
  termination_by queue => (graph.nodes \ visited).card + queue.length
  decreasing_by
    have bound := (scan_ok scanned).fits graph.nodes (graph.next_mem item.node)
    rw [List.length_append, List.length_cons]
    omega

theorem Layered.step (layered : Layered graph source target visited (item :: queue))
    {marked : Finset Node}
    (scanned : Scanned target item (graph.next item.node) visited marked queued) :
    Layered graph source target marked (queue ++ queued) := by
  have lengths : ∀ new ∈ queued, new.labels.length = item.labels.length + 1 := by
    intro new member
    obtain ⟨arc, _, rfl, _⟩ := scanned.extends_ new member
    exact List.length_append
  have ahead := (List.pairwise_cons.mp layered.sorted).1
  have behind : ∀ other ∈ queue, other.labels.length ≤ item.labels.length + 1 := fun other member =>
    layered.level other (List.mem_cons_of_mem item member) item List.mem_cons_self
  refine ⟨scanned.keeps layered.source_mem, scanned.spares layered.target_notMem, ?_, ?_, ?_, ?_, ?_⟩
  · refine List.forall_mem_append.mpr ⟨fun other member => ?_, fun new member => ?_⟩
    · obtain ⟨walk, nodup, inside⟩ := layered.walks other (List.mem_cons_of_mem item member)
      exact ⟨walk, nodup, fun node onPath => scanned.keeps (inside node onPath)⟩
    · obtain ⟨arc, arcIn, rfl, unseen, reached⟩ := scanned.extends_ new member
      obtain ⟨walk, nodup⟩ := layered.extend_walk arcIn unseen
      refine ⟨walk, nodup, List.forall_mem_append.mpr ⟨fun node onPath => ?_, by simpa using reached⟩⟩
      exact scanned.keeps ((layered.walks item List.mem_cons_self).2.2 node onPath)
  · refine List.forall_mem_append.mpr ⟨fun other member =>
      layered.least other (List.mem_cons_of_mem item member), fun new member path labels walk => ?_⟩
    obtain ⟨arc, _, rfl, unseen, _⟩ := scanned.extends_ new member
    rw [lengths _ member]
    exact layered.head_frontier walk unseen
  · intro node member
    rcases scanned.discovers node member with old | ⟨new, newIn, shown⟩
    · rcases layered.closed node old with ⟨other, queuedIn, rfl⟩ | passed
      · rcases List.mem_cons.mp queuedIn with rfl | later
        · exact .inr scanned.covers
        · exact .inl ⟨other, List.mem_append_left queued later, rfl⟩
      · exact .inr fun arc arcIn => scanned.keeps (passed arc arcIn)
    · exact .inl ⟨new, List.mem_append_right queue newIn, shown⟩
  · refine List.pairwise_append.mpr ⟨(List.pairwise_cons.mp layered.sorted).2, ?_, ?_⟩
    · exact List.Pairwise.imp_of_mem (fun firstIn secondIn _ =>
        ((lengths _ firstIn).trans (lengths _ secondIn).symm).le) (List.pairwise_of_forall fun _ _ => trivial)
    · exact fun other member new newIn => (behind other member).trans (lengths new newIn).ge
  · have upper : ∀ first ∈ queue ++ queued, first.labels.length ≤ item.labels.length + 1 :=
      List.forall_mem_append.mpr ⟨behind, fun new member => (lengths new member).le⟩
    have lower : ∀ second ∈ queue ++ queued, item.labels.length ≤ second.labels.length :=
      List.forall_mem_append.mpr ⟨ahead, fun new member => (lengths new member).symm ▸ Nat.le_succ _⟩
    exact fun first firstIn second secondIn =>
      (upper first firstIn).trans (Nat.succ_le_succ (lower second secondIn))

/-- The search finds a shortest walk, or there is none. -/
theorem search_spec (layered : Layered graph source target visited queue) :
    match search graph target visited queue with
    | none => ∀ path labels, ¬ Walk graph.next source target path labels
    | some found => Walk graph.next source target found.path found.labels ∧ found.path.Nodup ∧
        ∀ path labels, Walk graph.next source target path labels →
          found.labels.length ≤ labels.length := by
  fun_induction search graph target visited queue with
  | case1 visited =>
    intro path labels walk
    obtain ⟨item, queued, _⟩ := layered.frontier walk layered.target_notMem
    cases queued
  | case2 visited item rest found scanned =>
    obtain ⟨unseen, arc, arcIn, rfl, rfl⟩ := scan_error scanned
    obtain ⟨walk, nodup⟩ := layered.extend_walk arcIn unseen
    refine ⟨walk, nodup, fun path labels other => ?_⟩
    rw [Item.extend, List.length_append]
    exact layered.head_frontier other unseen
  | case3 visited item rest marked queued scanned ih => exact ih (layered.step (scan_ok scanned))

end Foundation.BreadthFirst
