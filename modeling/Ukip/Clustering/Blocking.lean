import Mathlib.Combinatorics.SimpleGraph.Connectivity.Connected
import Ukip.Clustering.UnionFind
import Ukip.Foundation.Tally

/-!
# Blocking-based clustering

Values that share a block key are compared, and the matches are joined by union-find, as
are the semantic neighbours.  The groups are the connected components of the graph of the
matches, so they do not depend on the order of the values.
-/

namespace Ukip.Clustering

open Foundation.Grouping Foundation.Tally

variable {Value Key : Type} [LinearOrder Value] [DecidableEq Key]

/-- `uf` and `compared` -/
structure Comparison (Value : Type) [LinearOrder Value] where
  uf : UnionFind Value
  compared : List (Value × Value)

section Model

variable (blockingKeys : Value → List Key)
/- `fuzz.token_sort_ratio(a, b) >= threshold` -/
variable (similar : Value → Value → Bool)
/- `semantic_index.neighbors(val, min_similarity=semantic_threshold)` -/
variable (neighbors : Option (Value → List Value))

/-- The pairs of a key and a value that has it, in the order in which the blocks get them. -/
def keyedValues (unique : List Value) : List (Key × Value) :=
  unique.flatMap fun val => (blockingKeys val).map fun key => (key, val)

def blocks (unique : List Value) : List (Key × List Value) := grouped (keyedValues blockingKeys unique)

def orderedPair (a b : Value) : Value × Value := if a ≤ b then (a, b) else (b, a)

def comparePair (state : Comparison Value) (pair : Value × Value) : Comparison Value :=
  let ordered := orderedPair pair.1 pair.2
  if ordered ∈ state.compared then state
  else
    { uf := if similar pair.1 pair.2 then state.uf.union pair.1 pair.2 else state.uf
      compared := ordered :: state.compared }

def compareBlock (state : Comparison Value) (block : Key × List Value) : Comparison Value :=
  if block.2.length < 2 then state
  else (combinations block.2).foldl (comparePair similar) state

def joinNeighbor (val : Value) (uf : UnionFind Value) (neighbor : Value) : UnionFind Value :=
  if uf.contains neighbor then uf.union val neighbor else uf

def joinNeighbors (near : Value → List Value) (uf : UnionFind Value) (val : Value) :
    UnionFind Value :=
  (near val).foldl (joinNeighbor val) uf

/-- The disjoint sets at the end of `cluster_values`. -/
def clustered (unique : List Value) : UnionFind Value :=
  let lexical := ((blocks blockingKeys unique).foldl (compareBlock similar)
    ⟨UnionFind.ofElements unique, []⟩).uf
  match neighbors with
  | none => lexical
  | some near => unique.foldl (joinNeighbors near) lexical

def clusterValues (values : List Value) : List (List Value) :=
  if values.isEmpty then []
  else (clustered blockingKeys similar neighbors values.eraseDups).components

/-- Two values share a block key and meet the threshold, or the second is a semantic
neighbour of the first. -/
def Matches (a b : Value) : Prop :=
  ((∃ key ∈ blockingKeys a, key ∈ blockingKeys b) ∧ similar a b = true) ∨
    ∃ near, neighbors = some near ∧ b ∈ near a

def matchGraph (values : List Value) : SimpleGraph Value :=
  SimpleGraph.fromRel fun a b =>
    a ∈ values ∧ b ∈ values ∧ Matches blockingKeys similar neighbors a b

def matchComponents (values : List Value) : Set (Set Value) :=
  {component | ∃ a ∈ values,
    component = {b | (matchGraph blockingKeys similar neighbors values).Reachable a b}}

end Model

def partition (groups : List (List Value)) : Set (Set Value) :=
  {component | ∃ group ∈ groups, component = {value | value ∈ group}}

/-- The unions so far stay within the graph, and the compared pairs are settled. -/
structure Within (graph : SimpleGraph Value) (unique : List Value) (uf : UnionFind Value) : Prop where
  elements : ∀ value, value ∈ uf.elements ↔ value ∈ unique
  sound : ∀ a b, uf.Connected a b → graph.Reachable a b

variable {graph : SimpleGraph Value} {unique : List Value}

variable {uf : UnionFind Value} {a b : Value}

theorem Within.union (inside : Within graph unique uf) (aIn : a ∈ unique) (bIn : b ∈ unique)
    (reaches : graph.Reachable a b) :
    Within graph unique (uf.union a b) where
  elements value := by
    rw [uf.union_elements ((inside.elements a).mpr aIn) ((inside.elements b).mpr bIn)]
    exact inside.elements value
  sound first second connected := by
    rcases (uf.union_connected_iff a b first second).mp connected with old | forward | backward
    · exact inside.sound first second old
    · exact ((inside.sound _ _ forward.1).trans reaches).trans (inside.sound _ _ forward.2).symm
    · exact ((inside.sound _ _ backward.1).trans reaches.symm).trans (inside.sound _ _ backward.2).symm

theorem union_grows (a b : Value) {first second : Value} (connected : uf.Connected first second) :
    (uf.union a b).Connected first second :=
  (uf.union_connected_iff a b first second).mpr (.inl connected)

theorem union_joins (uf : UnionFind Value) (a b : Value) : (uf.union a b).Connected a b :=
  (uf.union_connected_iff a b a b).mpr
    (.inr (.inl ⟨uf.connected_equivalence.refl a, uf.connected_equivalence.refl b⟩))

/-- A state of the comparisons: its unions stay within the graph, and the compared pairs
that meet the threshold are joined. -/
structure Settled (similar : Value → Value → Bool) (graph : SimpleGraph Value) (unique : List Value)
    (state : Comparison Value) : Prop where
  inside : Within graph unique state.uf
  settled : ∀ pair ∈ state.compared,
    similar pair.1 pair.2 = true → state.uf.Connected pair.1 pair.2

/-- What a stretch of the comparisons has done: it joins what `done` asks for, and nothing
comes apart. -/
structure Advances (similar : Value → Value → Bool) (graph : SimpleGraph Value)
    (unique : List Value) (before after : Comparison Value) (done : Value → Value → Prop) : Prop where
  settled : Settled similar graph unique after
  joins : ∀ a b, done a b → after.uf.Connected a b
  grows : ∀ a b, before.uf.Connected a b → after.uf.Connected a b

theorem orderedPair_eq (a b : Value) : orderedPair a b = (a, b) ∨ orderedPair a b = (b, a) := by
  unfold orderedPair
  split
  · exact .inl rfl
  · exact .inr rfl

section Comparisons

variable {similar : Value → Value → Bool} (symmetric : ∀ a b, similar a b = similar b a)
include symmetric

variable {state : Comparison Value}

theorem comparePair_advances {pair : Value × Value} (aIn : pair.1 ∈ unique) (bIn : pair.2 ∈ unique)
    (reaches : similar pair.1 pair.2 = true → graph.Reachable pair.1 pair.2)
    (settled : Settled similar graph unique state) :
    Advances similar graph unique state (comparePair similar state pair)
      (fun a b => (a, b) = pair ∧ similar a b = true) := by
  simp only [comparePair]
  split
  · next known =>
      refine ⟨settled, ?_, fun _ _ connected => connected⟩
      intro a b asked
      obtain ⟨rfl, meets⟩ := asked
      rcases orderedPair_eq a b with straight | crossed
      · exact settled.settled (a, b) (straight ▸ known) meets
      · have connected := settled.settled (b, a) (crossed ▸ known) (symmetric b a ▸ meets)
        exact state.uf.connected_equivalence.symm connected
  · split
    · next meets =>
        have joined := union_joins state.uf pair.1 pair.2
        refine ⟨⟨settled.inside.union aIn bIn (reaches meets), ?_⟩, ?_, fun _ _ => union_grows _ _⟩
        · intro other member otherMeets
          rcases List.mem_cons.mp member with isNew | old
          · subst isNew
            rcases orderedPair_eq pair.1 pair.2 with straight | crossed
            · rw [straight]
              exact joined
            · rw [crossed]
              exact (UnionFind.connected_equivalence _).symm joined
          · exact union_grows _ _ (settled.settled other old otherMeets)
        · intro a b asked
          obtain ⟨rfl, _⟩ := asked
          exact joined
    · next fails =>
        refine ⟨⟨settled.inside, ?_⟩, ?_, fun _ _ connected => connected⟩
        · intro other member otherMeets
          rcases List.mem_cons.mp member with isNew | old
          · subst isNew
            have fallsShort : similar pair.1 pair.2 = true := by
              rcases orderedPair_eq pair.1 pair.2 with straight | crossed
              · rwa [straight] at otherMeets
              · rw [crossed, symmetric] at otherMeets
                exact otherMeets
            exact absurd fallsShort fails
          · exact settled.settled other old otherMeets
        · intro a b asked
          obtain ⟨rfl, meets⟩ := asked
          exact absurd meets fails

theorem comparePairs_advance {pairs : List (Value × Value)}
    (within : ∀ pair ∈ pairs, pair.1 ∈ unique ∧ pair.2 ∈ unique ∧
      (similar pair.1 pair.2 = true → graph.Reachable pair.1 pair.2))
    (settled : Settled similar graph unique state) :
    Advances similar graph unique state (pairs.foldl (comparePair similar) state)
      (fun a b => (a, b) ∈ pairs ∧ similar a b = true) := by
  induction pairs generalizing state with
  | nil => exact ⟨settled, fun a b asked => (nomatch asked.1), fun _ _ connected => connected⟩
  | cons pair rest ih =>
    obtain ⟨aIn, bIn, reaches⟩ := within pair List.mem_cons_self
    have first := comparePair_advances symmetric aIn bIn reaches settled
    have later := ih (fun other member => within other (List.mem_cons_of_mem pair member)) first.settled
    refine ⟨later.settled, ?_, fun a b connected => later.grows a b (first.grows a b connected)⟩
    intro a b asked
    rcases List.mem_cons.mp asked.1 with isFirst | isLater
    · exact later.grows a b (first.joins a b ⟨isFirst, asked.2⟩)
    · exact later.joins a b ⟨isLater, asked.2⟩

omit [DecidableEq Key] in
theorem compareBlock_advances {block : Key × List Value}
    (members : ∀ value ∈ block.2, value ∈ unique)
    (reaches : ∀ a ∈ block.2, ∀ b ∈ block.2, similar a b = true → graph.Reachable a b)
    (settled : Settled similar graph unique state) :
    Advances similar graph unique state (compareBlock similar state block)
      (fun a b => a ∈ block.2 ∧ b ∈ block.2 ∧ similar a b = true) := by
  have alone : ∀ {after : Comparison Value} {a : Value}, after.uf.Connected a a :=
    fun {after a} => after.uf.connected_equivalence.refl a
  unfold compareBlock
  split
  · next few =>
      refine ⟨settled, ?_, fun _ _ connected => connected⟩
      intro a b asked
      obtain ⟨aIn, bIn, _⟩ := asked
      have same : a = b := by
        rcases found : block.2 with _ | ⟨only, _ | ⟨second, rest⟩⟩
        · rw [found] at aIn
          cases aIn
        · rw [found] at aIn bIn
          rw [List.mem_singleton.mp aIn, List.mem_singleton.mp bIn]
        · rw [found, List.length_cons, List.length_cons] at few
          omega
      exact same ▸ alone
  · have within : ∀ pair ∈ combinations block.2, pair.1 ∈ unique ∧ pair.2 ∈ unique ∧
        (similar pair.1 pair.2 = true → graph.Reachable pair.1 pair.2) := by
      intro pair member
      obtain ⟨aIn, bIn⟩ := mem_combinations block.2 pair member
      exact ⟨members _ aIn, members _ bIn, reaches _ aIn _ bIn⟩
    have whole := comparePairs_advance symmetric within settled
    refine ⟨whole.settled, ?_, whole.grows⟩
    intro a b asked
    obtain ⟨aIn, bIn, meets⟩ := asked
    rcases combinations_complete aIn bIn with same | straight | crossed
    · exact same ▸ alone
    · exact whole.joins a b ⟨straight, meets⟩
    · have connected := whole.joins b a ⟨crossed, symmetric b a ▸ meets⟩
      exact (UnionFind.connected_equivalence _).symm connected

omit [DecidableEq Key] in
theorem compareBlocks_advance {blocks : List (Key × List Value)}
    (members : ∀ block ∈ blocks, ∀ value ∈ block.2, value ∈ unique)
    (reaches : ∀ block ∈ blocks, ∀ a ∈ block.2, ∀ b ∈ block.2, similar a b = true → graph.Reachable a b)
    (settled : Settled similar graph unique state) :
    Advances similar graph unique state (blocks.foldl (compareBlock similar) state)
      (fun a b => ∃ block ∈ blocks, a ∈ block.2 ∧ b ∈ block.2 ∧ similar a b = true) := by
  induction blocks generalizing state with
  | nil => exact ⟨settled, fun a b asked => by simp at asked, fun _ _ connected => connected⟩
  | cons block rest ih =>
    have first := compareBlock_advances symmetric (members block List.mem_cons_self)
      (reaches block List.mem_cons_self) settled
    have later := ih (fun other member => members other (List.mem_cons_of_mem block member))
      (fun other member => reaches other (List.mem_cons_of_mem block member)) first.settled
    refine ⟨later.settled, ?_, fun a b connected => later.grows a b (first.grows a b connected)⟩
    intro a b asked
    obtain ⟨other, member, found⟩ := asked
    rcases List.mem_cons.mp member with isFirst | isLater
    · exact later.grows a b (first.joins a b (isFirst ▸ found))
    · exact later.joins a b ⟨other, isLater, found⟩

end Comparisons

section Semantics

variable {val : Value}

theorem joinNeighbor_within (inside : Within graph unique uf) (valIn : val ∈ unique)
    {neighbor : Value} (reaches : neighbor ∈ unique → graph.Reachable val neighbor) :
    Within graph unique (joinNeighbor val uf neighbor) ∧
      (neighbor ∈ unique → (joinNeighbor val uf neighbor).Connected val neighbor) ∧
      ∀ a b, uf.Connected a b → (joinNeighbor val uf neighbor).Connected a b := by
  unfold joinNeighbor
  split
  · next known =>
      have neighborIn : neighbor ∈ unique := by
        rw [← inside.elements]
        simpa [UnionFind.contains] using known
      exact ⟨inside.union valIn neighborIn (reaches neighborIn), fun _ => union_joins uf val neighbor,
        fun _ _ => union_grows val neighbor⟩
  · next unknown =>
      refine ⟨inside, ?_, fun _ _ connected => connected⟩
      intro neighborIn
      rw [← inside.elements] at neighborIn
      exact absurd (by simpa [UnionFind.contains] using neighborIn) unknown

theorem joinNeighborsOf_within {others : List Value} (inside : Within graph unique uf)
    (valIn : val ∈ unique)
    (reaches : ∀ neighbor ∈ others, neighbor ∈ unique → graph.Reachable val neighbor) :
    Within graph unique (others.foldl (joinNeighbor val) uf) ∧
      (∀ neighbor ∈ others, neighbor ∈ unique →
        (others.foldl (joinNeighbor val) uf).Connected val neighbor) ∧
      ∀ a b, uf.Connected a b → (others.foldl (joinNeighbor val) uf).Connected a b := by
  induction others generalizing uf with
  | nil => exact ⟨inside, nofun, fun _ _ connected => connected⟩
  | cons neighbor rest ih =>
    obtain ⟨within, joins, grows⟩ :=
      joinNeighbor_within inside valIn (reaches neighbor List.mem_cons_self)
    obtain ⟨allWithin, allJoin, allGrow⟩ :=
      ih within fun other member => reaches other (List.mem_cons_of_mem neighbor member)
    refine ⟨allWithin, ?_, fun a b connected => allGrow a b (grows a b connected)⟩
    intro other member otherIn
    rcases List.mem_cons.mp member with isFirst | isLater
    · subst isFirst
      exact allGrow val other (joins otherIn)
    · exact allJoin other isLater otherIn

theorem joinAll_within (near : Value → List Value) (vals : List Value)
    (inside : Within graph unique uf) (valsIn : ∀ val ∈ vals, val ∈ unique)
    (reaches : ∀ val ∈ vals, ∀ neighbor ∈ near val, neighbor ∈ unique → graph.Reachable val neighbor) :
    Within graph unique (vals.foldl (joinNeighbors near) uf) ∧
      (∀ val ∈ vals, ∀ neighbor ∈ near val, neighbor ∈ unique →
        (vals.foldl (joinNeighbors near) uf).Connected val neighbor) ∧
      ∀ a b, uf.Connected a b → (vals.foldl (joinNeighbors near) uf).Connected a b := by
  induction vals generalizing uf with
  | nil => exact ⟨inside, nofun, fun _ _ connected => connected⟩
  | cons val rest ih =>
    obtain ⟨within, joins, grows⟩ := joinNeighborsOf_within inside (valsIn val List.mem_cons_self)
      (reaches val List.mem_cons_self)
    obtain ⟨allWithin, allJoin, allGrow⟩ :=
      ih within (fun other member => valsIn other (List.mem_cons_of_mem val member))
        fun other member => reaches other (List.mem_cons_of_mem val member)
    refine ⟨allWithin, ?_, fun a b connected => allGrow a b (grows a b connected)⟩
    intro other member neighbor neighborMember neighborIn
    rcases List.mem_cons.mp member with isFirst | isLater
    · subst isFirst
      exact allGrow other neighbor (joins neighbor neighborMember neighborIn)
    · exact allJoin other isLater neighbor neighborMember neighborIn

end Semantics

section Clusters

variable (blockingKeys : Value → List Key) {similar : Value → Value → Bool}
variable (neighbors : Option (Value → List Value))

omit [LinearOrder Value] in
variable {blockingKeys} in
theorem mem_block_iff {block : Key × List Value} (member : block ∈ blocks blockingKeys unique)
    (value : Value) : value ∈ block.2 ↔ value ∈ unique ∧ block.1 ∈ blockingKeys value := by
  have items := ((mem_grouped_iff _ block).mp member).2
  rw [items, mem_itemsOf_iff]
  simp [keyedValues]

omit [LinearOrder Value] in
variable {blockingKeys} in
theorem exists_block {value : Value} {key : Key} (valueIn : value ∈ unique)
    (keyed : key ∈ blockingKeys value) : ∃ block ∈ blocks blockingKeys unique, block.1 = key := by
  refine ⟨(key, itemsOf (keyedValues blockingKeys unique) key), ?_, rfl⟩
  rw [blocks, mem_grouped_iff]
  refine ⟨?_, rfl⟩
  rw [List.mem_map]
  refine ⟨(key, value), ?_, rfl⟩
  simp [keyedValues, valueIn, keyed]

variable {values : List Value}

omit [DecidableEq Key] in
variable {blockingKeys neighbors} in
theorem reachable_of_matches (aIn : a ∈ values) (bIn : b ∈ values)
    (joined : Matches blockingKeys similar neighbors a b) :
    (matchGraph blockingKeys similar neighbors values).Reachable a b := by
  by_cases same : a = b
  · subst same
    rfl
  · apply SimpleGraph.Adj.reachable
    exact ⟨same, .inl ⟨aIn, bIn, joined⟩⟩

theorem lexical_within (symmetric : ∀ a b, similar a b = similar b a) (values : List Value) :
    Advances similar (matchGraph blockingKeys similar neighbors values) values.eraseDups
      ⟨UnionFind.ofElements values.eraseDups, []⟩
      ((blocks blockingKeys values.eraseDups).foldl (compareBlock similar)
        ⟨UnionFind.ofElements values.eraseDups, []⟩)
      (fun a b => ∃ block ∈ blocks blockingKeys values.eraseDups,
        a ∈ block.2 ∧ b ∈ block.2 ∧ similar a b = true) := by
  apply compareBlocks_advance symmetric
  · intro block member value valueIn
    exact ((mem_block_iff member value).mp valueIn).1
  · intro block member a aIn b bIn meets
    obtain ⟨aValue, aKey⟩ := (mem_block_iff member a).mp aIn
    obtain ⟨bValue, bKey⟩ := (mem_block_iff member b).mp bIn
    rw [List.mem_eraseDups] at aValue bValue
    exact reachable_of_matches aValue bValue (.inl ⟨⟨block.1, aKey, bKey⟩, meets⟩)
  · refine ⟨⟨UnionFind.mem_ofElements_iff _, ?_⟩, nofun⟩
    intro a b connected
    rw [(UnionFind.ofElements_connected_iff _ a b).mp connected]

theorem clustered_within (symmetric : ∀ a b, similar a b = similar b a) (values : List Value) :
    Within (matchGraph blockingKeys similar neighbors values) values.eraseDups
        (clustered blockingKeys similar neighbors values.eraseDups) ∧
      ∀ a ∈ values, ∀ b ∈ values, Matches blockingKeys similar neighbors a b →
        (clustered blockingKeys similar neighbors values.eraseDups).Connected a b := by
  have lexical := lexical_within blockingKeys neighbors symmetric values
  have shared : ∀ a ∈ values, ∀ b ∈ values, (∃ key ∈ blockingKeys a, key ∈ blockingKeys b) →
      ∃ block ∈ blocks blockingKeys values.eraseDups, a ∈ block.2 ∧ b ∈ block.2 := by
    intro a aIn b bIn sharing
    obtain ⟨key, aKey, bKey⟩ := sharing
    obtain ⟨block, member, rfl⟩ := exists_block (List.mem_eraseDups.mpr aIn) aKey
    exact ⟨block, member, (mem_block_iff member a).mpr ⟨List.mem_eraseDups.mpr aIn, aKey⟩,
      (mem_block_iff member b).mpr ⟨List.mem_eraseDups.mpr bIn, bKey⟩⟩
  cases neighbors with
  | none =>
    refine ⟨lexical.settled.inside, ?_⟩
    intro a aIn b bIn joined
    rcases joined with byKey | bySemantics
    · obtain ⟨block, member, inBlock⟩ := shared a aIn b bIn byKey.1
      exact lexical.joins a b ⟨block, member, inBlock.1, inBlock.2, byKey.2⟩
    · obtain ⟨near, missing, _⟩ := bySemantics
      cases missing
  | some near =>
    obtain ⟨within, joins, grows⟩ := joinAll_within near values.eraseDups
      lexical.settled.inside (fun _ member => member) fun val valIn neighbor close neighborIn =>
        reachable_of_matches (List.mem_eraseDups.mp valIn) (List.mem_eraseDups.mp neighborIn)
          (.inr ⟨near, rfl, close⟩)
    refine ⟨within, ?_⟩
    intro a aIn b bIn joined
    rcases joined with byKey | bySemantics
    · obtain ⟨block, member, inBlock⟩ := shared a aIn b bIn byKey.1
      exact grows a b (lexical.joins a b ⟨block, member, inBlock.1, inBlock.2, byKey.2⟩)
    · obtain ⟨other, isNear, close⟩ := bySemantics
      obtain rfl := Option.some.inj isNear
      exact joins a (List.mem_eraseDups.mpr aIn) b close (List.mem_eraseDups.mpr bIn)

theorem clustered_connected_iff (symmetric : ∀ a b, similar a b = similar b a) (values : List Value)
    (a b : Value) :
    (clustered blockingKeys similar neighbors values.eraseDups).Connected a b ↔
      (matchGraph blockingKeys similar neighbors values).Reachable a b := by
  obtain ⟨within, joins⟩ := clustered_within blockingKeys neighbors symmetric values
  have equivalence := (clustered blockingKeys similar neighbors values.eraseDups).connected_equivalence
  constructor
  · exact within.sound a b
  · intro reaches
    rw [SimpleGraph.reachable_iff_reflTransGen] at reaches
    induction reaches with
    | refl => exact equivalence.refl a
    | tail _ adjacent ih =>
      apply equivalence.trans ih
      rcases adjacent.2 with forward | backward
      · exact joins _ forward.1 _ forward.2.1 forward.2.2
      · exact equivalence.symm (joins _ backward.1 _ backward.2.1 backward.2.2)

omit [LinearOrder Value] [DecidableEq Key] in
variable {blockingKeys neighbors} in
theorem mem_of_reachable (aIn : a ∈ values)
    (reaches : (matchGraph blockingKeys similar neighbors values).Reachable a b) : b ∈ values := by
  rw [SimpleGraph.reachable_iff_reflTransGen] at reaches
  cases reaches with
  | refl => exact aIn
  | tail _ adjacent =>
    rcases adjacent.2 with forward | backward
    · exact forward.2.1
    · exact backward.1

theorem mem_group_iff (symmetric : ∀ a b, similar a b = similar b a) {a : Value} (aIn : a ∈ values)
    (b : Value) :
    (b ∈ (clustered blockingKeys similar neighbors values.eraseDups).elements.filter fun other =>
        ((clustered blockingKeys similar neighbors values.eraseDups).find other).2 =
          ((clustered blockingKeys similar neighbors values.eraseDups).find a).2) ↔
      (matchGraph blockingKeys similar neighbors values).Reachable a b := by
  obtain ⟨within, _⟩ := clustered_within blockingKeys neighbors symmetric values
  rw [List.mem_filter, within.elements, List.mem_eraseDups, decide_eq_true_eq,
    ← UnionFind.connected_iff_find, clustered_connected_iff blockingKeys neighbors symmetric]
  constructor
  · intro found
    exact found.2.symm
  · intro reaches
    exact ⟨mem_of_reachable aIn reaches, reaches.symm⟩

theorem partition_clusterValues (symmetric : ∀ a b, similar a b = similar b a) (values : List Value) :
    partition (clusterValues blockingKeys similar neighbors values) =
      matchComponents blockingKeys similar neighbors values := by
  obtain ⟨within, _⟩ := clustered_within blockingKeys neighbors symmetric values
  have elements : ∀ value, value ∈ (clustered blockingKeys similar neighbors values.eraseDups).elements ↔
      value ∈ values := fun value => (within.elements value).trans List.mem_eraseDups
  unfold clusterValues
  split
  · next empty =>
      rw [List.isEmpty_iff.mp empty]
      simp [partition, matchComponents]
  · ext component
    simp only [partition, matchComponents, Set.mem_ofPred_eq, UnionFind.mem_components_iff, elements]
    constructor
    · intro found
      obtain ⟨group, ⟨a, aIn, rfl⟩, rfl⟩ := found
      exact ⟨a, aIn, Set.ext (mem_group_iff blockingKeys neighbors symmetric aIn)⟩
    · intro found
      obtain ⟨a, aIn, rfl⟩ := found
      exact ⟨_, ⟨a, aIn, rfl⟩, Set.ext fun b => (mem_group_iff blockingKeys neighbors symmetric aIn b).symm⟩

omit [LinearOrder Value] [DecidableEq Key] in
theorem matchComponents_congr {first second : List Value} (same : ∀ value, value ∈ first ↔ value ∈ second) :
    matchComponents blockingKeys similar neighbors first =
      matchComponents blockingKeys similar neighbors second := by
  simp only [matchComponents, matchGraph, same]

/-- The groups have no value twice and none in common, and they are the connected components
of the graph of the matches, in whatever order the values come. -/
theorem clusterValues_components (similar : Value → Value → Bool)
    (symmetric : ∀ a b, similar a b = similar b a) (values : List Value) :
    (∀ group ∈ clusterValues blockingKeys similar neighbors values, group.Nodup) ∧
      (clusterValues blockingKeys similar neighbors values).Pairwise List.Disjoint ∧
      partition (clusterValues blockingKeys similar neighbors values) =
        matchComponents blockingKeys similar neighbors values ∧
      ∀ reordered : List Value, reordered.Perm values →
        partition (clusterValues blockingKeys similar neighbors reordered) =
          partition (clusterValues blockingKeys similar neighbors values) := by
  refine ⟨?_, ?_, partition_clusterValues blockingKeys neighbors symmetric values, ?_⟩
  · intro group member
    unfold clusterValues at member
    split at member
    · cases member
    · exact UnionFind.components_nodup _ member
  · unfold clusterValues
    split
    · exact List.Pairwise.nil
    · exact UnionFind.components_disjoint _
  · intro reordered perm
    rw [partition_clusterValues blockingKeys neighbors symmetric,
      partition_clusterValues blockingKeys neighbors symmetric]
    exact matchComponents_congr blockingKeys neighbors fun _ => perm.mem_iff

/-- Values of one block that are similar where they differ by at most one. -/
theorem clusterValues_components_near :
    partition (clusterValues (fun _ => [()]) (fun a b => decide (a ≤ b + 1 ∧ b ≤ a + 1)) none [1, 5, 2]) =
      partition (clusterValues (fun _ => [()]) (fun a b => decide (a ≤ b + 1 ∧ b ≤ a + 1)) none
        [5, 2, 1]) :=
  ((clusterValues_components (fun _ => [()]) none (fun a b => decide (a ≤ b + 1 ∧ b ≤ a + 1))
    (fun a b => by rw [decide_eq_decide, and_comm]) [5, 2, 1]).2.2.2 [1, 5, 2] (by decide))

example : clusterValues (fun _ : Nat => [()]) (fun a b => decide (a ≤ b + 1 ∧ b ≤ a + 1)) none [1, 5, 2] =
    [[1, 2], [5]] := by decide

end Clusters

end Ukip.Clustering
