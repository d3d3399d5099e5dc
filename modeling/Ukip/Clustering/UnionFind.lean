import Ukip.Foundation.Grouping
import Ukip.Foundation.RootedForest

/-!
# Union-Find

The disjoint sets of the clustering: parents and ranks, path compression in every find and
union by rank.  The two dictionaries have the same keys, which are `elements` in the order
in which they were added.
-/

namespace Ukip.Clustering

open Foundation.RootedForest Foundation.Grouping

variable {Element : Type} [DecidableEq Element]

structure UnionFind (Element : Type) [DecidableEq Element] where
  elements : List Element
  parent : Element → Element
  rank : Element → Nat
  distinct : elements.Nodup
  ranked : Ranked elements.toFinset parent rank

namespace UnionFind

def empty : UnionFind Element where
  elements := []
  parent := id
  rank _ := 0
  distinct := List.nodup_nil
  ranked := ⟨by simp, fun _ _ => rfl, fun _ moves => absurd rfl moves⟩

variable (uf : UnionFind Element)

/-- `x in self._parent` -/
def contains (x : Element) : Bool := x ∈ uf.elements

variable {x : Element}

theorem ranked_add (fresh : x ∉ uf.elements) :
    Ranked (uf.elements ++ [x]).toFinset (Function.update uf.parent x x)
      (Function.update uf.rank x 0) := by
  have unmoved : Function.update uf.parent x x = uf.parent := by
    rw [Function.update_eq_self_iff]
    exact (uf.ranked.outside x (by simpa using fresh)).symm
  rw [unmoved]
  have notParent : ∀ node, uf.parent node ≠ node → uf.parent node ≠ x ∧ node ≠ x := by
    intro node moves
    have inside : node ∈ uf.elements.toFinset := by
      by_contra outside
      exact moves (uf.ranked.outside node outside)
    have parentIn := uf.ranked.closed node inside
    rw [List.mem_toFinset] at inside parentIn
    exact ⟨fun same => fresh (same ▸ parentIn), fun same => fresh (same ▸ inside)⟩
  constructor
  · intro node member
    simp only [List.toFinset_append, Finset.mem_union, List.mem_toFinset, List.mem_singleton] at member ⊢
    rcases member with old | isNew
    · have parentIn := uf.ranked.closed node (List.mem_toFinset.mpr old)
      exact .inl (List.mem_toFinset.mp parentIn)
    · rw [isNew, uf.ranked.outside x (by simpa using fresh)]
      exact .inr rfl
  · intro node outside
    apply uf.ranked.outside
    simp only [List.toFinset_append, Finset.mem_union] at outside
    exact fun member => outside (.inl member)
  · intro node moves
    obtain ⟨parentOld, old⟩ := notParent node moves
    rw [Function.update_of_ne parentOld, Function.update_of_ne old]
    exact uf.ranked.rises node moves

def add (x : Element) : UnionFind Element :=
  if fresh : x ∉ uf.elements then
    { elements := uf.elements ++ [x]
      parent := Function.update uf.parent x x
      rank := Function.update uf.rank x 0
      distinct := by
        rw [List.nodup_append]
        exact ⟨uf.distinct, List.nodup_singleton x, by
          intro a member b isNew same
          exact fresh (by simpa [same, List.mem_singleton.mp isNew] using member)⟩
      ranked := uf.ranked_add fresh }
  else uf

theorem mem_add (x : Element) : x ∈ (uf.add x).elements := by
  unfold add
  split
  · exact List.mem_append_right _ List.mem_cons_self
  · next known => exact not_not.mp known

@[simp] theorem add_parent (x : Element) : (uf.add x).parent = uf.parent := by
  unfold add
  split
  · next fresh =>
      rw [Function.update_eq_self_iff]
      exact (uf.ranked.outside x (by simpa using fresh)).symm
  · rfl

theorem add_known (known : x ∈ uf.elements) : uf.add x = uf :=
  dif_neg (not_not.mpr known)

/-- `UnionFind(elements)` -/
def ofElements (elements : List Element) : UnionFind Element := elements.foldl add empty

variable (items : List Element)

theorem mem_foldl_add_iff (x : Element) :
    x ∈ (items.foldl add uf).elements ↔ x ∈ uf.elements ∨ x ∈ items := by
  induction items generalizing uf with
  | nil => simp
  | cons item rest ih =>
    have added : x ∈ (uf.add item).elements ↔ x ∈ uf.elements ∨ x = item := by
      unfold add
      split
      · simp
      · next known =>
          constructor
          · exact .inl
          · intro either
            exact either.elim id fun same => same ▸ not_not.mp known
    rw [List.foldl_cons, ih, added, List.mem_cons, or_assoc]

theorem mem_ofElements_iff (x : Element) : x ∈ (ofElements items).elements ↔ x ∈ items := by
  rw [ofElements, mem_foldl_add_iff]
  simp [empty]

theorem ofElements_parent : (ofElements items).parent = id := by
  have kept : ∀ uf : UnionFind Element, (items.foldl add uf).parent = uf.parent := by
    induction items with
    | nil => exact fun _ => rfl
    | cons item rest ih =>
      intro uf
      rw [List.foldl_cons, ih, add_parent]
  exact kept empty

/-- The first loop of `find`. -/
def root (x : Element) : Element := climb uf.parent uf.elements.length x

theorem leads_root (known : x ∈ uf.elements) : Leads uf.parent x (uf.root x) := by
  have enough := uf.ranked.leads_climb (List.mem_toFinset.mpr known)
  rwa [List.toFinset_card_of_nodup uf.distinct] at enough

/-- The second loop of `find`. -/
def compressed {x : Element} (known : x ∈ uf.elements) : UnionFind Element :=
  { uf with
    parent := compress (uf.root x) uf.elements.length uf.parent x
    ranked := Ranked.compress uf.ranked (uf.leads_root known) (List.mem_toFinset.mpr known) }

def find (x : Element) : UnionFind Element × Element :=
  let known := uf.add x
  (known.compressed (uf.mem_add x), known.root x)

theorem leads_find (x : Element) : Leads uf.parent x (uf.find x).2 := by
  have leads := (uf.add x).leads_root (uf.mem_add x)
  rwa [add_parent] at leads

theorem find_leads_iff (x start end_ : Element) :
    Leads (uf.find x).1.parent start end_ ↔ Leads uf.parent start end_ := by
  rw [← uf.add_parent x]
  exact leads_compress_path_iff (uf.add x).ranked.rooted ((uf.add x).leads_root (uf.mem_add x)) start
    end_

theorem mem_find_of_mem {x other : Element} (member : other ∈ uf.elements) :
    other ∈ (uf.find x).1.elements := by
  change other ∈ (uf.add x).elements
  unfold add
  split
  · exact List.mem_append_left _ member
  · exact member

theorem find_mem (x : Element) : (uf.find x).2 ∈ (uf.find x).1.elements := by
  have inside := (uf.add x).ranked.leads_mem ((uf.add x).leads_root (uf.mem_add x))
    (List.mem_toFinset.mpr (uf.mem_add x))
  exact List.mem_toFinset.mp inside

theorem find_elements (known : x ∈ uf.elements) : (uf.find x).1.elements = uf.elements := by
  have same := uf.add_known known
  change (uf.add x).elements = uf.elements
  rw [same]

/-- `self._parent[rb] = ra`, after which a tied rank goes up. -/
def link {ra rb : Element} (raRoot : uf.parent ra = ra) (differ : rb ≠ ra)
    (raIn : ra ∈ uf.elements) (rbIn : rb ∈ uf.elements) (noLower : uf.rank rb ≤ uf.rank ra) :
    UnionFind Element :=
  { uf with
    parent := Function.update uf.parent rb ra
    rank := if uf.rank ra = uf.rank rb then Function.update uf.rank ra (uf.rank ra + 1) else uf.rank
    ranked := uf.ranked.link raRoot differ (List.mem_toFinset.mpr raIn) (List.mem_toFinset.mpr rbIn)
      noLower }

theorem roots_after_finds (a b : Element) :
    ((uf.find a).1.find b).1.parent (uf.find a).2 = (uf.find a).2 ∧
      ((uf.find a).1.find b).1.parent ((uf.find a).1.find b).2 = ((uf.find a).1.find b).2 := by
  constructor
  · have isRoot : Leads uf.parent (uf.find a).2 (uf.find a).2 := .here (uf.leads_find a).isRoot
    rw [← uf.find_leads_iff a, ← (uf.find a).1.find_leads_iff b] at isRoot
    exact isRoot.isRoot
  · have isRoot : Leads (uf.find a).1.parent ((uf.find a).1.find b).2 ((uf.find a).1.find b).2 :=
      .here ((uf.find a).1.leads_find b).isRoot
    rw [← (uf.find a).1.find_leads_iff b] at isRoot
    exact isRoot.isRoot

def union (a b : Element) : UnionFind Element :=
  let first := uf.find a
  let second := first.1.find b
  if same : first.2 = second.2 then second.1
  else if lower : second.1.rank first.2 < second.1.rank second.2 then
    second.1.link (uf.roots_after_finds a b).2 same (first.1.find_mem b)
      (first.1.mem_find_of_mem (uf.find_mem a)) lower.le
  else
    second.1.link (uf.roots_after_finds a b).1 (Ne.symm same)
      (first.1.mem_find_of_mem (uf.find_mem a)) (first.1.find_mem b) (not_lt.mp lower)

def Connected (first second : Element) : Prop := Together uf.parent first second

theorem connected_equivalence : Equivalence uf.Connected :=
  together_equivalence uf.ranked.rooted

theorem find_connected_iff (x first second : Element) :
    (uf.find x).1.Connected first second ↔ uf.Connected first second := by
  simp only [Connected, Together, find_leads_iff]

theorem connected_find (x : Element) : uf.Connected x (uf.find x).2 :=
  together_of_leads (uf.leads_find x)

theorem ofElements_connected_iff (first second : Element) :
    (ofElements items).Connected first second ↔ first = second := by
  have here : ∀ x, Leads (ofElements items).parent x x := by
    intro x
    exact .here (by rw [ofElements_parent]; rfl)
  exact together_iff (here first) (here second)

theorem link_connected_iff {ra rb : Element} (raRoot : uf.parent ra = ra) (rbRoot : uf.parent rb = rb)
    (differ : rb ≠ ra) (raIn : ra ∈ uf.elements) (rbIn : rb ∈ uf.elements)
    (noLower : uf.rank rb ≤ uf.rank ra) (first second : Element) :
    (uf.link raRoot differ raIn rbIn noLower).Connected first second ↔
      uf.Connected first second ∨ (uf.Connected first ra ∧ uf.Connected second rb) ∨
        (uf.Connected first rb ∧ uf.Connected second ra) :=
  together_link_iff uf.ranked.rooted raRoot rbRoot differ first second

theorem union_connected_iff (a b first second : Element) :
    (uf.union a b).Connected first second ↔
      uf.Connected first second ∨ (uf.Connected first a ∧ uf.Connected second b) ∨
        (uf.Connected first b ∧ uf.Connected second a) := by
  have aRoot := uf.connected_find a
  have bRoot : uf.Connected b ((uf.find a).1.find b).2 := by
    rw [← uf.find_connected_iff a]
    exact (uf.find a).1.connected_find b
  have equivalence := uf.connected_equivalence
  have byRoot : ∀ {x root : Element}, uf.Connected x root → ∀ other,
      (uf.Connected other root ↔ uf.Connected other x) := by
    intro x root leads other
    exact ⟨fun path => equivalence.trans path (equivalence.symm leads),
      fun path => equivalence.trans path leads⟩
  have roots := uf.roots_after_finds a b
  have unchanged : ∀ first second, ((uf.find a).1.find b).1.Connected first second ↔
      uf.Connected first second := by
    intro first second
    rw [find_connected_iff, find_connected_iff]
  simp only [union]
  split
  · next same =>
      rw [unchanged]
      constructor
      · exact .inl
      · intro either
        have joined : uf.Connected a b := equivalence.trans aRoot (same ▸ equivalence.symm bRoot)
        rcases either with old | forward | backward
        · exact old
        · exact equivalence.trans forward.1 (equivalence.trans joined (equivalence.symm forward.2))
        · exact equivalence.trans backward.1
            (equivalence.trans (equivalence.symm joined) (equivalence.symm backward.2))
  · split
    · rw [link_connected_iff _ roots.2 roots.1]
      simp only [unchanged, byRoot aRoot, byRoot bRoot]
      tauto
    · rw [link_connected_iff _ roots.1 roots.2]
      simp only [unchanged, byRoot aRoot, byRoot bRoot]

theorem union_elements {a b : Element} (aIn : a ∈ uf.elements) (bIn : b ∈ uf.elements) :
    (uf.union a b).elements = uf.elements := by
  have bStays : b ∈ (uf.find a).1.elements := uf.mem_find_of_mem bIn
  have kept : ((uf.find a).1.find b).1.elements = uf.elements := by
    rw [(uf.find a).1.find_elements bStays, uf.find_elements aIn]
  simp only [union]
  split
  · exact kept
  · split <;> exact kept

/-- One turn of the loop of `components`, whose finds go on compressing. -/
def collect (state : UnionFind Element × List (Element × List Element)) (x : Element) :
    UnionFind Element × List (Element × List Element) :=
  ((state.1.find x).1, Foundation.Grouping.add (state.1.find x).2 x state.2)

def components : List (List Element) :=
  ((uf.elements.foldl collect (uf, [])).2).map Prod.snd

theorem root_eq_of_connected {later : UnionFind Element}
    (same : ∀ first second, Leads later.parent first second ↔ Leads uf.parent first second)
    (x : Element) : (later.find x).2 = (uf.find x).2 :=
  ((same x _).mp (later.leads_find x)).unique (uf.leads_find x)

theorem collected (state : UnionFind Element × List (Element × List Element))
    (same : ∀ first second, Leads state.1.parent first second ↔ Leads uf.parent first second) :
    (items.foldl collect state).2 =
      (items.map fun x => ((uf.find x).2, x)).foldl
        (fun groups pair => Foundation.Grouping.add pair.1 pair.2 groups) state.2 := by
  induction items generalizing state with
  | nil => rfl
  | cons x rest ih =>
    have stays : ∀ first second, Leads (collect state x).1.parent first second ↔
        Leads uf.parent first second := by
      intro first second
      rw [← same]
      exact state.1.find_leads_iff x first second
    rw [List.foldl_cons, ih _ stays, List.map_cons, List.foldl_cons]
    simp only [collect, uf.root_eq_of_connected same]

theorem components_eq :
    uf.components = (grouped (uf.elements.map fun x => ((uf.find x).2, x))).map Prod.snd := by
  rw [components, uf.collected uf.elements (uf, []) (fun _ _ => Iff.rfl)]
  rfl

theorem connected_iff_find (first second : Element) :
    uf.Connected first second ↔ (uf.find first).2 = (uf.find second).2 :=
  together_iff (uf.leads_find first) (uf.leads_find second)

theorem mem_components_iff (group : List Element) :
    group ∈ uf.components ↔ ∃ x ∈ uf.elements,
      group = uf.elements.filter fun other => (uf.find other).2 = (uf.find x).2 := by
  have items : ∀ key, itemsOf (uf.elements.map fun x => ((uf.find x).2, x)) key =
      uf.elements.filter fun other => (uf.find other).2 = key := by
    intro key
    simp [itemsOf, List.filter_map, Function.comp_def]
  rw [components_eq, List.mem_map]
  constructor
  · intro found
    obtain ⟨pair, member, rfl⟩ := found
    obtain ⟨keyed, hasItems⟩ := (mem_grouped_iff _ pair).mp member
    obtain ⟨entry, entryMember, isKey⟩ := List.mem_map.mp keyed
    obtain ⟨x, xMember, rfl⟩ := List.mem_map.mp entryMember
    exact ⟨x, xMember, by rw [hasItems, items, ← isKey]⟩
  · intro found
    obtain ⟨x, xMember, rfl⟩ := found
    refine ⟨((uf.find x).2, _), (mem_grouped_iff _ _).mpr ⟨?_, ?_⟩, rfl⟩
    · exact List.mem_map.mpr ⟨((uf.find x).2, x), List.mem_map_of_mem xMember, rfl⟩
    · rw [items]

theorem components_nodup {group : List Element} (member : group ∈ uf.components) : group.Nodup := by
  obtain ⟨x, _, rfl⟩ := (uf.mem_components_iff group).mp member
  exact uf.distinct.filter _

theorem components_disjoint : uf.components.Pairwise List.Disjoint := by
  have describes := describes_grouped (uf.elements.map fun x => ((uf.find x).2, x))
  rw [components_eq, List.pairwise_map]
  have apart := List.pairwise_map.mp describes.distinct
  refine List.Pairwise.imp_of_mem ?_ apart
  intro first second firstMember secondMember differ x inFirst inSecond
  rw [describes.members first firstMember, mem_itemsOf_iff] at inFirst
  rw [describes.members second secondMember, mem_itemsOf_iff] at inSecond
  obtain ⟨_, _, firstIs⟩ := List.mem_map.mp inFirst
  obtain ⟨_, _, secondIs⟩ := List.mem_map.mp inSecond
  simp only [Prod.mk.injEq] at firstIs secondIs
  exact differ (by rw [← firstIs.1, ← secondIs.1, firstIs.2, secondIs.2])

end UnionFind

end Ukip.Clustering
