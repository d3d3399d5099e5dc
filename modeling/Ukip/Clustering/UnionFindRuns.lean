import Ukip.Clustering.UnionFind
import Ukip.Foundation.EventRun

/-!
# Sequences of calls

Any calls of `find`, `union` and `connected` on an empty structure: the parents never make a
cycle, the answers are those of the closure of the unions, and the components part the elements
that were mentioned.
-/

namespace Ukip.Clustering.UnionFind

open Foundation.EventRun Foundation.RootedForest

variable {Element : Type} [DecidableEq Element]

inductive Call (Element : Type)
  | find (x : Element)
  | union (a b : Element)
  | connected (a b : Element)

def Call.mentioned : Call Element → List Element
  | .find x => [x]
  | .union a b => [a, b]
  | .connected a b => [a, b]

section Calls

variable (uf : UnionFind Element)

/-- `connected`, which compresses the paths of both elements. -/
def connected (a b : Element) : UnionFind Element × Bool :=
  let first := uf.find a
  let second := first.1.find b
  (second.1, decide (first.2 = second.2))

def after : Call Element → UnionFind Element
  | .find x => (uf.find x).1
  | .union a b => uf.union a b
  | .connected a b => (uf.connected a b).1

theorem rank_iterate (x : Element) (turns : Nat) : uf.rank x ≤ uf.rank (uf.parent^[turns] x) := by
  induction turns generalizing x with
  | zero => exact le_rfl
  | succ turns ih =>
    rw [Function.iterate_succ_apply]
    by_cases isRoot : uf.parent x = x
    · rw [isRoot]
      exact ih x
    · exact (uf.ranked.rises x isRoot).le.trans (ih (uf.parent x))

theorem acyclic {x : Element} {turns : Nat} (cycle : uf.parent^[turns + 1] x = x) :
    uf.parent x = x := by
  by_contra moves
  have rises := uf.ranked.rises x moves
  have later := uf.rank_iterate (uf.parent x) turns
  rw [← Function.iterate_succ_apply, cycle] at later
  omega

theorem iterate_of_leads {x root : Element} (leads : Leads uf.parent x root) :
    ∃ turns, uf.parent^[turns] x = root ∧ uf.parent root = root := by
  induction leads with
  | here isRoot => exact ⟨0, rfl, isRoot⟩
  | up _ _ ih =>
    obtain ⟨turns, reached, isRoot⟩ := ih
    exact ⟨turns + 1, reached, isRoot⟩

theorem connected_iff (a b : Element) : (uf.connected a b).2 = true ↔ uf.Connected a b := by
  have later : ((uf.find a).1.find b).2 = (uf.find b).2 :=
    uf.root_eq_of_connected (uf.find_leads_iff a) b
  rw [uf.connected_iff_find, ← later]
  exact decide_eq_true_iff

theorem find_changes_no_answer (x : Element) :
    (∀ y, ((uf.find x).1.find y).2 = (uf.find y).2) ∧
      ∀ a b, ((uf.find x).1.connected a b).2 = (uf.connected a b).2 := by
  refine ⟨fun y => uf.root_eq_of_connected (uf.find_leads_iff x) y, fun a b => ?_⟩
  rw [Bool.eq_iff_iff, connected_iff, connected_iff, uf.find_connected_iff]

theorem mem_find_iff (x other : Element) :
    other ∈ (uf.find x).1.elements ↔ other ∈ uf.elements ∨ other = x := by
  have added := uf.mem_foldl_add_iff [x] other
  rw [List.mem_singleton] at added
  exact added

theorem mem_union_iff (a b other : Element) :
    other ∈ (uf.union a b).elements ↔ other ∈ uf.elements ∨ other = a ∨ other = b := by
  have finds : other ∈ ((uf.find a).1.find b).1.elements ↔
      other ∈ uf.elements ∨ other = a ∨ other = b := by
    rw [mem_find_iff, mem_find_iff, or_assoc]
  simp only [union]
  split
  · exact finds
  · split <;> exact finds

theorem mem_after_iff (call : Call Element) (other : Element) :
    other ∈ (uf.after call).elements ↔ other ∈ uf.elements ∨ other ∈ call.mentioned := by
  cases call with
  | find x =>
    rw [Call.mentioned, List.mem_singleton]
    exact uf.mem_find_iff x other
  | union a b =>
    rw [Call.mentioned, List.mem_pair]
    exact uf.mem_union_iff a b other
  | connected a b =>
    change other ∈ ((uf.find a).1.find b).1.elements ↔ _
    rw [mem_find_iff, mem_find_iff, or_assoc, Call.mentioned, List.mem_pair]

end Calls

def called (calls : List (Call Element)) : UnionFind Element := runEvents after empty calls

variable (calls : List (Call Element))

theorem called_append (call : Call Element) :
    called (calls ++ [call]) = (called calls).after call :=
  runEvents_append empty calls [call]

theorem mem_called_iff (x : Element) :
    x ∈ (called calls).elements ↔ ∃ call ∈ calls, x ∈ call.mentioned := by
  induction calls using List.reverseRecOn with
  | nil => simp [called, runEvents, empty]
  | append_singleton calls call ih =>
    rw [called_append, mem_after_iff, ih]
    simp [or_and_right, exists_or]

/-- Two elements of one union among the calls. -/
def United (calls : List (Call Element)) (a b : Element) : Prop := Call.union a b ∈ calls

theorem eqvGen_union {calls : List (Call Element)} {uf : UnionFind Element}
    (before : ∀ first second, uf.Connected first second ↔
      Relation.EqvGen (United calls) first second) (a b first second : Element) :
    (uf.union a b).Connected first second ↔
      Relation.EqvGen (United (calls ++ [.union a b])) first second := by
  have grows : ∀ {first second}, uf.Connected first second →
      Relation.EqvGen (United (calls ++ [.union a b])) first second := by
    intro first second path
    exact ((before first second).mp path).mono fun _ _ old => List.mem_append_left _ old
  have newest : Relation.EqvGen (United (calls ++ [.union a b])) a b :=
    .rel a b (List.mem_append_right _ (List.mem_singleton_self _))
  have equivalence := (uf.union a b).connected_equivalence
  have kept : ∀ {first second}, uf.Connected first second →
      (uf.union a b).Connected first second := fun path =>
    (uf.union_connected_iff a b _ _).mpr (.inl path)
  constructor
  · intro path
    rcases (uf.union_connected_iff a b first second).mp path with old | forward | backward
    · exact grows old
    · exact (grows forward.1).trans _ _ _ (newest.trans _ _ _ ((grows forward.2).symm _ _))
    · exact (grows backward.1).trans _ _ _
        ((newest.symm _ _).trans _ _ _ ((grows backward.2).symm _ _))
  · intro closure
    induction closure with
    | rel x y listed =>
      rcases List.mem_append.mp listed with old | isLast
      · exact kept ((before x y).mpr (.rel x y old))
      · obtain ⟨rfl, rfl⟩ : x = a ∧ y = b := by simpa using isLast
        exact (uf.union_connected_iff x y x y).mpr
          (.inr (.inl ⟨uf.connected_equivalence.refl x, uf.connected_equivalence.refl y⟩))
    | refl x => exact equivalence.refl x
    | symm x y _ ih => exact equivalence.symm ih
    | trans x y z _ _ first second => exact equivalence.trans first second

omit [DecidableEq Element] in
theorem united_append_iff {calls : List (Call Element)} {call : Call Element}
    (noUnion : ∀ a b, call ≠ .union a b) : United (calls ++ [call]) = United calls := by
  funext a b
  simp [United, Ne.symm (noUnion a b)]

theorem called_connected_iff (first second : Element) :
    (called calls).Connected first second ↔ Relation.EqvGen (United calls) first second := by
  induction calls using List.reverseRecOn generalizing first second with
  | nil =>
    have alone := ofElements_connected_iff [] first second
    change (ofElements []).Connected first second ↔ _
    rw [alone]
    clear alone
    constructor
    · rintro rfl
      exact .refl first
    · intro closure
      induction closure with
      | rel x y listed => cases listed
      | refl x => rfl
      | symm x y _ ih => exact ih.symm
      | trans x y z _ _ first second => exact first.trans second
  | append_singleton calls call ih =>
    rw [called_append]
    cases call with
    | find x =>
      rw [united_append_iff (nofun), ← ih]
      exact find_connected_iff _ x first second
    | union a b => exact eqvGen_union ih a b first second
    | connected a b =>
      rw [united_append_iff (nofun), ← ih]
      change (((called calls).find a).1.find b).1.Connected first second ↔ _
      rw [find_connected_iff, find_connected_iff]

/-- The groups part the elements, each the class of those connected to one of them. -/
structure Parts (groups : List (List Element)) (isElement : Element → Prop)
    (related : Element → Element → Prop) : Prop where
  covers : ∀ x, isElement x ↔ ∃ group ∈ groups, x ∈ group
  filled : ∀ group ∈ groups, group ≠ []
  distinct : ∀ group ∈ groups, group.Nodup
  disjoint : groups.Pairwise List.Disjoint
  classes : ∀ group ∈ groups, ∀ x ∈ group, ∀ y, y ∈ group ↔ isElement y ∧ related x y

theorem components_parts (uf : UnionFind Element) :
    Parts uf.components (· ∈ uf.elements) uf.Connected := by
  refine ⟨fun x => ⟨fun known => ?_, ?_⟩, ?_, fun group => uf.components_nodup,
    uf.components_disjoint, ?_⟩
  · exact ⟨_, (uf.mem_components_iff _).mpr ⟨x, known, rfl⟩,
      List.mem_filter.mpr ⟨known, decide_eq_true rfl⟩⟩
  · rintro ⟨group, listed, inGroup⟩
    obtain ⟨_, _, rfl⟩ := (uf.mem_components_iff group).mp listed
    exact (List.mem_filter.mp inGroup).1
  · intro group listed
    obtain ⟨x, known, rfl⟩ := (uf.mem_components_iff group).mp listed
    exact List.ne_nil_of_mem (List.mem_filter.mpr ⟨known, decide_eq_true rfl⟩)
  · intro group listed x inGroup y
    obtain ⟨start, _, rfl⟩ := (uf.mem_components_iff group).mp listed
    have sameRoot := of_decide_eq_true (List.mem_filter.mp inGroup).2
    rw [List.mem_filter, decide_eq_true_iff, uf.connected_iff_find, sameRoot]
    exact and_congr_right fun _ => eq_comm

/-- After any calls the parents make no cycle and lead every find to its answer, the answers of
`connected` are those of the closure of the unions, finds change no answers, and the components
part the mentioned elements. -/
theorem calls_sound (calls : List (Call Element)) :
    (∀ x turns, (called calls).parent^[turns + 1] x = x → (called calls).parent x = x) ∧
      (∀ x, ∃ turns, (called calls).parent^[turns] x = ((called calls).find x).2 ∧
        (called calls).parent ((called calls).find x).2 = ((called calls).find x).2) ∧
      (∀ a b, ((called calls).connected a b).2 = true ↔ Relation.EqvGen (United calls) a b) ∧
      (∀ x, (∀ y, (((called calls).find x).1.find y).2 = ((called calls).find y).2) ∧
        ∀ a b, (((called calls).find x).1.connected a b).2 = ((called calls).connected a b).2) ∧
      Parts (called calls).components (fun x => ∃ call ∈ calls, x ∈ call.mentioned)
        (Relation.EqvGen (United calls)) := by
  refine ⟨fun x turns => (called calls).acyclic,
    fun x => (called calls).iterate_of_leads ((called calls).leads_find x), fun a b => ?_,
    (called calls).find_changes_no_answer, ?_⟩
  · rw [connected_iff, called_connected_iff]
  · have parts := (called calls).components_parts
    simp only [mem_called_iff] at parts
    exact ⟨parts.covers, parts.filled, parts.distinct, parts.disjoint, fun group listed x inGroup y =>
      (parts.classes group listed x inGroup y).trans
        (and_congr_right fun _ => called_connected_iff calls x y)⟩

end Ukip.Clustering.UnionFind
