import Mathlib.Algebra.BigOperators.Ring.Finset

/-!
# Fibers of a list

The items of a list with one key.  A sum over the list is the sum over the keys of the sums over
their fibers, whatever order the items come in and however often an item comes.
-/

namespace Foundation.Fibers

variable {Item Key : Type} [DecidableEq Key]

def fiber (key : Item → Key) (items : List Item) (wanted : Key) : List Item :=
  items.filter fun item => key item = wanted

variable {key : Item → Key} {items : List Item} {wanted : Key}

theorem mem_fiber {item : Item} : item ∈ fiber key items wanted ↔ item ∈ items ∧ key item = wanted := by
  simp [fiber]

theorem fiber_cons (item : Item) (rest : List Item) :
    fiber key (item :: rest) wanted =
      if key item = wanted then item :: fiber key rest wanted else fiber key rest wanted := by
  by_cases same : key item = wanted <;> simp [fiber, same]

theorem fiber_perm {others : List Item} (perm : items.Perm others) :
    (fiber key items wanted).Perm (fiber key others wanted) := perm.filter _

theorem fiber_map {Other : Type} {OtherKey : Type} [DecidableEq OtherKey] {otherKey : Other → OtherKey}
    {rename : Item → Other} {renameKey : Key → OtherKey} (injective : Function.Injective renameKey)
    (keyed : ∀ item, otherKey (rename item) = renameKey (key item)) :
    fiber otherKey (items.map rename) (renameKey wanted) = (fiber key items wanted).map rename := by
  induction items with
  | nil => rfl
  | cons item rest ih =>
    rw [List.map_cons, fiber_cons, fiber_cons, ih, keyed]
    by_cases same : key item = wanted
    · rw [if_pos same, if_pos (congrArg renameKey same), List.map_cons]
    · rw [if_neg same, if_neg fun renamed => same (injective renamed)]

section Sums

variable {Amount : Type} [AddCommMonoid Amount] (keys : Finset Key)

theorem sum_fiber (amount : Item → Amount) (within : ∀ item ∈ items, key item ∈ keys) :
    ∑ wanted ∈ keys, ((fiber key items wanted).map amount).sum = (items.map amount).sum := by
  induction items with
  | nil => simp [fiber]
  | cons item rest ih =>
    have head := within item List.mem_cons_self
    have others := ih fun other member => within other (List.mem_cons_of_mem item member)
    have split : ∀ wanted, ((fiber key (item :: rest) wanted).map amount).sum =
        (if key item = wanted then amount item else 0) + ((fiber key rest wanted).map amount).sum := by
      intro wanted
      rw [fiber_cons]
      by_cases same : key item = wanted <;> simp [same]
    rw [Finset.sum_congr rfl fun wanted _ => split wanted, Finset.sum_add_distrib, others,
      Finset.sum_ite_eq, if_pos head, List.map_cons, List.sum_cons]

theorem sum_length_fiber (within : ∀ item ∈ items, key item ∈ keys) :
    ∑ wanted ∈ keys, (fiber key items wanted).length = items.length := by
  have counted := sum_fiber keys (fun _ : Item => 1) within
  simpa using counted

theorem sum_map_key (amount : Key → Amount) (within : ∀ item ∈ items, key item ∈ keys) :
    (items.map fun item => amount (key item)).sum =
      ∑ wanted ∈ keys, (fiber key items wanted).length • amount wanted := by
  rw [← sum_fiber keys (fun item => amount (key item)) within]
  refine Finset.sum_congr rfl fun wanted _ => ?_
  have level : (fiber key items wanted).map (fun item => amount (key item)) =
      List.replicate (fiber key items wanted).length (amount wanted) := by
    rw [List.eq_replicate_iff]
    refine ⟨List.length_map .., fun value member => ?_⟩
    obtain ⟨item, inFiber, rfl⟩ := List.mem_map.mp member
    rw [(mem_fiber.mp inFiber).2]
  rw [level, List.sum_replicate]

end Sums

end Foundation.Fibers
