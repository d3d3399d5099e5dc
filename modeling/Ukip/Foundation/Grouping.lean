import Mathlib.Data.List.Induction
import Mathlib.Data.List.Nodup

/-!
# Items grouped by key

Items are added to the group of their key, and groups stay in the order of their first
items.  Each group then has the items of its key, in the order in which they came.
-/

namespace Foundation.Grouping

variable {Key Item : Type} [DecidableEq Key]

/-- `groups.setdefault(key, []).append(item)` -/
def add (key : Key) (item : Item) : List (Key × List Item) → List (Key × List Item)
  | [] => [(key, [item])]
  | (other, members) :: rest =>
    if other = key then (other, members ++ [item]) :: rest
    else (other, members) :: add key item rest

def grouped (pairs : List (Key × Item)) : List (Key × List Item) :=
  pairs.foldl (fun groups pair => add pair.1 pair.2 groups) []

def itemsOf (pairs : List (Key × Item)) (key : Key) : List Item :=
  (pairs.filter fun pair => pair.1 = key).map Prod.snd

variable (pairs : List (Key × Item)) (key : Key) (item : Item)

theorem mem_itemsOf_iff :
    item ∈ itemsOf pairs key ↔ (key, item) ∈ pairs := by
  simp [itemsOf]

structure Describes (groups : List (Key × List Item)) (pairs : List (Key × Item)) : Prop where
  distinct : (groups.map Prod.fst).Nodup
  members : ∀ group ∈ groups, group.2 = itemsOf pairs group.1
  keyed : ∀ key, key ∈ groups.map Prod.fst ↔ key ∈ pairs.map Prod.fst

variable (groups : List (Key × List Item))

theorem keys_add :
    (add key item groups).map Prod.fst =
      if key ∈ groups.map Prod.fst then groups.map Prod.fst else groups.map Prod.fst ++ [key] := by
  induction groups with
  | nil => simp [add]
  | cons group rest ih =>
    unfold add
    by_cases same : group.1 = key
    · simp [same]
    · rw [if_neg same, List.map_cons, ih]
      by_cases later : key ∈ rest.map Prod.fst <;> simp [later, Ne.symm same]

theorem mem_add {key : Key} {item : Item} {groups : List (Key × List Item)}
    (distinct : (groups.map Prod.fst).Nodup) {group : Key × List Item}
    (member : group ∈ add key item groups) :
    (group ∈ groups ∧ group.1 ≠ key) ∨ (∃ old, (key, old) ∈ groups ∧ group = (key, old ++ [item])) ∨
      (key ∉ groups.map Prod.fst ∧ group = (key, [item])) := by
  induction groups with
  | nil =>
    rw [add, List.mem_singleton] at member
    exact .inr (.inr ⟨by simp, member⟩)
  | cons head rest ih =>
    rw [List.map_cons, List.nodup_cons] at distinct
    unfold add at member
    split at member
    · next same =>
        rcases List.mem_cons.mp member with isHead | later
        · refine .inr (.inl ⟨head.2, ?_, ?_⟩)
          · rw [← same]
            exact List.mem_cons_self
          · rw [isHead, same]
        · refine .inl ⟨List.mem_cons_of_mem head later, ?_⟩
          intro sameKey
          exact distinct.1 (same ▸ sameKey ▸ List.mem_map_of_mem later)
    · next differ =>
        rcases List.mem_cons.mp member with isHead | later
        · exact .inl ⟨isHead ▸ List.mem_cons_self, by rw [isHead]; exact differ⟩
        · rcases ih distinct.2 later with old | grown | fresh
          · exact .inl ⟨List.mem_cons_of_mem head old.1, old.2⟩
          · obtain ⟨old, oldMember, isGrown⟩ := grown
            exact .inr (.inl ⟨old, List.mem_cons_of_mem head oldMember, isGrown⟩)
          · refine .inr (.inr ⟨?_, fresh.2⟩)
            rw [List.map_cons, List.mem_cons]
            exact fun found => found.elim (fun same => differ same.symm) fresh.1

theorem itemsOf_append (pair : Key × Item) (key : Key) :
    itemsOf (pairs ++ [pair]) key =
      if pair.1 = key then itemsOf pairs key ++ [pair.2] else itemsOf pairs key := by
  by_cases same : pair.1 = key <;> simp [itemsOf, same]

theorem itemsOf_eq_nil {pairs : List (Key × Item)} {key : Key}
    (absent : key ∉ pairs.map Prod.fst) : itemsOf pairs key = [] := by
  rw [List.eq_nil_iff_forall_not_mem]
  intro item member
  exact absent (List.mem_map_of_mem ((mem_itemsOf_iff pairs key item).mp member))

theorem Describes.add {groups : List (Key × List Item)} {pairs : List (Key × Item)}
    (describes : Describes groups pairs) (pair : Key × Item) :
    Describes (add pair.1 pair.2 groups) (pairs ++ [pair]) where
  distinct := by
    rw [keys_add]
    split
    · exact describes.distinct
    · next fresh =>
        have apart : ∀ key ∈ groups.map Prod.fst, key ≠ pair.1 :=
          fun key member same => fresh (same ▸ member)
        simpa [List.nodup_append, describes.distinct] using apart
  members := by
    intro group member
    rw [itemsOf_append]
    rcases mem_add describes.distinct member with old | grown | fresh
    · rw [if_neg (Ne.symm old.2)]
      exact describes.members group old.1
    · obtain ⟨old, oldMember, rfl⟩ := grown
      rw [if_pos rfl, ← describes.members _ oldMember]
    · rw [fresh.2, if_pos rfl, itemsOf_eq_nil, List.nil_append]
      rw [← describes.keyed]
      exact fresh.1
  keyed := by
    intro key
    rw [keys_add, List.map_append, List.mem_append, ← describes.keyed]
    split
    · next found =>
        simp only [List.map_cons, List.map_nil, List.mem_singleton]
        constructor
        · exact .inl
        · intro either
          rcases either with old | isNew
          · exact old
          · exact isNew ▸ found
    · rw [List.mem_append]
      rfl

theorem grouped_concat (pair : Key × Item) :
    grouped (pairs ++ [pair]) = add pair.1 pair.2 (grouped pairs) := by
  simp [grouped]

theorem describes_grouped : Describes (grouped pairs) pairs := by
  induction pairs using List.reverseRecOn with
  | nil => exact ⟨List.nodup_nil, by simp [grouped], by simp [grouped]⟩
  | append_singleton pairs pair ih =>
    rw [grouped_concat]
    exact ih.add pair

theorem flatMap_add_perm :
    ((add key item groups).flatMap Prod.snd).Perm (item :: groups.flatMap Prod.snd) := by
  induction groups with
  | nil => exact List.Perm.refl _
  | cons group rest ih =>
    obtain ⟨other, members⟩ := group
    rw [add]
    split
    · rw [List.flatMap_cons, List.flatMap_cons, List.append_assoc]
      exact List.perm_middle
    · rw [List.flatMap_cons, List.flatMap_cons]
      exact (ih.append_left members).trans List.perm_middle

theorem flatMap_grouped_perm : ((grouped pairs).flatMap Prod.snd).Perm (pairs.map Prod.snd) := by
  induction pairs using List.reverseRecOn with
  | nil => exact List.Perm.refl _
  | append_singleton pairs pair ih =>
    rw [grouped_concat, List.map_append]
    refine (flatMap_add_perm _ _ _).trans ((ih.cons pair.2).trans ?_)
    exact (List.perm_append_singleton _ _).symm

theorem mem_grouped_iff (group : Key × List Item) :
    group ∈ grouped pairs ↔ group.1 ∈ pairs.map Prod.fst ∧ group.2 = itemsOf pairs group.1 := by
  have describes := describes_grouped pairs
  constructor
  · intro member
    exact ⟨(describes.keyed group.1).mp (List.mem_map_of_mem member), describes.members group member⟩
  · intro found
    obtain ⟨other, member, sameKey⟩ := List.mem_map.mp ((describes.keyed group.1).mpr found.1)
    have same : other = group := by
      apply Prod.ext sameKey
      rw [describes.members other member, found.2, sameKey]
    exact same ▸ member

/-- `map.entry(key).or_insert(item)` -/
def firsts (keyOf : Item → Key) : List Item → List Item
  | [] => []
  | item :: rest => item :: (firsts keyOf rest).filter fun other => keyOf other ≠ keyOf item

variable (keyOf : Item → Key)

theorem mem_firsts_iff (items : List Item) (item : Item) :
    item ∈ firsts keyOf items ↔
      items.find? (fun other => keyOf other = keyOf item) = some item := by
  induction items with
  | nil => simp [firsts]
  | cons head rest ih =>
    rw [firsts, List.mem_cons, List.mem_filter, ih]
    by_cases same : keyOf head = keyOf item
    · rw [List.find?_cons_of_pos (by simpa using same)]
      simp [same, eq_comm]
    · rw [List.find?_cons_of_neg (by simpa using same)]
      have apart : item ≠ head := fun isHead => same (congrArg keyOf isHead.symm)
      simp [apart, Ne.symm same]

theorem mem_of_mem_firsts {keyOf : Item → Key} {items : List Item} {item : Item}
    (member : item ∈ firsts keyOf items) : item ∈ items :=
  List.mem_of_find?_eq_some ((mem_firsts_iff keyOf items item).mp member)

theorem nodup_map_firsts (items : List Item) : ((firsts keyOf items).map keyOf).Nodup := by
  induction items with
  | nil => exact List.nodup_nil
  | cons head rest ih =>
    rw [firsts, List.map_cons, List.nodup_cons]
    refine ⟨?_, ih.sublist (List.filter_sublist.map keyOf)⟩
    intro again
    obtain ⟨other, member, same⟩ := List.mem_map.mp again
    have apart : keyOf other ≠ keyOf head := by simpa using (List.mem_filter.mp member).2
    exact apart same

theorem exists_mem_firsts {items : List Item} {item : Item} (member : item ∈ items) :
    ∃ first ∈ firsts keyOf items, keyOf first = keyOf item := by
  cases found : items.find? fun other => keyOf other = keyOf item with
  | none =>
    have absent := List.find?_eq_none.mp found item member
    simp at absent
  | some first =>
    have same : keyOf first = keyOf item := by simpa using List.find?_some found
    refine ⟨first, ?_, same⟩
    rw [mem_firsts_iff, same]
    exact found

theorem lookup_map {Value : Type} (valueOf : Item → Value) (key : Key) (items : List Item) :
    (items.map fun item => (keyOf item, valueOf item)).lookup key =
      (items.find? fun item => keyOf item = key).map valueOf := by
  induction items with
  | nil => rfl
  | cons item rest ih =>
    rw [List.map_cons, List.lookup_cons, ih]
    by_cases same : keyOf item = key
    · simp [same]
    · rw [beq_eq_false_iff_ne.mpr (Ne.symm same)]
      simp [same]

end Foundation.Grouping
