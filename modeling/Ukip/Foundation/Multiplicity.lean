import Ukip.Foundation.LogCount

/-!
# Counters as multisets

A counter that was built up from nothing has each item once, with the number of times it was
counted.  The order in which the items were counted shows in the order of the entries only.
-/

namespace Foundation.Tally

open LogCount

variable {Item : Type} [DecidableEq Item] {counter : Counter Item}

theorem counted_bump (counter : Counter Item) (item key : Item) :
    counted (bump counter item) key = counted counter key + if key = item then 1 else 0 := by
  have entry := entryOf_bump counter item key
  show (entryOf (bump counter item) key).getD 0 = (entryOf counter key).getD 0 + _
  rw [entry]
  by_cases same : item = key
  · rw [if_pos same, if_pos same.symm]
    rfl
  · rw [if_neg same, if_neg (Ne.symm same)]
    rfl

theorem counted_update (counter : Counter Item) (items : List Item) (key : Item) :
    counted (update counter items) key = counted counter key + items.count key := by
  induction items generalizing counter with
  | nil => rfl
  | cons item rest ih =>
    have step : update counter (item :: rest) = update (bump counter item) rest := rfl
    rw [step, ih, counted_bump, List.count_cons]
    by_cases same : item = key
    · rw [if_pos same.symm, if_pos (beq_iff_eq.mpr same)]
      omega
    · rw [if_neg (Ne.symm same), if_neg (by simpa using same)]
      omega

theorem keys_bump (counter : Counter Item) (item : Item) :
    (bump counter item).map Prod.fst =
      if item ∈ counter.map Prod.fst then counter.map Prod.fst
      else counter.map Prod.fst ++ [item] := by
  induction counter with
  | nil => rfl
  | cons entry rest ih =>
    obtain ⟨counted, count⟩ := entry
    unfold bump
    by_cases here : counted = item
    · rw [if_pos here, List.map_cons, List.map_cons, if_pos (by simp [here])]
    · rw [if_neg here, List.map_cons, List.map_cons, ih]
      by_cases later : item ∈ rest.map Prod.fst
      · rw [if_pos later, if_pos (List.mem_cons_of_mem _ later)]
      · rw [if_neg later, if_neg (by simpa [Ne.symm here] using later), List.cons_append]

structure Proper (counter : Counter Item) : Prop where
  once : (counter.map Prod.fst).Nodup
  positive : ∀ entry ∈ counter, 0 < entry.2

theorem nodup_keys_bump (once : (counter.map Prod.fst).Nodup) (item : Item) :
    ((bump counter item).map Prod.fst).Nodup := by
  rw [keys_bump]
  by_cases known : item ∈ counter.map Prod.fst
  · rw [if_pos known]
    exact once
  · rw [if_neg known]
    refine List.nodup_append.mpr ⟨once, List.nodup_singleton item, ?_⟩
    intro a member b isItem same
    have isKnown : a = item := same.trans (List.mem_singleton.mp isItem)
    exact known (isKnown ▸ member)

theorem positive_bump (positive : ∀ entry ∈ counter, 0 < entry.2) (item : Item) :
    ∀ entry ∈ bump counter item, 0 < entry.2 := by
  induction counter with
  | nil => simp [bump]
  | cons head rest ih =>
    obtain ⟨headPositive, restPositive⟩ := List.forall_mem_cons.mp positive
    unfold bump
    split
    · exact List.forall_mem_cons.mpr ⟨Nat.succ_pos _, restPositive⟩
    · exact List.forall_mem_cons.mpr ⟨headPositive, ih restPositive⟩

theorem Proper.update (proper : Proper counter) (items : List Item) : Proper (update counter items) := by
  induction items generalizing counter with
  | nil => exact proper
  | cons item rest ih =>
    exact ih ⟨nodup_keys_bump proper.once item, positive_bump proper.positive item⟩

theorem proper_update (items : List Item) : Proper (update [] items) := by
  have empty : Proper ([] : Counter Item) := ⟨List.nodup_nil, by simp⟩
  exact empty.update items

theorem Proper.counted_of_mem (proper : Proper counter) {entry : Item × Nat} (member : entry ∈ counter) :
    counted counter entry.1 = entry.2 := by
  have once := proper.once
  clear proper
  induction counter with
  | nil => cases member
  | cons head rest ih =>
    obtain ⟨fresh, onceRest⟩ := List.nodup_cons.mp once
    rcases List.mem_cons.mp member with rfl | later
    · simp [counted]
    · have other : head.1 ≠ entry.1 := fun same => fresh (same ▸ List.mem_map_of_mem later)
      have skip : counted (head :: rest) entry.1 = counted rest entry.1 := by
        simp [counted, other]
      rw [skip]
      exact ih later onceRest

theorem mem_of_counted {item : Item} (positive : 0 < counted counter item) :
    (item, counted counter item) ∈ counter := by
  unfold counted at positive ⊢
  cases found : counter.find? fun entry => entry.1 == item with
  | none => simp [found] at positive
  | some entry =>
    have here : entry.1 = item := by simpa using List.find?_some found
    have member := List.mem_of_find?_eq_some found
    subst here
    exact member

theorem Proper.mem_iff (proper : Proper counter) (entry : Item × Nat) :
    entry ∈ counter ↔ 0 < entry.2 ∧ counted counter entry.1 = entry.2 := by
  constructor
  · intro member
    exact ⟨proper.positive entry member, proper.counted_of_mem member⟩
  · rintro ⟨positive, count⟩
    have member := mem_of_counted (count ▸ positive : 0 < counted counter entry.1)
    rw [count] at member
    exact member

theorem Proper.perm {other : Counter Item} (proper : Proper counter) (properOther : Proper other)
    (alike : counted counter = counted other) : counter.Perm other := by
  apply (List.perm_ext_iff_of_nodup proper.once.of_map properOther.once.of_map).mpr
  intro entry
  rw [proper.mem_iff, properOther.mem_iff, alike]

theorem foldl_update (counter : Counter Item) (groups : List (List Item)) :
    groups.foldl update counter = update counter groups.flatten := by
  induction groups generalizing counter with
  | nil => rfl
  | cons group rest ih =>
    rw [List.foldl_cons, ih, List.flatten_cons]
    exact (List.foldl_append ..).symm

theorem count_flatten {Group : Type} (itemsOf : Group → List Item) (item : Item)
    {holds : Group → Prop} [DecidablePred holds] (once : ∀ group, (itemsOf group).Nodup)
    (mem : ∀ group, item ∈ itemsOf group ↔ holds group) (groups : List Group) :
    (groups.map itemsOf).flatten.count item = groups.countP fun group => decide (holds group) := by
  induction groups with
  | nil => rfl
  | cons group rest ih =>
    rw [List.map_cons, List.flatten_cons, List.count_append, ih, (once group).count, List.countP_cons]
    by_cases here : holds group
    · rw [if_pos ((mem group).mpr here), if_pos (decide_eq_true here), Nat.add_comm]
    · rw [if_neg fun member => here ((mem group).mp member), if_neg (by simpa using here),
        Nat.zero_add, Nat.add_zero]

theorem combinations_pairwise {Item : Type} {related : Item → Item → Prop} {items : List Item}
    (pairwise : items.Pairwise related) {pair : Item × Item} (member : pair ∈ combinations items) :
    related pair.1 pair.2 := by
  induction items with
  | nil => cases member
  | cons head rest ih =>
    obtain ⟨first, pairwiseRest⟩ := List.pairwise_cons.mp pairwise
    rcases List.mem_append.mp member with here | later
    · obtain ⟨other, otherMember, rfl⟩ := List.mem_map.mp here
      exact first other otherMember
    · exact ih pairwiseRest later

theorem combinations_nodup {Item : Type} {items : List Item} (once : items.Nodup) :
    (combinations items).Nodup := by
  induction items with
  | nil => exact List.nodup_nil
  | cons head rest ih =>
    obtain ⟨fresh, onceRest⟩ := List.nodup_cons.mp once
    have paired : (rest.map fun other => (head, other)).Nodup :=
      onceRest.map fun _ _ same => (Prod.mk.inj same).2
    refine List.nodup_append.mpr ⟨paired, ih onceRest, ?_⟩
    intro a here b later same
    obtain ⟨other, _, rfl⟩ := List.mem_map.mp here
    subst same
    exact fresh (mem_combinations rest _ later).1

theorem mem_combinations_iff {Item : Type} {before : Item → Item → Prop} {items : List Item}
    (ordered : items.Pairwise before) (asymm : ∀ a b, before a b → ¬before b a)
    {first second : Item} (precedes : before first second) :
    (first, second) ∈ combinations items ↔ first ∈ items ∧ second ∈ items := by
  constructor
  · exact mem_combinations items (first, second)
  · rintro ⟨firstIn, secondIn⟩
    rcases combinations_complete firstIn secondIn with same | straight | crossed
    · exact absurd (same ▸ precedes : before first first) (asymm first first (same ▸ precedes))
    · exact straight
    · exact absurd (combinations_pairwise ordered crossed) (asymm first second precedes)

end Foundation.Tally
