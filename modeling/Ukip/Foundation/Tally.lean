import Mathlib.Data.List.Sort

/-!
# Multiset counters in order of first insertion

A counter keeps its items in the order in which they were first counted.  Sorting is
stable: items that come out equal stay in the order they had.
-/

namespace Foundation.Tally

variable {Item : Type}

abbrev Counter (Item : Type) := List (Item × Nat)

section Counting

variable [DecidableEq Item]

/-- One more of `item`. -/
def bump : Counter Item → Item → Counter Item
  | [], item => [(item, 1)]
  | (counted, count) :: rest, item =>
    if counted = item then (counted, count + 1) :: rest
    else (counted, count) :: bump rest item

def update (counter : Counter Item) (items : List Item) : Counter Item := items.foldl bump counter

/-- The count of `item`, 0 if it was never counted. -/
def counted (counter : Counter Item) (item : Item) : Nat :=
  ((counter.find? fun entry => entry.1 == item).map Prod.snd).getD 0

theorem bump_ne_nil (counter : Counter Item) (item : Item) : bump counter item ≠ [] := by
  cases counter with
  | nil => simp [bump]
  | cons entry rest =>
    unfold bump
    split <;> simp

theorem update_eq_nil_iff (counter : Counter Item) (items : List Item) :
    update counter items = [] ↔ counter = [] ∧ items = [] := by
  induction items generalizing counter with
  | nil => simp [update]
  | cons item rest ih =>
    have step : update counter (item :: rest) = update (bump counter item) rest := rfl
    rw [step, ih]
    simp [bump_ne_nil]

end Counting

/-- Stable sort; `precedes` says that the first may stand before the second. -/
def sortedBy (precedes : Item → Item → Bool) (items : List Item) : List Item :=
  items.insertionSort fun first second => precedes first second = true

variable (precedes : Item → Item → Bool)

theorem sortedBy_perm (items : List Item) :
    (sortedBy precedes items).Perm items := List.perm_insertionSort _ items

theorem sortedBy_eq_nil_iff (items : List Item) :
    sortedBy precedes items = [] ↔ items = [] := by
  constructor
  · intro empty
    have perm := sortedBy_perm precedes items
    rw [empty] at perm
    exact perm.nil_eq.symm
  · rintro rfl
    rfl

def mostCommon (counter : Counter Item) : Counter Item :=
  sortedBy (fun first second => decide (second.2 ≤ first.2)) counter

def combinations : List Item → List (Item × Item)
  | [] => []
  | head :: rest => rest.map (fun other => (head, other)) ++ combinations rest

theorem mem_combinations {Item : Type} (items : List Item) (pair : Item × Item)
    (member : pair ∈ combinations items) : pair.1 ∈ items ∧ pair.2 ∈ items := by
  induction items with
  | nil => cases member
  | cons head rest ih =>
    rcases List.mem_append.mp member with here | later
    · obtain ⟨other, otherMember, rfl⟩ := List.mem_map.mp here
      exact ⟨List.mem_cons_self, List.mem_cons_of_mem head otherMember⟩
    · exact ⟨List.mem_cons_of_mem head (ih later).1, List.mem_cons_of_mem head (ih later).2⟩

theorem combinations_complete {Item : Type} {items : List Item} {first second : Item}
    (firstIn : first ∈ items) (secondIn : second ∈ items) :
    first = second ∨ (first, second) ∈ combinations items ∨ (second, first) ∈ combinations items := by
  induction items with
  | nil => cases firstIn
  | cons head rest ih =>
    have withHead : ∀ {other : Item}, other ∈ rest → (head, other) ∈ combinations (head :: rest) :=
      fun member => List.mem_append_left _ (List.mem_map_of_mem member)
    rcases List.mem_cons.mp firstIn with rfl | firstLater
    · rcases List.mem_cons.mp secondIn with rfl | secondLater
      · exact .inl rfl
      · exact .inr (.inl (withHead secondLater))
    · rcases List.mem_cons.mp secondIn with rfl | secondLater
      · exact .inr (.inr (withHead firstLater))
      · rcases ih firstLater secondLater with same | straight | crossed
        · exact .inl same
        · exact .inr (.inl (List.mem_append_right _ straight))
        · exact .inr (.inr (List.mem_append_right _ crossed))

theorem combinations_apart {Item Key : Type} (keyOf : Item → Key) (items : List Item)
    (distinct : (items.map keyOf).Nodup) (pair : Item × Item)
    (member : pair ∈ combinations items) : keyOf pair.1 ≠ keyOf pair.2 := by
  induction items with
  | nil => cases member
  | cons head rest ih =>
    obtain ⟨fresh, distinctRest⟩ := List.nodup_cons.mp distinct
    rcases List.mem_append.mp member with here | later
    · obtain ⟨other, otherMember, rfl⟩ := List.mem_map.mp here
      exact fun same => fresh (same ▸ List.mem_map_of_mem otherMember)
    · exact ih distinctRest later

end Foundation.Tally
