import Mathlib.Data.List.Pairwise
import Mathlib.Data.Set.Pairwise.List

/-!
# Leaders whose groups may overlap

One pass over a list.  An item that no earlier group has is a leader: its group is everything that
it matches, also what an earlier group has already.  A group of one is dropped.  The groups are
disjoint exactly if no item is matched by two leaders.
-/

namespace Foundation.OverlappingLeaders

variable {Item : Type} [DecidableEq Item] (members : Item → List Item)

def scan (processed : List Item) : List Item → List (Item × List Item)
  | [] => []
  | item :: rest =>
    if item ∈ processed then scan processed rest
    else if 1 < (members item).length then
      (item, members item) :: scan (members item ++ processed) rest
    else scan (item :: processed) rest

theorem scan_cons (processed : List Item) (item : Item) (rest : List Item) :
    scan members processed (item :: rest) =
      if item ∈ processed then scan members processed rest
      else if 1 < (members item).length then
        (item, members item) :: scan members (members item ++ processed) rest
      else scan members (item :: processed) rest := rfl

/-- A leader takes an item into its group. -/
def Takes (leader item : Item) : Prop := 1 < (members leader).length ∧ item ∈ members leader

instance (leader item : Item) : Decidable (Takes members leader item) :=
  inferInstanceAs (Decidable (_ ∧ _))

def leadersAfter (earlier : List Item) : List Item → List Item
  | [] => []
  | item :: rest =>
    if ∃ leader ∈ earlier, Takes members leader item then leadersAfter earlier rest
    else item :: leadersAfter (item :: earlier) rest

def leaders (items : List Item) : List Item := leadersAfter members [] items

theorem leadersAfter_cons (earlier : List Item) (item : Item) (rest : List Item) :
    leadersAfter members earlier (item :: rest) =
      if ∃ leader ∈ earlier, Takes members leader item then leadersAfter members earlier rest
      else item :: leadersAfter members (item :: earlier) rest := rfl

theorem leadersAfter_sublist (earlier items : List Item) :
    (leadersAfter members earlier items).Sublist items := by
  induction items generalizing earlier with
  | nil => exact List.Sublist.slnil
  | cons item rest ih =>
    rw [leadersAfter_cons]
    split
    · exact (ih earlier).cons item
    · exact (ih (item :: earlier)).cons_cons item

theorem leaders_sublist (items : List Item) : (leaders members items).Sublist items :=
  leadersAfter_sublist members [] items

theorem scan_eq (processed earlier items : List Item) (distinct : items.Nodup)
    (done : ∀ item ∈ items, item ∈ processed ↔ ∃ leader ∈ earlier, Takes members leader item) :
    scan members processed items =
      ((leadersAfter members earlier items).filter fun leader => 1 < (members leader).length).map
        fun leader => (leader, members leader) := by
  induction items generalizing processed earlier with
  | nil => rfl
  | cons item rest ih =>
    obtain ⟨fresh, restDistinct⟩ := List.nodup_cons.mp distinct
    have doneRest : ∀ other ∈ rest, other ∈ processed ↔
        ∃ leader ∈ earlier, Takes members leader other :=
      fun other member => done other (List.mem_cons_of_mem item member)
    have doneHere := done item List.mem_cons_self
    rw [scan_cons, leadersAfter_cons]
    by_cases known : item ∈ processed
    · rw [if_pos known, if_pos (doneHere.mp known)]
      exact ih processed earlier restDistinct doneRest
    · rw [if_neg known, if_neg fun taken => known (doneHere.mpr taken)]
      by_cases several : 1 < (members item).length
      · rw [if_pos several, List.filter_cons_of_pos (by simpa using several), List.map_cons]
        refine congrArg (List.cons _) (ih _ _ restDistinct fun other member => ?_)
        rw [List.mem_append, doneRest other member]
        simp [Takes, several]
      · rw [if_neg several, List.filter_cons_of_neg (by simpa using several)]
        refine ih _ _ restDistinct fun other member => ?_
        have differ : other ≠ item := fun same => fresh (same ▸ member)
        rw [List.mem_cons, or_iff_right differ, doneRest other member]
        simp [Takes, several]

theorem disjoint_iff (items : List Item) (distinct : items.Nodup) :
    ((scan members [] items).map Prod.snd).Pairwise List.Disjoint ↔
      ∀ first ∈ leaders members items, ∀ second ∈ leaders members items, first ≠ second →
        ∀ item, ¬(Takes members first item ∧ Takes members second item) := by
  have leadersDistinct : (leaders members items).Nodup :=
    distinct.sublist (leaders_sublist members items)
  have symmetric : Std.Symm fun first second : Item => List.Disjoint (members first) (members second) :=
    ⟨fun _ _ disjoint _ inSecond inFirst => disjoint inFirst inSecond⟩
  have groups : (scan members [] items).map Prod.snd =
      ((leaders members items).filter fun leader => 1 < (members leader).length).map members := by
    rw [scan_eq members [] [] items distinct (by simp), List.map_map]
    rfl
  rw [groups, List.pairwise_map, ← (leadersDistinct.filter _).pairwise_coe]
  constructor
  · rintro disjoint first firstLeads second secondLeads differ item ⟨firstTakes, secondTakes⟩
    refine disjoint (List.mem_filter.mpr ⟨firstLeads, ?_⟩) (List.mem_filter.mpr ⟨secondLeads, ?_⟩)
      differ firstTakes.2 secondTakes.2
    · exact decide_eq_true firstTakes.1
    · exact decide_eq_true secondTakes.1
  · intro apart first firstIn second secondIn differ item inFirst inSecond
    obtain ⟨firstLeads, firstSeveral⟩ := List.mem_filter.mp firstIn
    obtain ⟨secondLeads, secondSeveral⟩ := List.mem_filter.mp secondIn
    exact apart first firstLeads second secondLeads differ item
      ⟨⟨of_decide_eq_true firstSeveral, inFirst⟩, ⟨of_decide_eq_true secondSeveral, inSecond⟩⟩

end Foundation.OverlappingLeaders
