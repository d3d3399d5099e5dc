import Ukip.Foundation.StableSort

/-!
# Rows in the order of a key

What a query with an ORDER BY may return: the rows, sorted by the key.  Rows with equal
keys may come in any order, and so may the elements of a set.
-/

namespace Foundation

variable {Row : Type}

structure SetOrder (Element : Type) where
  visit : List Element → List Element
  perm : ∀ elements, (visit elements).Perm elements

structure OrderBy (key : Row → Int) where
  arrange : List Row → List Row
  perm : ∀ rows, (arrange rows).Perm rows
  sorted : ∀ rows, (arrange rows).Pairwise fun first second => key first ≤ key second

namespace OrderBy

open Tally

theorem ranking_key (key : Row → Int) :
    Ranking fun first second => decide (key first ≤ key second) where
  total := by
    intro a b
    simpa using Int.le_total (key a) (key b)
  trans := by
    intro a b c ab bc
    simpa using Int.le_trans (of_decide_eq_true ab) (of_decide_eq_true bc)

def stable (key : Row → Int) : OrderBy key where
  arrange := sortedBy fun first second => decide (key first ≤ key second)
  perm := sortedBy_perm _
  sorted := by
    intro rows
    simpa using pairwise_sortedBy (ranking_key key) rows

variable {key : Row → Int} (order : OrderBy key)

theorem mem_arrange (rows : List Row) (row : Row) : row ∈ order.arrange rows ↔ row ∈ rows :=
  (order.perm rows).mem_iff

theorem le_of_find?_arrange {rows : List Row} {meets : Row → Bool} {first : Row}
    (found : (order.arrange rows).find? meets = some first) :
    (first ∈ rows ∧ meets first = true) ∧
      ∀ row ∈ rows, meets row = true → key first ≤ key row := by
  obtain ⟨holds, before, after, split, fails⟩ := List.find?_eq_some_iff_append.mp found
  have sorted := order.sorted rows
  rw [split] at sorted
  refine ⟨⟨(order.mem_arrange rows first).mp (List.mem_of_find?_eq_some found), holds⟩, ?_⟩
  intro row member rowMeets
  have arranged := (order.mem_arrange rows row).mpr member
  rw [split] at arranged
  rcases List.mem_append.mp arranged with earlier | later
  · have missed := fails row earlier
    rw [rowMeets] at missed
    cases missed
  · rcases List.mem_cons.mp later with rfl | later
    · exact Int.le_refl _
    · exact (List.pairwise_cons.mp (List.pairwise_append.mp sorted).2.1).1 row later

end OrderBy

end Foundation
