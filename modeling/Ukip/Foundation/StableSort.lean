import Ukip.Foundation.Tally

/-!
# Stable sorts of permuted lists

A stable sort leaves its ties in the order in which they came.  So two permutations of one
list come out alike where both were in some order that tells the ties apart.
-/

namespace Foundation.Tally

variable {Item : Type}

/-- `precedes` is a total preorder. -/
structure Ranking (precedes : Item → Item → Bool) : Prop where
  total : ∀ a b, precedes a b = true ∨ precedes b a = true
  trans : ∀ a b c, precedes a b = true → precedes b c = true → precedes a c = true

/-- In order of `precedes`, and of `before` where it leaves a tie. -/
def Refined (precedes : Item → Item → Bool) (before : Item → Item → Prop) (a b : Item) : Prop :=
  precedes a b = true ∧ (precedes b a = true → before a b)

variable {precedes : Item → Item → Bool} {before : Item → Item → Prop}

theorem pairwise_sortedBy (ranking : Ranking precedes) (items : List Item) :
    (sortedBy precedes items).Pairwise fun a b => precedes a b = true := by
  have total : Std.Total fun a b => precedes a b = true := ⟨ranking.total⟩
  have trans : IsTrans Item fun a b => precedes a b = true := ⟨ranking.trans⟩
  exact List.pairwise_insertionSort _ items

theorem pairwise_orderedInsert {item : Item} {sorted : List Item} (ranking : Ranking precedes)
    (first : ∀ other ∈ sorted, before item other) (ordered : sorted.Pairwise (Refined precedes before)) :
    (sorted.orderedInsert (fun a b => precedes a b = true) item).Pairwise (Refined precedes before) := by
  induction sorted with
  | nil => exact List.pairwise_singleton _ item
  | cons head rest ih =>
    obtain ⟨headFirst, restOrdered⟩ := List.pairwise_cons.mp ordered
    rw [List.orderedInsert_cons]
    split
    · next leads =>
        refine List.pairwise_cons.mpr ⟨?_, ordered⟩
        intro other member
        refine ⟨?_, fun _ => first other member⟩
        rcases List.mem_cons.mp member with isHead | later
        · rw [isHead]
          exact leads
        · exact ranking.trans _ _ _ leads (headFirst other later).1
    · next trails =>
        have headLeads := (ranking.total head item).resolve_right trails
        refine List.pairwise_cons.mpr ⟨?_, ih (fun other member =>
          first other (List.mem_cons_of_mem head member)) restOrdered⟩
        intro other member
        rcases (List.mem_orderedInsert _).mp member with isItem | later
        · rw [isItem]
          exact ⟨headLeads, fun back => absurd back trails⟩
        · exact headFirst other later

theorem pairwise_sortedBy_refined (ranking : Ranking precedes) {items : List Item}
    (ordered : items.Pairwise before) :
    (sortedBy precedes items).Pairwise (Refined precedes before) := by
  induction items with
  | nil => exact List.Pairwise.nil
  | cons item rest ih =>
    obtain ⟨first, restOrdered⟩ := List.pairwise_cons.mp ordered
    apply pairwise_orderedInsert ranking
    · intro other member
      exact first other ((sortedBy_perm precedes rest).mem_iff.mp member)
    · exact ih restOrdered

/-- Two permutations are sorted alike where the order that both were in tells the ties apart. -/
theorem sortedBy_eq_of_perm (ranking : Ranking precedes) {first second : List Item}
    (perm : first.Perm second) (firstOrdered : first.Pairwise before)
    (secondOrdered : second.Pairwise before)
    (apart : ∀ a ∈ first, ∀ b ∈ first, precedes a b = true → precedes b a = true →
      before a b → before b a → a = b) :
    sortedBy precedes first = sortedBy precedes second := by
  have sameItems : (sortedBy precedes first).Perm (sortedBy precedes second) :=
    ((sortedBy_perm precedes first).trans perm).trans (sortedBy_perm precedes second).symm
  apply sameItems.eq_of_pairwise _ (pairwise_sortedBy_refined ranking firstOrdered)
    (pairwise_sortedBy_refined ranking secondOrdered)
  intro a b inFirst inSecond forward backward
  have aIn := (sortedBy_perm precedes first).mem_iff.mp inFirst
  have bIn := (sortedBy_perm precedes first).mem_iff.mp (sameItems.mem_iff.mpr inSecond)
  exact apart a aIn b bIn forward.1 backward.1 (forward.2 backward.1) (backward.2 forward.1)

end Foundation.Tally
