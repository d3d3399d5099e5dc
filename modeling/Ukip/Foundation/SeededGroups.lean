import Mathlib.Data.List.Sort

/-!
# Groups around seeds

The first few items of a ranking seed a group each.  Every other item joins the seed that it
scores highest with, the first of these in the ranking, and none where it scores zero with
all of them.
-/

namespace Foundation.SeededGroups

variable {Item : Type}

def closestFrom (score : Item → Nat) (best : Option Item × Nat) (seeds : List Item) : Option Item × Nat :=
  seeds.foldl (fun best seed => if best.2 < score seed then (some seed, score seed) else best) best

def closest (score : Item → Nat) (seeds : List Item) : Option Item :=
  (closestFrom score (none, 0) seeds).1

/-- The seeds before it score less, and those after it no more. -/
def Closest (score : Item → Nat) (seeds : List Item) (seed : Item) : Prop :=
  0 < score seed ∧ ∃ before after, seeds = before ++ seed :: after ∧
    (∀ other ∈ before, score other < score seed) ∧ ∀ other ∈ after, score other ≤ score seed

inductive Standing (score : Item → Nat) (passed : List Item) : Option Item × Nat → Prop where
  | nothing : (∀ seed ∈ passed, score seed = 0) → Standing score passed (none, 0)
  | leader (seed : Item) : Closest score passed seed → Standing score passed (some seed, score seed)

variable {score : Item → Nat} {passed seeds : List Item} {seed : Item}

theorem Closest.atMost (closest : Closest score seeds seed) {other : Item} (member : other ∈ seeds) :
    score other ≤ score seed := by
  obtain ⟨_, before, after, split, lower, atMost⟩ := closest
  rw [split] at member
  rcases List.mem_append.mp member with isBefore | later
  · exact (lower other isBefore).le
  · rcases List.mem_cons.mp later with rfl | isAfter
    · exact le_rfl
    · exact atMost other isAfter

theorem Closest.mem (closest : Closest score seeds seed) : seed ∈ seeds := by
  obtain ⟨_, before, after, rfl, _⟩ := closest
  exact List.mem_append_right before List.mem_cons_self

theorem Closest.precedes {before : Item → Item → Prop} (closest : Closest score seeds seed)
    (ordered : seeds.Pairwise before) {other : Item} (member : other ∈ seeds) (apart : other ≠ seed) :
    score other < score seed ∨ score other = score seed ∧ before seed other := by
  obtain ⟨_, front, back, split, lower, atMost⟩ := closest
  rw [split] at member ordered
  rcases List.mem_append.mp member with inFront | later
  · exact .inl (lower other inFront)
  · rcases List.mem_cons.mp later with same | inBack
    · exact absurd same apart
    · have first := (List.pairwise_cons.mp (List.pairwise_append.mp ordered).2.1).1
      rcases (atMost other inBack).lt_or_eq with less | tied
      · exact .inl less
      · exact .inr ⟨tied, first other inBack⟩

theorem Closest.append (closest : Closest score passed seed) {next : Item}
    (noMore : score next ≤ score seed) : Closest score (passed ++ [next]) seed := by
  obtain ⟨positive, before, after, rfl, lower, atMost⟩ := closest
  refine ⟨positive, before, after ++ [next], by simp, lower, ?_⟩
  intro other member
  rcases List.mem_append.mp member with isAfter | isNext
  · exact atMost other isAfter
  · exact List.mem_singleton.mp isNext ▸ noMore

theorem closest_last {next : Item} (positive : 0 < score next)
    (lower : ∀ other ∈ passed, score other < score next) : Closest score (passed ++ [next]) next :=
  ⟨positive, passed, [], rfl, lower, by simp⟩

theorem Standing.step {best : Option Item × Nat} (standing : Standing score passed best) (next : Item) :
    Standing score (passed ++ [next])
      (if best.2 < score next then (some next, score next) else best) := by
  cases standing with
  | nothing zero =>
    by_cases better : 0 < score next
    · rw [if_pos better]
      exact .leader next (closest_last better fun other member => (zero other member).trans_lt better)
    · rw [if_neg better]
      refine .nothing fun other member => ?_
      rcases List.mem_append.mp member with isPassed | isNext
      · exact zero other isPassed
      · rw [List.mem_singleton.mp isNext]
        exact Nat.eq_zero_of_not_pos better
  | leader seed closest =>
    by_cases better : score seed < score next
    · rw [if_pos better]
      exact .leader next (closest_last (closest.1.trans better) fun other member =>
        (closest.atMost member).trans_lt better)
    · rw [if_neg better]
      exact .leader seed (closest.append (Nat.le_of_not_lt better))

theorem Standing.run {best : Option Item × Nat} (standing : Standing score passed best)
    (seeds : List Item) : Standing score (passed ++ seeds) (closestFrom score best seeds) := by
  induction seeds generalizing passed best with
  | nil =>
    rw [List.append_nil]
    exact standing
  | cons seed rest ih =>
    rw [List.append_cons]
    exact ih (standing.step seed)

theorem standing_closestFrom (score : Item → Nat) (seeds : List Item) :
    Standing score seeds (closestFrom score (none, 0) seeds) :=
  Standing.run (.nothing (by simp) : Standing score [] (none, 0)) seeds

theorem closest_of_eq_some (found : closest score seeds = some seed) : Closest score seeds seed := by
  have standing := standing_closestFrom score seeds
  unfold closest at found
  generalize closestFrom score (none, 0) seeds = best at standing found
  cases standing with
  | nothing zero => cases found
  | leader best closest =>
    obtain rfl : best = seed := Option.some.inj found
    exact closest

theorem closest_eq_none_iff : closest score seeds = none ↔ ∀ seed ∈ seeds, score seed = 0 := by
  have standing := standing_closestFrom score seeds
  unfold closest
  generalize closestFrom score (none, 0) seeds = best at standing
  cases standing with
  | nothing zero => exact iff_of_true rfl zero
  | leader seed closest =>
    refine iff_of_false (by simp) fun zero => ?_
    exact closest.1.ne' (zero seed closest.mem)

def assignment (score : Item → Item → Nat) (ranked seeds : List Item) : List (Item × Item) :=
  seeds.map (fun seed => (seed, seed)) ++
    (ranked.drop seeds.length).filterMap fun item =>
      (closest (score item) seeds).map fun seed => (item, seed)

variable {score : Item → Item → Nat} {ranked : List Item} {count : Nat}

theorem take_append_rest (ranked : List Item) (count : Nat) :
    ranked.take count ++ ranked.drop (ranked.take count).length = ranked := by
  have front : ranked.take (ranked.take count).length = ranked.take count := by
    rw [List.length_take, ← List.take_take, List.take_length]
  calc ranked.take count ++ ranked.drop (ranked.take count).length
      = ranked.take (ranked.take count).length ++ ranked.drop (ranked.take count).length := by
        rw [front]
    _ = ranked := List.take_append_drop _ _

theorem mem_rest_iff (once : ranked.Nodup) (item : Item) :
    item ∈ ranked.drop (ranked.take count).length ↔ item ∈ ranked ∧ item ∉ ranked.take count := by
  have split := take_append_rest ranked count
  have apart : ∀ {other : Item}, other ∈ ranked.take count →
      other ∉ ranked.drop (ranked.take count).length := by
    intro other inFront inBack
    rw [← split] at once
    exact (List.nodup_append.mp once).2.2 other inFront other inBack rfl
  constructor
  · intro inBack
    exact ⟨List.mem_of_mem_drop inBack, fun inFront => apart inFront inBack⟩
  · rintro ⟨member, notInFront⟩
    rw [← split] at member
    exact (List.mem_append.mp member).resolve_left notInFront

theorem mem_assignment_iff (once : ranked.Nodup) (item seed : Item) :
    (item, seed) ∈ assignment score ranked (ranked.take count) ↔
      item = seed ∧ seed ∈ ranked.take count ∨
        (item ∈ ranked ∧ item ∉ ranked.take count) ∧
          closest (score item) (ranked.take count) = some seed := by
  unfold assignment
  rw [List.mem_append, List.mem_map, List.mem_filterMap]
  refine or_congr ?_ ?_
  · constructor
    · rintro ⟨own, member, same⟩
      obtain ⟨rfl, rfl⟩ := Prod.mk.inj same
      exact ⟨rfl, member⟩
    · rintro ⟨rfl, member⟩
      exact ⟨item, member, rfl⟩
  · constructor
    · rintro ⟨other, inRest, joined⟩
      obtain ⟨found, isFound, same⟩ := Option.map_eq_some_iff.mp joined
      obtain ⟨rfl, rfl⟩ := Prod.mk.inj same
      exact ⟨(mem_rest_iff once other).mp inRest, isFound⟩
    · rintro ⟨inRest, isFound⟩
      exact ⟨item, (mem_rest_iff once item).mpr inRest, Option.map_eq_some_iff.mpr ⟨seed, isFound, rfl⟩⟩

theorem nodup_assignment (once : ranked.Nodup) :
    ((assignment score ranked (ranked.take count)).map Prod.fst).Nodup := by
  have joined : ∀ items : List Item,
      ((items.filterMap fun item => (closest (score item) (ranked.take count)).map fun seed =>
        (item, seed)).map Prod.fst).Sublist items := by
    intro items
    induction items with
    | nil => exact List.Sublist.refl []
    | cons item rest ih =>
      rw [List.filterMap_cons]
      cases closest (score item) (ranked.take count) with
      | none => exact ih.cons item
      | some seed => exact ih.cons_cons item
  have seeds : ((ranked.take count).map fun seed => (seed, seed)).map Prod.fst = ranked.take count := by
    rw [List.map_map]
    exact List.map_id _
  have within : ((assignment score ranked (ranked.take count)).map Prod.fst).Sublist ranked := by
    conv_rhs => rw [← take_append_rest ranked count]
    rw [assignment, List.map_append, seeds]
    exact (joined _).append_left _
  exact once.sublist within

end Foundation.SeededGroups
