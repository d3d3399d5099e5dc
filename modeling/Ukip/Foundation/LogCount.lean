import Mathlib
import Ukip.Foundation.Tally

/-!
# Counters kept beside a log

A log holds one row for each event, and a counter one entry for each key that occurs in it.
The counter is not recomputed: each new row adds one to the entry of its key, so the two
agree as long as what leaves the log leaves the counter too.
-/

namespace Foundation.LogCount

open Tally

variable {Row Key : Type} [DecidableEq Key]

def entryOf (counter : Counter Key) (key : Key) : Option Nat :=
  (counter.find? fun entry => entry.1 == key).map Prod.snd

def rowCount (keyOf : Row → Key) (log : List Row) (key : Key) : Nat :=
  log.countP fun row => keyOf row == key

/-- An entry exists for the keys that occur, and counts their rows. -/
def Agrees (keyOf : Row → Key) (log : List Row) (counter : Counter Key) : Prop :=
  ∀ key, entryOf counter key =
    if rowCount keyOf log key = 0 then none else some (rowCount keyOf log key)

variable {keyOf : Row → Key} {log : List Row} {counter : Counter Key}

theorem entryOf_bump (counter : Counter Key) (item key : Key) :
    entryOf (bump counter item) key =
      if item = key then some ((entryOf counter key).getD 0 + 1) else entryOf counter key := by
  induction counter with
  | nil =>
    by_cases same : item = key <;> simp [entryOf, bump, same]
  | cons entry rest ih =>
    obtain ⟨counted, count⟩ := entry
    unfold bump
    by_cases here : counted = item
    · rw [if_pos here]
      by_cases same : item = key
      · simp [entryOf, here, same]
      · have other : counted ≠ key := fun equal => same (here ▸ equal)
        simp [entryOf, other, same]
    · rw [if_neg here]
      by_cases keyed : counted = key
      · have other : item ≠ key := fun equal => here (keyed.trans equal.symm)
        simp [entryOf, keyed, other]
      · have skip : ∀ tail : Counter Key,
            entryOf ((counted, count) :: tail) key = entryOf tail key := by
          intro tail
          simp [entryOf, keyed]
        rw [skip, skip]
        exact ih

theorem rowCount_append (row : Row) (key : Key) :
    rowCount keyOf (log ++ [row]) key =
      rowCount keyOf log key + if keyOf row = key then 1 else 0 := by
  unfold rowCount
  rw [List.countP_append]
  by_cases same : keyOf row = key <;> simp [same]

theorem agrees_append (agrees : Agrees keyOf log counter) (row : Row) :
    Agrees keyOf (log ++ [row]) (bump counter (keyOf row)) := by
  intro key
  rw [entryOf_bump, rowCount_append, agrees key]
  by_cases same : keyOf row = key
  · by_cases none_yet : rowCount keyOf log key = 0 <;> simp [same, none_yet]
  · simp [same]

theorem entryOf_filter (stays : Key → Bool) (key : Key) :
    entryOf (counter.filter fun entry => stays entry.1) key =
      if stays key then entryOf counter key else none := by
  unfold entryOf
  rw [List.find?_filter]
  by_cases kept : stays key = true
  · rw [if_pos kept]
    have sameTest : (fun entry : Key × Nat => decide (stays entry.1 = true ∧ (entry.1 == key) = true))
        = fun entry => entry.1 == key := by
      funext entry
      by_cases here : entry.1 = key
      · simp [here, kept]
      · simp [here]
    rw [sameTest]
  · rw [if_neg kept, Option.map_eq_none_iff, List.find?_eq_none]
    intro entry _ both
    simp only [beq_iff_eq, decide_eq_true_eq] at both
    exact kept (both.2 ▸ both.1)

theorem rowCount_filter_key (stays : Key → Bool) (key : Key) :
    rowCount keyOf (log.filter fun row => stays (keyOf row)) key =
      if stays key then rowCount keyOf log key else 0 := by
  unfold rowCount
  rw [List.countP_filter]
  by_cases kept : stays key = true
  · rw [if_pos kept]
    refine List.countP_congr fun row _ => ?_
    simp only [Bool.and_eq_true, beq_iff_eq]
    exact ⟨And.left, fun same => ⟨same, same ▸ kept⟩⟩
  · rw [if_neg kept, List.countP_eq_zero]
    intro row _ both
    simp only [Bool.and_eq_true, beq_iff_eq] at both
    exact kept (both.1 ▸ both.2)

theorem agrees_filter (agrees : Agrees keyOf log counter) (stays : Key → Bool) :
    Agrees keyOf (log.filter fun row => stays (keyOf row))
      (counter.filter fun entry => stays entry.1) := by
  intro key
  rw [rowCount_filter_key, entryOf_filter, agrees key]
  by_cases kept : stays key = true <;> simp [kept]

theorem rowCount_filter_lt {row : Row} (stays : Row → Bool) (member : row ∈ log)
    (leaves : stays row = false) :
    rowCount keyOf (log.filter stays) (keyOf row) < rowCount keyOf log (keyOf row) := by
  unfold rowCount
  rw [List.countP_eq_countP_filter_add log (fun other => keyOf other == keyOf row) stays]
  have gone : 0 < (log.filter fun other => !stays other).countP
      fun other => keyOf other == keyOf row :=
    List.countP_pos_iff.mpr ⟨row, List.mem_filter.mpr ⟨member, by simp [leaves]⟩, by simp⟩
  omega

theorem rowCount_eq_of_agrees {second : List Row} {key : Key}
    (agrees : Agrees keyOf log counter)
    (still : entryOf counter key =
      if rowCount keyOf second key = 0 then none else some (rowCount keyOf second key)) :
    rowCount keyOf log key = rowCount keyOf second key := by
  rw [agrees key] at still
  by_cases first : rowCount keyOf log key = 0
  · by_cases other : rowCount keyOf second key = 0
    · rw [first, other]
    · simp [first, other] at still
  · by_cases other : rowCount keyOf second key = 0
    · simp [first, other] at still
    · simpa [first, other] using still

end Foundation.LogCount
