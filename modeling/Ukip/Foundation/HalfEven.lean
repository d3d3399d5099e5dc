import Mathlib

/-!
# Rounding half to even

The nearest integer, the even one where two are equally near: what the rounding is, whatever
computes it, and how it stands to the order, the sign and the integers.
-/

namespace Foundation.HalfEven

variable {Number : Type} [Field Number] [LinearOrder Number] [IsStrictOrderedRing Number]

/-- `rounded` is the integer next to the value, even in the middle of two. -/
structure Rounds (value : Number) (rounded : Int) : Prop where
  near : |value - rounded| ≤ 1 / 2
  even : |value - rounded| = 1 / 2 → Even rounded

variable {first second value : Number} {low high rounded : Int}

theorem Rounds.mono (lower : Rounds first low) (upper : Rounds second high)
    (ordered : first ≤ second) : low ≤ high := by
  by_contra crossed
  have apart : high + 1 ≤ low := by omega
  have apartCast : (high : Number) + 1 ≤ low := by exact_mod_cast apart
  obtain ⟨-, lowNear⟩ := abs_le.mp lower.near
  obtain ⟨lowFar, -⟩ := abs_le.mp lower.near
  obtain ⟨-, highNear⟩ := abs_le.mp upper.near
  -- both values are in the middle of two neighbours
  have lowMiddle : first - low = -(1 / 2) := by linarith
  have highMiddle : second - high = 1 / 2 := by linarith
  have half : |(1 / 2 : Number)| = 1 / 2 := abs_of_pos (by norm_num)
  have lowEven := lower.even (by rw [lowMiddle, abs_neg, half])
  have highEven := upper.even (by rw [highMiddle, half])
  have neighbours : (low : Number) = high + 1 := by linarith
  have neighbour : low = high + 1 := by exact_mod_cast neighbours
  rw [Int.even_iff] at lowEven highEven
  omega

theorem Rounds.unique (lower : Rounds value low) (upper : Rounds value high) : low = high :=
  le_antisymm (lower.mono upper le_rfl) (upper.mono lower le_rfl)

omit [IsStrictOrderedRing Number] in
theorem Rounds.neg (rounds : Rounds value rounded) : Rounds (-value) (-rounded) := by
  have distance : |(-value) - ((-rounded : Int) : Number)| = |value - rounded| := by
    rw [Int.cast_neg, ← neg_sub', abs_neg]
  refine ⟨distance ▸ rounds.near, fun middle => ?_⟩
  exact (rounds.even (distance ▸ middle)).neg

theorem rounds_intCast (whole : Int) : Rounds (whole : Number) whole := by
  have exact : |(whole : Number) - whole| = 0 := by rw [sub_self, abs_zero]
  refine ⟨exact.trans_le (by norm_num), fun middle => ?_⟩
  rw [exact] at middle
  norm_num at middle

theorem Rounds.le_of_le (rounds : Rounds value rounded) {whole : Int} (below : value ≤ whole) :
    rounded ≤ whole :=
  rounds.mono (rounds_intCast whole) below

theorem Rounds.le_of_ge (rounds : Rounds value rounded) {whole : Int} (above : (whole : Number) ≤ value) :
    whole ≤ rounded :=
  (rounds_intCast whole).mono rounds above

end Foundation.HalfEven
