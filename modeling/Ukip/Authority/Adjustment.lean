import Ukip.Authority.Feedback
import Ukip.Foundation.HalfEven

/-!
# The adjustment as a function of the counters

`compute_adjustment`: its bound, its symmetry, and where one more outcome moves it the wrong
way, which is only over the gate of the minimum of observations.
-/

namespace Ukip.Authority.Feedback

open Foundation.HalfEven

theorem rounds_roundHalfEven (value : Rat) : Rounds value (roundHalfEven value) := by
  have below : (value.floor : Rat) ≤ value := Rat.floor_le value
  have above : value < value.floor + 1 := by exact_mod_cast Rat.lt_floor_add_one value
  have down : |value - (value.floor : Rat)| = value - value.floor := abs_of_nonneg (by linarith)
  have up : |value - ((value.floor + 1 : Int) : Rat)| = value.floor + 1 - value := by
    rw [Int.cast_add, Int.cast_one, abs_of_neg (by linarith)]
    ring
  rw [roundHalfEven]
  split_ifs with low high even
  · exact ⟨by linarith, fun middle => by linarith⟩
  · exact ⟨by linarith, fun middle => by linarith⟩
  · exact ⟨by linarith, fun _ => Int.even_iff.mpr even⟩
  · refine ⟨by linarith, fun _ => Int.even_iff.mpr ?_⟩
    omega

def leaning (confirmed rejected : Nat) : Rat :=
  ((confirmed : Rat) - rejected) / (confirmed + rejected + 3) * (5 / 100)

theorem leaning_swap (confirmed rejected : Nat) :
    leaning rejected confirmed = -leaning confirmed rejected := by
  rw [leaning, leaning, ← neg_mul, ← neg_div, neg_sub, add_comm (rejected : Rat)]

theorem abs_leaning_le (confirmed rejected : Nat) : |leaning confirmed rejected| ≤ 5 / 100 := by
  have positive : (0 : Rat) < confirmed + rejected + 3 := by positivity
  have confirmedNonneg : (0 : Rat) ≤ confirmed := Nat.cast_nonneg confirmed
  have rejectedNonneg : (0 : Rat) ≤ rejected := Nat.cast_nonneg rejected
  have share : |((confirmed : Rat) - rejected) / (confirmed + rejected + 3)| ≤ 1 := by
    rw [abs_div, abs_of_pos positive, div_le_one positive, abs_le]
    constructor <;> linarith [confirmedNonneg, rejectedNonneg]
  rw [leaning, abs_mul, abs_of_pos (by norm_num : (0 : Rat) < 5 / 100)]
  linarith

variable {confirmed rejected : Nat}

theorem leaning_nonneg (enough : rejected ≤ confirmed) : 0 ≤ leaning confirmed rejected := by
  have ordered : (rejected : Rat) ≤ confirmed := by exact_mod_cast enough
  rw [leaning]
  have difference : (0 : Rat) ≤ confirmed - rejected := sub_nonneg.mpr ordered
  positivity

theorem leaning_le_succ (confirmed rejected : Nat) :
    leaning confirmed rejected ≤ leaning (confirmed + 1) rejected := by
  rw [leaning, leaning]
  gcongr ?_ * _
  rw [div_le_div_iff₀ (by positivity) (by positivity)]
  have confirmedNonneg : (0 : Rat) ≤ confirmed := Nat.cast_nonneg confirmed
  have rejectedNonneg : (0 : Rat) ≤ rejected := Nat.cast_nonneg rejected
  push_cast
  nlinarith [confirmedNonneg, rejectedNonneg]

theorem computeAdjustment_few (few : confirmed + rejected < 3) :
    computeAdjustment (some confirmed) (some rejected) = 0 := if_pos few

theorem computeAdjustment_enough (enough : 3 ≤ confirmed + rejected) :
    computeAdjustment (some confirmed) (some rejected) =
      roundHalfEven (leaning confirmed rejected * 10000) / 10000 := by
  have total : ((confirmed + rejected : Nat) : Rat) ≠ 0 := by
    exact_mod_cast (by omega : confirmed + rejected ≠ 0)
  have bounds := abs_le.mp (abs_leaning_le confirmed rejected)
  have balanced : ((confirmed : Rat) - rejected) / ((confirmed + rejected : Nat) : Rat) *
      (((confirmed + rejected : Nat) : Rat) / (((confirmed + rejected : Nat) : Rat) + 3)) * (5 / 100) =
        leaning confirmed rejected := by
    rw [leaning, div_mul_div_cancel₀ total, Nat.cast_add]
  simp only [computeAdjustment, Option.getD_some, if_neg (not_lt.mpr enough), balanced,
    min_eq_right bounds.2, max_eq_right bounds.1]

theorem computeAdjustment_mono {confirmed rejected moreConfirmed otherRejected : Nat}
    (enough : 3 ≤ confirmed + rejected) (later : 3 ≤ moreConfirmed + otherRejected)
    (rises : leaning confirmed rejected ≤ leaning moreConfirmed otherRejected) :
    computeAdjustment (some confirmed) (some rejected) ≤
      computeAdjustment (some moreConfirmed) (some otherRejected) := by
  rw [computeAdjustment_enough enough, computeAdjustment_enough later]
  have ordered := (rounds_roundHalfEven _).mono (rounds_roundHalfEven _)
    (mul_le_mul_of_nonneg_right rises (by norm_num : (0 : Rat) ≤ 10000))
  have cast : (roundHalfEven (leaning confirmed rejected * 10000) : Rat) ≤
      roundHalfEven (leaning moreConfirmed otherRejected * 10000) := by exact_mod_cast ordered
  linarith

theorem computeAdjustment_nonneg (more : rejected ≤ confirmed) :
    0 ≤ computeAdjustment (some confirmed) (some rejected) := by
  by_cases few : confirmed + rejected < 3
  · rw [computeAdjustment_few few]
  · rw [computeAdjustment_enough (not_lt.mp few)]
    have above : ((0 : Int) : Rat) ≤ leaning confirmed rejected * 10000 := by
      rw [Int.cast_zero]
      exact mul_nonneg (leaning_nonneg more) (by norm_num)
    have rounded : (0 : Rat) ≤ roundHalfEven (leaning confirmed rejected * 10000) := by
      exact_mod_cast (rounds_roundHalfEven _).le_of_ge above
    positivity

theorem computeAdjustment_bound (confirmed rejected : Nat) :
    |computeAdjustment (some confirmed) (some rejected)| ≤ 5 / 100 := by
  by_cases few : confirmed + rejected < 3
  · rw [computeAdjustment_few few, abs_zero]
    norm_num
  · rw [computeAdjustment_enough (not_lt.mp few)]
    obtain ⟨low, high⟩ := abs_le.mp (abs_leaning_le confirmed rejected)
    have rounds := rounds_roundHalfEven (leaning confirmed rejected * 10000)
    have atLeast : -500 ≤ roundHalfEven (leaning confirmed rejected * 10000) :=
      rounds.le_of_ge (by push_cast; linarith)
    have atMost : roundHalfEven (leaning confirmed rejected * 10000) ≤ 500 :=
      rounds.le_of_le (by push_cast; linarith)
    have castLow : (-500 : Rat) ≤ roundHalfEven (leaning confirmed rejected * 10000) := by
      exact_mod_cast atLeast
    have castHigh : (roundHalfEven (leaning confirmed rejected * 10000) : Rat) ≤ 500 := by
      exact_mod_cast atMost
    rw [abs_le]
    constructor <;> linarith

theorem computeAdjustment_swap (confirmed rejected : Nat) :
    computeAdjustment (some rejected) (some confirmed) =
      -computeAdjustment (some confirmed) (some rejected) := by
  by_cases few : confirmed + rejected < 3
  · rw [computeAdjustment_few few, computeAdjustment_few (by omega), neg_zero]
  · have enough := not_lt.mp few
    rw [computeAdjustment_enough enough, computeAdjustment_enough (by omega), leaning_swap, neg_mul]
    have turned := (rounds_roundHalfEven (leaning confirmed rejected * 10000)).neg.unique
      (rounds_roundHalfEven _)
    rw [← turned, Int.cast_neg, neg_div]

/-- One confirmation lowers the adjustment only when it follows two rejections and nothing
else. -/
theorem confirmation_lowers_iff (confirmed rejected : Nat) :
    computeAdjustment (some (confirmed + 1)) (some rejected) <
        computeAdjustment (some confirmed) (some rejected) ↔ confirmed = 0 ∧ rejected = 2 := by
  constructor
  · intro lowers
    by_contra other
    refine absurd lowers (not_lt.mpr ?_)
    by_cases few : confirmed + rejected < 3
    · rw [computeAdjustment_few few]
      by_cases more : rejected ≤ confirmed + 1
      · exact computeAdjustment_nonneg more
      · rw [computeAdjustment_few (by omega)]
    · exact computeAdjustment_mono (not_lt.mp few) (by omega) (leaning_le_succ confirmed rejected)
  · rintro ⟨rfl, rfl⟩
    decide +kernel

theorem rejection_raises_iff (confirmed rejected : Nat) :
    computeAdjustment (some confirmed) (some rejected) <
        computeAdjustment (some confirmed) (some (rejected + 1)) ↔ confirmed = 2 ∧ rejected = 0 := by
  rw [computeAdjustment_swap rejected confirmed, computeAdjustment_swap (rejected + 1) confirmed,
    neg_lt_neg_iff, confirmation_lowers_iff, and_comm]

/-- The adjustment keeps its bound, changes its sign with the counters, and moves with each
outcome, except that the third outcome lets the two before it count. -/
theorem computeAdjustment_shape (confirmed rejected : Nat) :
    |computeAdjustment (some confirmed) (some rejected)| ≤ 5 / 100 ∧
      computeAdjustment (some rejected) (some confirmed) =
        -computeAdjustment (some confirmed) (some rejected) ∧
      (computeAdjustment (some confirmed) (some rejected) ≤
          computeAdjustment (some (confirmed + 1)) (some rejected) ↔
        ¬ (confirmed = 0 ∧ rejected = 2)) ∧
      (computeAdjustment (some confirmed) (some (rejected + 1)) ≤
          computeAdjustment (some confirmed) (some rejected) ↔
        ¬ (confirmed = 2 ∧ rejected = 0)) :=
  ⟨computeAdjustment_bound confirmed rejected, computeAdjustment_swap confirmed rejected,
    not_lt.symm.trans (not_congr (confirmation_lowers_iff confirmed rejected)),
    not_lt.symm.trans (not_congr (rejection_raises_iff confirmed rejected))⟩

/-- Two rejections are no signal yet; with one confirmation more they are. -/
theorem third_outcome_lowers :
    ¬ ∀ confirmed rejected : Nat, computeAdjustment (some confirmed) (some rejected) ≤
      computeAdjustment (some (confirmed + 1)) (some rejected) := by
  intro monotone
  exact absurd (monotone 0 2) (by decide +kernel)

end Ukip.Authority.Feedback
