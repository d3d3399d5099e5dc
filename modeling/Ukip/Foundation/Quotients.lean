import Mathlib.Tactic.FieldSimp
import Mathlib.Tactic.Linarith
import Mathlib.Tactic.Positivity
import Mathlib.Tactic.Ring

/-!
# Quotients

A division that fails where its divisor is zero, the mean of a list by such a division, and the
mediant `(a + c) / (b + n)` of two quotients: it lies between them, and the heavier the second one
weighs, the further it is from the first.
-/

namespace Foundation.Quotients

section Checked

variable {Number : Type} [Field Number] [DecidableEq Number]

def divide (dividend divisor : Number) : Option Number :=
  if divisor = 0 then none else some (dividend / divisor)

theorem divide_of_ne_zero (dividend : Number) {divisor : Number} (nonzero : divisor ≠ 0) :
    divide dividend divisor = some (dividend / divisor) := if_neg nonzero

def mean (values : List Number) : Option Number := divide values.sum values.length

theorem mean_of_ne_nil [CharZero Number] {values : List Number} (filled : values ≠ []) :
    mean values = some (values.sum / values.length) := by
  refine divide_of_ne_zero _ ?_
  rw [Nat.cast_ne_zero, ne_eq, List.length_eq_zero_iff]
  exact filled

end Checked

section Mediant

variable {Number : Type} [Field Number] [LinearOrder Number] [IsStrictOrderedRing Number]

def Between (first second value : Number) : Prop :=
  min first second ≤ value ∧ value ≤ max first second

variable {a b c n : Number}

theorem mediant_eq (positive : 0 < b) (weight : 0 < n) :
    (a + c) / (b + n) = a / b + n / (b + n) * (c / n - a / b) := by
  have total : b + n ≠ 0 := (add_pos positive weight).ne'
  field_simp
  ring

theorem weight_nonneg (positive : 0 < b) (weight : 0 < n) : 0 ≤ n / (b + n) :=
  div_nonneg weight.le (add_pos positive weight).le

theorem weight_le_one (positive : 0 < b) (weight : 0 < n) : n / (b + n) ≤ 1 := by
  rw [div_le_one (add_pos positive weight)]
  linarith

theorem weight_mono (positive : 0 < b) (weight : 0 < n) {more : Number} (heavier : n ≤ more) :
    n / (b + n) ≤ more / (b + more) := by
  rw [div_le_div_iff₀ (add_pos positive weight) (add_pos positive (weight.trans_le heavier))]
  nlinarith

theorem mediant_between (positive : 0 < b) (weight : 0 < n) :
    Between (a / b) (c / n) ((a + c) / (b + n)) := by
  have nonneg := weight_nonneg positive weight
  have small := weight_le_one positive weight
  rw [mediant_eq positive weight, Between]
  rcases le_total (a / b) (c / n) with ordered | ordered
  · rw [min_eq_left ordered, max_eq_right ordered]
    constructor <;> nlinarith
  · rw [min_eq_right ordered, max_eq_left ordered]
    constructor <;> nlinarith

theorem mediant_mono (positive : 0 < b) (weight : 0 < n) {more : Number} (larger : c ≤ more) :
    (a + c) / (b + n) ≤ (a + more) / (b + n) :=
  div_le_div_of_nonneg_right (add_le_add_right larger a) (add_pos positive weight).le

theorem abs_mediant_div_sub_one (positiveA : 0 < a) (positive : 0 < b) (weight : 0 < n) :
    |(a + c) / (b + n) / (a / b) - 1| = n / (b + n) * (|c / n - a / b| / (a / b)) := by
  have first : 0 < a / b := div_pos positiveA positive
  have moved : (a + c) / (b + n) / (a / b) - 1 = n / (b + n) * ((c / n - a / b) / (a / b)) := by
    rw [mediant_eq positive weight, add_div, div_self first.ne']
    ring
  rw [moved, abs_mul, abs_of_nonneg (weight_nonneg positive weight), abs_div, abs_of_pos first]

end Mediant

end Foundation.Quotients
