import Mathlib.Algebra.Order.Ring.Rat
import Mathlib.Order.Monotone.Defs

/-!
# Floating point numbers

Operations that compute exactly and round once, as those of IEEE 754 do.  A rounding is given
by what it keeps: the order, zero and its own values.
-/

namespace Foundation.FloatingPoint

structure Rounding where
  nearest : Rat → Rat
  monotone : Monotone nearest
  nearest_nearest : ∀ exact, nearest (nearest exact) = nearest exact
  nearest_zero : nearest 0 = 0

/-- The numbers of the format. -/
def Rounding.Value (float : Rounding) : Type := { number : Rat // float.nearest number = number }

namespace Rounding

variable (float : Rounding)

instance : LinearOrder float.Value :=
  inferInstanceAs (LinearOrder { number : Rat // float.nearest number = number })

/-- A literal, or the result of an operation from its exact value. -/
def round (exact : Rat) : float.Value := ⟨float.nearest exact, float.nearest_nearest exact⟩

def add (first second : float.Value) : float.Value := float.round (first.1 + second.1)

def sub (first second : float.Value) : float.Value := float.round (first.1 - second.1)

def mul (first second : float.Value) : float.Value := float.round (first.1 * second.1)

variable {float}

theorem round_mono {low high : Rat} (ordered : low ≤ high) : float.round low ≤ float.round high :=
  float.monotone ordered

theorem add_mono {first second low high : float.Value} (left : first ≤ second)
    (right : low ≤ high) : float.add first low ≤ float.add second high :=
  round_mono (add_le_add left right)

theorem sub_mono {first second : float.Value} (left : first ≤ second) (less : float.Value) :
    float.sub first less ≤ float.sub second less := by
  have exact : first.1 ≤ second.1 := left
  exact round_mono (sub_le_sub_right exact less.1)

theorem le_add (value : float.Value) {exact : Rat} (positive : 0 ≤ exact) :
    value ≤ float.add value (float.round exact) := by
  have added : (0 : Rat) ≤ float.nearest exact :=
    float.nearest_zero.symm.trans_le (float.monotone positive)
  have kept : float.nearest value.1 ≤ float.nearest (value.1 + float.nearest exact) :=
    float.monotone (le_add_of_nonneg_right added)
  rw [value.2] at kept
  exact kept

end Rounding

end Foundation.FloatingPoint
