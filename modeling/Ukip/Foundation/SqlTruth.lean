import Mathlib.Data.Option.Basic

/-!
# Three-valued conditions over nullable columns

A nullable column is an `Option`.  A comparison with NULL is unknown (`none`),
AND follows the Kleene tables, and WHERE keeps a row only on a definite true.
-/

namespace Foundation.SqlTruth

variable {Value : Type}

def compare (holds : Value → Value → Bool) (left right : Option Value) : Option Bool :=
  match left, right with
  | some first, some second => some (holds first second)
  | _, _ => none

def isNotNull (operand : Option Value) : Option Bool :=
  some operand.isSome

/-- `operand IN (...)` -/
def isIn [DecidableEq Value] (operand : Option Value) (listed : List Value) : Option Bool :=
  operand.map fun value => decide (value ∈ listed)

def both (left right : Option Bool) : Option Bool :=
  match left, right with
  | some false, _ => some false
  | _, some false => some false
  | some true, some true => some true
  | _, _ => none

def either (left right : Option Bool) : Option Bool :=
  match left, right with
  | some true, _ => some true
  | _, some true => some true
  | some false, some false => some false
  | _, _ => none

def negate (condition : Option Bool) : Option Bool := condition.map not

def selects (condition : Option Bool) : Bool :=
  condition == some true

@[simp] theorem selects_some (value : Bool) : selects (some value) = value := by
  cases value <;> rfl

@[simp] theorem selects_both (left right : Option Bool) :
    selects (both left right) = (selects left && selects right) := by
  rcases left with _ | _ | _ <;> rcases right with _ | _ | _ <;> rfl

@[simp] theorem selects_isNotNull (operand : Option Value) :
    selects (isNotNull operand) = operand.isSome := by
  simp [isNotNull]

variable (holds : Value → Value → Bool)

@[simp] theorem selects_compare_some (left right : Value) :
    selects (compare holds (some left) (some right)) = holds left right := by
  simp [compare]

theorem selects_compare_null (right : Option Value) :
    selects (compare holds none right) = false := by
  cases right <;> rfl

end Foundation.SqlTruth
