import Mathlib.Logic.Basic

/-!
# What a flush writes

An object mapped to a row keeps the values of its last SELECT.  The UPDATE that a
flush sends is addressed by primary key alone and assigns exactly the columns
whose value in memory differs from the loaded one; the row stored meanwhile by
somebody else is not looked at.
-/

namespace Foundation.UnitOfWork

variable {Value : Type} [DecidableEq Value]

def flushColumn (loaded current stored : Value) : Value :=
  if current = loaded then stored else current

/-- A column assigned while the object was expired has no loaded value to
compare with, so it is always part of the UPDATE. -/
def flushAssigned (blind : Bool) (loaded current stored : Value) : Value :=
  if blind then current else flushColumn loaded current stored

@[simp] theorem flushColumn_unchanged (loaded stored : Value) :
    flushColumn loaded loaded stored = stored := by
  simp [flushColumn]

theorem flushColumn_changed {loaded current : Value} (changed : current ≠ loaded)
    (stored : Value) : flushColumn loaded current stored = current := by
  simp [flushColumn, changed]

@[simp] theorem flushColumn_fresh (stored current : Value) :
    flushColumn stored current stored = current := by
  unfold flushColumn
  split
  · rename_i same
    exact same.symm
  · rfl

@[simp] theorem flushAssigned_fresh (blind : Bool) (stored current : Value) :
    flushAssigned blind stored current stored = current := by
  cases blind <;> simp [flushAssigned]

end Foundation.UnitOfWork
