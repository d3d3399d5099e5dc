import Mathlib.Data.List.Basic

/-!
# Texts joined by a separator

Where the part before, or after, a separator does not contain it, the separator splits
the text.  Decimal numbers contain no separator, and are told apart by their digits.
-/

namespace Foundation.Separated

variable {separator : Char} {first second firstRest secondRest : List Char}

theorem eq_of_first_split (firstPlain : separator ∉ first) (secondPlain : separator ∉ second)
    (same : first ++ separator :: firstRest = second ++ separator :: secondRest) :
    first = second ∧ firstRest = secondRest := by
  induction first generalizing second with
  | nil =>
    cases second with
    | nil => exact ⟨rfl, (List.cons.inj same).2⟩
    | cons head tail =>
      have headIs := (List.cons.inj same).1
      exact absurd (by rw [headIs]; exact List.mem_cons_self) secondPlain
  | cons head tail ih =>
    cases second with
    | nil =>
      have headIs := (List.cons.inj same).1
      exact absurd (by rw [← headIs]; exact List.mem_cons_self) firstPlain
    | cons other rest =>
      obtain ⟨rfl, tails⟩ := List.cons.inj same
      obtain ⟨rfl, restsSame⟩ := ih (fun member => firstPlain (List.mem_cons_of_mem head member))
        (fun member => secondPlain (List.mem_cons_of_mem head member)) tails
      exact ⟨rfl, restsSame⟩

theorem eq_of_last_split (firstPlain : separator ∉ firstRest) (secondPlain : separator ∉ secondRest)
    (same : first ++ separator :: firstRest = second ++ separator :: secondRest) :
    first = second ∧ firstRest = secondRest := by
  have mirrored := congrArg List.reverse same
  simp only [List.reverse_append, List.reverse_cons, List.append_assoc] at mirrored
  obtain ⟨rests, fronts⟩ := eq_of_first_split (by simpa using firstPlain) (by simpa using secondPlain)
    mirrored
  exact ⟨List.reverse_injective fronts, List.reverse_injective rests⟩

theorem not_mem_repr (notDigit : separator.isDigit = false) (value : Nat) :
    separator ∉ (Nat.repr value).toList := by
  intro member
  rw [Nat.toList_repr] at member
  have digit := Nat.isDigit_of_mem_toDigits (by decide) (by decide) member
  rw [notDigit] at digit
  cases digit

theorem repr_injective {first second : Nat}
    (same : (Nat.repr first).toList = (Nat.repr second).toList) : first = second := by
  rw [Nat.toList_repr, Nat.toList_repr] at same
  have read := congrArg (fun digits => Nat.ofDigitChars 10 digits 0) same
  simpa [Nat.ofDigitChars_toDigits] using read

theorem toString_int_injective {first second : Int} (same : toString first = toString second) :
    first = second := by
  have signed : ∀ value other : Nat, Nat.repr value ≠ "-" ++ Nat.repr other := by
    intro value other equal
    have minus : '-' ∈ (Nat.repr value).toList := by
      rw [equal, String.toList_append]
      exact List.mem_append_left _ (by decide)
    exact not_mem_repr (by decide) value minus
  cases first with
  | ofNat value =>
    cases second with
    | ofNat other => rw [repr_injective (congrArg String.toList same)]
    | negSucc other => exact absurd same (signed value (other + 1))
  | negSucc value =>
    cases second with
    | ofNat other => exact absurd same.symm (signed other (value + 1))
    | negSucc other =>
      have digits := congrArg String.toList same
      change ("-" ++ Nat.repr (value + 1)).toList = ("-" ++ Nat.repr (other + 1)).toList at digits
      rw [String.toList_append, String.toList_append] at digits
      have numbers := repr_injective (List.append_cancel_left digits)
      rw [Nat.succ.inj numbers]

end Foundation.Separated
