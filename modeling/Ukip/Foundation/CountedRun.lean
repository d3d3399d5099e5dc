import Mathlib.Data.List.Basic

/-!
# Counted transformations

A transformation of a row fails, or gives the row that it leaves and the number of
changes that it made.  Lists of rules are run one transformation after the other, and a
table is transformed row by row.
-/

namespace Foundation.CountedRun

variable {Row Rule : Type}

abbrev Counted (Row : Type) := Row → Option (Row × Nat)

def idle : Counted Row := fun row => some (row, 0)

def andThen (first second : Counted Row) : Counted Row := fun row =>
  (first row).bind fun left =>
    (second left.1).map fun result => (result.1, left.2 + result.2)

theorem andThen_idle (first : Counted Row) : andThen first idle = first := by
  funext row
  unfold andThen idle
  cases first row <;> rfl

theorem idle_andThen (second : Counted Row) : andThen idle second = second := by
  funext row
  unfold andThen idle
  rw [Option.bind_some]
  cases second row with
  | none => rfl
  | some result => simp

theorem andThen_assoc (first second third : Counted Row) :
    andThen (andThen first second) third = andThen first (andThen second third) := by
  funext row
  unfold andThen
  cases first row with
  | none => rfl
  | some left =>
    rw [Option.bind_some, Option.bind_some]
    cases second left.1 with
    | none => rfl
    | some middle =>
      rw [Option.map_some, Option.bind_some, Option.bind_some]
      cases third middle.1 with
      | none => rfl
      | some right => simp [Nat.add_assoc]

def runRules (step : Rule → Counted Row) : List Rule → Counted Row
  | [] => idle
  | rule :: rest => andThen (step rule) (runRules step rest)

variable (step : Rule → Counted Row)

theorem runRules_cons (rule : Rule) (rest : List Rule) :
    runRules step (rule :: rest) = andThen (step rule) (runRules step rest) := rfl

theorem runRules_append (first second : List Rule) :
    runRules step (first ++ second) = andThen (runRules step first) (runRules step second) := by
  induction first with
  | nil => exact (idle_andThen _).symm
  | cons rule rest ih =>
    rw [List.cons_append, runRules_cons, runRules_cons, ih, andThen_assoc]

/-- A run that counts nothing passes through one row only, where every rule counts nothing. -/
theorem runRules_zero {step : Rule → Counted Row} {Holds : Row → Prop} (rules : List Rule)
    (still : ∀ rule ∈ rules, ∀ row left, Holds row → step rule row = some (left, 0) → left = row)
    (row left : Row) (before : Holds row) (ran : runRules step rules row = some (left, 0)) :
    left = row ∧ ∀ rule ∈ rules, step rule row = some (row, 0) := by
  induction rules generalizing left with
  | nil =>
    have same := congrArg Prod.fst (Option.some.inj ran)
    exact ⟨same.symm, fun rule member => absurd member List.not_mem_nil⟩
  | cons rule rest ih =>
    obtain ⟨middle, stepped, rest_ran⟩ := Option.bind_eq_some_iff.mp ran
    obtain ⟨right, right_ran, total⟩ := Option.map_eq_some_iff.mp rest_ran
    obtain ⟨rfl, sum⟩ := Prod.mk.inj total
    have first : middle = (middle.1, 0) := Prod.ext rfl (by omega)
    have second : right = (right.1, 0) := Prod.ext rfl (by omega)
    rw [first] at stepped
    have unchanged := still rule List.mem_cons_self row middle.1 before stepped
    rw [unchanged] at stepped right_ran
    rw [second] at right_ran
    obtain ⟨same, later⟩ := ih
      (fun other member => still other (List.mem_cons_of_mem rule member)) right.1 right_ran
    refine ⟨same, fun other member => ?_⟩
    rcases List.mem_cons.mp member with rfl | member
    · exact stepped
    · exact later other member

def Commutes (first second : Counted Row) : Prop := andThen first second = andThen second first

theorem commutes_idle (first : Counted Row) : Commutes first idle := by
  rw [Commutes, andThen_idle, idle_andThen]

theorem runRules_commutes (other : Counted Row) (rules : List Rule)
    (each : ∀ rule ∈ rules, Commutes other (step rule)) : Commutes other (runRules step rules) := by
  induction rules with
  | nil => exact commutes_idle other
  | cons rule rest ih =>
    have head : andThen other (step rule) = andThen (step rule) other := each rule List.mem_cons_self
    have tail : andThen other (runRules step rest) = andThen (runRules step rest) other :=
      ih fun later member => each later (List.mem_cons_of_mem rule member)
    rw [Commutes, runRules_cons, ← andThen_assoc, head, andThen_assoc, tail, ← andThen_assoc]

/-- The rules of one kind run before the rest, when each rule of the rest commutes with
those of the kind that stand after it. -/
theorem runRules_partition (leads : Rule → Bool) (rules : List Rule)
    (apart : rules.Pairwise fun earlier later =>
      leads earlier = false → leads later = true → Commutes (step earlier) (step later)) :
    runRules step rules =
      runRules step (rules.filter leads ++ rules.filter fun rule => !leads rule) := by
  induction rules with
  | nil => rfl
  | cons rule rest ih =>
    obtain ⟨head, tail⟩ := List.pairwise_cons.mp apart
    cases lead : leads rule with
    | true =>
      rw [List.filter_cons_of_pos lead, List.filter_cons_of_neg (by simp [lead]),
        List.cons_append, runRules, runRules, ih tail]
    | false =>
      have passes : Commutes (step rule) (runRules step (rest.filter leads)) :=
        runRules_commutes step (step rule) _ fun later member =>
          head later (List.mem_filter.mp member).1 lead (List.mem_filter.mp member).2
      rw [List.filter_cons_of_neg (by simp [lead]), List.filter_cons_of_pos (by simp [lead]),
        runRules, ih tail, runRules_append, runRules_append, runRules, ← andThen_assoc,
        ← andThen_assoc, passes]

def onEach (step : Counted Row) : List Row → Option (List Row × Nat)
  | [] => some ([], 0)
  | row :: rest =>
    (step row).bind fun first =>
      (onEach step rest).map fun others => (first.1 :: others.1, first.2 + others.2)

theorem onEach_nil (step : Counted Row) : onEach step [] = some ([], 0) := rfl

theorem onEach_cons (step : Counted Row) (row : Row) (rest : List Row) :
    onEach step (row :: rest) =
      (step row).bind fun first =>
        (onEach step rest).map fun others => (first.1 :: others.1, first.2 + others.2) := rfl

theorem onEach_idle (rows : List Row) : onEach idle rows = some (rows, 0) := by
  induction rows with
  | nil => rfl
  | cons row rest ih => simp [onEach_cons, idle, ih]

theorem onEach_andThen (first second : Counted Row) (rows : List Row) :
    onEach (andThen first second) rows =
      (onEach first rows).bind fun left =>
        (onEach second left.1).map fun result => (result.1, left.2 + result.2) := by
  induction rows with
  | nil => rfl
  | cons row rest ih =>
    rw [onEach_cons, onEach_cons, ih]
    unfold andThen
    cases first row with
    | none => rfl
    | some left =>
      cases onEach first rest with
      | none => cases second left.1 <;> simp
      | some others =>
        simp only [Option.bind_some, Option.map_some, onEach_cons]
        cases second left.1 with
        | none => rfl
        | some right =>
          cases onEach second others.1 with
          | none => rfl
          | some later =>
            simp only [Option.bind_some, Option.map_some, Option.some.injEq,
              Prod.mk.injEq, true_and]
            omega

theorem onEach_congr {step other : Counted Row} (rows : List Row)
    (same : ∀ row ∈ rows, step row = other row) : onEach step rows = onEach other rows := by
  induction rows with
  | nil => rfl
  | cons row rest ih =>
    rw [onEach_cons, onEach_cons, same row List.mem_cons_self,
      ih fun later member => same later (List.mem_cons_of_mem row member)]

theorem onEach_singleton (step : Counted Row) (row : Row) :
    onEach step [row] = (step row).map fun result => ([result.1], result.2) := by
  cases ran : step row with
  | none => simp [onEach_nil, onEach_cons, ran]
  | some result => simp [onEach_nil, onEach_cons, ran]

/-- The rules in order over a table.  A rule that is refused fails on every table, the
empty one too. -/
def runTable (refused : Rule → Bool) (step : Rule → Counted Row) :
    List Rule → List Row → Option (List Row × Nat)
  | [], rows => some (rows, 0)
  | rule :: rest, rows =>
    if refused rule then none
    else (onEach (step rule) rows).bind fun left =>
      (runTable refused step rest left.1).map fun result => (result.1, left.2 + result.2)

theorem runTable_eq (refused : Rule → Bool) (step : Rule → Counted Row) (rules : List Rule)
    (rows : List Row) :
    runTable refused step rules rows =
      if rules.any refused then none else onEach (runRules step rules) rows := by
  induction rules generalizing rows with
  | nil => exact (onEach_idle rows).symm
  | cons rule rest ih =>
    cases refuses : refused rule with
    | true => simp [runTable, refuses]
    | false =>
      rw [runTable, runRules_cons, onEach_andThen, List.any_cons, refuses, Bool.false_or]
      cases any : rest.any refused with
      | true => simp [ih, any]
      | false => simp [ih, any]

theorem runTable_append (refused : Rule → Bool) (step : Rule → Counted Row)
    (first second : List Rule) (rows : List Row) :
    runTable refused step (first ++ second) rows =
      (runTable refused step first rows).bind fun left =>
        (runTable refused step second left.1).map fun result => (result.1, left.2 + result.2) := by
  simp only [runTable_eq, runRules_append, onEach_andThen, List.any_append]
  cases first.any refused with
  | true => simp
  | false =>
    cases second.any refused with
    | true => simp
    | false => simp

end Foundation.CountedRun
