import Ukip.Retrospective.Query
import Mathlib.Data.List.Dedup

/-!
# Comparison with a snapshot

`explain_value` and `compare_to_snapshot` of `query.py`.  The values of a payload may be nested:
the comparison reads them through `is None` and `==` alone, so their type is a parameter.
-/

namespace Ukip.Retrospective.Comparison

open Foundation (OrderBy)

/-- The values that `json.loads` returns.  `None` is equal to itself and to no other value. -/
structure PythonValues (Val : Type) where
  null : Val
  equal : Val → Val → Bool
  equal_null : ∀ value, equal value null = true ↔ value = null
  null_equal : ∀ value, equal null value = true ↔ value = null

abbrev Dict (Val : Type) := List (String × Val)

inductive Provenance where
  | present
  | unknown
  | unavailable

/-- What `point_in_time_snapshot` returns to the comparison. -/
structure PriorSnapshot (Val : Type) where
  found : Bool
  validAt : Option Int
  payload : Option (Dict Val)
  missingReason : Option String

structure FieldChange (Val : Type) where
  prior : Val
  current : Val
  priorProvenance : Provenance

structure ComparisonResult (Val : Type) where
  foundPrior : Bool
  subjectId : String
  snapshotType : String
  asOf : Int
  current : Dict Val
  prior : Option (Dict Val) := none
  priorValidAt : Option Int := none
  changedFields : List (String × FieldChange Val) := []
  missingReason : Option String := none

section Compare

variable {Val : Type} (values : PythonValues Val)

/-- `payload.get(name)` -/
def get (payload : Dict Val) (name : String) : Val := (payload.lookup name).getD values.null

def explainValue (payload : Dict Val) (name : String) : Provenance :=
  match payload.lookup name with
  | none => .unavailable
  | some value => if values.equal value values.null then .unknown else .present

/-- `sorted(set(current) | set(prior))` -/
def comparedFields (current prior : Dict Val) : List String :=
  (current.map Prod.fst ++ prior.map Prod.fst).dedup.insertionSort (· ≤ ·)

def fieldChange (current prior : Dict Val) (name : String) : Option (String × FieldChange Val) :=
  if values.equal (get values current name) (get values prior name) then none
  else
    some (name,
      { prior := get values prior name
        current := get values current name
        priorProvenance := explainValue values prior name })

def changedFields (current prior : Dict Val) : List (String × FieldChange Val) :=
  (comparedFields current prior).filterMap (fieldChange values current prior)

def compareToSnapshot
    (pointInTimeSnapshot : Option Int → String → String → Int → PriorSnapshot Val)
    (orgId : Option Int) (snapshotType subjectId : String) (asOf : Int) (current : Dict Val) :
    ComparisonResult Val :=
  let priorResult := pointInTimeSnapshot orgId snapshotType subjectId asOf
  if !priorResult.found then
    { foundPrior := false, subjectId := subjectId, snapshotType := snapshotType, asOf := asOf,
      current := current, missingReason := priorResult.missingReason }
  else
    let prior := priorResult.payload.getD []
    { foundPrior := true, subjectId := subjectId, snapshotType := snapshotType, asOf := asOf,
      current := current, prior := some prior, priorValidAt := priorResult.validAt,
      changedFields := changedFields values current prior }

def sameEntry : Option Val → Option Val → Bool
  | none, none => true
  | some first, some second => values.equal first second
  | _, _ => false

/-- A field differs in its value or in its provenance. -/
def Differs (current prior : Dict Val) (name : String) : Prop :=
  sameEntry values (current.lookup name) (prior.lookup name) = false ∨
    explainValue values current name ≠ explainValue values prior name

/-- A field that is null on one side and missing on the other. -/
def NullAgainstMissing (current prior : Dict Val) (name : String) : Prop :=
  (current.lookup name = some values.null ∧ prior.lookup name = none) ∨
    (current.lookup name = none ∧ prior.lookup name = some values.null)

variable (current prior : Dict Val) (name : String)

theorem mem_comparedFields :
    name ∈ comparedFields current prior ↔
      current.lookup name ≠ none ∨ prior.lookup name ≠ none := by
  have keyed : ∀ payload : Dict Val, name ∈ payload.map Prod.fst ↔ payload.lookup name ≠ none := by
    intro payload
    rw [ne_eq, List.lookup_eq_none_iff]
    simp
  rw [comparedFields, (List.perm_insertionSort _ _).mem_iff, List.mem_dedup, List.mem_append,
    keyed, keyed]

theorem mem_changedFields (change : FieldChange Val) :
    (name, change) ∈ changedFields values current prior ↔
      name ∈ comparedFields current prior ∧
        values.equal (get values current name) (get values prior name) = false ∧
          change = ⟨get values prior name, get values current name, explainValue values prior name⟩ := by
  rw [changedFields, List.mem_filterMap]
  constructor
  · rintro ⟨key, member, listed⟩
    unfold fieldChange at listed
    split_ifs at listed with same
    cases Option.some.inj listed
    exact ⟨member, Bool.eq_false_of_not_eq_true same, rfl⟩
  · rintro ⟨member, differ, rfl⟩
    exact ⟨name, member, by simp [fieldChange, differ]⟩

theorem mem_changedFields_keys :
    name ∈ (changedFields values current prior).map Prod.fst ↔
      values.equal (get values current name) (get values prior name) = false := by
  rw [List.mem_map]
  constructor
  · rintro ⟨⟨key, change⟩, member, rfl⟩
    exact ((mem_changedFields values current prior key change).mp member).2.1
  · intro differ
    refine ⟨(name, _), (mem_changedFields values current prior name _).mpr ⟨?_, differ, rfl⟩, rfl⟩
    rw [mem_comparedFields]
    by_contra missing
    obtain ⟨noCurrent, noPrior⟩ := not_or.mp missing
    rw [get, get, not_not.mp noCurrent, not_not.mp noPrior] at differ
    exact Bool.false_ne_true (differ.symm.trans ((values.equal_null _).mpr rfl))

/-- The comparison of one field is exact unless it is null on one side and missing on the other:
there `get` returns the same for both. -/
theorem listed_iff_differs :
    (name ∈ (changedFields values current prior).map Prod.fst ↔ Differs values current prior name) ↔
      ¬NullAgainstMissing values current prior name := by
  rw [mem_changedFields_keys]
  unfold Differs NullAgainstMissing get explainValue
  cases current.lookup name with
  | none =>
    cases prior.lookup name with
    | none => simp [sameEntry, (values.equal_null _).mpr]
    | some old =>
      by_cases isNull : old = values.null
      · simp [sameEntry, isNull, (values.equal_null _).mpr]
      · have differ : values.equal values.null old = false :=
          Bool.eq_false_of_not_eq_true fun same => isNull ((values.null_equal old).mp same)
        simp [sameEntry, isNull, differ]
  | some value =>
    cases prior.lookup name with
    | none =>
      by_cases isNull : value = values.null
      · simp [sameEntry, isNull, (values.equal_null _).mpr]
      · have differ : values.equal value values.null = false :=
          Bool.eq_false_of_not_eq_true fun same => isNull ((values.equal_null value).mp same)
        simp [sameEntry, isNull, differ]
    | some old =>
      -- both sides have the field, and equal values have the same provenance
      have provenance : values.equal value old = true →
          (values.equal value values.null = true ↔ values.equal old values.null = true) := by
        intro same
        rw [values.equal_null, values.equal_null]
        constructor
        · rintro rfl
          exact (values.null_equal _).mp same
        · rintro rfl
          exact (values.equal_null _).mp same
      cases same : values.equal value old with
      | true => simp [sameEntry, same, provenance same]
      | false => simp [sameEntry, same]

theorem compareToSnapshot_found
    {pointInTimeSnapshot : Option Int → String → String → Int → PriorSnapshot Val}
    {orgId : Option Int} {snapshotType subjectId : String} {asOf : Int} (current : Dict Val)
    (found : (pointInTimeSnapshot orgId snapshotType subjectId asOf).found = true) :
    (compareToSnapshot values pointInTimeSnapshot orgId snapshotType subjectId asOf
        current).changedFields =
      changedFields values current
        ((pointInTimeSnapshot orgId snapshotType subjectId asOf).payload.getD []) := by
  unfold compareToSnapshot
  simp only [found, Bool.not_true, Bool.false_eq_true, if_false]

end Compare

def storedValues : PythonValues Value where
  null := .null
  equal := fun first second => decide (first = second)
  equal_null := fun value => by simp
  null_equal := fun value => by simp [eq_comm]

/-- `point_in_time_snapshot` over the tables of a ledger. -/
def ledgerSnapshot (newest : NewestFirst) (ledger : Ledger) (orgId : Option Int)
    (snapshotType subjectId : String) (asOf : Int) : PriorSnapshot Value :=
  let result := pointInTimeSnapshot newest ledger orgId snapshotType subjectId asOf
  { found := result.found, validAt := result.validAt, payload := result.payload,
    missingReason := result.missingReason }

/-- A comparison with a snapshot lists exactly the fields that differ if and only if no field is
null on one side and missing on the other. -/
theorem comparison_exact_iff {Val : Type} (values : PythonValues Val)
    (pointInTimeSnapshot : Option Int → String → String → Int → PriorSnapshot Val)
    (orgId : Option Int) (snapshotType subjectId : String) (asOf : Int) (current : Dict Val)
    (found : (pointInTimeSnapshot orgId snapshotType subjectId asOf).found = true) :
    let prior := (pointInTimeSnapshot orgId snapshotType subjectId asOf).payload.getD []
    (∀ name, name ∈ (compareToSnapshot values pointInTimeSnapshot orgId snapshotType subjectId asOf
        current).changedFields.map Prod.fst ↔ Differs values current prior name) ↔
      ∀ name, ¬NullAgainstMissing values current prior name := by
  intro prior
  rw [compareToSnapshot_found values current found]
  exact forall_congr' fun name => listed_iff_differs values current prior name

/-- The journal of May with a new metric, against its snapshot. -/
theorem comparison_exact_may :
    (∀ name, name ∈ (compareToSnapshot storedValues (ledgerSnapshot (OrderBy.stable _) ⟨[], [maySnapshot]⟩)
        none "journal_metric" "0028-0836" maySnapshot.validAt [("nif", .number 3)]).changedFields.map
          Prod.fst ↔ Differs storedValues [("nif", .number 3)] [("nif", .number 2)] name) ↔
      ∀ name, ¬NullAgainstMissing storedValues [("nif", .number 3)] [("nif", .number 2)] name :=
  comparison_exact_iff storedValues (ledgerSnapshot (OrderBy.stable _) ⟨[], [maySnapshot]⟩) none
    "journal_metric" "0028-0836" maySnapshot.validAt [("nif", .number 3)] (by decide)

/-- The snapshot of May was taken without the shrunken metric, which is null today: the two are
of different provenance, and the field is not listed. -/
theorem comparison_misses_null :
    ¬∀ name, name ∈ (compareToSnapshot storedValues (ledgerSnapshot (OrderBy.stable _) ⟨[], [maySnapshot]⟩)
        none "journal_metric" "0028-0836" maySnapshot.validAt
        [("nif", .number 2), ("nif_bayes", .null)]).changedFields.map Prod.fst ↔
      Differs storedValues [("nif", .number 2), ("nif_bayes", .null)] [("nif", .number 2)] name := by
  intro exact_
  have listed := (exact_ "nif_bayes").mpr (.inl (by decide))
  exact absurd listed (by decide)

end Ukip.Retrospective.Comparison
