import Mathlib.Data.List.Basic

/-!
# JSON values and their objects

A value as a JSON parser returns it, and an object as a dictionary: reading, writing and
removing one key leaves the other keys as they are.  `JsonColumn` is a nullable text column
seen through the parser.
-/

namespace Foundation.JsonValue

inductive Json where
  | null
  | bool (value : Bool)
  | integer (value : Int)
  /-- a number that is no integer; `zero` is its truth value -/
  | decimal (literal : String) (zero : Bool)
  | text (value : String)
  | array (items : List Json)
  | object (entries : List (String × Json))

abbrev Entries := List (String × Json)

def Json.truthy : Json → Bool
  | .null => false
  | .bool value => value
  | .integer value => value ≠ 0
  | .decimal _ zero => !zero
  | .text value => value ≠ ""
  | .array items => !items.isEmpty
  | .object entries => !entries.isEmpty

/-- `mapping.get(key)` with `none` for a missing key. -/
def get? (entries : Entries) (key : String) : Option Json :=
  (entries.find? fun entry => entry.1 == key).map Prod.snd

/-- `mapping[key] = value`: an old key keeps its place. -/
def assign (entries : Entries) (key : String) (value : Json) : Entries :=
  if entries.any fun entry => entry.1 == key then
    entries.map fun entry => if entry.1 == key then (key, value) else entry
  else entries ++ [(key, value)]

/-- `{**first, **second}` -/
def mergeEntries (first second : Entries) : Entries :=
  second.foldl (fun entries entry => assign entries entry.1 entry.2) first

/-- `mapping.pop(key, None)`, the mapping that is left. -/
def without (entries : Entries) (key : String) : Entries :=
  entries.filter fun entry => entry.1 != key

inductive JsonColumn where
  | null
  | malformed (text : String)
  | parsed (value : Json)

variable (entries : Entries)

theorem get?_without_self (key : String) : get? (without entries key) key = none := by
  unfold get? without
  rw [Option.map_eq_none_iff, List.find?_eq_none]
  intro entry member
  have other : entry.1 ≠ key := by simpa using (List.mem_filter.mp member).2
  simp [other]

theorem get?_assign_self (key : String) (value : Json) :
    get? (assign entries key value) key = some value := by
  unfold assign
  split
  · rename_i present
    obtain ⟨entry, member, keyed⟩ := List.any_eq_true.mp present
    unfold get?
    rw [List.find?_map, Option.map_map, Option.map_eq_some_iff]
    have same : ((fun entry : String × Json => entry.1 == key) ∘
        fun entry => if (entry.1 == key) = true then (key, value) else entry) =
        fun entry => entry.1 == key := by
      funext entry
      by_cases here : entry.1 = key <;> simp [here]
    rw [same]
    cases found : entries.find? fun entry => entry.1 == key with
    | none => exact absurd keyed (List.find?_eq_none.mp found entry member)
    | some first =>
      have firstKeyed : first.1 = key := by simpa using List.find?_some found
      exact ⟨first, rfl, by simp [firstKeyed]⟩
  · rename_i absent
    have none_found : entries.find? (fun entry => entry.1 == key) = none := by
      rw [List.find?_eq_none]
      intro entry member keyed
      exact absent (List.any_eq_true.mpr ⟨entry, member, keyed⟩)
    simp [get?, List.find?_append, none_found]

theorem get?_map_other {key other : String} (value : Json) (differ : other ≠ key) :
    get? (entries.map fun entry => if entry.1 == other then (other, value) else entry) key =
      get? entries key := by
  induction entries with
  | nil => rfl
  | cons entry rest ih =>
    unfold get? at ih ⊢
    by_cases here : entry.1 = other
    · have missed : entry.1 ≠ key := fun same => differ (here.symm.trans same)
      simpa [List.find?_cons, here, differ, missed] using ih
    · by_cases found : entry.1 = key
      · simp [found, Ne.symm differ]
      · simpa [List.find?_cons, here, found] using ih

theorem get?_assign_other {key other : String} (value : Json) (differ : other ≠ key) :
    get? (assign entries other value) key = get? entries key := by
  unfold assign
  split
  · exact get?_map_other entries value differ
  · unfold get?
    rw [List.find?_append]
    have fresh : ([(other, value)] : Entries).find? (fun entry => entry.1 == key) = none := by
      simp [differ]
    rw [fresh, Option.or_none]

theorem get?_mergeEntries_other (first second : Entries) {key : String}
    (differ : ∀ entry ∈ second, entry.1 ≠ key) :
    get? (mergeEntries first second) key = get? first key := by
  induction second generalizing first with
  | nil => rfl
  | cons entry rest ih =>
    have step : mergeEntries first (entry :: rest) =
        mergeEntries (assign first entry.1 entry.2) rest := rfl
    rw [step, ih _ fun other member => differ other (List.mem_cons_of_mem entry member)]
    exact get?_assign_other first entry.2 (differ entry List.mem_cons_self)

theorem get?_mergeEntries_of_mem (first : Entries) {second : Entries}
    (distinct : (second.map Prod.fst).Nodup) :
    ∀ entry ∈ second, get? (mergeEntries first second) entry.1 = some entry.2 := by
  induction second generalizing first with
  | nil => simp
  | cons entry rest ih =>
    obtain ⟨fresh, distinctRest⟩ := List.nodup_cons.mp distinct
    have step : mergeEntries first (entry :: rest) =
        mergeEntries (assign first entry.1 entry.2) rest := rfl
    rw [step, List.forall_mem_cons]
    refine ⟨?_, ih _ distinctRest⟩
    have others : ∀ other ∈ rest, other.1 ≠ entry.1 := by
      intro other member same
      exact fresh (same ▸ List.mem_map_of_mem member)
    rw [get?_mergeEntries_other _ _ others]
    exact get?_assign_self first entry.1 entry.2

end Foundation.JsonValue
