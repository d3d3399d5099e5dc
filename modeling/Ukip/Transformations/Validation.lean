import Ukip.Transformations.Engine

/-!
# Validation of transformations

`validate_expression` applies the expression to one value.  Except in `strip_html`, whether an
expression fails, and how, does not depend on the value; the failures that are no
`TransformError` are those of `split` with an empty delimiter and of integers too long to be
read.
-/

namespace Ukip.Transformations

open Foundation.Words (words)
open Analytics.Corpus (strip isPythonSpace)

inductive Kind
  | returns
  | transformError
  | valueError
  deriving DecidableEq

def kindOf {Result : Type} : Except PyError Result → Kind
  | .ok _ => .returns
  | .error (.transformError _) => .transformError
  | .error (.valueError _) => .valueError

variable {Result : Type}

@[simp] theorem kindOf_ok (value : Result) :
    kindOf (.ok value : Except PyError Result) = .returns := rfl

@[simp] theorem kindOf_transformError (message : String) :
    kindOf (.error (.transformError message) : Except PyError Result) = .transformError := rfl

@[simp] theorem kindOf_valueError (message : String) :
    kindOf (.error (.valueError message) : Except PyError Result) = .valueError := rfl

@[simp] theorem kindOf_map {Result Other : Type} (f : Result → Other)
    (result : Except PyError Result) : kindOf (result.map f) = kindOf result := by
  cases result with
  | ok value => rfl
  | error error => cases error <;> rfl

variable (result : Except PyError Result)

theorem kindOf_eq_returns_iff : kindOf result = .returns ↔ ∃ value, result = .ok value := by
  cases result with
  | ok value => simp [kindOf]
  | error error => cases error <;> simp [kindOf]

theorem kindOf_eq_transformError_iff :
    kindOf result = .transformError ↔ ∃ message, result = .error (.transformError message) := by
  cases result with
  | ok value => simp [kindOf]
  | error error => cases error <;> simp [kindOf]

theorem kindOf_eq_valueError_iff :
    kindOf result = .valueError ↔ ∃ message, result = .error (.valueError message) := by
  cases result with
  | ok value => simp [kindOf]
  | error error => cases error <;> simp [kindOf]

section Validation

variable (python : PythonText)

/-- An accepted expression returns a text for every value, a rejected one raises
`TransformError` for every value, and nothing else is raised. -/
structure ValidationSound (expr : String) : Prop where
  accepted : validateExpression python expr = .ok () → ∀ value : String,
    ∃ result, applyExpression python expr (some value) = .ok result
  rejected : ∀ message, validateExpression python expr = .error (.transformError message) →
    ∀ value : String, ∃ message, applyExpression python expr (some value) =
      .error (.transformError message)
  nothingElse : ∀ value message, applyExpression python expr value ≠ .error (.valueError message)

def longInteger (raw : List Char) : Bool :=
  (integerDigits python (strip isPythonSpace raw)).any fun read => tooLong python read.2.length

def shortInteger (raw : List Char) : Bool :=
  (integerDigits python (strip isPythonSpace raw)).any fun read => !tooLong python read.2.length

def emptyDelimiter (args : List (List Char)) : Bool :=
  match args with
  | [delimArg] => decide (quoted (strip isPythonSpace delimArg) = some [])
  | _ => false

def longSlice (args : List (List Char)) : Bool :=
  match args with
  | [start] => longInteger python start
  | [start, stop] =>
    longInteger python start || (shortInteger python start && longInteger python stop)
  | _ => false

/-- The call can fail with another error than `TransformError`; `subscripted` says whether a
subscript follows it. -/
def unsafeCall (subscripted : Bool) (funcName argsRaw : List Char) : Bool :=
  let fn := String.ofList (funcName.map Char.toLower)
  if fn = "split" then
    emptyDelimiter (if subscripted then splitArgs argsRaw else callArgs argsRaw)
  else if fn = "slice" then longSlice python (callArgs argsRaw)
  else if fn = "strip_html" then 0 < python.maxStrDigits
  else false

/-- A `split` with an empty delimiter, an integer too long to be read in a `slice` or a
subscript, or, if there is a limit, a `strip_html` whose subscript can be read. -/
def unsafeExpression (expr : String) : Bool :=
  match subscriptMatch (strip isPythonSpace expr.toList) with
  | none =>
    (exprMatch (strip isPythonSpace expr.toList)).any fun call =>
      unsafeCall python false call.1 call.2
  | some (inner, index) =>
    longInteger python (strip isPythonSpace index) ||
      (shortInteger python (strip isPythonSpace index) &&
        (exprMatch (strip isPythonSpace inner)).any fun call => unsafeCall python true call.1 call.2)

variable (raw : List Char)

theorem kindOf_parseStrArg :
    kindOf (parseStrArg python raw) =
      if (quoted (strip isPythonSpace raw)).isSome then .returns else .transformError := by
  unfold parseStrArg
  cases quoted (strip isPythonSpace raw) <;> rfl

theorem parseStrArg_eq_ok_iff (raw text : List Char) :
    parseStrArg python raw = .ok text ↔ quoted (strip isPythonSpace raw) = some text := by
  unfold parseStrArg
  cases quoted (strip isPythonSpace raw) <;> simp

theorem kindOf_parseIntArg :
    kindOf (parseIntArg python raw) =
      if longInteger python raw then .valueError
      else if shortInteger python raw then .returns else .transformError := by
  unfold parseIntArg longInteger shortInteger
  cases integerDigits python (strip isPythonSpace raw) with
  | none => rfl
  | some read =>
    obtain ⟨negative, digits⟩ := read
    cases long : tooLong python digits.length <;> simp [long, kindOf, exceedsLimit]

theorem longInteger_shortInteger :
    ¬ (longInteger python raw = true ∧ shortInteger python raw = true) := by
  unfold longInteger shortInteger
  cases integerDigits python (strip isPythonSpace raw) with
  | none => simp
  | some read => cases long : tooLong python read.2.length <;> simp [long]

/-- The failure does not depend on the value, and is a `ValueError` exactly if `raises`. -/
def Uniform {Value Result : Type} (run : Value → Except PyError Result) (raises : Bool) : Prop :=
  ∃ kind, (∀ value, kindOf (run value) = kind) ∧ (kind = .valueError ↔ raises = true)

theorem Uniform.map {Value Other Result Shown : Type} {run : Value → Except PyError Result}
    {raises : Bool} (uniform : Uniform run raises) (valueOf : Other → Value)
    (shown : Other → Result → Shown) :
    Uniform (fun other => (run (valueOf other)).map (shown other)) raises := by
  obtain ⟨kind, kinds, decides⟩ := uniform
  exact ⟨kind, fun other => (kindOf_map _ _).trans (kinds (valueOf other)), decides⟩

theorem uniform_of_map {Value Arg Result : Type} (arg : Except PyError Arg) (raises : Bool)
    (decides : kindOf arg = .valueError ↔ raises = true) (f : Value → Arg → Result) :
    Uniform (fun value => arg.map (f value)) raises :=
  ⟨kindOf arg, fun value => kindOf_map (f value) arg, decides⟩

theorem uniform_returns {Value Result : Type} (f : Value → Result) :
    Uniform (fun value => (.ok (f value) : Except PyError Result)) false :=
  ⟨.returns, fun _ => rfl, by decide⟩

theorem uniform_transformError {Value Result : Type} (message : String) :
    Uniform (fun _ : Value => (.error (.transformError message) : Except PyError Result)) false :=
  ⟨.transformError, fun _ => rfl, by decide⟩

theorem not_valueError_parseStrArg :
    kindOf (parseStrArg python raw) ≠ .valueError := by
  rw [kindOf_parseStrArg]
  split <;> decide

theorem uniform_bind {Value Arg Result : Type} (arg : Except PyError Arg)
    (f : Arg → Value → Except PyError Result) (kept : kindOf arg ≠ .valueError)
    (each : ∀ read, Uniform (f read) false) :
    Uniform (fun value => arg.bind fun read => f read value) false := by
  cases arg with
  | ok read => exact each read
  | error error =>
    cases error with
    | transformError message => exact uniform_transformError message
    | valueError message => exact absurd rfl kept

theorem uniform_delimited (delimArg : List Char)
    (f : List Char → List Char → List (List Char) → Result) :
    Uniform (fun value => (parseStrArg python delimArg).bind fun delim =>
        (pySplit value delim).map (f value delim))
      (decide (quoted (strip isPythonSpace delimArg) = some [])) := by
  cases read : quoted (strip isPythonSpace delimArg) with
  | none =>
    refine ⟨.transformError, fun value => ?_, by simp⟩
    simp [parseStrArg, read, Except.bind]
  | some delim =>
    have parsed := (parseStrArg_eq_ok_iff python delimArg delim).mpr read
    by_cases empty : delim = []
    · refine ⟨.valueError, fun value => ?_, by simp [empty]⟩
      rw [parsed]
      simp only [Except.bind, kindOf_map, pySplit, if_pos empty, kindOf_valueError]
    · refine ⟨.returns, fun value => ?_, by simp [empty]⟩
      rw [parsed]
      simp only [Except.bind, kindOf_map, pySplit, if_neg empty, kindOf_ok]

theorem uniform_slice (args : List (List Char)) :
    Uniform (fun value => sliceOf python args value) (longSlice python args) := by
  rcases args with _ | ⟨start, _ | ⟨stop, _ | ⟨third, rest⟩⟩⟩
  · exact uniform_transformError _
  · refine uniform_of_map (parseIntArg python start) _ ?_ fun value start => pySlice value start none
    rw [kindOf_parseIntArg, longSlice]
    cases longInteger python start <;> cases shortInteger python start <;> simp
  · have apart := longInteger_shortInteger python start
    cases parsed : parseIntArg python start with
    | ok first =>
      have kinds := kindOf_parseIntArg python start
      rw [parsed] at kinds
      have isShort : longInteger python start = false ∧ shortInteger python start = true := by
        cases long : longInteger python start <;> cases short : shortInteger python start <;>
          simp [long, short, kindOf] at kinds ⊢
      refine ⟨kindOf (parseIntArg python stop), fun value => ?_, ?_⟩
      · simp [sliceOf, parsed, Except.bind]
      · rw [kindOf_parseIntArg, longSlice, isShort.1, isShort.2]
        cases longInteger python stop <;> cases shortInteger python stop <;> simp
    | error error =>
      have kinds := kindOf_parseIntArg python start
      rw [parsed] at kinds
      refine ⟨kindOf (.error error : Except PyError Int), fun value => ?_, ?_⟩
      · cases error <;> simp [sliceOf, parsed, Except.bind, kindOf]
      · rw [kinds, longSlice]
        cases long : longInteger python start <;> cases short : shortInteger python start <;>
          simp [long, short, kindOf] at kinds ⊢
        cases error <;> simp at kinds
  · exact uniform_transformError _

def nameOf (funcName : List Char) : String := String.ofList (funcName.map Char.toLower)

theorem uniform_applyFunc (funcName argsRaw : List Char) (other : nameOf funcName ≠ "strip_html") :
    Uniform (applyFunc python funcName argsRaw) (unsafeCall python false funcName argsRaw) := by
  unfold nameOf at other
  unfold unsafeCall applyFunc
  generalize String.ofList (funcName.map Char.toLower) = fn at other ⊢
  by_cases trim : fn = "trim"
  · simp only [trim, if_true]
    exact uniform_returns _
  by_cases upper : fn = "upper"
  · simp only [upper]
    exact uniform_returns _
  by_cases lower : fn = "lower"
  · simp only [lower]
    exact uniform_returns _
  by_cases title : fn = "title"
  · simp only [title]
    exact uniform_returns _
  by_cases replaces : fn = "replace"
  · simp only [replaces]
    generalize callArgs argsRaw = args
    rcases args with _ | ⟨old, _ | ⟨new, _ | ⟨third, rest⟩⟩⟩
    · exact uniform_transformError _
    · exact uniform_transformError _
    · refine uniform_bind _ _ (not_valueError_parseStrArg python old) fun read => ?_
      refine uniform_of_map (parseStrArg python new) false ?_ fun value new => pyReplace value read new
      simpa using not_valueError_parseStrArg python new
    · exact uniform_transformError _
  by_cases adds : fn = "prefix" ∨ fn = "suffix"
  · rcases adds with rfl | rfl
    all_goals
      simp only
      generalize callArgs argsRaw = args
      rcases args with _ | ⟨only, _ | ⟨second, rest⟩⟩
      · exact uniform_transformError _
      · refine uniform_of_map (parseStrArg python only) false ?_ _
        simpa using not_valueError_parseStrArg python only
      · exact uniform_transformError _
  rw [not_or] at adds
  by_cases number : fn = "to_number"
  · simp only [number]
    exact uniform_returns _
  by_cases slices : fn = "slice"
  · simp only [slices]
    exact uniform_slice python (callArgs argsRaw)
  by_cases splits : fn = "split"
  · simp only [splits]
    generalize callArgs argsRaw = args
    rcases args with _ | ⟨only, _ | ⟨second, rest⟩⟩
    · exact uniform_transformError _
    · exact uniform_delimited python only fun _ delim parts => delim.intercalate parts
    · exact uniform_transformError _
  by_cases strips : fn = "strip"
  · simp only [strips]
    generalize callArgs argsRaw = args
    rcases args with _ | ⟨first, rest⟩
    · exact uniform_returns _
    · refine uniform_of_map (parseStrArg python first) false ?_ fun value chars =>
        strip chars.contains value
      simpa using not_valueError_parseStrArg python first
  simp only [trim, upper, lower, title, replaces, adds.1, adds.2, number, slices, splits, strips,
    other]
  exact uniform_transformError _

theorem uniform_applyCall (funcName argsRaw : List Char) (subscript : Option Int)
    (other : nameOf funcName ≠ "strip_html") :
    Uniform (applyCall python funcName argsRaw subscript)
      (unsafeCall python subscript.isSome funcName argsRaw) := by
  have plain := uniform_applyFunc python funcName argsRaw other
  cases subscript with
  | none => exact plain
  | some index =>
    by_cases splits : nameOf funcName = "split"
    · have raises : unsafeCall python true funcName argsRaw = emptyDelimiter (splitArgs argsRaw) := by
        unfold unsafeCall
        rw [← nameOf, splits]
        rfl
      have runs : applyCall python funcName argsRaw (some index) =
          fun value => splitItem python argsRaw value index := by
        funext value
        exact if_pos splits
      rw [Option.isSome_some, raises, runs]
      unfold splitItem
      generalize splitArgs argsRaw = args
      rcases args with _ | ⟨only, _ | ⟨second, rest⟩⟩
      · exact uniform_transformError _
      · exact uniform_delimited python only fun _ _ parts =>
          ((pyItem parts index).map (strip isPythonSpace)).getD []
      · exact uniform_transformError _
    · have raises : unsafeCall python true funcName argsRaw =
          unsafeCall python false funcName argsRaw := by
        unfold unsafeCall
        rw [← nameOf]
        simp only [splits, if_false]
      have runs : applyCall python funcName argsRaw (some index) = fun value =>
          (applyFunc python funcName argsRaw value).map fun result =>
            (pyItem (words isPythonSpace result) index).getD [] := by
        funext value
        exact if_neg splits
      rw [Option.isSome_some, raises, runs]
      exact plain.map _ _

theorem kindOf_htmlUnescape (text : List Char) :
    kindOf (htmlUnescape python text) =
      if (text.tails.any fun tail => tooLong python (charrefDigits tail)) then .valueError
      else .returns := by
  unfold htmlUnescape
  cases found : text.tails.find? fun tail => tooLong python (charrefDigits tail) with
  | none =>
    have absent : (text.tails.any fun tail => tooLong python (charrefDigits tail)) = false := by
      simpa using List.find?_eq_none.mp found
    rw [absent]
    rfl
  | some tail =>
    have present : (text.tails.any fun tail => tooLong python (charrefDigits tail)) = true :=
      List.any_eq_true.mpr ⟨tail, List.mem_of_find?_eq_some found, by
        simpa using List.find?_some found⟩
    rw [present]
    rfl

theorem kindOf_stripHtml {funcName : List Char} (argsRaw : List Char) (subscript : Option Int)
    (named : nameOf funcName = "strip_html") (value : List Char) :
    kindOf (applyCall python funcName argsRaw subscript value) =
      kindOf (htmlUnescape python (removeTags 0 value)) := by
  have plain : kindOf (applyFunc python funcName argsRaw value) =
      kindOf (htmlUnescape python (removeTags 0 value)) := by
    unfold applyFunc
    rw [← nameOf, named]
    exact kindOf_map _ _
  cases subscript with
  | none => exact plain
  | some index =>
    have notSplit : ¬ nameOf funcName = "split" := by
      rw [named]
      decide
    have runs : applyCall python funcName argsRaw (some index) value =
        (applyFunc python funcName argsRaw value).map fun result =>
          (pyItem (words isPythonSpace result) index).getD [] := if_neg notSplit
    rw [runs, kindOf_map]
    exact plain

theorem removeTags_of_no_tag {text : List Char} (plain : ∀ c ∈ text, c ≠ '<') :
    removeTags 0 text = text := by
  induction text with
  | nil => rfl
  | cons c rest ih =>
    have other : ¬ (c = '<' ∧ (rest.takeWhile fun d => d ≠ '>') ≠ [] ∧
        (rest.takeWhile fun d => d ≠ '>').length < rest.length) :=
      fun tag => plain c List.mem_cons_self tag.1
    rw [removeTags, if_neg other, ih fun d member => plain d (List.mem_cons_of_mem c member)]

def longCharref : List Char := '&' :: '#' :: List.replicate (python.maxStrDigits + 1) '1'

theorem kindOf_longCharref (limited : 0 < python.maxStrDigits) :
    kindOf (htmlUnescape python (removeTags 0 (longCharref python))) = .valueError := by
  have plain : removeTags 0 (longCharref python) = longCharref python := by
    apply removeTags_of_no_tag
    intro c member
    simp only [longCharref, List.mem_cons, List.mem_replicate] at member
    rcases member with rfl | rfl | ⟨_, rfl⟩ <;> decide
  have digits : charrefDigits (longCharref python) = python.maxStrDigits + 1 := by
    have all : ∀ c ∈ List.replicate (python.maxStrDigits + 1) '1', c.isDigit = true := by
      intro c member
      rw [(List.mem_replicate.mp member).2]
      rfl
    rw [longCharref, charrefDigits, List.takeWhile_eq_self_iff.mpr all, List.length_replicate]
  rw [plain, kindOf_htmlUnescape, if_pos]
  refine List.any_eq_true.mpr ⟨longCharref python, ?_, ?_⟩
  · exact (List.mem_tails _ _).mpr (List.suffix_refl _)
  · rw [digits]
    simp [tooLong, limited]

theorem kindOf_htmlUnescape_unlimited (unlimited : python.maxStrDigits = 0) (text : List Char) :
    kindOf (htmlUnescape python text) = .returns := by
  rw [kindOf_htmlUnescape, if_neg]
  simp [tooLong, unlimited]

theorem validationSound_of_uniform {expr : String} {raises : Bool}
    (uniform : Uniform (fun value : String => applyExpression python expr (some value)) raises) :
    ValidationSound python expr ↔ raises = false := by
  obtain ⟨kind, kinds, decides⟩ := uniform
  have probe : kindOf (validateExpression python expr) = kind := by
    rw [validateExpression, kindOf_map]
    exact kinds "test_value"
  constructor
  · intro sound
    cases isRaising : raises with
    | false => rfl
    | true =>
      obtain ⟨message, raised⟩ := (kindOf_eq_valueError_iff _).mp
        ((kinds "").trans (decides.mpr isRaising))
      exact absurd raised (sound.nothingElse (some "") message)
  · intro quiet
    have noValueError : kind ≠ .valueError := by
      intro isValueError
      rw [decides.mp isValueError] at quiet
      cases quiet
    refine ⟨fun accepts value => ?_, fun message rejects value => ?_, fun value message raised => ?_⟩
    · rw [accepts] at probe
      exact (kindOf_eq_returns_iff _).mp ((kinds value).trans probe.symm)
    · rw [rejects] at probe
      exact (kindOf_eq_transformError_iff _).mp ((kinds value).trans probe.symm)
    · cases value with
      | none => cases raised
      | some text =>
        exact noValueError ((kinds text).symm.trans (congrArg kindOf raised))

theorem uniform_applyRead (inner : List Char) (subscript : Option Int) :
    Uniform (applyRead python inner subscript)
        ((exprMatch inner).any fun call => unsafeCall python subscript.isSome call.1 call.2) ∨
      ((exprMatch inner).any fun call => unsafeCall python subscript.isSome call.1 call.2) = true ∧
        ∃ value, kindOf (applyRead python inner subscript value) = .valueError := by
  cases matched : exprMatch inner with
  | none =>
    have runs : applyRead python inner subscript = fun _ => .error (invalidExpression python inner) := by
      funext value
      rw [applyRead, matched]
    rw [runs]
    exact .inl (uniform_transformError _)
  | some call =>
    obtain ⟨funcName, argsRaw⟩ := call
    have runs : applyRead python inner subscript = applyCall python funcName argsRaw subscript := by
      funext value
      rw [applyRead, matched]
    rw [runs, Option.any_some]
    by_cases named : nameOf funcName = "strip_html"
    · have raises : unsafeCall python subscript.isSome funcName argsRaw =
          decide (0 < python.maxStrDigits) := by
        unfold unsafeCall
        rw [← nameOf, named]
        rfl
      rw [raises]
      by_cases limited : 0 < python.maxStrDigits
      · refine .inr ⟨by simpa using limited, longCharref python, ?_⟩
        rw [kindOf_stripHtml python argsRaw subscript named]
        exact kindOf_longCharref python limited
      · refine .inl ⟨.returns, fun value => ?_, by simp [limited]⟩
        rw [kindOf_stripHtml python argsRaw subscript named]
        exact kindOf_htmlUnescape_unlimited python (Nat.eq_zero_of_not_pos limited) _
    · exact .inl (uniform_applyCall python funcName argsRaw subscript named)

theorem not_sound_of_valueError {expr : String} {value : String}
    (raises : kindOf (applyExpression python expr (some value)) = .valueError) :
    ¬ ValidationSound python expr := by
  intro sound
  obtain ⟨message, raised⟩ := (kindOf_eq_valueError_iff _).mp raises
  exact sound.nothingElse (some value) message raised

theorem validationSound_of_read {expr : String} {inner : List Char} {subscript : Option Int}
    (read : readSubscript python (strip isPythonSpace expr.toList) = .ok (inner, subscript)) :
    ValidationSound python expr ↔
      ((exprMatch inner).any fun call => unsafeCall python subscript.isSome call.1 call.2) = false := by
  have runs : ∀ value, applyExpression python expr (some value) =
      (applyRead python inner subscript value.toList).map String.ofList := by
    intro value
    rw [applyExpression, read]
    rfl
  rcases uniform_applyRead python inner subscript with uniform | ⟨isUnsafe, value, raises⟩
  · apply validationSound_of_uniform
    simp only [runs]
    exact uniform.map String.toList fun _ => String.ofList
  · rw [isUnsafe]
    refine iff_of_false (@not_sound_of_valueError python expr (String.ofList value) ?_) (by decide)
    rw [runs, kindOf_map, String.toList_ofList]
    exact raises

/-- Validation is sound for an expression exactly if the expression is not one of those that
can fail with another error. -/
theorem validationSound_iff (expr : String) :
    ValidationSound python expr ↔ unsafeExpression python expr = false := by
  unfold unsafeExpression
  cases matched : subscriptMatch (strip isPythonSpace expr.toList) with
  | none =>
    refine @validationSound_of_read python expr _ none ?_
    rw [readSubscript, matched]
  | some found =>
    obtain ⟨inner, index⟩ := found
    have kinds := kindOf_parseIntArg python (strip isPythonSpace index)
    have apart := longInteger_shortInteger python (strip isPythonSpace index)
    cases parsed : parseIntArg python (strip isPythonSpace index) with
    | ok value =>
      rw [parsed] at kinds
      have isShort : longInteger python (strip isPythonSpace index) = false ∧
          shortInteger python (strip isPythonSpace index) = true := by
        cases long : longInteger python (strip isPythonSpace index) <;>
          cases short : shortInteger python (strip isPythonSpace index) <;>
            simp [long, short] at kinds ⊢
      simp only [isShort.1, isShort.2, Bool.false_or, Bool.true_and]
      refine @validationSound_of_read python expr _ (some value) ?_
      rw [readSubscript, matched]
      simp only [parsed]
      rfl
    | error error =>
      rw [parsed] at kinds
      have runs : ∀ value : String, kindOf (applyExpression python expr (some value)) =
          kindOf (.error error : Except PyError Int) := by
        intro value
        rw [applyExpression, readSubscript, matched]
        simp only [parsed]
        cases error <;> rfl
      apply validationSound_of_uniform
      refine ⟨_, runs, ?_⟩
      rw [kinds]
      cases long : longInteger python (strip isPythonSpace index) <;>
        cases short : shortInteger python (strip isPythonSpace index) <;>
          simp [long, short] at kinds ⊢
      cases error <;> simp at kinds

end Validation

/-- `value.split('')` raises the `ValueError` of an empty separator. -/
theorem validationSound_not_always :
    ¬ ∀ (python : PythonText) (expr : String), ValidationSound python expr := by
  intro always
  refine (always asciiText "value.split('')").nothingElse (some "a") "empty separator" ?_
  decide

end Ukip.Transformations
