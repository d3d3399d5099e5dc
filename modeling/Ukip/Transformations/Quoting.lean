import Ukip.Transformations.Engine

/-!
# Quoted arguments

An argument between double quotes comes through the expression, the subscript and the argument
splitter as it is, whatever other punctuation it holds.
-/

namespace Ukip.Transformations

open Analytics.Corpus (strip isPythonSpace)

def inQuotes (text : List Char) : List Char := '"' :: (text ++ ['"'])

def writtenArgs (args : List (List Char)) : List Char := [','].intercalate (args.map inQuotes)

/-- `value.name("first","second")` -/
def writtenCall (name : List Char) (args : List (List Char)) : List Char :=
  "value.".toList ++ name ++ '(' :: (writtenArgs args ++ [')'])

theorem writtenCall_eq (name : List Char) (args : List (List Char)) :
    writtenCall name args =
      'v' :: ((['a', 'l', 'u', 'e', '.'] ++ name ++ '(' :: writtenArgs args) ++ [')']) := by
  rw [List.append_assoc _ ('(' :: writtenArgs args)]
  rfl

example : writtenCall "replace".toList ["a,b".toList, "(c".toList] =
    "value.replace(\"a,b\",\"(c\")".toList := by decide

theorem strip_ends {isSpace : Char → Bool} {first last : Char} (middle : List Char)
    (firstInk : isSpace first = false) (lastInk : isSpace last = false) :
    strip isSpace (first :: (middle ++ [last])) = first :: (middle ++ [last]) := by
  rw [strip, List.dropWhile_cons_of_neg (by rw [firstInk]; exact Bool.false_ne_true),
    List.reverse_cons, List.reverse_append, List.reverse_singleton, List.singleton_append,
    List.cons_append, List.dropWhile_cons_of_neg (by rw [lastInk]; exact Bool.false_ne_true)]
  simp

theorem strip_ne_nil {isSpace : Char → Bool} {first : Char} (rest : List Char)
    (ink : isSpace first = false) : strip isSpace (first :: rest) ≠ [] := by
  rw [strip, List.dropWhile_cons_of_neg (by rw [ink]; exact Bool.false_ne_true), Ne,
    List.reverse_eq_nil_iff, List.dropWhile_eq_nil_iff]
  intro blank
  have space := blank first (List.mem_reverse.mpr List.mem_cons_self)
  rw [ink] at space
  cases space

variable (text : List Char)

theorem inQuotes_ne_nil : inQuotes text ≠ [] := List.cons_ne_nil _ _

theorem strip_inQuotes : strip isPythonSpace (inQuotes text) = inQuotes text :=
  strip_ends text (by decide) (by decide)

theorem read_inside {text : List Char} (noQuote : '"' ∉ text) (args : List (List Char))
    (depth : Int) (current : List Char) :
    text.foldl ArgScan.read ⟨args, depth, current, some '"'⟩ =
      ⟨args, depth, text.reverse ++ current, some '"'⟩ := by
  induction text generalizing current with
  | nil => rfl
  | cons ch rest ih =>
    rw [List.mem_cons, not_or] at noQuote
    have step : ArgScan.read ⟨args, depth, current, some '"'⟩ ch =
        ⟨args, depth, ch :: current, some '"'⟩ := by
      simp [ArgScan.read, noQuote.1]
    rw [List.foldl_cons, step, ih noQuote.2]
    simp

theorem read_inQuotes {text : List Char} (noQuote : '"' ∉ text) (args : List (List Char))
    (depth : Int) (current : List Char) :
    (inQuotes text).foldl ArgScan.read ⟨args, depth, current, none⟩ =
      ⟨args, depth, (inQuotes text).reverse ++ current, none⟩ := by
  have opens : ArgScan.read ⟨args, depth, current, none⟩ '"' =
      ⟨args, depth, '"' :: current, some '"'⟩ := by simp [ArgScan.read, isQuote]
  have closes : ∀ collected, ArgScan.read ⟨args, depth, collected, some '"'⟩ '"' =
      ⟨args, depth, '"' :: collected, none⟩ := fun collected => by simp [ArgScan.read]
  rw [inQuotes, List.foldl_cons, opens, List.foldl_append, read_inside noQuote, List.foldl_cons,
    closes, List.foldl_nil]
  simp

theorem read_comma (args : List (List Char)) (current : List Char) :
    ArgScan.read ⟨args, 0, current, none⟩ ',' =
      ⟨args ++ [strip isPythonSpace current.reverse], 0, [], none⟩ := by
  simp [ArgScan.read, isQuote]

def ArgScan.finish (scan : ArgScan) : List (List Char) :=
  if scan.current = [] then scan.args
  else scan.args ++ [strip isPythonSpace scan.current.reverse]

variable {args : List (List Char)}

theorem finish_written (noQuote : ∀ arg ∈ args, '"' ∉ arg) (done : List (List Char)) :
    ((writtenArgs args).foldl ArgScan.read ⟨done, 0, [], none⟩).finish =
      done ++ args.map inQuotes := by
  induction args generalizing done with
  | nil => simp [writtenArgs, List.intercalate, ArgScan.finish]
  | cons arg rest ih =>
    rw [List.forall_mem_cons] at noQuote
    cases rest with
    | nil =>
      have read := read_inQuotes noQuote.1 done 0 []
      simp only [writtenArgs, List.map_cons, List.map_nil, List.intercalate_singleton, read,
        ArgScan.finish, List.append_nil, List.reverse_eq_nil_iff, List.reverse_reverse]
      rw [if_neg (inQuotes_ne_nil arg), strip_inQuotes]
    | cons second later =>
      have split : writtenArgs (arg :: second :: later) =
          inQuotes arg ++ ',' :: writtenArgs (second :: later) := by
        simp [writtenArgs, List.intercalate_cons_cons]
      rw [split, List.foldl_append, read_inQuotes noQuote.1, List.foldl_cons, read_comma,
        List.append_nil, List.reverse_reverse, strip_inQuotes, ih noQuote.2]
      simp

theorem splitArgs_written (noQuote : ∀ arg ∈ args, '"' ∉ arg) :
    splitArgs (writtenArgs args) = args.map inQuotes := by
  have read := finish_written noQuote []
  rwa [List.nil_append] at read

theorem callArgs_written (noQuote : ∀ arg ∈ args, '"' ∉ arg) :
    callArgs (writtenArgs args) = args.map inQuotes := by
  rw [callArgs, splitArgs_written noQuote, ite_eq_right_iff]
  intro blank
  cases args with
  | nil => rfl
  | cons arg rest =>
    have begins : ∃ later, writtenArgs (arg :: rest) = '"' :: later := by
      cases rest with
      | nil => exact ⟨_, rfl⟩
      | cons second later => exact ⟨_, rfl⟩
    obtain ⟨later, written⟩ := begins
    rw [written] at blank
    exact absurd blank (strip_ne_nil later (by decide))

theorem parseStrArg_inQuotes (python : PythonText) (text : List Char) :
    parseStrArg python (inQuotes text) = .ok text := by
  rw [parseStrArg, strip_inQuotes]
  simp [inQuotes, quoted, isQuote]

/-- A name that the grammar of calls reads. -/
def IsName (name : List Char) : Prop :=
  name.head?.any isNameStart = true ∧ name.all isNameChar = true

theorem ink_of_nameStart {c : Char} (starts : isNameStart c = true) : isPythonSpace c = false := by
  have range : 65 ≤ c.toNat ∧ c.toNat ≤ 122 := by
    simp only [isNameStart, Char.isAlpha, Char.isUpper, Char.isLower, Bool.or_eq_true,
      Bool.and_eq_true, decide_eq_true_eq, ge_iff_le, UInt32.le_iff_toNat_le] at starts
    change 65 ≤ c.val.toNat ∧ c.val.toNat ≤ 122
    rcases starts with (upper | lower') | rfl
    · exact ⟨upper.1, upper.2.trans (by decide)⟩
    · exact ⟨le_trans (by decide) lower'.1, lower'.2⟩
    · decide
  simp [isPythonSpace, Analytics.Corpus.isWhiteSpace]
  omega

theorem exprMatch_written {name : List Char} (isName : IsName name) (args : List (List Char)) :
    exprMatch (writtenCall name args) = some (name, writtenArgs args) := by
  obtain ⟨first, later, rfl⟩ : ∃ first later, name = first :: later := by
    cases name with
    | nil => cases isName.1
    | cons first later => exact ⟨first, later, rfl⟩
  have starts : isNameStart first = true := isName.1
  have ink := ink_of_nameStart starts
  have named : (first :: later ++ '(' :: (writtenArgs args ++ [')'])).takeWhile isNameChar =
      first :: later := by
    rw [List.takeWhile_append_of_pos (List.all_eq_true.mp isName.2), List.takeWhile_cons_of_neg (by decide),
      List.append_nil]
  have afterValue : (writtenCall (first :: later) args).drop 5 =
      '.' :: (first :: later ++ '(' :: (writtenArgs args ++ [')'])) := rfl
  rw [exprMatch, if_pos (by rfl), afterValue, List.dropWhile_cons_of_neg (by decide)]
  simp only
  rw [List.cons_append, List.dropWhile_cons_of_neg (by rw [ink]; exact Bool.false_ne_true),
    ← List.cons_append, named, List.drop_left, List.dropWhile_cons_of_neg (by decide)]
  simp [starts]

theorem subscriptMatch_call : subscriptMatch (text ++ [')']) = none := by
  simp [subscriptMatch]

theorem subscriptMatch_bracket {text index : List Char} (filled : index ≠ [])
    (plain : ∀ c ∈ index, c ≠ '[' ∧ c ≠ ']') :
    subscriptMatch (text ++ '[' :: (index ++ [']'])) = some (text, index) := by
  obtain ⟨last, before, reversed⟩ := List.exists_cons_of_ne_nil (List.reverse_ne_nil_iff.mpr filled)
  have plainReversed : ∀ c ∈ last :: before, c ≠ '[' ∧ c ≠ ']' := fun c member =>
    plain c (List.mem_reverse.mp (reversed ▸ member))
  have inside : (before ++ '[' :: text.reverse).takeWhile (fun c => c ≠ '[' && c ≠ ']') = before := by
    rw [List.takeWhile_append_of_pos, List.takeWhile_cons_of_neg (by decide), List.append_nil]
    intro c member
    have apart := plainReversed c (List.mem_cons_of_mem _ member)
    simp [apart.1, apart.2]
  have turned : (text ++ '[' :: (index ++ [']'])).reverse =
      ']' :: last :: (before ++ '[' :: text.reverse) := by
    rw [List.reverse_append, List.reverse_cons, List.reverse_append, reversed]
    simp
  have back : index = (last :: before).reverse := by rw [← reversed, List.reverse_reverse]
  have lastPlain := (plainReversed last List.mem_cons_self).2
  rw [subscriptMatch, turned]
  simp only [inside, List.drop_left, List.drop_length_add_append]
  rw [if_neg]
  · rw [back]
    simp
  · simp [lastPlain]

theorem strip_writtenCall (name : List Char) (args : List (List Char)) :
    strip isPythonSpace (writtenCall name args) = writtenCall name args := by
  rw [writtenCall_eq]
  exact strip_ends _ (by decide) (by decide)

section Calls

variable (python : PythonText)

theorem applyExpression_call {expr : String} {name : List Char}
    (written : expr.toList = writtenCall name args) (isName : IsName name) (value : String) :
    applyExpression python expr (some value) =
      (applyFunc python name (writtenArgs args) value.toList).map String.ofList := by
  have noSubscript : subscriptMatch (writtenCall name args) = none := by
    rw [writtenCall_eq, ← List.cons_append]
    exact subscriptMatch_call _
  simp only [applyExpression, written, strip_writtenCall, readSubscript, noSubscript, Except.bind,
    applyRead, exprMatch_written isName, applyCall]

theorem applyExpression_item {expr : String} {index : List Char}
    (written : expr.toList = writtenCall "split".toList args ++ '[' :: (index ++ [']']))
    (filled : index ≠ []) (plain : ∀ c ∈ index, c ≠ '[' ∧ c ≠ ']') (value : String) :
    applyExpression python expr (some value) =
      (parseIntArg python (strip isPythonSpace index)).bind fun index =>
        (splitItem python (writtenArgs args) value.toList index).map String.ofList := by
  have ends : writtenCall "split".toList args ++ '[' :: (index ++ [']']) =
      'v' :: ((['a', 'l', 'u', 'e', '.'] ++ "split".toList ++ '(' :: writtenArgs args ++
        ')' :: '[' :: index) ++ [']']) := by
    simp [writtenCall_eq]
  have stripped : strip isPythonSpace (writtenCall "split".toList args ++ '[' :: (index ++ [']'])) =
      writtenCall "split".toList args ++ '[' :: (index ++ [']']) := by
    rw [ends]
    exact strip_ends _ (by decide) (by decide)
  have isName : IsName "split".toList := ⟨by decide, by decide⟩
  simp only [applyExpression, written, stripped, readSubscript, subscriptMatch_bracket filled plain,
    strip_writtenCall]
  cases parseIntArg python (strip isPythonSpace index) with
  | error error => rfl
  | ok index =>
    simp only [Except.map, Except.bind, applyRead, exprMatch_written isName, applyCall]
    rfl

theorem callArgs_one {arg : String} (plain : '"' ∉ arg.toList) :
    callArgs (writtenArgs [arg.toList]) = [inQuotes arg.toList] :=
  callArgs_written (List.forall_mem_singleton.mpr plain)

theorem apply_replace {old new : String} (oldPlain : '"' ∉ old.toList) (newPlain : '"' ∉ new.toList)
    (value : String) :
    applyExpression python ("value.replace(\"" ++ old ++ "\",\"" ++ new ++ "\")") (some value) =
      .ok (String.ofList (pyReplace value.toList old.toList new.toList)) := by
  have written : ("value.replace(\"" ++ old ++ "\",\"" ++ new ++ "\")").toList =
      writtenCall "replace".toList [old.toList, new.toList] := by
    simp [writtenCall_eq, writtenArgs, inQuotes]
  have args : callArgs (writtenArgs [old.toList, new.toList]) =
      [inQuotes old.toList, inQuotes new.toList] :=
    callArgs_written (List.forall_mem_cons.mpr ⟨oldPlain, List.forall_mem_singleton.mpr newPlain⟩)
  rw [applyExpression_call python written ⟨by decide, by decide⟩]
  simp [applyFunc, args, parseStrArg_inQuotes, Except.bind, Except.map]

theorem apply_prefix {pfx : String} (plain : '"' ∉ pfx.toList) (value : String) :
    applyExpression python ("value.prefix(\"" ++ pfx ++ "\")") (some value) =
      .ok (if pfx.toList.isPrefixOf value.toList then value else pfx ++ value) := by
  have written : ("value.prefix(\"" ++ pfx ++ "\")").toList =
      writtenCall "prefix".toList [pfx.toList] := by
    simp [writtenCall_eq, writtenArgs, inQuotes]
  rw [applyExpression_call python written ⟨by decide, by decide⟩]
  simp [applyFunc, callArgs_one plain, parseStrArg_inQuotes, Except.map, apply_ite String.ofList]

theorem apply_suffix {sfx : String} (plain : '"' ∉ sfx.toList) (value : String) :
    applyExpression python ("value.suffix(\"" ++ sfx ++ "\")") (some value) =
      .ok (if sfx.toList.isSuffixOf value.toList then value else value ++ sfx) := by
  have written : ("value.suffix(\"" ++ sfx ++ "\")").toList =
      writtenCall "suffix".toList [sfx.toList] := by
    simp [writtenCall_eq, writtenArgs, inQuotes]
  rw [applyExpression_call python written ⟨by decide, by decide⟩]
  simp [applyFunc, callArgs_one plain, parseStrArg_inQuotes, Except.map, apply_ite String.ofList]

theorem apply_split {delim : String} (plain : '"' ∉ delim.toList) (value : String) :
    applyExpression python ("value.split(\"" ++ delim ++ "\")") (some value) =
      (pySplit value.toList delim.toList).map
        fun parts => String.ofList (delim.toList.intercalate parts) := by
  have written : ("value.split(\"" ++ delim ++ "\")").toList =
      writtenCall "split".toList [delim.toList] := by
    simp [writtenCall_eq, writtenArgs, inQuotes]
  rw [applyExpression_call python written ⟨by decide, by decide⟩]
  cases pieces : pySplit value.toList delim.toList <;>
    simp [applyFunc, callArgs_one plain, parseStrArg_inQuotes, Except.bind, Except.map, pieces]

theorem apply_split_item {delim index : String} (plain : '"' ∉ delim.toList)
    (filled : index.toList ≠ []) (indexPlain : ∀ c ∈ index.toList, c ≠ '[' ∧ c ≠ ']')
    (value : String) :
    applyExpression python ("value.split(\"" ++ delim ++ "\")[" ++ index ++ "]") (some value) =
      (parseIntArg python (strip isPythonSpace index.toList)).bind fun index =>
        (pySplit value.toList delim.toList).map fun parts =>
          String.ofList (((pyItem parts index).map (strip isPythonSpace)).getD []) := by
  have written : ("value.split(\"" ++ delim ++ "\")[" ++ index ++ "]").toList =
      writtenCall "split".toList [delim.toList] ++ '[' :: (index.toList ++ [']']) := by
    simp [writtenCall_eq, writtenArgs, inQuotes]
  have args : splitArgs (writtenArgs [delim.toList]) = [inQuotes delim.toList] :=
    splitArgs_written (List.forall_mem_singleton.mpr plain)
  rw [applyExpression_item python written filled indexPlain]
  cases pieces : pySplit value.toList delim.toList <;>
    simp [splitItem, args, parseStrArg_inQuotes, Except.bind, Except.map, pieces]

/-- Whatever stands between the double quotes, apart from one of them, is the argument: the
literal replacement, the prefix, the suffix, and the pieces of a split, joined or taken one by
one. -/
theorem quoted_arguments_literal {old new : String} (oldPlain : '"' ∉ old.toList)
    (newPlain : '"' ∉ new.toList) (value : String) :
    applyExpression python ("value.replace(\"" ++ old ++ "\",\"" ++ new ++ "\")") (some value) =
        .ok (String.ofList (pyReplace value.toList old.toList new.toList)) ∧
      applyExpression python ("value.prefix(\"" ++ old ++ "\")") (some value) =
        .ok (if old.toList.isPrefixOf value.toList then value else old ++ value) ∧
      applyExpression python ("value.suffix(\"" ++ old ++ "\")") (some value) =
        .ok (if old.toList.isSuffixOf value.toList then value else value ++ old) ∧
      applyExpression python ("value.split(\"" ++ old ++ "\")") (some value) =
        (pySplit value.toList old.toList).map
          (fun parts => String.ofList (old.toList.intercalate parts)) ∧
      ∀ index : String, index.toList ≠ [] → (∀ c ∈ index.toList, c ≠ '[' ∧ c ≠ ']') →
        applyExpression python ("value.split(\"" ++ old ++ "\")[" ++ index ++ "]") (some value) =
          (parseIntArg python (strip isPythonSpace index.toList)).bind fun index =>
            (pySplit value.toList old.toList).map fun parts =>
              String.ofList (((pyItem parts index).map (strip isPythonSpace)).getD []) :=
  ⟨apply_replace python oldPlain newPlain value, apply_prefix python oldPlain value,
    apply_suffix python oldPlain value, apply_split python oldPlain value,
    fun _ filled plain => apply_split_item python oldPlain filled plain value⟩

end Calls

/-- Parentheses, commas, apostrophes and brackets in both arguments. -/
theorem quoted_arguments_literal_punctuation :
    applyExpression asciiText ("value.replace(\"" ++ "(a,'[" ++ "\",\"" ++ "]'.)," ++ "\")")
        (some "1(a,'[2") = .ok "1]'.),2" := by
  rw [(@quoted_arguments_literal asciiText "(a,'[" "]'.)," (by decide) (by decide)
    "1(a,'[2").1]
  exact congrArg Except.ok (by decide)

end Ukip.Transformations
