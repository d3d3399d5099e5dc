import Mathlib

/-!
# Phonetic codes

`cologne_phonetic` and `metaphone` of `clustering/algorithms.py`.  A rule asks whether a
neighbour of the letter is in a set of letters; the code asks it as `nxt in "csz"`, where the
neighbour that is missing at the end of the word is the empty text.
-/

namespace Ukip.Clustering.Phonetics

abbrev Text := List Char

/-- `neighbour in "csz"`: the neighbour as a text, empty when it is missing, is a part of the
letters. -/
def inText (neighbour : Option Char) (letters : Text) : Bool :=
  decide (neighbour.toList <:+: letters)

def inSet (neighbour : Option Char) (letters : Text) : Bool := neighbour.any letters.contains

@[simp] theorem inText_none (letters : Text) : inText none letters = true :=
  decide_eq_true (List.nil_infix)

@[simp] theorem inSet_none (letters : Text) : inSet none letters = false := rfl

theorem inText_some (char : Char) (letters : Text) :
    inText (some char) letters = inSet (some char) letters := by
  rw [Bool.eq_iff_iff]
  simp [inText, inSet, List.singleton_infix_iff]

/-- What happens at a letter: the code appended, whether the next letter is stepped over, and
the neighbours that had to be in a set. -/
structure Branch where
  code : Text
  skips : Bool
  wants : List (Option Char)

/-- No rule fires for a neighbour that is not there. -/
def NoneMissing (branches : List Branch) : Prop := ∀ branch ∈ branches, none ∉ branch.wants

theorem noneMissing_cons (branch : Branch) (branches : List Branch) :
    NoneMissing (branch :: branches) ↔ none ∉ branch.wants ∧ NoneMissing branches :=
  List.forall_mem_cons

section Cologne

def cologneTable : List (Text × Text) :=
  [("aeijouy".toList, ['0']), (['h'], []), (['b'], ['1']), (['p'], ['1']),
    (['d', 't'], ['2']), (['f', 'v', 'w'], ['3']), (['c', 'g', 'k', 'q'], ['4']),
    (['x'], ['4', '8']), (['s', 'z'], ['8']), (['ß'], ['8']), (['m', 'n'], ['5']),
    (['r'], ['6']), (['l'], ['5']), (['l', '_'], ['5'])]

/-- `_COLOGNE_MAP.get(ch, "")`: a later row of the table overwrites an earlier one. -/
def cologneMap (ch : Char) : Text :=
  ((cologneTable.reverse.find? fun row => row.1.contains ch).map fun row => row.2).getD []

variable (nfd lower : Text → Text)

/-- `s.replace(old, new)` of one character. -/
def replaceChar (old new : Char) (text : Text) : Text :=
  text.map fun char => if char = old then new else char

/-- The letters that `cologne_phonetic` reads. -/
def cologneLetters (s : Text) : Text :=
  let plain := replaceChar 'ü' 'u' (replaceChar 'ö' 'o' (replaceChar 'ä' 'a' (nfd s)))
  let plain := replaceChar 'Ü' 'u' (replaceChar 'Ö' 'o' (replaceChar 'Ä' 'a' plain))
  (lower plain).filter fun char => char.isAlpha || char = 'ß'

variable (isIn : Option Char → Text → Bool)

/-- The special cases; `i == 0` is a missing previous letter. -/
def cologneBranch (prev : Option Char) (ch : Char) (nxt : Option Char) : Branch :=
  if ch = 'c' then
    if prev.isNone && isIn nxt ['a', 'h', 'k', 'l', 'o', 'q', 'r', 'u', 'x'] then
      ⟨['4'], false, [nxt]⟩
    else if isIn prev ['s', 'z'] then ⟨['8'], false, [prev]⟩
    else if isIn nxt ['a', 'h', 'o', 'u', 'k', 'q', 'x'] && !isIn prev ['s', 'z'] then
      ⟨['4'], false, [nxt]⟩
    else ⟨['8'], false, []⟩
  else if ch = 'p' && nxt = some 'h' then ⟨['3'], false, [nxt]⟩
  else if ch = 'x' && isIn prev ['c', 'k', 'q'] then ⟨['8'], false, [prev]⟩
  else if ch = 'd' || ch = 't' then
    if isIn nxt ['c', 's', 'z'] then ⟨['8'], false, [nxt]⟩ else ⟨['2'], false, []⟩
  else ⟨cologneMap ch, false, []⟩

def cologneBranches : Option Char → Text → List Branch
  | _, [] => []
  | prev, ch :: rest => cologneBranch isIn prev ch rest.head? :: cologneBranches (some ch) rest

def collapse : (first : Bool) → (prevCode : Option Text) → List Text → List Text
  | _, _, [] => []
  | first, prevCode, code :: rest =>
    if code = [] then collapse false prevCode rest
    else if some code = prevCode then collapse false prevCode rest
    else if !first && code = ['0'] then collapse false (some code) rest
    else code :: collapse false (some code) rest

def joined (codes : List Text) : Text :=
  let result := collapse true none codes
  if result = [] then ['0'] else result.flatten

def cologneCode (letters : Text) : Text :=
  if letters = [] then [] else joined ((cologneBranches isIn none letters).map Branch.code)

def colognePhonetic (s : Text) : Text := cologneCode inText (cologneLetters nfd lower s)

def cologneByTable (s : Text) : Text := cologneCode inSet (cologneLetters nfd lower s)

def cologneCodes (prev : Option Char) (word : Text) : List Text :=
  (cologneBranches isIn prev word).map Branch.code

def endsOpen : (prev : Option Char) → Text → Prop
  | _, [] => False
  | prev, [ch] => ch = 'd' ∨ ch = 't' ∨ ch = 'c' ∧ inSet prev ['s', 'z'] = false
  | _, ch :: next :: rest => endsOpen (some ch) (next :: rest)

theorem cologneBranch_inside (before ch after : Char) :
    cologneBranch inText (some before) ch (some after) =
      cologneBranch inSet (some before) ch (some after) := by
  simp only [cologneBranch, inText_some]

theorem cologneBranch_first (ch after : Char) (notX : ch ≠ 'x') :
    (cologneBranch inText none ch (some after)).code =
      (cologneBranch inSet none ch (some after)).code := by
  simp only [cologneBranch, inText_some, inText_none, inSet_none, notX]
  by_cases isC : ch = 'c'
  · subst isC
    by_cases listed : inSet (some after) ['a', 'h', 'k', 'l', 'o', 'q', 'r', 'u', 'x'] = true
    · simp [listed]
    · have fewer : inSet (some after) ['a', 'h', 'o', 'u', 'k', 'q', 'x'] = false := by
        simp [inSet] at listed ⊢
        tauto
      simp [listed, fewer]
  · simp [isC]

/-- A code that the collapse keeps unless it repeats the one before. -/
def Sounded (code : Text) : Prop := code ≠ [] ∧ code ≠ ['0']

variable {prev : Option Char}

theorem last_open {ch : Char} (isOpen : endsOpen prev [ch]) :
    (cologneBranch inText prev ch none).code ≠ (cologneBranch inSet prev ch none).code ∧
      Sounded (cologneBranch inText prev ch none).code ∧
      Sounded (cologneBranch inSet prev ch none).code := by
  rcases isOpen with rfl | rfl | ⟨rfl, apart⟩
  · simp [cologneBranch, Sounded]
  · simp [cologneBranch, Sounded]
  · cases prev with
    | none => simp [cologneBranch, Sounded]
    | some before => simp [cologneBranch, Sounded, inText_some, apart]

theorem last_closed {ch : Char} (closed : ¬ endsOpen prev [ch]) (inside : prev = none → ch ≠ 'x') :
    (cologneBranch inText prev ch none).code = (cologneBranch inSet prev ch none).code := by
  simp only [endsOpen, not_or, not_and, Bool.not_eq_false] at closed
  obtain ⟨notD, notT, afterS⟩ := closed
  cases prev with
  | none =>
    have notC : ch ≠ 'c' := fun isC => by simpa using afterS isC
    simp [cologneBranch, notC, notD, notT, inside rfl]
  | some before =>
    by_cases isC : ch = 'c'
    · simp [cologneBranch, isC, inText_some, afterS isC]
    · simp [cologneBranch, isC, notD, notT, inText_some]

theorem branch_code_eq {ch after : Char} (inside : prev = none → ch ≠ 'x') :
    (cologneBranch inText prev ch (some after)).code =
      (cologneBranch inSet prev ch (some after)).code := by
  cases prev with
  | none => exact cologneBranch_first ch after (inside rfl)
  | some before => rw [cologneBranch_inside]

theorem codes_closed {word : Text} (closed : ¬ endsOpen prev word)
    (inside : prev = none → word.head? ≠ some 'x') :
    cologneCodes inText prev word = cologneCodes inSet prev word := by
  induction word generalizing prev with
  | nil => rfl
  | cons ch rest ih =>
    have notX : prev = none → ch ≠ 'x' := fun isFirst isX =>
      inside isFirst (congrArg some isX)
    cases rest with
    | nil =>
      have code := last_closed closed notX
      simpa [cologneCodes, cologneBranches] using code
    | cons next later =>
      have tail := @ih (some ch) closed (nofun)
      have code := @branch_code_eq prev ch next notX
      simp only [cologneCodes, cologneBranches, List.map_cons, List.head?_cons,
        List.cons.injEq] at tail code ⊢
      exact ⟨code, tail⟩

theorem codes_open {word : Text} (isOpen : endsOpen prev word)
    (inside : prev = none → word.head? ≠ some 'x') :
    ∃ codes code tableCode, cologneCodes inText prev word = codes ++ [code] ∧
      cologneCodes inSet prev word = codes ++ [tableCode] ∧ code ≠ tableCode ∧
      Sounded code ∧ Sounded tableCode := by
  induction word generalizing prev with
  | nil => exact isOpen.elim
  | cons ch rest ih =>
    cases rest with
    | nil => exact ⟨[], _, _, rfl, rfl, last_open isOpen⟩
    | cons next later =>
      have notX : prev = none → ch ≠ 'x' := fun isFirst isX =>
        inside isFirst (congrArg some isX)
      obtain ⟨codes, code, tableCode, read, listed, parted⟩ :=
        @ih (some ch) isOpen (nofun)
      refine ⟨(cologneBranch inText prev ch (some next)).code :: codes, code, tableCode, ?_, ?_,
        parted⟩
      · rw [List.cons_append, ← read]
        rfl
      · rw [List.cons_append, ← listed, branch_code_eq notX]
        rfl

theorem collapse_parted {code tableCode : Text} (parted : code ≠ tableCode)
    (sounded : Sounded code) (tableSounded : Sounded tableCode) (codes : List Text) (first : Bool)
    (prevCode : Option Text) :
    (collapse first prevCode (codes ++ [code])).flatten ≠
      (collapse first prevCode (codes ++ [tableCode])).flatten := by
  induction codes generalizing first prevCode with
  | nil =>
    obtain ⟨filled, notZero⟩ := sounded
    obtain ⟨tableFilled, tableNotZero⟩ := tableSounded
    simp only [List.nil_append, collapse, filled, tableFilled, notZero, tableNotZero, if_false,
      decide_false, Bool.and_false, Bool.false_eq_true]
    by_cases repeats : some code = prevCode
    · have fresh : some tableCode ≠ prevCode := fun same =>
        parted (Option.some.inj (repeats.trans same.symm))
      simpa [repeats, fresh] using tableFilled.symm
    · by_cases tableRepeats : some tableCode = prevCode
      · simpa [repeats, tableRepeats] using filled
      · simpa [repeats, tableRepeats] using parted
  | cons code rest ih =>
    simp only [List.cons_append, collapse]
    split_ifs
    · exact ih false prevCode
    · exact ih false prevCode
    · exact ih false (some code)
    · rw [List.flatten_cons, List.flatten_cons]
      exact fun same => ih false (some code) (List.append_cancel_left same)

theorem collapse_ne_nil {code : Text} (sounded : Sounded code) (codes : List Text) (first : Bool)
    {prevCode : Option Text} (silent : prevCode = none ∨ prevCode = some ['0']) :
    collapse first prevCode (codes ++ [code]) ≠ [] := by
  induction codes generalizing first prevCode with
  | nil =>
    have fresh : some code ≠ prevCode := by
      rcases silent with rfl | rfl
      · exact Option.some_ne_none code
      · exact fun same => sounded.2 (Option.some.inj same)
    simp [collapse, sounded.1, sounded.2, fresh]
  | cons head rest ih =>
    simp only [List.cons_append, collapse]
    split_ifs with empty repeats zero
    · exact ih false silent
    · exact ih false silent
    · rw [Bool.and_eq_true, decide_eq_true_iff] at zero
      exact ih false (.inr (congrArg some zero.2))
    · exact List.cons_ne_nil _ _

theorem joined_parted {codes : List Text} {code tableCode : Text} (parted : code ≠ tableCode)
    (sounded : Sounded code) (tableSounded : Sounded tableCode) :
    joined (codes ++ [code]) ≠ joined (codes ++ [tableCode]) := by
  have filled := collapse_ne_nil sounded codes true (.inl rfl)
  have tableFilled := collapse_ne_nil tableSounded codes true (.inl rfl)
  simp only [joined, filled, tableFilled, if_false]
  exact collapse_parted parted sounded tableSounded codes true none

theorem joined_first {code : Text} (filled : code ≠ []) (codes : List Text) :
    ∃ later, joined (code :: codes) = code ++ later := by
  refine ⟨(collapse false (some code) codes).flatten, ?_⟩
  simp [joined, collapse, filled]

theorem codes_x (rest : Text) :
    cologneCode inText ('x' :: rest) ≠ cologneCode inSet ('x' :: rest) := by
  have read : (cologneBranch inText none 'x' rest.head?).code = ['8'] := by simp [cologneBranch]
  have listed : (cologneBranch inSet none 'x' rest.head?).code = ['4', '8'] := by
    simp [cologneBranch]
    decide
  simp only [cologneCode, cologneBranches, List.map_cons, read, listed, List.cons_ne_nil, if_false]
  obtain ⟨later, first⟩ := joined_first (List.cons_ne_nil '8' [])
    ((cologneBranches inText (some 'x') rest).map Branch.code)
  obtain ⟨tableLater, tableFirst⟩ := joined_first (List.cons_ne_nil '4' ['8'])
    ((cologneBranches inSet (some 'x') rest).map Branch.code)
  rw [first, tableFirst]
  simp

/-- The code is that of the tables exactly if the word begins with no `x` and ends closed. -/
theorem cologneCode_eq_iff (word : Text) :
    cologneCode inText word = cologneCode inSet word ↔
      word.head? ≠ some 'x' ∧ ¬ endsOpen none word := by
  by_cases isX : word.head? = some 'x'
  · obtain ⟨rest, rfl⟩ : ∃ rest, word = 'x' :: rest := by
      cases word with
      | nil => cases isX
      | cons ch rest => exact ⟨rest, by rw [Option.some.inj isX]⟩
    simp [codes_x rest]
  · have inside : (none : Option Char) = none → word.head? ≠ some 'x' := fun _ => isX
    refine ⟨fun same => ⟨isX, fun isOpen => ?_⟩, fun holds => ?_⟩
    · obtain ⟨codes, code, tableCode, read, listed, parted, sounded, tableSounded⟩ :=
        codes_open isOpen inside
      have filled : word ≠ [] := fun empty => by
        rw [empty] at isOpen
        exact isOpen
      simp only [cologneCode, filled, if_false] at same
      change joined (cologneCodes inText none word) = joined (cologneCodes inSet none word) at same
      rw [read, listed] at same
      exact joined_parted parted sounded tableSounded same
    · have codes : (cologneBranches inText none word).map Branch.code =
          (cologneBranches inSet none word).map Branch.code := codes_closed holds.2 inside
      simp only [cologneCode, codes]

theorem wants_inside (before ch after : Char) :
    none ∉ (cologneBranch inText (some before) ch (some after)).wants := by
  simp only [cologneBranch]
  split_ifs <;> simp

theorem wants_last (before ch : Char) :
    none ∈ (cologneBranch inText (some before) ch none).wants ↔ endsOpen (some before) [ch] := by
  simp only [cologneBranch, endsOpen, inText_none, inText_some]
  by_cases isC : ch = 'c'
  · subst isC
    by_cases afterS : inSet (some before) ['s', 'z'] = true <;> simp [afterS]
  · by_cases isD : ch = 'd'
    · simp [isD]
    · by_cases isT : ch = 't'
      · simp [isT]
      · simp only [isC, isD, isT]
        split_ifs <;> simp_all

theorem noneMissing_inside (before : Char) (word : Text) :
    NoneMissing (cologneBranches inText (some before) word) ↔ ¬ endsOpen (some before) word := by
  induction word generalizing before with
  | nil => simp [NoneMissing, cologneBranches, endsOpen]
  | cons ch rest ih =>
    rw [cologneBranches, noneMissing_cons]
    cases rest with
    | nil => simp [wants_last, cologneBranches, NoneMissing]
    | cons next later =>
      rw [ih ch]
      exact and_iff_right (wants_inside before ch next)

/-- The word begins with no letter whose rules look for a letter before it. -/
def StartsClear (word : Text) : Prop :=
  word.head? ≠ some 'x' ∧
    ∀ rest, word = 'c' :: rest →
      inSet rest.head? ['a', 'h', 'k', 'l', 'o', 'q', 'r', 'u', 'x'] = true

theorem startsClear_cons (ch : Char) (rest : Text) :
    StartsClear (ch :: rest) ↔ ch ≠ 'x' ∧ (ch = 'c' →
      inSet rest.head? ['a', 'h', 'k', 'l', 'o', 'q', 'r', 'u', 'x'] = true) := by
  simp [StartsClear]

theorem wants_only (ch : Char) :
    none ∉ (cologneBranch inText none ch none).wants ↔
      StartsClear [ch] ∧ ¬ endsOpen none [ch] := by
  rw [startsClear_cons]
  simp only [cologneBranch, endsOpen, List.head?_nil, inText_none, inSet_none]
  by_cases isC : ch = 'c'
  · simp [isC]
  · by_cases isX : ch = 'x'
    · simp [isX]
    · simp only [isC, isX]
      split_ifs <;> simp_all

theorem wants_first (ch after : Char) (rest : Text) :
    none ∉ (cologneBranch inText none ch (some after)).wants ↔
      StartsClear (ch :: after :: rest) := by
  rw [startsClear_cons]
  simp only [cologneBranch, List.head?_cons, inText_none, inText_some]
  by_cases isC : ch = 'c'
  · subst isC
    by_cases listed : inSet (some after) ['a', 'h', 'k', 'l', 'o', 'q', 'r', 'u', 'x'] = true <;>
      simp [listed]
  · by_cases isX : ch = 'x'
    · simp [isX]
    · simp only [isC, isX]
      split_ifs <;> simp_all

/-- A rule fires for a missing neighbour exactly if the word does not start clear or ends open. -/
theorem cologne_noneMissing_iff (word : Text) :
    NoneMissing (cologneBranches inText none word) ↔ StartsClear word ∧ ¬ endsOpen none word := by
  cases word with
  | nil => simp [NoneMissing, cologneBranches, endsOpen, StartsClear]
  | cons ch rest =>
    rw [cologneBranches, noneMissing_cons]
    cases rest with
    | nil =>
      rw [List.head?_nil, wants_only]
      simp [cologneBranches, NoneMissing]
    | cons next later =>
      rw [List.head?_cons, wants_first ch next later, noneMissing_inside]
      rfl

end Cologne

section Metaphone

variable (nfd lower : Text → Text) (isMark : Char → Bool)

/-- `_METAPHONE_VOWELS`, a set. -/
def isVowel (char : Char) : Bool := ['a', 'e', 'i', 'o', 'u'].contains char

def asciiLetters (s : Text) : Text :=
  (lower ((nfd s).filter fun char => !isMark char)).filter fun char => char.isLower

/-- The letters after `deduped[-1]`; only `c` may be doubled. -/
def dedupeAfter (last : Char) : Text → Text
  | [] => []
  | ch :: rest =>
    if ch ≠ last || ch = 'c' then ch :: dedupeAfter ch rest else dedupeAfter last rest

def deduped : Text → Text
  | [] => []
  | ch :: rest => ch :: dedupeAfter ch rest

def dropTrailingE (text : Text) : Text :=
  if text.getLast? = some 'e' && 1 < text.length then text.dropLast else text

/-- The word that the loop of `metaphone` goes through. -/
def metaphoneLetters (s : Text) : Text := dropTrailingE (deduped (asciiLetters nfd lower isMark s))

variable (isIn : Option Char → Text → Bool)

/-- The turn of the loop at `ch`, with the letter before it and those after it. -/
def metaphoneBranch (prev : Option Char) (ch : Char) (rest : Text) : Branch :=
  let nxt := rest.head?
  let nxt2 := rest.tail.head?
  if isVowel ch then ⟨if prev.isNone then [ch.toUpper] else [], false, []⟩
  else if ch = 'b' then
    if rest = [] && prev = some 'm' then ⟨[], false, [prev]⟩ else ⟨['B'], false, []⟩
  else if ch = 'c' then
    if nxt = some 'i' || nxt = some 'e' || nxt = some 'y' then ⟨['S'], false, [nxt]⟩
    else if nxt = some 'h' then ⟨['X'], true, [nxt]⟩
    else if nxt = some 'k' then ⟨['K'], true, [nxt]⟩
    else ⟨['K'], false, []⟩
  else if ch = 'd' then
    if nxt = some 'g' && isIn nxt2 ['i', 'e', 'y'] then ⟨['J'], true, [nxt, nxt2]⟩
    else ⟨['T'], false, []⟩
  else if ch = 'f' then ⟨['F'], false, []⟩
  else if ch = 'g' then
    if isIn nxt ['i', 'e', 'y'] then ⟨['J'], false, [nxt]⟩
    else if nxt = some 'h' && !prev.any isVowel then ⟨[], true, [nxt]⟩
    else if nxt = some 'n' && (rest.length = 1 || (nxt2 = some 'e' && rest.length = 2)) then
      ⟨[], false, [nxt]⟩
    else ⟨['K'], false, []⟩
  else if ch = 'h' then
    if nxt.any isVowel && !prev.any isVowel then ⟨['H'], false, [nxt]⟩ else ⟨[], false, []⟩
  else if ch = 'j' then ⟨['J'], false, []⟩
  else if ch = 'k' then if prev = some 'c' then ⟨[], false, [prev]⟩ else ⟨['K'], false, []⟩
  else if ch = 'l' then ⟨['L'], false, []⟩
  else if ch = 'm' then ⟨['M'], false, []⟩
  else if ch = 'n' then ⟨['N'], false, []⟩
  else if ch = 'p' then
    if nxt = some 'h' then ⟨['F'], true, [nxt]⟩ else ⟨['P'], false, []⟩
  else if ch = 'q' then ⟨['K'], false, []⟩
  else if ch = 'r' then ⟨['R'], false, []⟩
  else if ch = 's' then
    if nxt = some 'h' then ⟨['X'], false, [nxt]⟩
    else if nxt = some 'i' && isIn nxt2 ['a', 'o'] then ⟨['X'], false, [nxt, nxt2]⟩
    else ⟨['S'], false, []⟩
  else if ch = 't' then
    if nxt = some 'h' then ⟨['0'], true, [nxt]⟩
    else if nxt = some 'i' && isIn nxt2 ['a', 'o'] then ⟨['X'], false, [nxt, nxt2]⟩
    else ⟨['T'], false, []⟩
  else if ch = 'v' then ⟨['F'], false, []⟩
  else if ch = 'w' then if nxt.any isVowel then ⟨['W'], false, [nxt]⟩ else ⟨[], false, []⟩
  else if ch = 'x' then ⟨['K', 'S'], false, []⟩
  else if ch = 'y' then if nxt.any isVowel then ⟨['Y'], false, [nxt]⟩ else ⟨[], false, []⟩
  else if ch = 'z' then ⟨['S'], false, []⟩
  else ⟨[], false, []⟩

/-- The turns of the loop; `i += 1` inside a turn steps over the next letter. -/
def metaphoneBranches : Option Char → Text → List Branch
  | _, [] => []
  | prev, ch :: rest =>
    let branch := metaphoneBranch isIn prev ch rest
    branch :: if branch.skips then
        match rest with
        | [] => []
        | next :: later => metaphoneBranches (some next) later
      else metaphoneBranches (some ch) rest

def metaphoneCode (prev : Option Char) (letters : Text) : Text :=
  ((metaphoneBranches isIn prev letters).map Branch.code).flatten

def metaphone (s : Text) : Text :=
  metaphoneCode inText none (metaphoneLetters nfd lower isMark s)

def metaphoneByTable (s : Text) : Text :=
  metaphoneCode inSet none (metaphoneLetters nfd lower isMark s)

/-- The word ends in letters whose rules look for one more. -/
def EndsAsking (word : Text) : Prop :=
  ['g'] <:+ word ∨ ['s', 'i'] <:+ word ∨ ['t', 'i'] <:+ word

theorem endsAsking_cons (ch next after : Char) (rest : Text) :
    EndsAsking (ch :: next :: after :: rest) ↔ EndsAsking (next :: after :: rest) := by
  simp [EndsAsking, List.suffix_cons_iff]

theorem endsAsking_pair (ch next : Char) :
    EndsAsking [ch, next] ↔ next = 'g' ∨ (ch = 's' ∨ ch = 't') ∧ next = 'i' := by
  simp only [EndsAsking, List.suffix_cons_iff, List.cons.injEq, List.suffix_nil, reduceCtorEq]
  grind

theorem endsAsking_singleton (ch : Char) : EndsAsking [ch] ↔ ch = 'g' := by
  simp only [EndsAsking, List.suffix_cons_iff, List.cons.injEq, List.suffix_nil, reduceCtorEq]
  grind

theorem not_endsAsking_nil : ¬ EndsAsking [] := by simp [EndsAsking]

theorem metaphoneBranch_inside (prev : Option Char) (ch next after : Char) (rest : Text) :
    metaphoneBranch inText prev ch (next :: after :: rest) =
      metaphoneBranch inSet prev ch (next :: after :: rest) := by
  simp only [metaphoneBranch, List.head?_cons, List.tail_cons, inText_some]
  rfl

variable {prev : Option Char}

theorem metaphoneBranch_pair {ch next : Char} (notDg : ¬ (ch = 'd' ∧ next = 'g'))
    (notI : ch = 's' ∨ ch = 't' → next ≠ 'i') :
    metaphoneBranch inText prev ch [next] = metaphoneBranch inSet prev ch [next] := by
  by_cases isS : ch = 's'
  · subst isS
    simp [metaphoneBranch, isVowel, notI]
  · by_cases isT : ch = 't'
    · subst isT
      simp [metaphoneBranch, isVowel, notI]
    · by_cases isD : ch = 'd'
      · subst isD
        simp only [true_and] at notDg
        simp [metaphoneBranch, isVowel, notDg]
      · simp only [metaphoneBranch, isS, isT, isD, List.head?_cons, inText_some]
        rfl

theorem metaphoneBranch_last {ch : Char} (closed : ch ≠ 'g') :
    metaphoneBranch inText prev ch [] = metaphoneBranch inSet prev ch [] := by
  simp [metaphoneBranch, closed]

theorem skipped {isIn : Option Char → Text → Bool} {ch : Char} {rest : Text}
    (skips : (metaphoneBranch isIn prev ch rest).skips = true) :
    rest.head? = some 'h' ∨ rest.head? = some 'k' ∨ ch = 'd' ∧ rest.head? = some 'g' ∧
      isIn rest.tail.head? ['i', 'e', 'y'] = true := by
  by_contra others
  simp only [not_or] at others
  obtain ⟨notH, notK, notDg⟩ := others
  by_cases isD : ch = 'd'
  · subst isD
    have taken : metaphoneBranch isIn prev 'd' rest = ⟨['T'], false, []⟩ := by
      rw [metaphoneBranch, if_neg (by decide), if_neg (by decide), if_neg (by decide), if_pos rfl,
        if_neg (by simpa using notDg)]
    rw [taken] at skips
    cases skips
  · simp only [metaphoneBranch, isD, notH, notK, if_false, decide_false, Bool.false_and,
      apply_ite Branch.skips, ite_self, Bool.false_eq_true] at skips

theorem metaphoneBranches_cons (isIn : Option Char → Text → Bool) (prev : Option Char)
    (ch next : Char) (rest : Text) :
    metaphoneBranches isIn prev (ch :: next :: rest) =
      metaphoneBranch isIn prev ch (next :: rest) ::
        if (metaphoneBranch isIn prev ch (next :: rest)).skips then
          metaphoneBranches isIn (some next) rest
        else metaphoneBranches isIn (some ch) (next :: rest) := rfl

theorem EndsAsking.cons {word : Text} (asking : EndsAsking word) (ch : Char) :
    EndsAsking (ch :: word) :=
  asking.imp (·.trans (List.suffix_cons ch word))
    (Or.imp (·.trans (List.suffix_cons ch word)) (·.trans (List.suffix_cons ch word)))

theorem branches_closed {word : Text} (closed : ¬ EndsAsking word) :
    metaphoneBranches inText prev word = metaphoneBranches inSet prev word := by
  induction word using List.twoStepInduction generalizing prev with
  | nil => rfl
  | singleton ch =>
    have branch := @metaphoneBranch_last prev ch (fun isG => closed ((endsAsking_singleton ch).mpr isG))
    simp only [metaphoneBranches, branch]
  | cons_cons ch next rest later fromNext =>
    have branch : metaphoneBranch inText prev ch (next :: rest) =
        metaphoneBranch inSet prev ch (next :: rest) := by
      cases rest with
      | nil =>
        rw [endsAsking_pair] at closed
        exact metaphoneBranch_pair (fun both => closed (.inl both.2))
          (fun either isI => closed (.inr ⟨either, isI⟩))
      | cons after rest => exact metaphoneBranch_inside prev ch next after rest
    have tail : ¬ EndsAsking (next :: rest) := fun asking => closed (asking.cons ch)
    rw [metaphoneBranches_cons, metaphoneBranches_cons, branch, fromNext next tail,
      later (fun asking => tail (asking.cons next))]

theorem wants_ite {condition : Prop} [Decidable condition] {first second : Branch}
    (fires : condition → none ∉ first.wants) (otherwise : none ∉ second.wants) :
    none ∉ (if condition then first else second).wants := by
  split
  · next holds => exact fires holds
  · exact otherwise

theorem ne_none_of_inSet {neighbour : Option Char} {letters : Text}
    (member : inSet neighbour letters = true) : neighbour ≠ none := by
  rintro rfl
  cases member

theorem ne_none_of_any {neighbour : Option Char} {letters : Char → Bool}
    (member : neighbour.any letters = true) : neighbour ≠ none := by
  rintro rfl
  cases member

theorem table_wants (prev : Option Char) (ch : Char) (rest : Text) :
    none ∉ (metaphoneBranch inSet prev ch rest).wants := by
  simp only [metaphoneBranch]
  repeat' refine wants_ite (fun fired => ?_) ?_
  all_goals try exact List.not_mem_nil
  all_goals grind [ne_none_of_inSet, ne_none_of_any]

theorem table_noneMissing (prev : Option Char) (word : Text) :
    NoneMissing (metaphoneBranches inSet prev word) := by
  induction word using List.twoStepInduction generalizing prev with
  | nil => exact List.forall_mem_nil _
  | singleton ch =>
    rw [metaphoneBranches, noneMissing_cons]
    refine ⟨table_wants prev ch [], ?_⟩
    split <;> exact List.forall_mem_nil _
  | cons_cons ch next rest later fromNext =>
    rw [metaphoneBranches_cons, noneMissing_cons]
    refine ⟨table_wants prev ch (next :: rest), ?_⟩
    split
    · exact later (some next)
    · exact fromNext next (some ch)

theorem asking_skipped {ch next : Char} {rest : Text}
    (skips : (metaphoneBranch inSet prev ch (next :: rest)).skips = true)
    (asking : EndsAsking (ch :: next :: rest)) : EndsAsking rest := by
  have letter : next = 'h' ∨ next = 'k' ∨ next = 'g' ∧ rest ≠ [] := by
    rcases skipped skips with isH | isK | ⟨-, isG, more⟩
    · exact .inl (Option.some.inj isH)
    · exact .inr (.inl (Option.some.inj isK))
    · refine .inr (.inr ⟨Option.some.inj isG, fun last => ?_⟩)
      rw [last] at more
      cases more
  rcases rest with _ | ⟨after, _ | ⟨last, rest⟩⟩
  · rw [endsAsking_pair] at asking
    grind
  · rw [endsAsking_cons, endsAsking_pair] at asking
    rw [endsAsking_singleton]
    grind
  · rwa [endsAsking_cons, endsAsking_cons] at asking

theorem branches_asking {word : Text} (asking : EndsAsking word) :
    metaphoneCode inText prev word ≠ metaphoneCode inSet prev word ∧
      ¬ NoneMissing (metaphoneBranches inText prev word) := by
  induction word using List.twoStepInduction generalizing prev with
  | nil => exact absurd asking not_endsAsking_nil
  | singleton ch =>
    rw [endsAsking_singleton] at asking
    subst asking
    simp [metaphoneCode, metaphoneBranches, metaphoneBranch, isVowel, NoneMissing]
  | cons_cons ch next rest later fromNext =>
    by_cases parts : rest = [] ∧ (ch = 'd' ∧ next = 'g' ∨ (ch = 's' ∨ ch = 't') ∧ next = 'i')
    · obtain ⟨rfl, ⟨rfl, rfl⟩ | ⟨rfl | rfl, rfl⟩⟩ := parts <;>
        simp [metaphoneCode, metaphoneBranches, metaphoneBranch, isVowel, NoneMissing]
    · have same : metaphoneBranch inText prev ch (next :: rest) =
          metaphoneBranch inSet prev ch (next :: rest) := by
        cases rest with
        | nil =>
          exact metaphoneBranch_pair (fun both => parts ⟨rfl, .inl both⟩)
            (fun either isI => parts ⟨rfl, .inr ⟨either, isI⟩⟩)
        | cons after rest => exact metaphoneBranch_inside prev ch next after rest
      have askingTail : EndsAsking (next :: rest) := by
        cases rest with
        | nil =>
          rw [endsAsking_pair] at asking
          rw [endsAsking_singleton]
          exact asking.resolve_right fun isI => parts ⟨rfl, .inr isI⟩
        | cons after rest => rwa [endsAsking_cons] at asking
      rw [metaphoneCode, metaphoneCode, metaphoneBranches_cons, metaphoneBranches_cons, same,
        List.map_cons, List.map_cons, List.flatten_cons, List.flatten_cons, noneMissing_cons]
      by_cases skips : (metaphoneBranch inSet prev ch (next :: rest)).skips = true
      · have tail := @later (some next) (asking_skipped skips asking)
        rw [if_pos skips, if_pos skips]
        exact ⟨fun codes => tail.1 (List.append_cancel_left codes), fun fires => tail.2 fires.2⟩
      · have tail := @fromNext next (some ch) askingTail
        rw [if_neg skips, if_neg skips]
        exact ⟨fun codes => tail.1 (List.append_cancel_left codes), fun fires => tail.2 fires.2⟩

theorem metaphone_noneMissing_iff (prev : Option Char) (word : Text) :
    NoneMissing (metaphoneBranches inText prev word) ↔ ¬ EndsAsking word := by
  refine ⟨fun fires asking => (branches_asking asking).2 fires, fun closed => ?_⟩
  rw [branches_closed closed]
  exact table_noneMissing prev word

theorem metaphoneCode_eq_iff (prev : Option Char) (word : Text) :
    metaphoneCode inText prev word = metaphoneCode inSet prev word ↔ ¬ EndsAsking word := by
  refine ⟨fun codes asking => (branches_asking asking).1 codes, fun closed => ?_⟩
  rw [metaphoneCode, metaphoneCode, branches_closed closed]

end Metaphone

/-- At the ends of a word, for any text: which letters make a rule fire for a neighbour that is
missing, and which make the code another than the one of the tables. -/
theorem missing_neighbours (nfd lower : Text → Text) (isMark : Char → Bool) (s : Text) :
    (NoneMissing (cologneBranches inText none (cologneLetters nfd lower s)) ↔
        StartsClear (cologneLetters nfd lower s) ∧
          ¬ endsOpen none (cologneLetters nfd lower s)) ∧
      (colognePhonetic nfd lower s = cologneByTable nfd lower s ↔
        (cologneLetters nfd lower s).head? ≠ some 'x' ∧
          ¬ endsOpen none (cologneLetters nfd lower s)) ∧
      (NoneMissing (metaphoneBranches inText none (metaphoneLetters nfd lower isMark s)) ↔
        ¬ EndsAsking (metaphoneLetters nfd lower isMark s)) ∧
      (metaphone nfd lower isMark s = metaphoneByTable nfd lower isMark s ↔
        ¬ EndsAsking (metaphoneLetters nfd lower isMark s)) :=
  ⟨cologne_noneMissing_iff _, cologneCode_eq_iff _, metaphone_noneMissing_iff none _,
    metaphoneCode_eq_iff none _⟩

/-- The `t` at the end of Schmidt becomes 8, and Wang ends in J. -/
theorem schmidt_wang :
    colognePhonetic id (List.map Char.toLower) "Schmidt".toList ≠
        cologneByTable id (List.map Char.toLower) "Schmidt".toList ∧
      metaphone id (List.map Char.toLower) (fun _ => false) "Wang".toList ≠
        metaphoneByTable id (List.map Char.toLower) (fun _ => false) "Wang".toList := by
  decide

end Ukip.Clustering.Phonetics
