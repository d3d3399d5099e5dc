import Mathlib

/-!
# Glob patterns

Patterns as a key-value server matches them: `*` stands for any text, `?` for one character,
`[…]` for one of a class of characters and a backslash for the character after it.  A class may
be negated, hold ranges and escaped characters, and is closed by the end of the pattern if
nothing else closes it.  A word followed by `*` asks for the texts that start with the word
exactly if no character of the word is special.
-/

namespace Foundation.GlobPattern

/-- A step of a pattern: any text, or one character of a kind. -/
inductive Piece where
  | anything
  | one (accepts : Char → Bool)

def matchesPieces : List Piece → List Char → Bool
  | [], text => text.isEmpty
  | .anything :: pieces, text => text.tails.any (matchesPieces pieces)
  | .one accepts :: pieces, text =>
    match text with
    | [] => false
    | char :: rest => accepts char && matchesPieces pieces rest

def readRanges : List Char → List (Char × Char) × List Char
  | [] => ([], [])
  | ']' :: rest => ([], rest)
  | '\\' :: char :: rest => ((char, char) :: (readRanges rest).1, (readRanges rest).2)
  | low :: '-' :: high :: rest => ((low, high) :: (readRanges rest).1, (readRanges rest).2)
  | char :: rest => ((char, char) :: (readRanges rest).1, (readRanges rest).2)

def inRanges (ranges : List (Char × Char)) (char : Char) : Bool :=
  ranges.any fun range =>
    (range.1 ≤ char && char ≤ range.2) || (range.2 ≤ char && char ≤ range.1)

def readClass : List Char → (Char → Bool) × List Char
  | '^' :: rest => (fun char => !inRanges (readRanges rest).1 char, (readRanges rest).2)
  | rest => (inRanges (readRanges rest).1, (readRanges rest).2)

def parseWithin : Nat → List Char → List Piece
  | 0, _ => []
  | _ + 1, [] => []
  | fuel + 1, '*' :: pattern => .anything :: parseWithin fuel pattern
  | fuel + 1, '?' :: pattern => .one (fun _ => true) :: parseWithin fuel pattern
  | fuel + 1, '[' :: pattern =>
    .one (readClass pattern).1 :: parseWithin fuel (readClass pattern).2
  | fuel + 1, '\\' :: char :: pattern => .one (fun other => other == char) :: parseWithin fuel pattern
  | fuel + 1, char :: pattern => .one (fun other => other == char) :: parseWithin fuel pattern

def parse (pattern : List Char) : List Piece := parseWithin pattern.length pattern

def matchesGlob (pattern text : List Char) : Bool := matchesPieces (parse pattern) text

def isSpecial (char : Char) : Bool := char == '*' || char == '?' || char == '[' || char == '\\'

/-- A word that stands for itself in a pattern. -/
abbrev Plain (word : List Char) : Prop := ∀ char ∈ word, isSpecial char = false

theorem isSpecial_iff {char : Char} :
    isSpecial char = true ↔ char = '*' ∨ char = '?' ∨ char = '[' ∨ char = '\\' := by
  simp [isSpecial, or_assoc]

variable (pattern : List Char)

theorem readRanges_left : (readRanges pattern).2 <:+ pattern.drop 1 := by
  induction pattern using readRanges.induct with
  | case1 => simp [readRanges]
  | case2 rest => simp [readRanges]
  | case3 char rest ih =>
    simp only [readRanges, List.drop_succ_cons, List.drop_zero]
    exact (ih.trans (List.drop_suffix 1 rest)).trans (List.suffix_cons char rest)
  | case4 low high rest _ _ ih =>
    simp only [readRanges, List.drop_succ_cons, List.drop_zero]
    exact (ih.trans (List.drop_suffix 1 rest)).trans
      ((List.suffix_cons high rest).trans (List.suffix_cons '-' (high :: rest)))
  | case5 char rest notClosing notEscape notRange ih =>
    rw [readRanges.eq_5 char rest notClosing notEscape notRange]
    exact ih.trans (List.drop_suffix 1 rest)

theorem readClass_left : (readClass pattern).2 <:+ pattern.drop 1 := by
  unfold readClass
  split
  · rename_i rest
    exact (readRanges_left rest).trans (List.drop_suffix 1 rest)
  · exact readRanges_left pattern

theorem exists_fuel {fuel : Nat} {char : Char} {pattern : List Char}
    (enough : (char :: pattern).length ≤ fuel) :
    ∃ rest, fuel = rest + 1 ∧ pattern.length ≤ rest := by
  obtain ⟨rest, rfl⟩ := Nat.exists_eq_add_one.mpr (Nat.lt_of_lt_of_le (by simp) enough)
  exact ⟨rest, rfl, Nat.le_of_succ_le_succ enough⟩

theorem parseWithin_congr {first second : Nat} {pattern : List Char}
    (firstEnough : pattern.length ≤ first) (secondEnough : pattern.length ≤ second) :
    parseWithin first pattern = parseWithin second pattern := by
  induction first, pattern using parseWithin.induct generalizing second with
  | case1 pattern =>
    obtain rfl := List.length_eq_zero_iff.mp (Nat.le_zero.mp firstEnough)
    cases second <;> rfl
  | case2 fuel => cases second <;> rfl
  | case3 fuel pattern ih | case4 fuel pattern ih =>
    obtain ⟨other, rfl, enough⟩ := exists_fuel secondEnough
    simp only [parseWithin, ih (Nat.le_of_succ_le_succ firstEnough) enough]
  | case5 fuel pattern ih =>
    obtain ⟨other, rfl, enough⟩ := exists_fuel secondEnough
    have shorter := ((readClass_left pattern).trans (List.drop_suffix 1 pattern)).length_le
    have fits := Nat.le_of_succ_le_succ firstEnough
    simp only [parseWithin, ih (shorter.trans fits) (shorter.trans enough)]
  | case6 fuel char pattern ih =>
    obtain ⟨other, rfl, enough⟩ := exists_fuel secondEnough
    have fits := Nat.le_of_succ_le_succ firstEnough
    simp only [parseWithin, ih (Nat.le_of_succ_le fits) (Nat.le_of_succ_le enough)]
  | case7 fuel char pattern notStar notOne notClass notEscape ih =>
    obtain ⟨other, rfl, enough⟩ := exists_fuel secondEnough
    rw [parseWithin.eq_7 fuel char pattern notStar notOne notClass notEscape,
      parseWithin.eq_7 other char pattern notStar notOne notClass notEscape,
      ih (Nat.le_of_succ_le_succ firstEnough) enough]

theorem parse_class :
    parse ('[' :: pattern) = .one (readClass pattern).1 :: parse (readClass pattern).2 := by
  have shorter := ((readClass_left pattern).trans (List.drop_suffix 1 pattern)).length_le
  have step : parse ('[' :: pattern) =
      .one (readClass pattern).1 :: parseWithin pattern.length (readClass pattern).2 := rfl
  exact step.trans (congrArg _ (parseWithin_congr shorter le_rfl))

theorem parse_escape (char : Char) (pattern : List Char) :
    parse ('\\' :: char :: pattern) = .one (fun other => other == char) :: parse pattern := by
  have step : parse ('\\' :: char :: pattern) =
      .one (fun other => other == char) :: parseWithin (pattern.length + 1) pattern := rfl
  exact step.trans (congrArg _ (parseWithin_congr (Nat.le_succ pattern.length) le_rfl))

theorem parse_literal {char : Char} (plain : isSpecial char = false) (pattern : List Char) :
    parse (char :: pattern) = .one (fun other => other == char) :: parse pattern := by
  have apart : char ≠ '*' ∧ char ≠ '?' ∧ char ≠ '[' ∧ char ≠ '\\' := by
    simpa [isSpecial, and_assoc] using plain
  exact parseWithin.eq_7 pattern.length char pattern apart.1 apart.2.1 apart.2.2.1
    fun _ _ escape _ => apart.2.2.2 escape

@[simp] theorem matchesPieces_one (accepts : Char → Bool) (pieces : List Piece) (char : Char)
    (rest : List Char) :
    matchesPieces (.one accepts :: pieces) (char :: rest) =
      (accepts char && matchesPieces pieces rest) := rfl

theorem matchesGlob_eq (pattern text : List Char) :
    matchesGlob pattern text = matchesPieces (parse pattern) text := rfl

@[simp] theorem matchesGlob_nil (text : List Char) : matchesGlob [] text = text.isEmpty := rfl

theorem matchesGlob_star (pattern text : List Char) :
    matchesGlob ('*' :: pattern) text = true ↔
      ∃ back, back <:+ text ∧ matchesGlob pattern back = true := by
  have step : matchesGlob ('*' :: pattern) text = text.tails.any (matchesGlob pattern) := rfl
  rw [step, List.any_eq_true]
  simp only [List.mem_tails]

@[simp] theorem matchesGlob_lastStar (text : List Char) : matchesGlob ['*'] text = true :=
  (matchesGlob_star [] text).mpr ⟨[], List.nil_suffix, rfl⟩

@[simp] theorem matchesGlob_class (pattern rest : List Char) (char : Char) :
    matchesGlob ('[' :: pattern) (char :: rest) =
      ((readClass pattern).1 char && matchesGlob (readClass pattern).2 rest) := by
  rw [matchesGlob_eq, parse_class, matchesPieces_one, matchesGlob_eq]

@[simp] theorem matchesGlob_escape (pattern rest : List Char) (symbol char : Char) :
    matchesGlob ('\\' :: symbol :: pattern) (char :: rest) =
      (char == symbol && matchesGlob pattern rest) := by
  rw [matchesGlob_eq, parse_escape, matchesPieces_one, matchesGlob_eq]

theorem matchesGlob_literal {symbol : Char} (plain : isSpecial symbol = false)
    (pattern rest : List Char) (char : Char) :
    matchesGlob (symbol :: pattern) (char :: rest) =
      (char == symbol && matchesGlob pattern rest) := by
  rw [matchesGlob_eq, parse_literal plain, matchesPieces_one, matchesGlob_eq]

theorem matchesGlob_plain (word text : List Char) (plain : Plain word) :
    matchesGlob (word ++ ['*']) text = word.isPrefixOf text := by
  induction word generalizing text with
  | nil => simp
  | cons symbol word ih =>
    obtain ⟨here, later⟩ := List.forall_mem_cons.mp plain
    cases text with
    | nil =>
      rw [List.cons_append, matchesGlob_eq, parse_literal here]
      rfl
    | cons char rest =>
      rw [List.cons_append, matchesGlob_literal here, ih rest later, List.isPrefixOf_cons_cons,
        Bool.beq_comm]

variable (word : List Char)

theorem class_rest :
    (readClass (word ++ ['*'])).2 = [] ∨
      ∃ rest, (readClass (word ++ ['*'])).2 = rest ++ ['*'] ∧ rest.length < word.length := by
  have left := readClass_left (word ++ ['*'])
  cases word with
  | nil => exact .inl (List.suffix_nil.mp left)
  | cons char word =>
    simp only [List.cons_append, List.drop_succ_cons, List.drop_zero] at left
    rcases List.suffix_concat_iff.mp left with none | ⟨rest, same, shorter⟩
    · exact .inl none
    · exact .inr ⟨rest, same, Nat.lt_succ_of_le shorter.length_le⟩

theorem parse_one {symbol : Char} (notStar : symbol ≠ '*') (word : List Char) :
    ∃ accepts left, parse (symbol :: (word ++ ['*'])) = .one accepts :: parse left ∧
      (left = [] ∨ ∃ rest, left = rest ++ ['*'] ∧ rest.length ≤ word.length) := by
  by_cases plain : isSpecial symbol = false
  · exact ⟨_, _, parse_literal plain _, .inr ⟨word, rfl, le_rfl⟩⟩
  · have special := isSpecial_iff.mp (Bool.not_eq_false _ ▸ plain)
    rcases special.resolve_left notStar with rfl | rfl | rfl
    · exact ⟨fun _ => true, _, rfl, .inr ⟨word, rfl, le_rfl⟩⟩
    · refine ⟨_, _, parse_class _, (class_rest word).imp id fun ⟨rest, same, shorter⟩ => ?_⟩
      exact ⟨rest, same, shorter.le⟩
    · cases word with
      | nil => exact ⟨_, _, parse_escape '*' [], .inl rfl⟩
      | cons char word =>
        exact ⟨_, _, parse_escape char _, .inr ⟨word, rfl, Nat.le_succ word.length⟩⟩

theorem short_match (some : ∃ text, matchesGlob (word ++ ['*']) text = true) :
    ∃ text, matchesGlob (word ++ ['*']) text = true ∧ text.length ≤ word.length := by
  induction length : word.length using Nat.strong_induction_on generalizing word with
  | _ length ih =>
    subst length
    obtain ⟨text, matched⟩ := some
    cases word with
    | nil => exact ⟨[], by simp, le_rfl⟩
    | cons symbol word =>
      by_cases star : symbol = '*'
      · subst star
        obtain ⟨back, _, later⟩ := (matchesGlob_star _ _).mp matched
        obtain ⟨short, found, bound⟩ := ih word.length (Nat.lt_succ_self _) word ⟨back, later⟩ rfl
        exact ⟨short, (matchesGlob_star _ _).mpr ⟨short, List.suffix_rfl, found⟩,
          Nat.le_succ_of_le bound⟩
      · obtain ⟨accepts, left, parsed, rest⟩ := parse_one star word
        have step : ∀ text, matchesGlob (symbol :: word ++ ['*']) text =
            matchesPieces (.one accepts :: parse left) text := fun text =>
          congrArg (matchesPieces · text) parsed
        rw [step] at matched
        cases text with
        | nil => cases matched
        | cons char text =>
          obtain ⟨accepted, later⟩ := Bool.and_eq_true_iff.mp matched
          rcases rest with rfl | ⟨rest, rfl, shorter⟩
          · refine ⟨[char], ?_, by simp⟩
            rw [step]
            exact Bool.and_eq_true_iff.mpr ⟨accepted, rfl⟩
          · obtain ⟨short, found, bound⟩ :=
              ih rest.length (Nat.lt_succ_of_le shorter) rest ⟨text, later⟩ rfl
            refine ⟨char :: short, ?_, Nat.succ_le_succ (bound.trans shorter)⟩
            rw [step]
            exact Bool.and_eq_true_iff.mpr ⟨accepted, found⟩

theorem not_prefix_of_short {word text : List Char} (short : text.length < word.length) :
    word.isPrefixOf text = false := by
  refine Bool.eq_false_iff.mpr fun starts => ?_
  have bound := (List.isPrefixOf_iff_prefix.mp starts).length_le
  omega

theorem class_tells {word : List Char}
    (matched : matchesGlob ('[' :: word ++ ['*']) ('[' :: word) = true) :
    ∃ text, matchesGlob ('[' :: word ++ ['*']) text ≠ ('[' :: word).isPrefixOf text := by
  rw [List.cons_append, matchesGlob_class, Bool.and_eq_true] at matched
  obtain ⟨accepted, later⟩ := matched
  rcases class_rest word with none | ⟨rest, same, shorter⟩
  · rw [none, matchesGlob_nil, List.isEmpty_iff] at later
    subst later
    refine ⟨['[', '?'], ?_⟩
    rw [List.cons_append, matchesGlob_class, none]
    simp
  · rw [same] at later
    obtain ⟨short, found, bound⟩ := short_match rest ⟨word, later⟩
    refine ⟨'[' :: short, ?_⟩
    rw [List.cons_append, matchesGlob_class, accepted, same, found,
      not_prefix_of_short (by simp only [List.length_cons]; omega)]
    decide

theorem escape_tells {word : List Char}
    (matched : matchesGlob ('\\' :: word ++ ['*']) ('\\' :: word) = true) :
    ∃ text, matchesGlob ('\\' :: word ++ ['*']) text ≠ ('\\' :: word).isPrefixOf text := by
  cases word with
  | nil => exact absurd matched (by decide)
  | cons char word =>
    simp only [List.cons_append, matchesGlob_escape, Bool.and_eq_true, beq_iff_eq] at matched
    obtain ⟨rfl, later⟩ := matched
    obtain ⟨short, found, bound⟩ := short_match word ⟨_, later⟩
    refine ⟨'\\' :: short, ?_⟩
    rw [List.cons_append, List.cons_append, matchesGlob_escape, found,
      not_prefix_of_short (by simp only [List.length_cons]; omega)]
    decide

/-- With a special character in the word, some text tells the pattern from the word: one that
starts with the word and does not match, or the other way round. -/
theorem special_tells (special : ¬ Plain word) :
    ∃ text, matchesGlob (word ++ ['*']) text ≠ word.isPrefixOf text := by
  induction word with
  | nil => exact absurd (fun _ wrong => nomatch wrong) special
  | cons symbol word ih =>
    by_cases plain : isSpecial symbol = false
    · obtain ⟨text, tells⟩ := ih fun later => special (List.forall_mem_cons.mpr ⟨plain, later⟩)
      refine ⟨symbol :: text, ?_⟩
      rw [List.cons_append, matchesGlob_literal plain, List.isPrefixOf_cons_cons]
      simpa using tells
    · by_cases matched : matchesGlob (symbol :: word ++ ['*']) (symbol :: word) = true
      · rcases isSpecial_iff.mp (Bool.not_eq_false _ ▸ plain) with rfl | rfl | rfl | rfl
        · -- the star takes one character more
          obtain ⟨back, suffix, later⟩ := (matchesGlob_star _ _).mp matched
          refine ⟨'?' :: '*' :: word, ?_⟩
          have also : matchesGlob ('*' :: word ++ ['*']) ('?' :: '*' :: word) = true :=
            (matchesGlob_star _ _).mpr ⟨back, suffix.trans (List.suffix_cons _ _), later⟩
          rw [also]
          simp
        · -- any other character does instead of the question mark
          refine ⟨'*' :: word, ?_⟩
          have also : matchesGlob ('?' :: word ++ ['*']) ('*' :: word) = true := matched
          rw [also]
          simp
        · exact class_tells matched
        · exact escape_tells matched
      · refine ⟨symbol :: word, fun same => matched (same.trans ?_)⟩
        simp

end Foundation.GlobPattern
