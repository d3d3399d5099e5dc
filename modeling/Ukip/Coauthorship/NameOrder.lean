import Ukip.Foundation.Words
import Ukip.Coauthorship.Weights

/-!
# The order of a name

`name_key` of a name in its natural order and of the same name with the family name first, with
and without suffixes after a comma.  The two forms go through different branches; both come down
to a family and a given part of the tokens that are no suffixes.
-/

namespace Ukip.Coauthorship.NameOrder

open Foundation.Words
open Analytics.Corpus (strip isPythonSpace)
open Identity
open Coauthorship.Weights (asciiPython)

/-- Text without white space and commas. -/
def Clear (text : Text) : Prop := ∀ char ∈ text, isPythonSpace char = false ∧ char ≠ ','

/-- A normal form of Unicode works on what stands between blanks and commas, and makes neither. -/
structure Separates (normal : Text → Text) : Prop where
  nil : normal [] = []
  split : ∀ front back separator, separator = ' ' ∨ separator = ',' →
    normal (front ++ separator :: back) = normal front ++ separator :: normal back
  clear : ∀ text, Clear text → Clear (normal text)

/-- What the code relies on in `unicodedata`, `str.isalpha` and `str.lower`. -/
structure Lawful (python : Python) : Prop where
  nfd : Separates python.nfd
  nfc : Separates python.nfc
  combining : python.combining ' ' = false ∧ python.combining ',' = false
  isAlpha : python.isAlpha ',' = false ∧ python.isAlpha '_' = false ∧
    ∀ particle ∈ particles, ∃ char ∈ particle, python.isAlpha char = true
  lower_letters : ∀ text, (∃ char ∈ python.lower text, python.isAlpha char = true) ↔
    ∃ char ∈ text, python.isAlpha char = true
  lower_dot : ∀ text, python.lower (text ++ ['.']) = python.lower text ++ ['.']
  lower_comma : ∀ text, ',' ∈ text → ',' ∈ python.lower text
  lower_underscore : ∀ text, '_' ∈ python.lower text → '_' ∈ text
  lower_cjk : ∀ text, (∃ char ∈ text, isCjkChar char = true) →
    ∃ char ∈ python.lower text, isCjkChar char = true

/-- `" ".join(tokens)` -/
def spaced (tokens : List Text) : Text := [' '].intercalate tokens

/-- `f"{left}, {right}"` -/
def fenced (left right : Text) : Text := left ++ ',' :: ' ' :: right

/-- A token: `_tokenize` runs after the diacritics are off, and drops what is then empty. -/
structure IsToken (python : Python) (token : Text) : Prop where
  clear : Clear token
  cleaned : stripDiacritics python token ≠ []

variable {python : Python}

theorem stripDiacritics_separates (lawful : Lawful python) : Separates (stripDiacritics python) := by
  refine ⟨?_, fun front back separator kind => ?_, fun text clear => ?_⟩
  · simp only [stripDiacritics, lawful.nfd.nil, List.filter_nil, lawful.nfc.nil]
  · have kept : python.combining separator = false := by
      rcases kind with rfl | rfl
      · exact lawful.combining.1
      · exact lawful.combining.2
    simp only [stripDiacritics, lawful.nfd.split _ _ _ kind, List.filter_append, List.filter_cons,
      kept, Bool.not_false, if_true, lawful.nfc.split _ _ _ kind]
  · refine lawful.nfc.clear _ fun char member => ?_
    exact lawful.nfd.clear text clear char (List.mem_filter.mp member).1

theorem spaced_cons (first second : Text) (later : List Text) :
    spaced (first :: second :: later) = first ++ ' ' :: spaced (second :: later) := by
  simp [spaced, List.intercalate_cons_cons]

theorem Separates.spaced {normal : Text → Text} (separates : Separates normal) (tokens : List Text) :
    normal (spaced tokens) = spaced (tokens.map normal) := by
  induction tokens with
  | nil => exact separates.nil
  | cons token rest ih =>
    cases rest with
    | nil => simp [NameOrder.spaced]
    | cons next others =>
      rw [spaced_cons, separates.split _ _ _ (.inl rfl), ih]
      exact (spaced_cons _ _ _).symm

theorem Separates.fenced {normal : Text → Text} (separates : Separates normal) (left right : Text) :
    normal (fenced left right) = fenced (normal left) (normal right) := by
  have blank := separates.split [] right ' ' (.inl rfl)
  rw [List.nil_append, separates.nil, List.nil_append] at blank
  unfold NameOrder.fenced
  rw [separates.split _ _ _ (.inr rfl), blank]

theorem tokenize_blank (text : Text) : tokenize (' ' :: text) = tokenize text := by
  have out : isPythonSpace ' ' = true := by decide
  rw [tokenize, List.splitOnP_cons_eq_if_modifyHead, if_pos out, List.filter_cons_of_neg (by simp)]
  rfl

theorem tokenize_append (first second : Text) :
    tokenize (first ++ ' ' :: second) = tokenize first ++ tokenize second := by
  have out : isPythonSpace ' ' = true := by decide
  simp only [tokenize, List.splitOnP_append_cons first second out, List.filter_append]

variable {tokens : List Text}

theorem tokenize_spaced
    (blankless : ∀ token ∈ tokens, token ≠ [] ∧ ∀ char ∈ token, isPythonSpace char = false) :
    tokenize (spaced tokens) = tokens :=
  words_joined (by decide) blankless

theorem splitComma_fenced {left : Text} (clear : ',' ∉ left) (right : Text) :
    splitComma (fenced left right) = (left, ' ' :: right) := by
  have apart : ∀ char ∈ left, (char != ',') = true := fun char member =>
    bne_iff_ne.mpr fun same => clear (same ▸ member)
  unfold splitComma fenced
  rw [List.takeWhile_append_of_pos (by simpa using apart),
    List.dropWhile_append_of_pos (by simpa using apart)]
  simp

theorem comma_fenced (left right : Text) : ',' ∈ fenced left right :=
  List.mem_append_right left List.mem_cons_self

theorem comma_spaced (clear : ∀ token ∈ tokens, Clear token) : ',' ∉ spaced tokens := by
  induction tokens with
  | nil => simp [spaced]
  | cons token rest ih =>
    obtain ⟨here, later⟩ := List.forall_mem_cons.mp clear
    cases rest with
    | nil =>
      simp only [spaced, List.intercalate_singleton]
      exact fun member => (here ',' member).2 rfl
    | cons next others =>
      rw [spaced_cons, List.mem_append, List.mem_cons]
      rintro (inToken | wrong | inRest)
      · exact (here ',' inToken).2 rfl
      · exact absurd wrong (by decide)
      · exact ih later inRest

/-- The last lines of `name_key`. -/
def keyFrom (python : Python) : List Text → List Text → String
  | [], _ => ""
  | head :: rest, given =>
    let joined := ((head :: rest).map (alphaLower python)).flatten
    String.ofList ((if joined = [] then python.lower head else joined) ++
      '_' :: firstName python given)

theorem nameKey_ofList {text : Text} {char : Char} (member : char ∈ text)
    (visible : isPythonSpace char = false) :
    nameKey python (String.ofList text) =
      (nameTokens python (stripDiacritics python text)).elim "" fun parts =>
        keyFrom python (parts.1.filter (isMeaningful python))
          (parts.2.filter (isMeaningful python)) := by
  have filled : strip isPythonSpace text ≠ [] := by
    intro empty
    obtain ⟨lead, trail, split, leadOut, trailOut⟩ := @trim_split _ isPythonSpace text
    have bare : text = lead ++ trail := by
      rw [show trim isPythonSpace text = [] from empty, List.append_nil] at split
      exact split
    rcases List.mem_append.mp (bare ▸ member) with inLead | inTrail
    · exact absurd (leadOut char inLead) (by simp [visible])
    · exact absurd (trailOut char inTrail) (by simp [visible])
  simp only [nameKey, String.toList_ofList, if_neg filled]
  cases nameTokens python (stripDiacritics python text) with
  | none => rfl
  | some parts =>
    obtain ⟨family, given⟩ := parts
    simp only [Option.elim_some]
    cases family.filter (isMeaningful python) <;> rfl

theorem rtakeWhile_append {Item : Type} {test : Item → Bool} {front back : List Item}
    (all : ∀ item ∈ back, test item = true) :
    (front ++ back).rtakeWhile test = front.rtakeWhile test ++ back := by
  rw [List.rtakeWhile, List.reverse_append, List.takeWhile_append_of_pos (by simpa using all),
    List.reverse_append, List.reverse_reverse]
  rfl

theorem rdropWhile_append {Item : Type} {test : Item → Bool} {front back : List Item}
    (all : ∀ item ∈ back, test item = true) :
    (front ++ back).rdropWhile test = front.rdropWhile test := by
  rw [List.rdropWhile, List.reverse_append, List.dropWhile_append_of_pos (by simpa using all)]
  rfl

theorem uninverted_eq {text : Text} {front leading : List Text} {surname : Text}
    (tokens : (tokenize text).filter (isMeaningful python) = front ++ (leading ++ [surname]))
    (particle : ∀ token ∈ leading, isParticle python token = true)
    (notCjk : isCjkToken python surname = false) :
    uninverted python text =
      some (front.rtakeWhile (isParticle python) ++ (leading ++ [surname]),
        front.rdropWhile (isParticle python)) := by
  have mixed : (front ++ (leading ++ [surname])).all (isCjkToken python) = false := by
    simp [notCjk]
  have whole : front ++ (leading ++ [surname]) = (front ++ leading) ++ [surname] := by simp
  obtain ⟨first, rest, cons⟩ := List.exists_cons_of_ne_nil
    (List.append_ne_nil_of_right_ne_nil (front ++ leading) (List.cons_ne_nil surname []))
  unfold uninverted
  simp only [tokens, mixed, Bool.and_false]
  rw [whole, List.getLast?_concat, List.dropLast_concat, cons, rtakeWhile_append particle,
    rdropWhile_append particle, ← List.append_assoc]
  rfl

theorem lower_dots (lawful : Lawful python) (text : Text) (dots : Nat) :
    python.lower (text ++ List.replicate dots '.') = python.lower text ++ List.replicate dots '.' := by
  induction dots with
  | zero => simp
  | succ dots ih =>
    rw [List.replicate_succ', ← List.append_assoc, lawful.lower_dot, ih, List.append_assoc]

theorem rstripDots_dots (text : Text) (dots : Nat) :
    rstripDots (text ++ List.replicate dots '.') = rstripDots text :=
  rdropWhile_append fun char member => by simp [List.eq_of_mem_replicate member]

theorem rstripDots_split (text : Text) :
    ∃ dots, text = rstripDots text ++ List.replicate dots '.' := by
  refine ⟨(text.rtakeWhile fun char => char == '.').length, ?_⟩
  have dots : text.rtakeWhile (fun char => char == '.') =
      List.replicate (text.rtakeWhile fun char => char == '.').length '.' :=
    List.eq_replicate_of_mem fun char member => by simpa using List.mem_rtakeWhile_imp member
  rw [← dots]
  exact (List.rdropWhile_append_rtakeWhile ..).symm

variable {token : Text}

theorem particle_meaningful (lawful : Lawful python) (particle : isParticle python token = true) :
    isMeaningful python token = true := by
  obtain ⟨dots, split⟩ := rstripDots_split token
  have same : rstripDots (python.lower token) = rstripDots (python.lower (rstripDots token)) := by
    conv_lhs => rw [split, lower_dots lawful, rstripDots_dots]
  have apart : ∀ part ∈ stripParts, rstripDots part ∉ particles := by decide
  unfold isParticle at particle
  rw [same, List.contains_iff_mem] at particle
  unfold isMeaningful
  rw [Bool.not_eq_true', ← Bool.not_eq_true, List.contains_iff_mem]
  exact fun suffix => apart _ suffix particle

theorem isCjkChar_ascii {char : Char} (ascii : char.toNat < 128) : isCjkChar char = false := by
  simp only [isCjkChar, Bool.or_eq_false_iff, Bool.and_eq_false_iff, decide_eq_false_iff_not]
  omega

theorem particle_notCjk (lawful : Lawful python) (particle : isParticle python token = true) :
    isCjkToken python token = false := by
  rw [← Bool.not_eq_true]
  intro cjk
  obtain ⟨some, all⟩ := Bool.and_eq_true_iff.mp cjk
  obtain ⟨letter, member⟩ : ∃ letter, letter ∈ token.filter python.isAlpha :=
    List.exists_mem_of_ne_nil _ (by simpa using some)
  obtain ⟨char, inLower, isCjk⟩ := lawful.lower_cjk token
    ⟨letter, (List.mem_filter.mp member).1, List.all_eq_true.mp all letter member⟩
  obtain ⟨dots, split⟩ := rstripDots_split (python.lower token)
  have ascii : ∀ part ∈ particles, ∀ char ∈ part, char.toNat < 128 := by simp [particles]
  unfold isParticle at particle
  rw [List.contains_iff_mem] at particle
  rw [split] at inLower
  rcases List.mem_append.mp inLower with inPart | isDot
  · exact absurd isCjk (by simp [isCjkChar_ascii (ascii _ particle char inPart)])
  · obtain rfl := List.eq_of_mem_replicate isDot
    exact absurd isCjk (by simp [isCjkChar_ascii (show '.'.toNat < 128 by decide)])

structure Name where
  given : List Text
  leading : List Text
  surname : Text

namespace Name

variable (name : Name)

def family : List Text := name.leading ++ [name.surname]

/-- `"F P S"` -/
def naturalOrder : Text := spaced (name.given ++ name.family)

/-- `"P S, F"` -/
def familyFirst : Text := fenced (spaced name.family) (spaced name.given)

end Name

def kept (python : Python) (tokens : List Text) : List Text :=
  (tokens.map (stripDiacritics python)).filter (isMeaningful python)

/-- Given names that are not all suffixes and do not end in a particle, particles of the surname,
and a surname that is not in East-Asian script. -/
structure Name.Western (python : Python) (name : Name) : Prop where
  tokens : ∀ token ∈ name.given ++ name.family, IsToken python token
  given : ∃ token ∈ name.given, isMeaningful python (stripDiacritics python token) = true
  lastGiven : ∀ token ∈ name.given.getLast?, isParticle python (stripDiacritics python token) = false
  leading : ∀ token ∈ name.leading, isParticle python (stripDiacritics python token) = true
  notCjk : isCjkToken python (stripDiacritics python name.surname) = false

variable {name : Name}

theorem tokenize_cleaned (lawful : Lawful python)
    (areTokens : ∀ token ∈ tokens, IsToken python token) :
    tokenize (spaced (tokens.map (stripDiacritics python))) =
      tokens.map (stripDiacritics python) := by
  refine tokenize_spaced fun token member => ?_
  obtain ⟨raw, stored, rfl⟩ := List.mem_map.mp member
  refine ⟨(areTokens raw stored).cleaned, fun char inToken => ?_⟩
  exact ((stripDiacritics_separates lawful).clear raw (areTokens raw stored).clear char inToken).1

theorem comma_cleaned (lawful : Lawful python) (areTokens : ∀ token ∈ tokens, IsToken python token) :
    ',' ∉ spaced (tokens.map (stripDiacritics python)) := by
  refine comma_spaced fun token member => ?_
  obtain ⟨raw, stored, rfl⟩ := List.mem_map.mp member
  exact (stripDiacritics_separates lawful).clear raw (areTokens raw stored).clear

theorem kept_append (python : Python) (first second : List Text) :
    kept python (first ++ second) = kept python first ++ kept python second := by
  simp [kept]

theorem kept_family (lawful : Lawful python) (western : name.Western python)
    (some : kept python name.family ≠ []) :
    ∃ leading surname, kept python name.family = leading ++ [surname] ∧
      (∀ token ∈ leading, isParticle python token = true) ∧
      isCjkToken python surname = false := by
  have particle : ∀ token ∈ name.leading.map (stripDiacritics python),
      isParticle python token = true := List.forall_mem_map.mpr western.leading
  have all : kept python name.leading = name.leading.map (stripDiacritics python) :=
    List.filter_eq_self.mpr fun token member => particle_meaningful lawful (particle token member)
  unfold Name.family at some ⊢
  rw [kept_append, all] at some ⊢
  by_cases suffix : isMeaningful python (stripDiacritics python name.surname) = true
  · have single : kept python [name.surname] = [stripDiacritics python name.surname] := by
      simp [kept, suffix]
    rw [single]
    exact ⟨_, _, rfl, particle, western.notCjk⟩
  · have none : kept python [name.surname] = [] := by simp [kept, suffix]
    rw [none, List.append_nil] at some ⊢
    exact ⟨_, _, (List.dropLast_concat_getLast some).symm,
      fun token member => particle token (List.mem_of_mem_dropLast member),
      particle_notCjk lawful (particle _ (List.getLast_mem some))⟩

theorem visible_char (lawful : Lawful python) {rest : List Text} (isToken : IsToken python token) :
    ∃ char ∈ spaced (token :: rest), isPythonSpace char = false := by
  have filled : token ≠ [] := by
    rintro rfl
    exact isToken.cleaned (stripDiacritics_separates lawful).nil
  obtain ⟨char, member⟩ := List.exists_mem_of_ne_nil token filled
  refine ⟨char, ?_, (isToken.clear char member).1⟩
  cases rest with
  | nil => simpa [spaced] using member
  | cons next others =>
    rw [spaced_cons]
    exact List.mem_append_left _ member

theorem given_split (western : name.Western python) :
    ∃ front last, name.given = front ++ [last] := by
  obtain ⟨token, member, _⟩ := western.given
  exact ⟨_, _, (List.dropLast_concat_getLast (List.ne_nil_of_mem member)).symm⟩

theorem kept_given (western : name.Western python) : kept python name.given ≠ [] := by
  obtain ⟨token, member, meaningful⟩ := western.given
  exact List.ne_nil_of_mem (List.mem_filter.mpr ⟨List.mem_map_of_mem member, meaningful⟩)

theorem nameKey_naturalOrder (lawful : Lawful python) (western : name.Western python) :
    nameKey python (String.ofList name.naturalOrder) =
      (uninverted python (spaced ((name.given ++ name.family).map (stripDiacritics python)))).elim ""
        fun parts => keyFrom python (parts.1.filter (isMeaningful python))
          (parts.2.filter (isMeaningful python)) := by
  obtain ⟨front, last, split⟩ := given_split western
  obtain ⟨first, rest, cons⟩ : ∃ first rest, name.given ++ name.family = first :: rest :=
    List.exists_cons_of_ne_nil (by simp [split])
  have isToken : IsToken python first := western.tokens first (cons ▸ List.mem_cons_self)
  obtain ⟨char, member, visible⟩ : ∃ char ∈ spaced (first :: rest), isPythonSpace char = false :=
    visible_char lawful isToken
  unfold Name.naturalOrder
  rw [nameKey_ofList (cons ▸ member) visible, (stripDiacritics_separates lawful).spaced]
  unfold nameTokens
  rw [if_neg (comma_cleaned lawful western.tokens)]

theorem meaningful_kept {tokens part : List Text} (sublist : part.Sublist (kept python tokens)) :
    part.filter (isMeaningful python) = part :=
  List.filter_eq_self.mpr fun _ member => (List.mem_filter.mp (sublist.subset member)).2

theorem natural_key (lawful : Lawful python) (western : name.Western python)
    (some : kept python name.family ≠ []) :
    nameKey python (String.ofList name.naturalOrder) =
      keyFrom python
        ((kept python name.given).rtakeWhile (isParticle python) ++ kept python name.family)
        ((kept python name.given).rdropWhile (isParticle python)) := by
  obtain ⟨leading, surname, split, particle, notCjk⟩ := kept_family lawful western some
  have tokens : (tokenize (spaced ((name.given ++ name.family).map (stripDiacritics python)))).filter
      (isMeaningful python) = kept python name.given ++ (leading ++ [surname]) := by
    rw [tokenize_cleaned lawful western.tokens, ← split, ← kept_append]
    rfl
  rw [nameKey_naturalOrder lawful western, uninverted_eq tokens particle notCjk, ← split]
  simp only [Option.elim_some, List.filter_append]
  rw [meaningful_kept (List.rtakeWhile_suffix _ _).sublist, meaningful_kept (List.Sublist.refl _),
    meaningful_kept (List.rdropWhile_prefix _ _).sublist]

theorem keyFrom_ne_empty {family : List Text} (filled : family ≠ []) (given : List Text) :
    keyFrom python family given ≠ "" := by
  obtain ⟨head, rest, rfl⟩ := List.exists_cons_of_ne_nil filled
  intro empty
  have characters := congrArg String.toList empty
  simp [keyFrom] at characters

theorem uninverted_filled {text : Text} (remains : (tokenize text).filter (isMeaningful python) ≠ []) :
    ∃ family given, uninverted python text = some (family, given) ∧
      family.filter (isMeaningful python) ≠ [] := by
  obtain ⟨first, rest, cons⟩ := List.exists_cons_of_ne_nil remains
  have meaningful : ∀ token ∈ first :: rest, isMeaningful python token = true := fun token member =>
    (List.mem_filter.mp (cons ▸ member)).2
  unfold uninverted
  simp only [cons]
  split
  · exact ⟨_, _, rfl, by simp [meaningful first List.mem_cons_self]⟩
  · refine ⟨_, _, rfl, List.ne_nil_of_mem (a := (first :: rest).getLast (List.cons_ne_nil _ _)) ?_⟩
    refine List.mem_filter.mpr ⟨List.mem_append_right _ ?_, meaningful _ (List.getLast_mem _)⟩
    simp [List.getLast?_eq_getLast_of_ne_nil]

theorem natural_key_ne_empty (lawful : Lawful python) (western : name.Western python) :
    nameKey python (String.ofList name.naturalOrder) ≠ "" := by
  have tokens : (tokenize (spaced ((name.given ++ name.family).map (stripDiacritics python)))).filter
      (isMeaningful python) = kept python name.given ++ kept python name.family := by
    rw [tokenize_cleaned lawful western.tokens, ← kept_append]
    rfl
  obtain ⟨family, given, split, filled⟩ := uninverted_filled
    (tokens ▸ List.append_ne_nil_of_left_ne_nil (kept_given western) _)
  rw [nameKey_naturalOrder lawful western, split]
  exact keyFrom_ne_empty filled _

theorem nameKey_fenced (lawful : Lawful python) {family : List Text}
    (areTokens : ∀ token ∈ family, IsToken python token) (right : Text)
    (some : (tokenize (stripDiacritics python right)).filter (isMeaningful python) ≠ []) :
    nameKey python (String.ofList (fenced (spaced family) right)) =
      keyFrom python (kept python family)
        ((tokenize (stripDiacritics python right)).filter (isMeaningful python)) := by
  have separates := stripDiacritics_separates lawful
  have filled : ((tokenize (stripDiacritics python right)).filter (isMeaningful python)).isEmpty =
      false := by simpa using some
  rw [nameKey_ofList (comma_fenced _ _) (by decide), separates.fenced, separates.spaced]
  unfold nameTokens
  rw [if_pos (comma_fenced _ _), splitComma_fenced (comma_cleaned lawful areTokens)]
  simp only [tokenize_blank, filled, Bool.false_and, Bool.false_eq_true, if_false, Option.elim_some,
    tokenize_cleaned lawful areTokens]
  rfl

theorem given_tokens (western : name.Western python) : ∀ token ∈ name.given, IsToken python token :=
  fun token member => western.tokens token (List.mem_append_left _ member)

theorem family_tokens (western : name.Western python) :
    ∀ token ∈ name.family, IsToken python token :=
  fun token member => western.tokens token (List.mem_append_right _ member)

theorem family_key (lawful : Lawful python) (western : name.Western python) :
    nameKey python (String.ofList name.familyFirst) =
      keyFrom python (kept python name.family) (kept python name.given) := by
  have right : (tokenize (stripDiacritics python (spaced name.given))).filter (isMeaningful python) =
      kept python name.given := by
    rw [(stripDiacritics_separates lawful).spaced, tokenize_cleaned lawful (given_tokens western)]
    rfl
  unfold Name.familyFirst
  rw [nameKey_fenced lawful (family_tokens western) _ (right ▸ kept_given western), right]

/-- A token that `name_key` filters out. -/
structure IsSuffix (python : Python) (token : Text) : Prop extends IsToken python token where
  suffix : isMeaningful python (stripDiacritics python token) = false

variable {suffixes : List Text}

theorem kept_suffixes (areSuffixes : ∀ token ∈ suffixes, IsSuffix python token) :
    kept python suffixes = [] := by
  refine List.filter_eq_nil_iff.mpr fun token member => ?_
  obtain ⟨raw, stored, rfl⟩ := List.mem_map.mp member
  simp [(areSuffixes raw stored).suffix]

theorem natural_suffixes (lawful : Lawful python) (western : name.Western python)
    (areSuffixes : ∀ token ∈ suffixes, IsSuffix python token) :
    nameKey python (String.ofList (fenced name.naturalOrder (spaced suffixes))) =
      nameKey python (String.ofList name.naturalOrder) := by
  have separates := stripDiacritics_separates lawful
  have right : (tokenize (spaced (suffixes.map (stripDiacritics python)))).filter
      (isMeaningful python) = [] := by
    rw [tokenize_cleaned lawful fun token member => (areSuffixes token member).toIsToken]
    exact kept_suffixes areSuffixes
  have two : 1 < (tokenize (spaced ((name.given ++ name.family).map (stripDiacritics python)))).length := by
    obtain ⟨front, last, split⟩ := given_split western
    rw [tokenize_cleaned lawful western.tokens]
    simp [split, Name.family]
    omega
  rw [nameKey_naturalOrder lawful western, nameKey_ofList (comma_fenced _ _) (by decide),
    separates.fenced, separates.spaced]
  unfold Name.naturalOrder nameTokens
  rw [separates.spaced, if_pos (comma_fenced _ _), splitComma_fenced (comma_cleaned lawful western.tokens)]
  simp only [tokenize_blank, right, List.isEmpty_nil, Bool.true_and, decide_eq_true two, if_true]

theorem alphaLower_comma (lawful : Lawful python) (token : Text) :
    alphaLower python (token ++ [',']) = alphaLower python token := by
  have out : (python.isAlpha ',' || ',' == '-') = false := by
    simp [lawful.isAlpha.1]
  simp only [alphaLower, List.filter_append, List.filter_cons, out, Bool.false_eq_true, if_false,
    List.filter_nil, List.append_nil]

theorem comma_meaningful (lawful : Lawful python) (token : Text) :
    isMeaningful python (token ++ [',']) = true := by
  have dotless : rstripDots (token ++ [',']) = token ++ [','] :=
    List.rdropWhile_concat_neg _ _ _ (by decide)
  have apart : ∀ part ∈ stripParts, ',' ∉ part := by decide
  unfold isMeaningful
  rw [dotless, Bool.not_eq_true', ← Bool.not_eq_true, List.contains_iff_mem]
  exact fun suffix =>
    apart _ suffix (lawful.lower_comma _ (List.mem_append_right _ (List.mem_singleton_self _)))

theorem spaced_comma (front : List Text) (last : Text) :
    spaced (front ++ [last]) ++ [','] = spaced (front ++ [last ++ [',']]) := by
  induction front with
  | nil => simp [spaced]
  | cons token rest ih =>
    cases rest with
    | nil => simp [spaced]
    | cons next others =>
      simp only [List.cons_append] at ih
      simp only [List.cons_append, spaced_cons, List.append_assoc, ih]

theorem tokenize_fenced {front : List Text} {last : Text} (right : Text)
    (blankless : ∀ token ∈ front ++ [last],
      token ≠ [] ∧ ∀ char ∈ token, isPythonSpace char = false) :
    tokenize (fenced (spaced (front ++ [last])) right) =
      front ++ [last ++ [',']] ++ tokenize right := by
  have whole : fenced (spaced (front ++ [last])) right =
      spaced (front ++ [last ++ [',']]) ++ ' ' :: right := by
    rw [← spaced_comma, fenced, List.append_assoc]
    rfl
  rw [whole, tokenize_append]
  refine congrArg (· ++ tokenize right) (tokenize_spaced fun token member => ?_)
  rcases List.mem_append.mp member with inFront | isLast
  · exact blankless token (List.mem_append_left _ inFront)
  · obtain rfl := List.mem_singleton.mp isLast
    refine ⟨List.append_ne_nil_of_right_ne_nil _ (List.cons_ne_nil _ _), fun char inToken => ?_⟩
    rcases List.mem_append.mp inToken with inLast | isComma
    · exact (blankless last (List.mem_append_right _ (List.mem_singleton_self _))).2 char inLast
    · obtain rfl := List.mem_singleton.mp isComma
      decide

theorem firstName_congr {first second : List Text}
    (letters : first.map (alphaLower python) = second.map (alphaLower python)) :
    firstName python first = firstName python second := by
  have stripped : first.map (fun token => rstripDots (alphaLower python token)) =
      second.map (fun token => rstripDots (alphaLower python token)) := by
    have mapped := congrArg (List.map rstripDots) letters
    rw [List.map_map, List.map_map] at mapped
    exact mapped
  unfold firstName
  rw [stripped]
  cases first with
  | nil =>
    obtain rfl : second = [] := by simpa using letters.symm
    rfl
  | cons token rest =>
    cases second with
    | nil => simp at letters
    | cons other others =>
      have same : alphaLower python token = alphaLower python other := by
        simpa using congrArg List.head? letters
      simp only [same]

/-- Given names of which one has two letters. -/
def Spelled (python : Python) (given : List Text) : Prop :=
  ∃ token ∈ given, 2 ≤ (rstripDots (alphaLower python token)).length

theorem firstName_append {given : List Text} (spelled : Spelled python given) (later : List Text) :
    firstName python (given ++ later) = firstName python given := by
  have found : ((given.map fun token => rstripDots (alphaLower python token)).find? fun cleaned =>
      2 ≤ cleaned.length).isSome := by
    obtain ⟨token, member, long⟩ := spelled
    exact List.find?_isSome.mpr ⟨_, List.mem_map_of_mem member, by simpa using long⟩
  obtain ⟨cleaned, first⟩ := Option.isSome_iff_exists.mp found
  simp only [firstName, List.map_append, List.find?_append, first, Option.some_or]

theorem keyFrom_congr {first second : List Text} (family : List Text)
    (same : firstName python first = firstName python second) :
    keyFrom python family first = keyFrom python family second := by
  cases family with
  | nil => rfl
  | cons head rest => simp only [keyFrom, same]

section

variable (lawful : Lawful python)

include lawful

theorem glued_tokens {front suffixes : List Text} {last : Text}
    (areTokens : ∀ token ∈ front ++ [last], IsToken python token)
    (areSuffixes : ∀ token ∈ suffixes, IsSuffix python token) :
    (tokenize (stripDiacritics python (fenced (spaced (front ++ [last])) (spaced suffixes)))).filter
        (isMeaningful python) =
      kept python front ++ [stripDiacritics python last ++ [',']] := by
  have separates := stripDiacritics_separates lawful
  have blankless : ∀ token ∈ front.map (stripDiacritics python) ++ [stripDiacritics python last],
      token ≠ [] ∧ ∀ char ∈ token, isPythonSpace char = false := by
    intro token member
    have mapped : token ∈ (front ++ [last]).map (stripDiacritics python) := by
      simpa only [List.map_append, List.map_cons, List.map_nil] using member
    obtain ⟨raw, stored, rfl⟩ := List.mem_map.mp mapped
    have isToken := areTokens raw stored
    exact ⟨isToken.cleaned, fun char inToken => (separates.clear raw isToken.clear char inToken).1⟩
  have none : (suffixes.map (stripDiacritics python)).filter (isMeaningful python) = [] :=
    kept_suffixes areSuffixes
  rw [separates.fenced, separates.spaced, separates.spaced, List.map_append, List.map_cons,
    List.map_nil, tokenize_fenced _ blankless,
    tokenize_cleaned lawful fun token member => (areSuffixes token member).toIsToken]
  simp only [List.filter_append, none, List.append_nil, List.filter_cons, comma_meaningful lawful,
    if_true, List.filter_nil]
  rfl

/-- Suffixes behind the other form leave the key alone where the last given name is no suffix
itself, or one with two letters is left. -/
theorem family_suffixes (western : name.Western python)
    (apart : (∀ token ∈ name.given.getLast?, isMeaningful python (stripDiacritics python token) = true) ∨
      Spelled python (kept python name.given))
    (areSuffixes : ∀ token ∈ suffixes, IsSuffix python token) :
    nameKey python (String.ofList (fenced name.familyFirst (spaced suffixes))) =
      nameKey python (String.ofList name.familyFirst) := by
  obtain ⟨front, last, split⟩ := given_split western
  have form : fenced name.familyFirst (spaced suffixes) =
      fenced (spaced name.family) (fenced (spaced name.given) (spaced suffixes)) := by
    simp [fenced, Name.familyFirst]
  have right := glued_tokens lawful (split ▸ given_tokens western) areSuffixes
  have given : kept python name.given = kept python front ++ kept python [last] := by
    rw [split, kept_append]
  rw [form, split, nameKey_fenced lawful (family_tokens western) _ (by rw [right]; simp), right,
    family_key lawful western]
  refine keyFrom_congr _ ?_
  by_cases meaningful : isMeaningful python (stripDiacritics python last) = true
  · have single : kept python [last] = [stripDiacritics python last] := by simp [kept, meaningful]
    rw [given, single]
    exact firstName_congr (by simp [alphaLower_comma lawful])
  · have none : kept python [last] = [] := by simp [kept, meaningful]
    rw [none, List.append_nil] at given
    have spelled : Spelled python (kept python name.given) := by
      refine apart.resolve_left fun last? => meaningful (last? last ?_)
      rw [split, List.getLast?_concat]
      rfl
    rw [given] at spelled ⊢
    exact firstName_append spelled _

theorem underscore_letters (token : Text) : '_' ∉ alphaLower python token := by
  intro member
  have stored := List.mem_filter.mp (lawful.lower_underscore _ member)
  simp [lawful.isAlpha.2.1] at stored

theorem underscore_firstName (given : List Text) :
    '_' ∉ firstName python given := by
  unfold firstName
  cases found : (given.map fun token => rstripDots (alphaLower python token)).find? fun cleaned =>
      2 ≤ cleaned.length with
  | some cleaned =>
    obtain ⟨token, _, rfl⟩ := List.mem_map.mp (List.mem_of_find?_eq_some found)
    exact fun member =>
      underscore_letters lawful token ((List.rdropWhile_prefix _ _).subset member)
  | none =>
    cases given with
    | nil => simp
    | cons token rest => exact fun member => underscore_letters lawful token (List.mem_of_mem_take member)

theorem alphaLower_letters (token : Text) :
    (∃ char ∈ alphaLower python token, python.isAlpha char = true) ↔
      ∃ char ∈ python.lower token, python.isAlpha char = true := by
  unfold alphaLower
  rw [lawful.lower_letters, lawful.lower_letters]
  constructor
  · rintro ⟨char, member, letter⟩
    exact ⟨char, (List.mem_filter.mp member).1, letter⟩
  · rintro ⟨char, member, letter⟩
    exact ⟨char, List.mem_filter.mpr ⟨member, by simp [letter]⟩, letter⟩

theorem particle_letters (particle : isParticle python token = true) :
    ∃ char ∈ alphaLower python token, python.isAlpha char = true := by
  unfold isParticle at particle
  rw [List.contains_iff_mem] at particle
  obtain ⟨char, member, letter⟩ := lawful.isAlpha.2.2 _ particle
  rw [alphaLower_letters lawful]
  exact ⟨char, (List.rdropWhile_prefix _ _).subset member, letter⟩

theorem keyFrom_particles {front family : List Text} (filled : family ≠ []) (member : token ∈ front)
    (particle : isParticle python token = true) (first second : List Text) :
    keyFrom python (front ++ family) first ≠ keyFrom python family second := by
  obtain ⟨head, rest, rfl⟩ := List.exists_cons_of_ne_nil filled
  obtain ⟨initial, others, cons⟩ := List.exists_cons_of_ne_nil (List.ne_nil_of_mem member)
  obtain ⟨letter, inLetters, alpha⟩ := particle_letters lawful particle
  have inFront : letter ∈ (front.map (alphaLower python)).flatten :=
    List.mem_flatten.mpr ⟨_, List.mem_map_of_mem member, inLetters⟩
  have joined : ((front ++ head :: rest).map (alphaLower python)).flatten =
      (front.map (alphaLower python)).flatten ++ ((head :: rest).map (alphaLower python)).flatten := by
    rw [List.map_append, List.flatten_append]
  have apart : '_' ∉ ((front ++ head :: rest).map (alphaLower python)).flatten := by
    intro inJoined
    obtain ⟨part, inParts, inPart⟩ := List.mem_flatten.mp inJoined
    obtain ⟨source, _, rfl⟩ := List.mem_map.mp inParts
    exact underscore_letters lawful source inPart
  have someLetters : ((front ++ head :: rest).map (alphaLower python)).flatten ≠ [] := by
    rw [joined]
    exact List.append_ne_nil_of_left_ne_nil (List.ne_nil_of_mem inFront) _
  have shape : keyFrom python (front ++ head :: rest) first =
      String.ofList (((front ++ head :: rest).map (alphaLower python)).flatten ++
        '_' :: firstName python first) := by
    rw [cons, List.cons_append] at someLetters ⊢
    simp only [keyFrom, if_neg someLetters]
  rw [shape]
  intro same
  have parts := (List.append_cons_inj_of_notMem apart (underscore_firstName lawful first)).mp
    (String.ofList_injective same)
  by_cases none : ((head :: rest).map (alphaLower python)).flatten = []
  · have letters := parts.1
    rw [joined, none, List.append_nil, if_pos rfl] at letters
    have bare : alphaLower python head = [] :=
      List.flatten_eq_nil_iff.mp none _ List.mem_cons_self
    obtain ⟨char, member, _⟩ := (alphaLower_letters lawful head).mpr ⟨letter, letters ▸ inFront, alpha⟩
    rw [bare] at member
    exact List.not_mem_nil member
  · have letters := parts.1
    rw [joined, if_neg none, List.append_left_eq_self] at letters
    exact List.ne_nil_of_mem inFront letters

end

/-- What is left of the name has a family name, and no particle right before it. -/
structure Ordered (python : Python) (name : Name) : Prop where
  family : kept python name.family ≠ []
  lastGiven : ∀ token ∈ (kept python name.given).getLast?, isParticle python token = false

theorem orders_alike_iff (lawful : Lawful python) (western : name.Western python) :
    nameKey python (String.ofList name.naturalOrder) =
      nameKey python (String.ofList name.familyFirst) ↔ Ordered python name := by
  obtain ⟨front, last, given⟩ : ∃ front last, kept python name.given = front ++ [last] :=
    ⟨_, _, (List.dropLast_concat_getLast (kept_given western)).symm⟩
  have lastGiven : (kept python name.given).getLast? = some last := by
    rw [given, List.getLast?_concat]
  rw [family_key lawful western]
  constructor
  · intro same
    have family : kept python name.family ≠ [] := by
      intro none
      rw [none] at same
      exact natural_key_ne_empty lawful western same
    refine ⟨family, fun token isLast => ?_⟩
    obtain rfl : last = token := Option.some.inj (lastGiven.symm.trans isLast)
    by_contra notFalse
    have particle : isParticle python last = true := by simpa using notFalse
    rw [natural_key lawful western family, given, List.rtakeWhile_concat_pos _ _ _ particle] at same
    exact keyFrom_particles lawful family (List.mem_append_right _ (List.mem_singleton_self _))
      particle _ _ same
  · rintro ⟨family, apart⟩
    have notParticle : ¬ isParticle python last = true := by
      rw [apart last lastGiven]
      exact Bool.false_ne_true
    rw [natural_key lawful western family, given, List.rtakeWhile_concat_neg _ _ _ notParticle,
      List.rdropWhile_concat_neg _ _ _ notParticle, List.nil_append]

/-- The two orders have the same key exactly where something is left of the family name and the
last given name that is left is no particle; suffixes behind a comma change neither key, those
behind the second comma where the given names do not end in a suffix. -/
theorem name_order_free (lawful : Lawful python) (western : name.Western python) :
    (nameKey python (String.ofList name.naturalOrder) =
        nameKey python (String.ofList name.familyFirst) ↔ Ordered python name) ∧
      ∀ suffixes, (∀ token ∈ suffixes, IsSuffix python token) →
        nameKey python (String.ofList (fenced name.naturalOrder (spaced suffixes))) =
            nameKey python (String.ofList name.naturalOrder) ∧
          ((∀ token ∈ name.given.getLast?, isMeaningful python (stripDiacritics python token) = true) ∨
              Spelled python (kept python name.given) →
            nameKey python (String.ofList (fenced name.familyFirst (spaced suffixes))) =
              nameKey python (String.ofList name.familyFirst)) :=
  ⟨orders_alike_iff lawful western, fun _ areSuffixes =>
    ⟨natural_suffixes lawful western areSuffixes,
      fun apart => family_suffixes lawful western apart areSuffixes⟩⟩

theorem toLower_cases (char : Char) : char.toLower = char ∨
    65 ≤ char.toNat ∧ char.toNat ≤ 90 ∧ char.toLower.toNat = char.toNat + 32 := by
  unfold Char.toLower
  split
  · next capital =>
      have low : 65 ≤ char.val.toNat := UInt32.le_iff_toNat_le.mp capital.1
      have high : char.val.toNat ≤ 90 := UInt32.le_iff_toNat_le.mp capital.2
      refine .inr ⟨low, high, ?_⟩
      change (char.val + ('a'.val - 'A'.val)).toNat = char.val.toNat + 32
      have offset : ('a'.val - 'A'.val).toNat = 32 := rfl
      rw [UInt32.toNat_add]
      omega
  · exact .inl rfl

theorem separates_id : Separates id :=
  ⟨rfl, fun _ _ _ _ => rfl, fun _ clear => clear⟩

theorem asciiPython_lawful : Lawful asciiPython where
  nfd := separates_id
  nfc := separates_id
  combining := ⟨rfl, rfl⟩
  isAlpha := by
    refine ⟨by decide, by decide, fun particle member => ?_⟩
    fin_cases member <;> exact ⟨_, List.mem_cons_self, by decide⟩
  lower_letters text := by simp [asciiPython]
  lower_dot text := by simp [asciiPython]
  lower_comma text member := List.mem_map.mpr ⟨',', member, by decide⟩
  lower_underscore text member := by
    obtain ⟨char, stored, same⟩ := List.mem_map.mp member
    rcases toLower_cases char with unchanged | ⟨low, high, code⟩
    · rw [← same, unchanged]
      exact stored
    · have underscore : char.toLower.toNat = 95 := congrArg Char.toNat same
      omega
  lower_cjk text cjk := by
    obtain ⟨char, stored, isCjk⟩ := cjk
    refine ⟨char.toLower, List.mem_map_of_mem stored, ?_⟩
    rcases toLower_cases char with unchanged | ⟨low, high, code⟩
    · rw [unchanged]
      exact isCjk
    · exact absurd isCjk (by simp [isCjkChar_ascii (show char.toNat < 128 by omega)])

theorem ascii_strip (token : Text) : stripDiacritics asciiPython token = token := by
  simp [stripDiacritics, asciiPython]

theorem ascii_isToken (filled : token ≠ [])
    (clear : (token.all fun char => !isPythonSpace char && char != ',') = true) :
    IsToken asciiPython token :=
  ⟨by simpa [Clear] using clear, (ascii_strip token).symm ▸ filled⟩

def vincent : Name where
  given := ["Vincent".toList]
  leading := ["van".toList, "der".toList]
  surname := "Berg".toList

theorem vincent_western : vincent.Western asciiPython where
  tokens token member := by
    fin_cases member <;> exact ascii_isToken (by decide) (by decide)
  given := ⟨_, List.mem_singleton_self _, by decide⟩
  lastGiven := by decide
  leading := by decide
  notCjk := by decide

/-- A surname with two particles, and a title behind it. -/
theorem name_order_free_vincent :
    nameKey asciiPython "Vincent van der Berg" = nameKey asciiPython "van der Berg, Vincent" ∧
      nameKey asciiPython "Vincent van der Berg, PhD" = nameKey asciiPython "Vincent van der Berg" ∧
      nameKey asciiPython "van der Berg, Vincent, PhD" =
        nameKey asciiPython "van der Berg, Vincent" := by
  have titles : ∀ token ∈ ["PhD".toList], IsSuffix asciiPython token := fun token member => by
    obtain rfl := List.mem_singleton.mp member
    exact ⟨ascii_isToken (by decide) (by decide), by decide⟩
  have orders := name_order_free asciiPython_lawful vincent_western
  have suffixes := orders.2 _ titles
  exact ⟨orders.1.mpr ⟨by decide, by decide⟩, suffixes.1, suffixes.2 (.inl (by decide))⟩

def johnJr : Name where
  given := ["John".toList]
  leading := []
  surname := "Jr".toList

theorem johnJr_western : johnJr.Western asciiPython where
  tokens token member := by
    fin_cases member <;> exact ascii_isToken (by decide) (by decide)
  given := ⟨_, List.mem_singleton_self _, by decide⟩
  lastGiven := by decide
  leading := by decide
  notCjk := by decide

def johnVan : Name where
  given := ["John".toList, "van".toList, "Jr".toList]
  leading := []
  surname := "Smith".toList

theorem johnVan_western : johnVan.Western asciiPython where
  tokens token member := by
    fin_cases member <;> exact ascii_isToken (by decide) (by decide)
  given := ⟨_, List.mem_cons_self, by decide⟩
  lastGiven := by decide
  leading := by decide
  notCjk := by decide

/-- Suffixes are filtered out anywhere: of a family name nothing is left, and a particle comes to
stand right before another one. -/
theorem suffix_filtered_first :
    (johnJr.Western asciiPython ∧
        String.ofList johnJr.naturalOrder = "John Jr" ∧ nameKey asciiPython "John Jr" = "john_" ∧
        String.ofList johnJr.familyFirst = "Jr, John" ∧ nameKey asciiPython "Jr, John" = "") ∧
      johnVan.Western asciiPython ∧
        String.ofList johnVan.naturalOrder = "John van Jr Smith" ∧
        nameKey asciiPython "John van Jr Smith" = "vansmith_john" ∧
        String.ofList johnVan.familyFirst = "Smith, John van Jr" ∧
        nameKey asciiPython "Smith, John van Jr" = "smith_john" :=
  ⟨⟨johnJr_western, by decide, by decide, by decide, by decide⟩,
    johnVan_western, by decide, by decide, by decide, by decide⟩

end Ukip.Coauthorship.NameOrder
