import Ukip.Signals.Keywords

/-!
# The terms of a label

A keyword is a few tokens with blanks between them.  As the label of an entity it gives
the same tokens back, so that the keyword is a term of any entity that it labels.
-/

namespace Ukip.Signals.Labels

open Keywords

variable (python : Python)

structure IsWord (token : Text) : Prop where
  chars : ∀ char ∈ token, isWordChar char = true
  kept : isToken token = true

theorem IsWord.ne_nil {token : Text} (word : IsWord token) : token ≠ [] := by
  rintro rfl
  have kept := word.kept
  simp [isToken] at kept

theorem joined_cons (token next : Text) (rest : List Text) :
    joined (token :: next :: rest) = token ++ ' ' :: joined (next :: rest) := by
  simp [joined, List.intercalate]

theorem joined_singleton (token : Text) : joined [token] = token := by
  simp [joined, List.intercalate]

variable (phrase : List Text)

theorem chars_joined (words : ∀ token ∈ phrase, IsWord token) :
    ∀ char ∈ joined phrase, isWordChar char = true ∨ char = ' ' := by
  induction phrase with
  | nil =>
    intro char member
    cases member
  | cons token rest ih =>
    have later := ih fun other member => words other (List.mem_cons_of_mem token member)
    intro char member
    cases rest with
    | nil =>
      rw [joined_singleton] at member
      exact .inl ((words token List.mem_cons_self).chars char member)
    | cons next rest =>
      rw [joined_cons] at member
      rcases List.mem_append.mp member with here | after
      · exact .inl ((words token List.mem_cons_self).chars char here)
      · rcases List.mem_cons.mp after with blank | after
        · exact .inr blank
        · exact later char after

theorem startsUrl_false (value : Text) (noColon : ':' ∉ value) :
    startsUrl python.isSpace value = false := by
  have scheme : ∀ name ∈ ["http://", "https://"], ':' ∈ text name := by decide
  refine List.any_eq_false.mpr fun name member here => ?_
  rw [Bool.and_eq_true, List.isPrefixOf_iff_prefix] at here
  exact noColon (here.1.subset (scheme name member))

theorem dropUrls_of_noColon (value : Text) (noColon : ':' ∉ value) :
    dropUrls python.isSpace false value = value := by
  induction value with
  | nil => rfl
  | cons char rest ih =>
    rw [dropUrls, startsUrl_false python _ noColon, ih fun later => noColon
      (List.mem_cons_of_mem char later)]
    rfl

variable (isOut : Char → Bool) (new : Char) (inRun : Bool) (value : Text)

theorem subRuns_of_kept (kept : ∀ char ∈ value, isOut char = false) :
    subRuns isOut new inRun value = value := by
  induction value generalizing inRun with
  | nil => cases inRun <;> rfl
  | cons char rest ih =>
    rw [subRuns, kept char List.mem_cons_self,
      ih false fun later member => kept later (List.mem_cons_of_mem char member)]
    rfl

theorem subRuns_append (word rest : Text) (nonempty : word ≠ [])
    (kept : ∀ char ∈ word, isOut char = false) :
    subRuns isOut new inRun (word ++ rest) = word ++ subRuns isOut new false rest := by
  induction word generalizing inRun with
  | nil => exact absurd rfl nonempty
  | cons char word ih =>
    rw [List.cons_append, subRuns, kept char List.mem_cons_self]
    cases word with
    | nil => rfl
    | cons next word =>
      rw [ih false (List.cons_ne_nil next word) fun later member =>
        kept later (List.mem_cons_of_mem char member)]
      rfl

theorem mem_subRuns (char : Char) (member : char ∈ subRuns isOut new inRun value) :
    char = new ∨ (char ∈ value ∧ isOut char = false) := by
  induction value generalizing inRun with
  | nil =>
    cases inRun <;> cases member
  | cons head rest ih =>
    have later : ∀ flag, char ∈ subRuns isOut new flag rest →
        char = new ∨ (char ∈ head :: rest ∧ isOut char = false) := fun flag here =>
      (ih flag here).imp_right fun found => ⟨List.mem_cons_of_mem head found.1, found.2⟩
    rw [subRuns] at member
    split at member
    · split at member
      · exact later true member
      · rcases List.mem_cons.mp member with rfl | here
        · exact .inl rfl
        · exact later true here
    · rename_i kept
      rcases List.mem_cons.mp member with rfl | here
      · exact .inr ⟨List.mem_cons_self, Bool.eq_false_iff.mpr kept⟩
      · exact later false here

theorem subRuns_joined (words : ∀ token ∈ phrase, IsWord token) (inRun : Bool)
    (nonempty : phrase ≠ []) :
    subRuns python.isSpace ' ' inRun (joined phrase) = joined phrase := by
  have solid : ∀ token, IsWord token → ∀ char ∈ token, python.isSpace char = false :=
    fun token word char member => python.isSpace_word char (word.chars char member)
  induction phrase generalizing inRun with
  | nil => exact absurd rfl nonempty
  | cons token rest ih =>
    have word := words token List.mem_cons_self
    cases rest with
    | nil =>
      rw [joined_singleton]
      exact subRuns_of_kept _ _ _ token (solid token word)
    | cons next rest =>
      rw [joined_cons, subRuns_append _ _ _ token _ word.ne_nil (solid token word), subRuns,
        python.isSpace_blank]
      exact congrArg (fun tail => token ++ ' ' :: tail) (ih (fun other member =>
        words other (List.mem_cons_of_mem token member)) true (List.cons_ne_nil next rest))

theorem strip_joined (words : ∀ token ∈ phrase, IsWord token) (nonempty : phrase ≠ []) :
    strip python.isSpace (joined phrase) = joined phrase := by
  have solid : ∀ token, IsWord token → ∀ char ∈ token, python.isSpace char = false :=
    fun token word char member => python.isSpace_word char (word.chars char member)
  have front : (joined phrase).dropWhile python.isSpace = joined phrase := by
    obtain ⟨token, rest, rfl⟩ := List.exists_cons_of_ne_nil nonempty
    have word := words token List.mem_cons_self
    obtain ⟨char, chars, rfl⟩ := List.exists_cons_of_ne_nil word.ne_nil
    have head := solid _ word char List.mem_cons_self
    cases rest with
    | nil => rw [joined_singleton, List.dropWhile_cons_of_neg (by simp [head])]
    | cons next rest =>
      rw [joined_cons, List.cons_append, List.dropWhile_cons_of_neg (by simp [head])]
  have back : ∀ phrase : List Text, phrase ≠ [] → (∀ token ∈ phrase, IsWord token) →
      joined phrase ≠ [] ∧ ∀ filled : joined phrase ≠ [],
        python.isSpace ((joined phrase).getLast filled) = false := by
    intro phrase
    induction phrase with
    | nil => exact fun empty => absurd rfl empty
    | cons token rest ih =>
      intro _ words
      have word := words token List.mem_cons_self
      cases rest with
      | nil =>
        rw [joined_singleton]
        exact ⟨word.ne_nil, fun filled => solid token word _ (List.getLast_mem filled)⟩
      | cons next rest =>
        obtain ⟨filled, last⟩ := ih (List.cons_ne_nil next rest) fun other member =>
          words other (List.mem_cons_of_mem token member)
        rw [joined_cons]
        refine ⟨by simp, fun _ => ?_⟩
        rw [List.getLast_append_of_ne_nil _ (List.cons_ne_nil _ _), List.getLast_cons filled]
        exact last filled
  unfold strip
  rw [front]
  refine List.rdropWhile_eq_self_iff.mpr fun filled => ?_
  rw [(back phrase nonempty words).2 filled]
  exact Bool.false_ne_true

theorem clean_joined (words : ∀ token ∈ phrase, IsWord token) (nonempty : phrase ≠ []) :
    clean python (joined phrase) = joined phrase := by
  have chars := chars_joined phrase words
  have noColon : ':' ∉ joined phrase := by
    intro member
    rcases chars ':' member with word | blank
    · exact absurd word (by decide)
    · exact absurd blank (by decide)
  have allowed : subRuns (fun char => !(isWordChar char || python.isSpace char || char == '-')) ' '
      false (joined phrase) = joined phrase := by
    refine subRuns_of_kept _ _ _ _ fun char member => ?_
    rcases chars char member with word | rfl
    · rw [word]
      rfl
    · rw [python.isSpace_blank, Bool.or_true]
      rfl
  unfold clean
  simp only
  rw [python.lower_words _ chars, dropUrls_of_noColon python _ noColon, allowed,
    subRuns_joined python phrase words false nonempty, strip_joined python phrase words nonempty]

abbrev isBreak (char : Char) : Bool := python.isSpace char || char == '-'

theorem isBreak_word (token : Text) (word : IsWord token) :
    ∀ char ∈ token, isBreak python char = false := by
  intro char member
  have own := word.chars char member
  rw [isBreak, python.isSpace_word char own, Bool.false_or, beq_eq_false_iff_ne]
  rintro rfl
  exact absurd own (by decide)

theorem split_joined (words : ∀ token ∈ phrase, IsWord token) (nonempty : phrase ≠ []) :
    (joined phrase).splitOnP (isBreak python) = phrase := by
  induction phrase with
  | nil => exact absurd rfl nonempty
  | cons token rest ih =>
    have solid := isBreak_word python token (words token List.mem_cons_self)
    cases rest with
    | nil => rw [joined_singleton, List.splitOnP_eq_singleton solid]
    | cons next rest =>
      have blank : isBreak python ' ' = true := by simp [isBreak, python.isSpace_blank]
      rw [joined_cons, List.splitOnP_append_cons_of_forall_mem solid ' ' blank,
        ih (fun other member => words other (List.mem_cons_of_mem token member))
          (List.cons_ne_nil next rest)]

theorem tokens_joined (words : ∀ token ∈ phrase, IsWord token) (nonempty : phrase ≠ []) :
    tokens python (.text (joined phrase)) = phrase := by
  unfold tokens
  change (List.splitOnP (isBreak python) (clean python (joined phrase))).filter isToken = phrase
  rw [clean_joined python phrase words nonempty, split_joined python phrase words nonempty]
  exact List.filter_eq_self.mpr fun token member => (words token member).kept

theorem mem_splitOnP (value part : Text) (member : part ∈ value.splitOnP isOut) :
    ∀ char ∈ part, char ∈ value ∧ isOut char = false := by
  induction value generalizing part with
  | nil =>
    rw [List.splitOnP_nil, List.mem_singleton] at member
    subst member
    exact nofun
  | cons head rest ih =>
    have later : ∀ other ∈ rest.splitOnP isOut, ∀ char ∈ other,
        char ∈ head :: rest ∧ isOut char = false := fun other here char found =>
      ⟨List.mem_cons_of_mem head (ih other here char found).1, (ih other here char found).2⟩
    rw [List.splitOnP_cons_eq_if_modifyHead] at member
    split at member
    · rcases List.mem_cons.mp member with rfl | here
      · exact nofun
      · exact later part here
    · rename_i kept
      obtain ⟨first, others, parts⟩ := List.exists_cons_of_ne_nil (List.splitOnP_ne_nil isOut rest)
      rw [parts, List.modifyHead_cons] at member
      rw [parts] at later
      rcases List.mem_cons.mp member with rfl | here
      · intro char found
        rcases List.mem_cons.mp found with rfl | found
        · exact ⟨List.mem_cons_self, Bool.eq_false_iff.mpr kept⟩
        · exact later first List.mem_cons_self char found
      · exact later part (List.mem_cons_of_mem first here)

theorem chars_clean (char : Char) (member : char ∈ clean python value) :
    isWordChar char = true ∨ isBreak python char = true := by
  have blank : isBreak python ' ' = true := by simp [isBreak, python.isSpace_blank]
  have inside : ∀ whole : Text, char ∈ strip python.isSpace whole → char ∈ whole := by
    intro whole here
    have stripped := List.mem_reverse.mp here
    exact (List.dropWhile_sublist _).subset
      (List.mem_reverse.mp ((List.dropWhile_sublist _).subset stripped))
  rcases mem_subRuns _ _ _ _ char (inside _ member) with rfl | ⟨here, -⟩
  · exact .inr blank
  · rcases mem_subRuns _ _ _ _ char here with rfl | ⟨-, allowed⟩
    · exact .inr blank
    · rw [Bool.not_eq_false', Bool.or_assoc, Bool.or_eq_true] at allowed
      exact allowed

theorem normalizeText_clean (value : Json) :
    normalizeText python value = [] ∨ ∃ whole, normalizeText python value = clean python whole := by
  unfold normalizeText
  split
  · exact .inl rfl
  · exact .inr ⟨_, rfl⟩
  · exact .inr ⟨_, rfl⟩

theorem isWord_of_mem_tokens (value : Json) (token : Text) (member : token ∈ tokens python value) :
    IsWord token := by
  obtain ⟨part, kept⟩ := List.mem_filter.mp member
  refine ⟨fun char here => ?_, kept⟩
  obtain ⟨inText, notBreak⟩ := mem_splitOnP _ _ _ part char here
  rcases normalizeText_clean python value with empty | ⟨whole, equal⟩
  · rw [empty] at inText
    cases inText
  · rw [equal] at inText
    rcases chars_clean python whole char inText with word | isOut
    · exact word
    · exact absurd isOut (by rw [isBreak, notBreak]; exact Bool.false_ne_true)

theorem phrase_of_mem_ngrams (words : List Text) (term : Text) (member : term ∈ ngrams words) :
    ∃ phrase : List Text, term = joined phrase ∧ phrase ⊆ words ∧ 1 ≤ phrase.length ∧
      phrase.length ≤ 4 := by
  obtain ⟨n, size, here⟩ := List.mem_flatMap.mp member
  obtain ⟨index, inside, found⟩ := List.mem_filterMap.mp here
  have room := List.mem_range.mp inside
  have bounds : 1 ≤ n ∧ n ≤ 4 := by
    simp only [List.mem_cons, List.not_mem_nil, or_false] at size
    omega
  have length : ((words.drop index).take n).length = n := by
    rw [List.length_take, List.length_drop]
    omega
  simp only at found
  split at found
  · cases found
  · refine ⟨(words.drop index).take n, (Option.some.inj found).symm, ?_, ?_, ?_⟩
    · exact fun token here => List.mem_of_mem_drop (List.mem_of_mem_take here)
    · rw [length]
      exact bounds.1
    · rw [length]
      exact bounds.2

theorem joined_mem_ngrams (words : ∀ token ∈ phrase, IsWord token) (some : 1 ≤ phrase.length)
    (few : phrase.length ≤ 4) : joined phrase ∈ ngrams phrase := by
  refine List.mem_flatMap.mpr ⟨phrase.length, ?_, List.mem_filterMap.mpr ⟨0, ?_, ?_⟩⟩
  · simp only [List.mem_cons, List.not_mem_nil, or_false]
    omega
  · rw [List.mem_range]
    omega
  · simp only [List.drop_zero, List.take_length]
    rw [if_neg]
    intro allStop
    obtain ⟨token, rest, rfl⟩ := List.exists_cons_of_ne_nil (List.ne_nil_of_length_pos some)
    have stop := of_decide_eq_true (List.all_eq_true.mp allStop token List.mem_cons_self)
    have kept := (words token List.mem_cons_self).kept
    unfold isToken at kept
    rw [Bool.and_eq_true, decide_eq_true_iff (p := token ∉ stopwords)] at kept
    exact kept.2 stop

theorem mem_terms_of_label (entity labelled : SignalEntity) (term : Text)
    (found : term ∈ terms python entity) (label : labelled.primaryLabel = some term) :
    term ∈ terms python labelled := by
  obtain ⟨field, _, here⟩ := List.mem_flatMap.mp found
  obtain ⟨phrase, rfl, inside, some, few⟩ := phrase_of_mem_ngrams _ term here
  have words : ∀ token ∈ phrase, IsWord token := fun token member =>
    isWord_of_mem_tokens python field.2 token (inside member)
  refine List.mem_flatMap.mpr ⟨("title", .text (joined phrase)), ?_, ?_⟩
  · unfold extractTextSources textOrEmpty
    rw [label]
    simp
  · unfold fieldTerms
    rw [tokens_joined python phrase words (List.ne_nil_of_length_pos some)]
    exact joined_mem_ngrams phrase words some few

end Ukip.Signals.Labels
