import Mathlib.Data.List.DropRight

/-!
# The words of a text

The words of a text are its runs of letters.  Replacing every run of other characters by
one mark, and dropping the marks at the ends, leaves the words joined by the mark; and
words without the mark are known from the joined text.
-/

namespace Foundation.Words

variable {Letter : Type}

def words (isOut : Letter → Bool) (text : List Letter) : List (List Letter) :=
  (text.splitOnP isOut).filter (· ≠ [])

/-- Each run of characters that are out gives way to one mark; the flag says whether the
text stands in such a run. -/
def collapse (isOut : Letter → Bool) (mark : Letter) : Bool → List Letter → List Letter
  | _, [] => []
  | inRun, letter :: rest =>
    if isOut letter then
      if inRun then collapse isOut mark true rest else mark :: collapse isOut mark true rest
    else letter :: collapse isOut mark false rest

def trim (isOut : Letter → Bool) (text : List Letter) : List Letter :=
  ((text.dropWhile isOut).reverse.dropWhile isOut).reverse

variable {isOut : Letter → Bool} {mark : Letter} {text word : List Letter}

theorem words_ne_nil (member : word ∈ words isOut text) : word ≠ [] := by
  simpa using (List.mem_filter.mp member).2

variable {letter : Letter}

theorem not_out_of_mem_pieces {text piece : List Letter} (member : piece ∈ text.splitOnP isOut)
    (inPiece : letter ∈ piece) : letter ∈ text ∧ isOut letter = false := by
  induction text generalizing piece with
  | nil =>
    rw [List.splitOnP_nil, List.mem_singleton] at member
    rw [member] at inPiece
    cases inPiece
  | cons head rest ih =>
    rw [List.splitOnP_cons_eq_if_modifyHead] at member
    split at member
    · rcases List.mem_cons.mp member with isEmpty | later
      · rw [isEmpty] at inPiece
        cases inPiece
      · have found := ih later inPiece
        exact ⟨List.mem_cons_of_mem head found.1, found.2⟩
    · next kept =>
        obtain ⟨first, others, pieces⟩ := List.exists_cons_of_ne_nil (List.splitOnP_ne_nil isOut rest)
        rw [pieces] at member ih
        rcases List.mem_cons.mp member with isFirst | later
        · rw [isFirst] at inPiece
          rcases List.mem_cons.mp inPiece with isHead | inFirst
          · exact ⟨isHead ▸ List.mem_cons_self, by rw [isHead]; simpa using kept⟩
          · have found := ih List.mem_cons_self inFirst
            exact ⟨List.mem_cons_of_mem head found.1, found.2⟩
        · have found := ih (List.mem_cons_of_mem first later) inPiece
          exact ⟨List.mem_cons_of_mem head found.1, found.2⟩

theorem not_out_of_mem_words (member : word ∈ words isOut text) (inWord : letter ∈ word) :
    letter ∈ text ∧ isOut letter = false :=
  not_out_of_mem_pieces (List.mem_of_mem_filter member) inWord

theorem words_eq_singleton {text : List Letter} (filled : text ≠ [])
    (letters : ∀ letter ∈ text, isOut letter = false) : words isOut text = [text] := by
  rw [words, List.splitOnP_eq_singleton letters]
  simp [filled]

variable (text : List Letter)

theorem trim_rdropWhile : trim isOut text = (text.dropWhile isOut).rdropWhile isOut := rfl

theorem trim_split : ∃ lead trail, text = lead ++ trim isOut text ++ trail ∧
    (∀ letter ∈ lead, isOut letter = true) ∧ ∀ letter ∈ trail, isOut letter = true := by
  refine ⟨text.takeWhile isOut, (text.dropWhile isOut).rtakeWhile isOut, ?_, ?_, ?_⟩
  · rw [trim_rdropWhile, List.append_assoc, List.rdropWhile_append_rtakeWhile,
      List.takeWhile_append_dropWhile]
  · exact fun letter member => List.mem_takeWhile_imp member
  · exact fun letter member => List.mem_rtakeWhile_imp member

theorem trim_eq_self {text : List Letter} (letters : ∀ letter ∈ text, isOut letter = false) :
    trim isOut text = text := by
  obtain ⟨lead, trail, split, leadOut, trailOut⟩ := @trim_split _ isOut text
  have noLead : lead = [] := by
    rw [List.eq_nil_iff_forall_not_mem]
    intro letter member
    have inText : letter ∈ text := by
      rw [split]
      exact List.mem_append_left _ (List.mem_append_left _ member)
    exact absurd (leadOut letter member) (by simp [letters letter inText])
  have noTrail : trail = [] := by
    rw [List.eq_nil_iff_forall_not_mem]
    intro letter member
    have inText : letter ∈ text := by
      rw [split]
      exact List.mem_append_right _ member
    exact absurd (trailOut letter member) (by simp [letters letter inText])
  rw [noLead, noTrail, List.nil_append, List.append_nil] at split
  exact split.symm

theorem trim_head {text rest : List Letter} (starts : trim isOut text = letter :: rest) :
    isOut letter = false := by
  have within : trim isOut text <+: text.dropWhile isOut := by
    rw [trim_rdropWhile]
    exact List.rdropWhile_prefix isOut _
  rw [starts] at within
  obtain ⟨more, whole⟩ := within
  by_contra out
  rw [Bool.not_eq_false] at out
  have again := List.dropWhile_idempotent (p := isOut) (l := text)
  rw [← whole, List.cons_append, List.dropWhile_cons_of_pos out] at again
  have shorter := List.length_dropWhile_le isOut (rest ++ more)
  rw [again, List.length_cons] at shorter
  omega

theorem trim_trim : trim isOut (trim isOut text) = trim isOut text := by
  have front : (trim isOut text).dropWhile isOut = trim isOut text := by
    cases starts : trim isOut text with
    | nil => rfl
    | cons letter rest =>
      rw [List.dropWhile_cons_of_neg]
      simp [trim_head starts]
  rw [trim_rdropWhile (trim isOut text), front, trim_rdropWhile]
  exact List.rdropWhile_idempotent isOut _

/-- Words as a text has them. -/
def Plain (mark : Letter) (list : List (List Letter)) : Prop :=
  ∀ word ∈ list, word ≠ [] ∧ mark ∉ word

theorem plain_words (markOut : isOut mark = true) (text : List Letter) :
    Plain mark (words isOut text) := by
  intro word member
  refine ⟨words_ne_nil member, ?_⟩
  intro inWord
  have letter := (not_out_of_mem_words member inWord).2
  rw [markOut] at letter
  cases letter

variable {list : List (List Letter)}

theorem joined_ends (plain : Plain mark list) (filled : list ≠ []) :
    (∃ first back, [mark].intercalate list = first :: back ∧ first ≠ mark) ∧
      ∃ front last, [mark].intercalate list = front ++ [last] ∧ last ≠ mark := by
  induction list with
  | nil => exact absurd rfl filled
  | cons word rest ih =>
    obtain ⟨wordFilled, noMark⟩ := plain word List.mem_cons_self
    obtain ⟨first, back, wordIs⟩ := List.exists_cons_of_ne_nil wordFilled
    have firstPlain : first ≠ mark := fun same => noMark (wordIs ▸ same ▸ List.mem_cons_self)
    by_cases alone : rest = []
    · subst alone
      rw [List.intercalate_singleton]
      refine ⟨⟨first, back, wordIs, firstPlain⟩, word.dropLast, word.getLast wordFilled, ?_, ?_⟩
      · exact (List.dropLast_append_getLast wordFilled).symm
      · exact fun same => noMark (same ▸ List.getLast_mem wordFilled)
    · obtain ⟨front, last, restIs, lastPlain⟩ :=
        (ih (fun other member => plain other (List.mem_cons_of_mem word member)) alone).2
      rw [List.intercalate_cons_of_ne_nil alone]
      refine ⟨⟨first, back ++ ([mark] ++ [mark].intercalate rest), ?_, firstPlain⟩,
        word ++ ([mark] ++ front), last, ?_, lastPlain⟩
      · rw [wordIs]
        simp
      · rw [restIs]
        simp

theorem words_joined (markOut : isOut mark = true)
    (letters : ∀ word ∈ list, word ≠ [] ∧ ∀ letter ∈ word, isOut letter = false) :
    words isOut ([mark].intercalate list) = list := by
  induction list with
  | nil => simp [words]
  | cons word rest ih =>
    obtain ⟨wordFilled, plain⟩ := letters word List.mem_cons_self
    by_cases alone : rest = []
    · rw [alone, List.intercalate_singleton, words_eq_singleton wordFilled plain]
    · rw [List.intercalate_cons_of_ne_nil alone, List.append_assoc, List.singleton_append, words,
        List.splitOnP_append_cons_of_forall_mem plain mark markOut,
        List.filter_cons_of_pos (by simpa using wordFilled)]
      congr 1
      exact ih fun other member => letters other (List.mem_cons_of_mem word member)

def afterPiece (mark : Letter) (piece : List Letter) (rest : List (List Letter)) (trail : List Letter) :
    List Letter :=
  if rest = [] then piece ++ trail else piece ++ mark :: ([mark].intercalate rest ++ trail)

theorem afterPiece_filled {piece : List Letter} {rest : List (List Letter)} {trail : List Letter} :
    afterPiece mark piece rest trail = [mark].intercalate (piece :: rest) ++ trail := by
  unfold afterPiece
  split
  · next empty => rw [empty, List.intercalate_singleton]
  · next filled =>
      rw [List.intercalate_cons_of_ne_nil filled]
      simp

theorem collapse_pieces {piece : List Letter} {pieces : List (List Letter)}
    (split : text.splitOnP isOut = piece :: pieces) :
    (∃ trail, (∀ letter ∈ trail, letter = mark) ∧
      collapse isOut mark false text = afterPiece mark piece (pieces.filter (· ≠ [])) trail) ∧
    ∃ trail, (∀ letter ∈ trail, letter = mark) ∧
      collapse isOut mark true text =
        if piece = [] then [mark].intercalate (pieces.filter (· ≠ [])) ++ trail
        else afterPiece mark piece (pieces.filter (· ≠ [])) trail := by
  induction text generalizing piece pieces with
  | nil =>
    rw [List.splitOnP_nil, List.cons.injEq] at split
    obtain ⟨rfl, rfl⟩ := split
    exact ⟨⟨[], by simp, rfl⟩, [], by simp, rfl⟩
  | cons letter rest ih =>
    obtain ⟨first, others, restSplit⟩ := List.exists_cons_of_ne_nil (List.splitOnP_ne_nil isOut rest)
    obtain ⟨⟨trail, marks, outside⟩, innerTrail, innerMarks, inside⟩ := ih restSplit
    rw [List.splitOnP_cons_eq_if_modifyHead, restSplit] at split
    by_cases out : isOut letter = true
    · rw [if_pos out, List.cons.injEq] at split
      obtain ⟨rfl, rfl⟩ := split
      have inRun : collapse isOut mark true rest =
          [mark].intercalate ((first :: others).filter (· ≠ [])) ++ innerTrail := by
        rw [inside]
        by_cases empty : first = []
        · rw [if_pos empty, List.filter_cons_of_neg (by simpa using empty)]
        · rw [if_neg empty, afterPiece_filled, List.filter_cons_of_pos (by simpa using empty)]
      constructor
      · rw [collapse, if_pos out, if_neg Bool.false_ne_true, inRun]
        unfold afterPiece
        split
        · next none =>
            refine ⟨mark :: innerTrail, ?_, by rw [none]; rfl⟩
            intro other member
            exact (List.mem_cons.mp member).elim id (innerMarks other)
        · exact ⟨innerTrail, innerMarks, rfl⟩
      · refine ⟨innerTrail, innerMarks, ?_⟩
        rw [collapse, if_pos out, if_pos rfl, if_pos rfl]
        exact inRun
    · rw [if_neg out] at split
      obtain ⟨rfl, rfl⟩ := List.cons.inj split
      have step : letter :: collapse isOut mark false rest =
          afterPiece mark (letter :: first) (others.filter (· ≠ [])) trail := by
        rw [outside]
        unfold afterPiece
        split <;> rfl
      constructor
      · rw [collapse, if_neg out]
        exact ⟨trail, marks, step⟩
      · refine ⟨trail, marks, ?_⟩
        rw [collapse, if_neg out, if_neg (List.cons_ne_nil letter first)]
        exact step

variable [DecidableEq Letter]

theorem joined_injective {first second : List (List Letter)} (firstPlain : Plain mark first)
    (secondPlain : Plain mark second)
    (same : [mark].intercalate first = [mark].intercalate second) : first = second := by
  have split : ∀ {list : List (List Letter)}, Plain mark list → list ≠ [] →
      ([mark].intercalate list).splitOn mark = list := by
    intro list plain filled
    exact List.splitOn_intercalate mark (fun word member => (plain word member).2) filled
  have nonempty : ∀ {list : List (List Letter)}, Plain mark list → list ≠ [] →
      [mark].intercalate list ≠ [] := by
    intro list plain filled empty
    have pieces := split plain filled
    rw [empty, List.splitOn_nil] at pieces
    exact (plain [] (pieces ▸ List.mem_cons_self)).1 rfl
  by_cases firstEmpty : first = []
  · by_cases secondEmpty : second = []
    · rw [firstEmpty, secondEmpty]
    · rw [firstEmpty, List.intercalate_nil] at same
      exact absurd same.symm (nonempty secondPlain secondEmpty)
  · by_cases secondEmpty : second = []
    · rw [secondEmpty, List.intercalate_nil] at same
      exact absurd same (nonempty firstPlain firstEmpty)
    · rw [← split firstPlain firstEmpty, same, split secondPlain secondEmpty]

theorem trim_marks (plain : Plain mark list) {lead trail : List Letter}
    (leadMarks : ∀ letter ∈ lead, letter = mark) (trailMarks : ∀ letter ∈ trail, letter = mark) :
    trim (fun letter => letter == mark) (lead ++ [mark].intercalate list ++ trail) =
      [mark].intercalate list := by
  have drops : ∀ {marks : List Letter}, (∀ letter ∈ marks, letter = mark) → ∀ others,
      (marks ++ others).dropWhile (fun letter => letter == mark) =
        others.dropWhile fun letter => letter == mark := by
    intro marks allMarks others
    apply List.dropWhile_append_of_pos
    intro letter member
    rw [beq_iff_eq]
    exact allMarks letter member
  unfold trim
  rw [List.append_assoc, drops leadMarks]
  by_cases filled : list = []
  · subst filled
    have nothing : trail.dropWhile (fun letter => letter == mark) = [] := by
      have all := drops trailMarks []
      rwa [List.append_nil] at all
    rw [List.intercalate_nil, List.nil_append, nothing]
    rfl
  · obtain ⟨⟨first, back, startsWith, firstPlain⟩, front, last, endsWith, lastPlain⟩ :=
      joined_ends plain filled
    have kept : ([mark].intercalate list ++ trail).dropWhile (fun letter => letter == mark) =
        [mark].intercalate list ++ trail := by
      rw [startsWith, List.cons_append, List.dropWhile_cons_of_neg]
      simpa using firstPlain
    rw [kept, List.reverse_append,
      drops fun letter member => trailMarks letter (List.mem_reverse.mp member), endsWith,
      List.reverse_append, List.reverse_singleton, List.singleton_append,
      List.dropWhile_cons_of_neg (by simpa using lastPlain)]
    simp

theorem trim_collapse (markOut : isOut mark = true) (text : List Letter) :
    trim (fun letter => letter == mark) (collapse isOut mark false text) =
      [mark].intercalate (words isOut text) := by
  obtain ⟨piece, pieces, split⟩ := List.exists_cons_of_ne_nil (List.splitOnP_ne_nil isOut text)
  obtain ⟨⟨trail, marks, outside⟩, _⟩ := @collapse_pieces _ isOut mark text _ _ split
  have plain := plain_words markOut text
  have none : ∀ letter ∈ ([] : List Letter), letter = mark := by simp
  have one : ∀ letter ∈ [mark], letter = mark := by simp
  by_cases empty : piece = []
  · have wordsAre : words isOut text = pieces.filter (· ≠ []) := by
      rw [words, split, List.filter_cons_of_neg (by simpa using empty)]
    rw [wordsAre] at plain ⊢
    rw [outside, empty]
    unfold afterPiece
    split
    · next noWords =>
        rw [noWords] at plain ⊢
        exact trim_marks plain none marks
    · have trimmed := trim_marks plain one marks
      simpa using trimmed
  · have wordsAre : words isOut text = piece :: pieces.filter (· ≠ []) := by
      rw [words, split, List.filter_cons_of_pos (by simpa using empty)]
    rw [wordsAre] at plain ⊢
    rw [outside, afterPiece_filled]
    exact trim_marks plain none marks

end Foundation.Words
