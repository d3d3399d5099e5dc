import Mathlib

/-!
# LIKE patterns

The SQL operator LIKE without an escape character, case-sensitive: `%` stands for any text
and `_` for one character.  A word without these two can be asked for anywhere in a text
or at its end.  The second part is about words and texts that a separator joins.
-/

namespace Foundation.LikePattern

def matchesLike : List Char → List Char → Bool
  | [], text => text.isEmpty
  | symbol :: pattern, text =>
    if symbol = '%' then text.tails.any (matchesLike pattern)
    else
      match text with
      | [] => false
      | char :: rest => (symbol == '_' || symbol == char) && matchesLike pattern rest

/-- A word that stands for itself in a pattern. -/
def Literal (word : List Char) : Prop := ∀ symbol ∈ word, symbol ≠ '%' ∧ symbol ≠ '_'

theorem matchesLike_percent (pattern text : List Char) :
    matchesLike ('%' :: pattern) text = true ↔
      ∃ back, back <:+ text ∧ matchesLike pattern back = true := by
  simp only [matchesLike, if_true, List.any_eq_true, List.mem_tails]

theorem matchesLike_literal (word pattern text : List Char) (plain : Literal word) :
    matchesLike (word ++ pattern) text = true ↔
      ∃ rest, text = word ++ rest ∧ matchesLike pattern rest = true := by
  induction word generalizing text with
  | nil => simp
  | cons symbol word ih =>
    obtain ⟨notPercent, notUnderscore⟩ := plain symbol List.mem_cons_self
    have plainRest : Literal word := fun other member =>
      plain other (List.mem_cons_of_mem symbol member)
    cases text with
    | nil => simp [matchesLike, notPercent]
    | cons char rest =>
      simp only [List.cons_append, matchesLike, if_neg notPercent, Bool.and_eq_true, Bool.or_eq_true,
        beq_iff_eq, notUnderscore, false_or, ih rest plainRest, List.cons.injEq]
      constructor
      · rintro ⟨rfl, tail, split, matched⟩
        exact ⟨tail, ⟨rfl, split⟩, matched⟩
      · rintro ⟨tail, ⟨rfl, split⟩, matched⟩
        exact ⟨rfl, tail, split, matched⟩

theorem matchesLike_endsWith (word text : List Char) (plain : Literal word) :
    matchesLike ('%' :: word) text = true ↔ word <:+ text := by
  have whole : ∀ back, matchesLike word back = true ↔ back = word := by
    intro back
    have split := matchesLike_literal word [] back plain
    rw [List.append_nil] at split
    rw [split]
    simp [matchesLike]
  rw [matchesLike_percent]
  simp [whole]

theorem matchesLike_contains (word text : List Char) (plain : Literal word) :
    matchesLike ('%' :: (word ++ ['%'])) text = true ↔ word <:+: text := by
  have anything : ∀ rest, matchesLike ['%'] rest = true := by
    intro rest
    exact (matchesLike_percent [] rest).mpr ⟨[], List.nil_suffix, rfl⟩
  rw [matchesLike_percent]
  constructor
  · rintro ⟨back, ⟨front, joined⟩, matched⟩
    obtain ⟨rest, split, _⟩ := (matchesLike_literal word ['%'] back plain).mp matched
    exact ⟨front, rest, by rw [← joined, split, List.append_assoc]⟩
  · rintro ⟨front, rest, joined⟩
    refine ⟨word ++ rest, ⟨front, by rw [← joined, List.append_assoc]⟩, ?_⟩
    exact (matchesLike_literal word ['%'] _ plain).mpr ⟨rest, rfl, anything rest⟩

section Joined

variable {Symbol : Type} {separator : Symbol} {word first second : List Symbol}

theorem infix_joined (apart : separator ∉ word) :
    word <:+: first ++ separator :: second ↔ word <:+: first ∨ word <:+: second := by
  constructor
  · intro inside
    rcases List.infix_append_iff_ne_nil.mp inside with
      left | right | ⟨front, back, _, backNonempty, rfl, _, backPrefix⟩
    · exact .inl left
    · rcases List.infix_cons_iff.mp right with atStart | later
      · cases word with
        | nil => exact .inl List.nil_infix
        | cons head tail =>
          have same := (List.cons_prefix_cons.mp atStart).1
          exact absurd (same ▸ List.mem_cons_self) apart
      · exact .inr later
    · cases back with
      | nil => exact absurd rfl backNonempty
      | cons head tail =>
        have same := (List.cons_prefix_cons.mp backPrefix).1
        exact absurd (List.mem_append_right front (same ▸ List.mem_cons_self)) apart
  · rintro (left | right)
    · exact left.trans (List.infix_append' [] first (separator :: second))
    · exact right.trans ⟨first ++ [separator], [], by simp⟩

theorem suffix_joined (apart : separator ∉ word) :
    word <:+ first ++ separator :: second ↔ word <:+ second := by
  constructor
  · intro ends
    have secondEnds : second <:+ first ++ separator :: second := ⟨first ++ [separator], by simp⟩
    rcases List.suffix_or_suffix_of_suffix ends secondEnds with shorter | longer
    · exact shorter
    · by_cases same : word = second
      · exact same ▸ List.suffix_rfl
      · obtain ⟨front, rfl⟩ := longer
        have nonempty : front ≠ [] := fun empty => same (by rw [empty, List.nil_append])
        have lastIs : separator ∈ front := by
          have cut : front <:+ first ++ [separator] := by
            obtain ⟨before, joined⟩ := ends
            have cancelled : before ++ front ++ second = first ++ [separator] ++ second := by
              rw [List.append_assoc, joined, List.append_assoc, List.singleton_append]
            exact ⟨before, List.append_cancel_right cancelled⟩
          rcases List.suffix_concat_iff.mp cut with empty | ⟨rest, rfl, _⟩
          · exact absurd empty nonempty
          · exact List.mem_append_right rest List.mem_cons_self
        exact absurd (List.mem_append_left second lastIs) apart
  · intro ends
    exact ends.trans ⟨first ++ [separator], by simp⟩

end Joined

end Foundation.LikePattern
