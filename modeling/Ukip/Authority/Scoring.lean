import Ukip.Authority.Adjustment
import Ukip.Authority.Resolver

/-!
# Scores of candidates

`authority/scoring.py` and `pipelines/authority/scoring.rs`, on exact numbers.  The identifier
signal is 1 for a candidate of ORCID when the hint is a part of its identifier.
-/

namespace Ukip.Authority.Scoring

open Analytics.Corpus (isPythonSpace isWhiteSpace strip)
open Authority.Feedback (roundHalfEven)

/-- `f"{x:.3f}"` and `f"{x:+.3f}"` with the number of decimals. -/
structure Formats where
  fixed : Nat → Rat → String
  signed : Nat → Rat → String

/-- `thefuzz`, from 0 to 100. -/
structure Ratios where
  tokenSortRatio : String → String → Nat
  tokenSetRatio : String → String → Nat
  partialRatio : String → String → Nat

/-- `_SOURCE_QUALITY`, 0.30 for any other source. -/
def sourceQuality (source : String) : Rat :=
  (([("orcid", 90 / 100), ("openalex", 70 / 100), ("viaf", 65 / 100), ("wikidata", 55 / 100),
    ("dbpedia", 40 / 100)] : List (String × Rat)).lookup source).getD (30 / 100)

def orcidUrl : List Char := "https://orcid.org/".toList

/-- `text.removeprefix(start)` -/
def removePrefix (start text : List Char) : List Char :=
  if start.isPrefixOf text then text.drop start.length else text

def hintText (isSpace : Char → Bool) (hint : String) : List Char :=
  removePrefix orcidUrl (strip isSpace hint.toList)

/-- `hint and hint in authority_id` -/
def hintMatches (isSpace : Char → Bool) (hint authorityId : String) : Bool :=
  hintText isSpace hint ≠ [] && decide (hintText isSpace hint <:+: authorityId.toList)

/-- `round(x, 3)` -/
def round3 (value : Rat) : Rat := roundHalfEven (value * 1000) / 1000

def clamp01 (value : Rat) : Rat := max 0 (min 1 value)

structure ResolutionThresholds where
  exact : Rat
  probable : Rat
  ambiguous : Rat

def defaultThresholds : ResolutionThresholds := ⟨85 / 100, 65 / 100, 45 / 100⟩

def ResolutionThresholds.classify (thresholds : ResolutionThresholds) (total : Rat) : String :=
  if thresholds.exact ≤ total then "exact_match"
  else if thresholds.probable ≤ total then "probable_match"
  else if thresholds.ambiguous ≤ total then "ambiguous"
  else "unresolved"

/-- `if value:` of a text. -/
def given (value : Option String) : Bool := value.any (· ≠ "")

section Python

variable (formats : Formats) (unicode : Unicode) (ratios : Ratios)

/-- `_score_identifiers`, with what it appends to the evidence. -/
def scoreIdentifiers (source authorityId : String) (orcidHint : Option String)
    (sourcePrior : Rat) : Rat × List String :=
  let base := sourceQuality source
  let quality := "source_quality:" ++ source ++ "=" ++ formats.fixed 2 base
  if given orcidHint && source = "orcid" && orcidHint.any (hintMatches isPythonSpace · authorityId) then
    (1, [quality, "orcid_hint_matched"])
  else if sourcePrior ≠ 0 then
    (clamp01 (base + sourcePrior), [quality, "feedback_prior:" ++ formats.signed 3 sourcePrior])
  else (base, [quality])

def reformatSurnameFirst (name : String) : String :=
  if ',' ∈ name.toList then
    let surname := name.toList.takeWhile fun c => c ≠ ','
    let firstname := (name.toList.dropWhile fun c => c ≠ ',').drop 1
    String.ofList (strip isPythonSpace firstname ++ ' ' :: strip isPythonSpace surname)
  else name

def scoreName (query canonicalLabel : String) : Rat × List String :=
  let qn := normalizeName unicode query
  let plain := normalizeName unicode canonicalLabel
  let reformatted := normalizeName unicode (reformatSurnameFirst canonicalLabel)
  let best : Rat := max (ratios.tokenSortRatio qn plain) (ratios.tokenSortRatio qn reformatted) / 100
  if ratios.tokenSetRatio qn plain = 100 then
    let bonus := min 1 (best + 5 / 100)
    (round3 bonus, ["token_set_exact", "name_score:" ++ formats.fixed 3 bonus])
  else (round3 best, ["name_score:" ++ formats.fixed 3 best])

def scoreAffiliation (description affiliation : Option String) : Rat × List String :=
  match description, affiliation with
  | some description, some affiliation =>
    if affiliation = "" ∨ description = "" then (0, [])
    else
      let score : Rat :=
        ratios.partialRatio (normalizeName unicode affiliation) (normalizeName unicode description) / 100
      (round3 score, if 60 / 100 < score then ["affiliation_match:" ++ formats.fixed 2 score] else [])
  | _, _ => (0, [])

def computeScore (value authoritySource authorityId canonicalLabel : String)
    (description orcidHint affiliation : Option String) (coauthorsOverlap : Option Rat)
    (sourcePrior : Rat) (thresholds : Option ResolutionThresholds) : Scored Rat :=
  let identifiers := scoreIdentifiers formats authoritySource authorityId orcidHint sourcePrior
  let name := scoreName formats unicode ratios value canonicalLabel
  let affil := scoreAffiliation formats unicode ratios description affiliation
  let coauth := clamp01 (coauthorsOverlap.getD 0)
  let coauthEvidence :=
    if coauthorsOverlap.isSome then ["coauthorship overlap=" ++ formats.fixed 2 coauth] else []
  let affilWeight : Rat := if given affiliation then 20 / 100 else 0
  let coauthWeight : Rat := if coauthorsOverlap.isSome then 10 / 100 else 0
  let totalWeight := 35 / 100 + 25 / 100 + affilWeight + coauthWeight
  let total := round3
    (35 / 100 / totalWeight * identifiers.1 + 25 / 100 / totalWeight * name.1 +
      affilWeight / totalWeight * affil.1 + coauthWeight / totalWeight * coauth)
  { score := total
    breakdown := [("identifiers", round3 identifiers.1), ("name", round3 name.1),
      ("affiliation", round3 affil.1), ("coauthorship", coauth), ("topic", 0)]
    evidence := identifiers.2 ++ name.2 ++ affil.2 ++ coauthEvidence
    resolutionStatus := (thresholds.getD defaultThresholds).classify total }

end Python

section Rust

/-- `(x * 1000.0).round() / 1000.0`: halves go away from zero. -/
def round3Away (value : Rat) : Rat :=
  (if 0 ≤ value then (value * 1000 + 1 / 2).floor else -(-value * 1000 + 1 / 2).floor) / 1000

/-- The functions of `fuzzy.rs` and `normalize.rs`. -/
structure RustNames where
  tokenSortRatio : String → String → Rat
  tokenSetRatio : String → String → Rat
  normalizeName : String → String
  reformatSurnameFirst : String → String

variable (formats : Formats) (names : RustNames)

/-- `score_identifiers` of the engine. -/
def engineIdentifiers (source authorityId : String) (orcidHint : Option String) :
    Rat × List String :=
  let base := sourceQuality source
  let quality := "source_quality:" ++ source ++ "=" ++ formats.fixed 2 base
  if source = "orcid" && orcidHint.any (hintMatches isWhiteSpace · authorityId) then
    (1, [quality, "orcid_hint_matched"])
  else (base, [quality])

/-- `score_name` of the engine. -/
def engineName (query canonicalLabel : String) : Rat × List String :=
  let qn := names.normalizeName query
  let plain := names.normalizeName canonicalLabel
  let reformatted := names.normalizeName (names.reformatSurnameFirst canonicalLabel)
  let best := max (max 0 (names.tokenSortRatio qn plain)) (names.tokenSortRatio qn reformatted)
  if 99 / 100 < names.tokenSetRatio qn plain then
    let bonus := min (best + 5 / 100) 1
    (round3Away bonus, ["token_set_exact", "name_score:" ++ formats.fixed 3 bonus])
  else (round3Away best, ["name_score:" ++ formats.fixed 3 best])

/-- `score_affiliation` of the engine. -/
def engineAffiliation (description affiliation : Option String) : Rat × List String :=
  match description, affiliation with
  | some description, some affiliation =>
    if description = "" ∨ affiliation = "" then (0, [])
    else
      let nd := names.normalizeName description
      let na := names.normalizeName affiliation
      let score : Rat :=
        if na.toList <:+: nd.toList ∨ nd.toList <:+: na.toList then 1
        else names.tokenSortRatio na nd
      (round3Away score,
        if 60 / 100 < score then ["affiliation_match:" ++ formats.fixed 2 score] else [])
  | _, _ => (0, [])

/-- `compute_score` of the engine. -/
def engineScore (value authoritySource authorityId canonicalLabel : String)
    (description orcidHint affiliation : Option String) : Scored Rat :=
  let identifiers := engineIdentifiers formats authoritySource authorityId orcidHint
  let name := engineName formats names value canonicalLabel
  let affil := engineAffiliation formats names description affiliation
  let affilWeight : Rat := if affiliation.isSome then 20 / 100 else 0
  let totalWeight := 35 / 100 + 25 / 100 + affilWeight
  let total := round3Away
    (35 / 100 / totalWeight * identifiers.1 + 25 / 100 / totalWeight * name.1 +
      affilWeight / totalWeight * affil.1)
  { score := total
    breakdown := [("identifiers", round3Away identifiers.1), ("name", round3Away name.1),
      ("affiliation", round3Away affil.1), ("coauthorship", 0), ("topic", 0)]
    evidence := identifiers.2 ++ name.2 ++ affil.2
    resolutionStatus := defaultThresholds.classify total }

end Rust

theorem sourceQuality_le (source : String) : sourceQuality source ≤ 90 / 100 := by
  rw [sourceQuality]
  simp only [List.lookup]
  repeat' split
  all_goals norm_num

theorem round3_ne_one {value : Rat} (below : value ≤ 95 / 100) : round3 value ≠ 1 := by
  have scaled : value * 1000 ≤ ((950 : Int) : Rat) := by
    push_cast
    linarith
  have rounded : (roundHalfEven (value * 1000) : Rat) ≤ 950 := by
    exact_mod_cast (Feedback.rounds_roundHalfEven _).le_of_le scaled
  rw [round3]
  intro isOne
  linarith

theorem round3Away_ne_one {value : Rat} (below : value ≤ 95 / 100) : round3Away value ≠ 1 := by
  have scaled : ((value * 1000 + 1 / 2).floor : Rat) ≤ value * 1000 + 1 / 2 := Rat.floor_le _
  rw [round3Away]
  intro isOne
  split_ifs at isOne with sign
  · linarith
  · have above : ((0 : Int) : Rat) ≤ -value * 1000 + 1 / 2 := by
      push_cast
      linarith
    have floored : (0 : Rat) ≤ (-value * 1000 + 1 / 2).floor := by
      exact_mod_cast Rat.le_floor_iff.mpr above
    rw [Int.cast_neg] at isOne
    linarith

/-- The hint is a part of the identifier of an ORCID candidate. -/
def Matches (isSpace : Char → Bool) (source authorityId : String) (orcidHint : Option String) : Prop :=
  source = "orcid" ∧ ∃ hint, orcidHint = some hint ∧ hintMatches isSpace hint authorityId = true

theorem given_of_hintMatches {isSpace : Char → Bool} {hint authorityId : String}
    (found : hintMatches isSpace hint authorityId = true) : given (some hint) = true := by
  rw [given, Option.any_some, decide_eq_true_iff]
  rintro rfl
  cases found

variable {source authorityId : String} {orcidHint : Option String}

theorem any_hintMatches_iff {isSpace : Char → Bool} :
    (source = "orcid" && orcidHint.any (hintMatches isSpace · authorityId)) = true ↔
      Matches isSpace source authorityId orcidHint := by
  simp [Matches, Option.any_eq_true]

variable {formats : Formats}

theorem identifiers_matched (sourcePrior : Rat)
    (matched : Matches isPythonSpace source authorityId orcidHint) :
    (scoreIdentifiers formats source authorityId orcidHint sourcePrior).1 = 1 := by
  obtain ⟨rfl, hint, rfl, found⟩ := matched
  simp [scoreIdentifiers, given_of_hintMatches found, found]

theorem identifiers_unmatched {sourcePrior : Rat} (bounded : |sourcePrior| ≤ 5 / 100)
    (unmatched : ¬ Matches isPythonSpace source authorityId orcidHint) :
    (scoreIdentifiers formats source authorityId orcidHint sourcePrior).1 ≤ 95 / 100 := by
  have quality := sourceQuality_le source
  have prior := (abs_le.mp bounded).2
  rw [scoreIdentifiers]
  split_ifs with found
  · rw [Bool.and_assoc, Bool.and_eq_true] at found
    exact absurd (any_hintMatches_iff.mp found.2) unmatched
  · simp only [clamp01]
    refine max_le (by norm_num) ((min_le_right _ _).trans ?_)
    linarith
  · simp only
    linarith

theorem engineIdentifiers_matched (matched : Matches isWhiteSpace source authorityId orcidHint) :
    (engineIdentifiers formats source authorityId orcidHint).1 = 1 := by
  rw [engineIdentifiers, if_pos (any_hintMatches_iff.mpr matched)]

theorem engineIdentifiers_unmatched
    (unmatched : ¬ Matches isWhiteSpace source authorityId orcidHint) :
    (engineIdentifiers formats source authorityId orcidHint).1 ≤ 95 / 100 := by
  have quality := sourceQuality_le source
  rw [engineIdentifiers, if_neg fun found => unmatched (any_hintMatches_iff.mp found)]
  linarith

/-- The identifier component of the breakdown is full exactly if the hint is a part of the
identifier. -/
theorem component_eq_one_iff (formats : Formats) (unicode : Unicode) (ratios : Ratios)
    (value source authorityId canonicalLabel : String)
    (description orcidHint affiliation : Option String) (coauthorsOverlap : Option Rat)
    {sourcePrior : Rat} (bounded : |sourcePrior| ≤ 5 / 100)
    (thresholds : Option ResolutionThresholds) :
    (computeScore formats unicode ratios value source authorityId canonicalLabel description
        orcidHint affiliation coauthorsOverlap sourcePrior thresholds).breakdown.lookup
          "identifiers" = some 1 ↔ Matches isPythonSpace source authorityId orcidHint := by
  change some (round3 (scoreIdentifiers formats source authorityId orcidHint sourcePrior).1) =
    some 1 ↔ _
  rw [Option.some.injEq]
  constructor
  · intro isOne
    by_contra unmatched
    exact round3_ne_one (identifiers_unmatched bounded unmatched) isOne
  · intro matched
    rw [identifiers_matched sourcePrior matched]
    decide +kernel

theorem engineComponent_eq_one_iff (formats : Formats) (names : RustNames)
    (value source authorityId canonicalLabel : String)
    (description orcidHint affiliation : Option String) :
    (engineScore formats names value source authorityId canonicalLabel description orcidHint
        affiliation).breakdown.lookup "identifiers" = some 1 ↔
      Matches isWhiteSpace source authorityId orcidHint := by
  change some (round3Away (engineIdentifiers formats source authorityId orcidHint).1) = some 1 ↔ _
  rw [Option.some.injEq]
  constructor
  · intro isOne
    by_contra unmatched
    exact round3Away_ne_one (engineIdentifiers_unmatched unmatched) isOne
  · intro matched
    rw [engineIdentifiers_matched matched]
    decide +kernel

def orcidHttpUrl : List Char := "http://orcid.org/".toList

def withoutUrl (text : List Char) : List Char :=
  if orcidUrl.isPrefixOf text then text.drop orcidUrl.length else removePrefix orcidHttpUrl text

def normalised (isSpace : Char → Bool) (text : String) : List Char :=
  withoutUrl ((strip isSpace text.toList).map Char.toLower)

/-- The hint is the ORCID of the candidate, however it is written. -/
def NamesOrcid (isSpace : Char → Bool) (authorityId hint : String) : Prop :=
  normalised isSpace authorityId ≠ [] ∧ normalised isSpace hint = normalised isSpace authorityId

/-- The claim of the identifier signal for a candidate. -/
def Names (isSpace : Char → Bool) (source authorityId : String) (orcidHint : Option String) : Prop :=
  source = "orcid" ∧ ∃ hint, orcidHint = some hint ∧ NamesOrcid isSpace authorityId hint

/-- A part of the identifier that is not the candidate's ORCID. -/
def PartOnly (isSpace : Char → Bool) (authorityId hint : String) : Prop :=
  hintText isSpace hint ≠ [] ∧ hintText isSpace hint <:+: authorityId.toList ∧
    ¬ NamesOrcid isSpace authorityId hint

/-- The candidate's ORCID in another spelling than the one of the identifier. -/
def OtherSpelling (isSpace : Char → Bool) (authorityId hint : String) : Prop :=
  NamesOrcid isSpace authorityId hint ∧ ¬ hintText isSpace hint <:+: authorityId.toList

/-- The identifier as ORCID gives it: no spaces around it and no URL before it. -/
structure Bare (isSpace : Char → Bool) (authorityId : String) : Prop where
  filled : authorityId.toList ≠ []
  stripped : strip isSpace authorityId.toList = authorityId.toList
  noUrl : withoutUrl (authorityId.toList.map Char.toLower) = authorityId.toList.map Char.toLower

section Hints

variable {isSpace : Char → Bool} {source authorityId : String} {orcidHint : Option String}

theorem strip_hint_cases (isSpace : Char → Bool) (hint : String) :
    strip isSpace hint.toList = orcidUrl ++ hintText isSpace hint ∨
      strip isSpace hint.toList = hintText isSpace hint ∧
        orcidUrl.isPrefixOf (strip isSpace hint.toList) = false := by
  rw [hintText, removePrefix]
  split_ifs with starts
  · obtain ⟨rest, joined⟩ := List.isPrefixOf_iff_prefix.mp starts
    refine .inl ?_
    rw [← joined, List.drop_left]
  · exact .inr ⟨rfl, Bool.eq_false_of_not_eq_true starts⟩

theorem withoutUrl_orcidUrl (text : List Char) : withoutUrl (orcidUrl ++ text) = text := by
  have starts : orcidUrl.isPrefixOf (orcidUrl ++ text) = true :=
    List.isPrefixOf_iff_prefix.mpr (List.prefix_append _ _)
  rw [withoutUrl, if_pos starts, List.drop_left]

theorem length_withoutUrl_le (text : List Char) : (withoutUrl text).length ≤ text.length := by
  rw [withoutUrl, removePrefix]
  split_ifs <;> simp

theorem normalised_cases (isSpace : Char → Bool) (hint : String) :
    normalised isSpace hint = (hintText isSpace hint).map Char.toLower ∨
      normalised isSpace hint = withoutUrl ((hintText isSpace hint).map Char.toLower) := by
  rw [normalised]
  rcases strip_hint_cases isSpace hint with stripped | ⟨stripped, -⟩
  · have url : orcidUrl.map Char.toLower = orcidUrl := rfl
    rw [stripped, List.map_append, url, withoutUrl_orcidUrl]
    exact .inl rfl
  · rw [stripped]
    exact .inr rfl

theorem length_normalised_le (isSpace : Char → Bool) (hint : String) :
    (normalised isSpace hint).length ≤ (hintText isSpace hint).length := by
  have shorter := length_withoutUrl_le ((hintText isSpace hint).map Char.toLower)
  rw [List.length_map] at shorter
  rcases normalised_cases isSpace hint with same | same
  · rw [same, List.length_map]
  · rw [same]
    exact shorter

theorem NamesOrcid.hintText_ne_nil {hint : String} (names : NamesOrcid isSpace authorityId hint) :
    hintText isSpace hint ≠ [] := by
  intro empty
  have short := length_normalised_le isSpace hint
  rw [empty, List.length_nil, Nat.le_zero, List.length_eq_zero_iff] at short
  exact names.1 (names.2.symm.trans short)

theorem hintMatches_iff (hint : String) :
    hintMatches isSpace hint authorityId = true ↔
      hintText isSpace hint ≠ [] ∧ hintText isSpace hint <:+: authorityId.toList := by
  simp [hintMatches]

/-- A match is the candidate's ORCID exactly if the hint is neither a mere part of the
identifier nor another spelling of it. -/
theorem matches_iff_names_iff :
    (Matches isSpace source authorityId orcidHint ↔ Names isSpace source authorityId orcidHint) ↔
      (source = "orcid" → ∀ hint, orcidHint = some hint →
        ¬ PartOnly isSpace authorityId hint ∧ ¬ OtherSpelling isSpace authorityId hint) := by
  cases orcidHint with
  | none => simp [Matches, Names]
  | some hint =>
    have filled : NamesOrcid isSpace authorityId hint → hintText isSpace hint ≠ [] :=
      NamesOrcid.hintText_ne_nil
    simp only [Matches, Names, Option.some.injEq, exists_eq_left', forall_eq', hintMatches_iff]
    constructor
    · intro same isOrcid
      refine ⟨fun ⟨nonempty, part, nobody⟩ => ?_, fun ⟨names, apart⟩ => ?_⟩
      · exact nobody (same.mp ⟨isOrcid, nonempty, part⟩).2
      · exact apart (same.mpr ⟨isOrcid, names⟩).2.2
    · intro holds
      constructor
      · rintro ⟨isOrcid, nonempty, part⟩
        refine ⟨isOrcid, ?_⟩
        by_contra nobody
        exact (holds isOrcid).1 ⟨nonempty, part, nobody⟩
      · rintro ⟨isOrcid, names⟩
        refine ⟨isOrcid, filled names, ?_⟩
        by_contra apart
        exact (holds isOrcid).2 ⟨names, apart⟩

theorem Bare.normalised_eq (bare : Bare isSpace authorityId) :
    normalised isSpace authorityId = authorityId.toList.map Char.toLower := by
  rw [normalised, bare.stripped, bare.noUrl]

theorem Bare.names_of_whole (bare : Bare isSpace authorityId) {hint : String}
    (whole : hintText isSpace hint = authorityId.toList) : NamesOrcid isSpace authorityId hint := by
  refine ⟨by simpa [bare.normalised_eq] using bare.filled, ?_⟩
  rw [bare.normalised_eq]
  rcases normalised_cases isSpace hint with same | same
  · rw [same, whole]
  · rw [same, whole, bare.noUrl]

theorem Bare.partOnly_iff (bare : Bare isSpace authorityId) (hint : String) :
    PartOnly isSpace authorityId hint ↔ hintText isSpace hint ≠ [] ∧
      hintText isSpace hint <:+: authorityId.toList ∧
        hintText isSpace hint ≠ authorityId.toList := by
  refine and_congr_right fun _ => and_congr_right fun part => ?_
  refine ⟨fun nobody whole => nobody (bare.names_of_whole whole), fun proper names => ?_⟩
  have sameLength := congrArg List.length (names.2.trans bare.normalised_eq)
  have short := length_normalised_le isSpace hint
  rw [sameLength, List.length_map] at short
  exact proper (part.eq_of_length (le_antisymm part.length_le short))

theorem Bare.otherSpelling_iff (bare : Bare isSpace authorityId) (hint : String) :
    OtherSpelling isSpace authorityId hint ↔
      NamesOrcid isSpace authorityId hint ∧ hintText isSpace hint ≠ authorityId.toList := by
  refine and_congr_right fun names => ⟨fun apart whole => apart (whole ▸ List.infix_rfl), ?_⟩
  intro different part
  exact ((bare.partOnly_iff hint).mpr ⟨names.hintText_ne_nil, part, different⟩).2.2 names

end Hints

/-- In both scorers the identifier signal is full for the candidate's ORCID alone, unless the
hint is a mere part of the identifier or another spelling of it. -/
theorem orcid_signal_iff (formats : Formats) (unicode : Unicode) (ratios : Ratios)
    (names : RustNames) (value source authorityId canonicalLabel : String)
    (description orcidHint affiliation : Option String) (coauthorsOverlap : Option Rat)
    {sourcePrior : Rat} (bounded : |sourcePrior| ≤ 5 / 100)
    (thresholds : Option ResolutionThresholds) :
    (((computeScore formats unicode ratios value source authorityId canonicalLabel description
          orcidHint affiliation coauthorsOverlap sourcePrior thresholds).breakdown.lookup
            "identifiers" = some 1 ↔ Names isPythonSpace source authorityId orcidHint) ↔
        (source = "orcid" → ∀ hint, orcidHint = some hint →
          ¬ PartOnly isPythonSpace authorityId hint ∧
            ¬ OtherSpelling isPythonSpace authorityId hint)) ∧
      (((engineScore formats names value source authorityId canonicalLabel description orcidHint
          affiliation).breakdown.lookup "identifiers" = some 1 ↔
            Names isWhiteSpace source authorityId orcidHint) ↔
        (source = "orcid" → ∀ hint, orcidHint = some hint →
          ¬ PartOnly isWhiteSpace authorityId hint ∧
            ¬ OtherSpelling isWhiteSpace authorityId hint)) ∧
      ∀ isSpace, Bare isSpace authorityId → ∀ hint,
        (PartOnly isSpace authorityId hint ↔ hintText isSpace hint ≠ [] ∧
          hintText isSpace hint <:+: authorityId.toList ∧
            hintText isSpace hint ≠ authorityId.toList) ∧
        (OtherSpelling isSpace authorityId hint ↔
          NamesOrcid isSpace authorityId hint ∧ hintText isSpace hint ≠ authorityId.toList) := by
  refine ⟨?_, ?_, fun isSpace bare hint => ⟨bare.partOnly_iff hint, bare.otherSpelling_iff hint⟩⟩
  · rw [component_eq_one_iff _ _ _ _ _ _ _ _ _ _ _ bounded]
    exact matches_iff_names_iff
  · rw [engineComponent_eq_one_iff]
    exact matches_iff_names_iff

def plainFormats : Formats := ⟨fun _ _ => "", fun _ _ => ""⟩

def plainUnicode : Unicode := ⟨id, fun _ => false, Char.isAlphanum, List.map Char.toLower⟩

def plainRatios : Ratios := ⟨fun _ _ => 100, fun _ _ => 100, fun _ _ => 100⟩

def plainNames : RustNames := ⟨fun _ _ => 1, fun _ _ => 1, id, id⟩

def signals (hint : String) : Option Rat × Option Rat :=
  ((computeScore plainFormats plainUnicode plainRatios "John Smith" "orcid" "0000-0001-2345-6789"
      "John Smith" none (some hint) none none 0 none).breakdown.lookup "identifiers",
    (engineScore plainFormats plainNames "John Smith" "orcid" "0000-0001-2345-6789" "John Smith"
      none (some hint) none).breakdown.lookup "identifiers")

theorem orcid_signal_iff_url :
    (signals "https://orcid.org/0000-0001-2345-6789").1 = some 1 ↔
      Names isPythonSpace "orcid" "0000-0001-2345-6789"
        (some "https://orcid.org/0000-0001-2345-6789") := by
  refine (orcid_signal_iff plainFormats plainUnicode plainRatios plainNames "John Smith" "orcid"
    "0000-0001-2345-6789" "John Smith" none (some "https://orcid.org/0000-0001-2345-6789") none none
    (by norm_num) none).1.mpr fun _ hint same => ?_
  obtain rfl := Option.some.inj same
  have names : NamesOrcid isPythonSpace "0000-0001-2345-6789"
      "https://orcid.org/0000-0001-2345-6789" := by
    constructor <;> decide +kernel
  have part : hintText isPythonSpace "https://orcid.org/0000-0001-2345-6789" <:+:
      "0000-0001-2345-6789".toList := by decide +kernel
  exact ⟨fun partOnly => partOnly.2.2 names, fun other => other.2 part⟩

/-- Four digits that every ORCID begins with give the full signal. -/
theorem four_digits_match :
    signals "0000" = (some 1, some 1) ∧
      ¬ Names isPythonSpace "orcid" "0000-0001-2345-6789" (some "0000") ∧
        ¬ Names isWhiteSpace "orcid" "0000-0001-2345-6789" (some "0000") := by
  refine ⟨by decide +kernel, ?_, ?_⟩
  · rintro ⟨-, hint, same, -, named⟩
    obtain rfl := Option.some.inj same
    exact absurd named (by decide +kernel)
  · rintro ⟨-, hint, same, -, named⟩
    obtain rfl := Option.some.inj same
    exact absurd named (by decide +kernel)

end Ukip.Authority.Scoring
