import Ukip.Authority.Scoring
import Ukip.Foundation.FloatingPoint

/-!
# Routes of author resolution

`authority/nil_detection.py` and `authority/author_resolution.py`, for any rounding of their
numbers, and the rank of a route in `authority/query_reformulation.py`.
-/

namespace Ukip.Authority.Routing

open Foundation.FloatingPoint
open Authority.Scoring (given)

/-- `nil_reason` -/
inductive NilReason where
  | noCandidates
  | conflictingEvidence
  | unresolvedAmbiguity
  | insufficientCoverage
  deriving DecidableEq

structure NilDetectionResult (Score : Type) where
  detected : Bool
  nilScore : Score
  nilReason : Option NilReason

/-- `resolution_route` -/
inductive Route where
  | fastPath
  | hybridPath
  | llmPath
  | manualReview

structure AuthorResolutionSummary (Score : Type) where
  resolutionRoute : Route
  complexityScore : Score
  reviewRequired : Bool
  nilScore : Score
  nilReason : Option NilReason

/-- What the routing reads of `ResolveContext`. -/
structure ResolveContext where
  affiliation : Option String
  orcidHint : Option String

def routeRank {Score : Type} (summary : AuthorResolutionSummary Score) : Nat :=
  match summary.resolutionRoute with
  | .fastPath => 4
  | .hybridPath => 3
  | .llmPath => 2
  | .manualReview => 1

variable {float : Rounding}

/-- `round(x, 3)` -/
def round3 (value : float.Value) : float.Value := float.round (Scoring.round3 value.1)

def clamp01 (value : float.Value) : float.Value := max (float.round 0) (min (float.round 1) value)

/-- `float(top.score_breakdown.get(signal, 0.0))` -/
def signalOf (candidate : AuthorityCandidate float.Value) (signal : String) : float.Value :=
  (candidate.scoreBreakdown.lookup signal).getD (float.round 0)

/-- `top.confidence - (runner_up.confidence if runner_up else 0.0)` -/
def gapTo (top : AuthorityCandidate float.Value) (others : List (AuthorityCandidate float.Value)) :
    float.Value :=
  float.sub top.confidence (others.head?.elim (float.round 0) AuthorityCandidate.confidence)

section Detection

def confidencePenalty (confidence : float.Value) : float.Value :=
  float.round <|
    if confidence < float.round (45 / 100) then 55 / 100
    else if confidence < float.round (55 / 100) then 35 / 100
    else if confidence < float.round (65 / 100) then 15 / 100
    else 0

def statusPenalty (status : String) : float.Value :=
  float.round <|
    if status = "unresolved" then 30 / 100 else if status = "ambiguous" then 15 / 100 else 0

def gapPenalty (hasRunnerUp : Bool) (gap : float.Value) : float.Value :=
  float.round <|
    if hasRunnerUp then
      if gap ≤ float.round (2 / 100) then 25 / 100
      else if gap ≤ float.round (5 / 100) then 15 / 100
      else 0
    else 0

def signalPenalty (top : AuthorityCandidate float.Value) : float.Value :=
  float.round <|
    if signalOf top "identifiers" < float.round (25 / 100) ∧
        signalOf top "affiliation" < float.round (10 / 100) then 10 / 100
    else 0

/-- `nil_score` of candidates with a top one; a zero is added where the source adds nothing. -/
def nilScoreOf (top : AuthorityCandidate float.Value)
    (others : List (AuthorityCandidate float.Value)) : float.Value :=
  round3 (clamp01 ([confidencePenalty top.confidence, statusPenalty top.resolutionStatus,
    gapPenalty (!others.isEmpty) (gapTo top others), signalPenalty top].foldl float.add
      (float.round 0)))

variable (lower : List Char → List Char)

def conflictFlag (top : AuthorityCandidate float.Value)
    (others : List (AuthorityCandidate float.Value)) : Bool :=
  (top.evidence.any fun signal => decide ("conflict".toList <:+: lower signal.toList)) ||
    (decide (2 ≤ top.mergedSources.length) && decide (top.resolutionStatus = "ambiguous") &&
      !others.isEmpty && decide (gapTo top others ≤ float.round (3 / 100)))

def detectAuthorNil :
    List (AuthorityCandidate float.Value) → NilDetectionResult float.Value
  | [] => { detected := true, nilScore := float.round 1, nilReason := some .noCandidates }
  | top :: others =>
    let gap := gapTo top others
    let nilScore := nilScoreOf top others
    if conflictFlag lower top others ∧ float.round (55 / 100) ≤ nilScore then
      { detected := true
        nilScore := max nilScore (float.round (82 / 100))
        nilReason := some .conflictingEvidence }
    else if others ≠ [] ∧ gap ≤ float.round (2 / 100) ∧ top.confidence < float.round (62 / 100) ∧
        top.resolutionStatus = "ambiguous" then
      { detected := true
        nilScore := max nilScore (float.round (78 / 100))
        nilReason := some .unresolvedAmbiguity }
    else if top.confidence < float.round (45 / 100) ∨
        top.resolutionStatus = "unresolved" ∧ top.confidence < float.round (55 / 100) then
      { detected := true
        nilScore := max nilScore (float.round (84 / 100))
        nilReason := some .insufficientCoverage }
    else { detected := false, nilScore := nilScore, nilReason := none }

def raiseBy (amount : Rat) (complexity : float.Value) : float.Value :=
  float.add complexity (float.round amount)

def lowerBy (amount : Rat) (complexity : float.Value) : float.Value :=
  float.sub complexity (float.round amount)

/-- `complexity_score` of candidates with a top one. -/
def complexityOf (top : AuthorityCandidate float.Value)
    (others : List (AuthorityCandidate float.Value)) (context : ResolveContext)
    (gap : float.Value) (isNil : Bool) : float.Value :=
  let complexity := float.round (55 / 100)
  let complexity := if given context.orcidHint then lowerBy (20 / 100) complexity else complexity
  let complexity := if given context.affiliation then lowerBy (5 / 100) complexity else complexity
  let complexity :=
    if top.resolutionStatus = "exact_match" then lowerBy (20 / 100) complexity
    else if top.resolutionStatus = "probable_match" then lowerBy (5 / 100) complexity
    else if top.resolutionStatus = "ambiguous" then raiseBy (10 / 100) complexity
    else raiseBy (20 / 100) complexity
  let complexity :=
    if float.round (92 / 100) ≤ top.confidence then lowerBy (15 / 100) complexity
    else if top.confidence < float.round (72 / 100) then raiseBy (10 / 100) complexity
    else complexity
  let complexity :=
    if float.round (15 / 100) ≤ gap then lowerBy (15 / 100) complexity
    else if gap ≤ float.round (5 / 100) then raiseBy (15 / 100) complexity
    else complexity
  let complexity :=
    if 5 ≤ (top :: others).length then raiseBy (10 / 100) complexity else complexity
  let complexity := if isNil then raiseBy (10 / 100) complexity else complexity
  round3 (clamp01 complexity)

def takesFastPath (top : AuthorityCandidate float.Value) (gap : float.Value) : Prop :=
  float.round (92 / 100) ≤ top.confidence ∧ top.resolutionStatus = "exact_match" ∧
    float.round (12 / 100) ≤ gap

def takesBackedHybridPath (top : AuthorityCandidate float.Value) (context : ResolveContext)
    (gap nilScore : float.Value) : Prop :=
  top.resolutionStatus = "exact_match" ∧ float.round (85 / 100) ≤ top.confidence ∧
    float.round (8 / 100) ≤ gap ∧ float.round (60 / 100) ≤ signalOf top "identifiers" ∧
      nilScore ≤ float.round (15 / 100) ∧
        (given context.orcidHint = true ∨ float.round (10 / 100) ≤ signalOf top "affiliation")

def takesHybridPath (top : AuthorityCandidate float.Value) (gap : float.Value) : Prop :=
  float.round (78 / 100) ≤ top.confidence ∧ float.round (10 / 100) ≤ gap ∧
    top.resolutionStatus ∈ ["exact_match", "probable_match"]

def takesLlmPath (top : AuthorityCandidate float.Value) : Prop :=
  float.round (55 / 100) ≤ top.confidence ∧
    top.resolutionStatus ∈ ["probable_match", "ambiguous"]

instance (top : AuthorityCandidate float.Value) (gap : float.Value) :
    Decidable (takesFastPath top gap) :=
  inferInstanceAs (Decidable (_ ∧ _ ∧ _))

instance (top : AuthorityCandidate float.Value) (context : ResolveContext)
    (gap nilScore : float.Value) : Decidable (takesBackedHybridPath top context gap nilScore) :=
  inferInstanceAs (Decidable (_ ∧ _ ∧ _ ∧ _ ∧ _ ∧ (_ ∨ _)))

instance (top : AuthorityCandidate float.Value) (gap : float.Value) :
    Decidable (takesHybridPath top gap) :=
  inferInstanceAs (Decidable (_ ∧ _ ∧ _))

instance (top : AuthorityCandidate float.Value) : Decidable (takesLlmPath top) :=
  inferInstanceAs (Decidable (_ ∧ _))

def summarizeAuthorResolution (context : ResolveContext) :
    List (AuthorityCandidate float.Value) → AuthorResolutionSummary float.Value
  | [] =>
    let nil := detectAuthorNil lower ([] : List (AuthorityCandidate float.Value))
    { resolutionRoute := .manualReview, complexityScore := float.round 1, reviewRequired := true,
      nilScore := nil.nilScore, nilReason := nil.nilReason }
  | top :: others =>
    let gap := round3 (gapTo top others)
    let nil := detectAuthorNil lower (top :: others)
    let complexity := complexityOf top others context gap nil.detected
    if nil.detected then
      { resolutionRoute := .manualReview, complexityScore := complexity, reviewRequired := true,
        nilScore := nil.nilScore, nilReason := nil.nilReason }
    else if takesFastPath top gap then
      { resolutionRoute := .fastPath, complexityScore := complexity, reviewRequired := false,
        nilScore := nil.nilScore, nilReason := none }
    else if takesBackedHybridPath top context gap nil.nilScore then
      { resolutionRoute := .hybridPath, complexityScore := complexity, reviewRequired := false,
        nilScore := nil.nilScore, nilReason := none }
    else if takesHybridPath top gap then
      { resolutionRoute := .hybridPath, complexityScore := complexity, reviewRequired := false,
        nilScore := nil.nilScore, nilReason := none }
    else if takesLlmPath top then
      { resolutionRoute := .llmPath, complexityScore := complexity, reviewRequired := true,
        nilScore := nil.nilScore, nilReason := none }
    else
      { resolutionRoute := .manualReview, complexityScore := complexity, reviewRequired := true,
        nilScore := nil.nilScore, nilReason := none }

end Detection

theorem round3_mono {first second : float.Value} (ordered : first ≤ second) :
    round3 first ≤ round3 second := by
  have exact : first.1 ≤ second.1 := ordered
  have scaled : first.1 * 1000 ≤ second.1 * 1000 := by linarith
  have rounded : (Feedback.roundHalfEven (first.1 * 1000) : Rat) ≤
      Feedback.roundHalfEven (second.1 * 1000) := by
    exact_mod_cast (Feedback.rounds_roundHalfEven _).mono (Feedback.rounds_roundHalfEven _) scaled
  refine Rounding.round_mono ?_
  rw [Scoring.round3, Scoring.round3]
  linarith

theorem clamp01_mono {first second : float.Value} (ordered : first ≤ second) :
    clamp01 first ≤ clamp01 second :=
  max_le_max le_rfl (min_le_min le_rfl ordered)

theorem confidencePenalty_anti {low high : float.Value} (raised : low ≤ high) :
    confidencePenalty high ≤ confidencePenalty low := by
  refine Rounding.round_mono ?_
  split_ifs <;> first | (exfalso; order) | norm_num

theorem gapPenalty_anti (hasRunnerUp : Bool) {low high : float.Value} (raised : low ≤ high) :
    gapPenalty hasRunnerUp high ≤ gapPenalty hasRunnerUp low := by
  refine Rounding.round_mono ?_
  split_ifs <;> first | (exfalso; order) | norm_num

section Raised

variable {lower : List Char → List Char} {top : AuthorityCandidate float.Value}
  {others : List (AuthorityCandidate float.Value)} {context : ResolveContext} {low high : float.Value}

def withConfidence (top : AuthorityCandidate float.Value) (confidence : float.Value) :
    AuthorityCandidate float.Value :=
  { top with confidence := confidence }

variable (top others) in
theorem gapTo_mono (raised : low ≤ high) :
    gapTo (withConfidence top low) others ≤ gapTo (withConfidence top high) others :=
  Rounding.sub_mono raised _

variable (top others) in
theorem nilScoreOf_anti (raised : low ≤ high) :
    nilScoreOf (withConfidence top high) others ≤ nilScoreOf (withConfidence top low) others := by
  have confidence := Rounding.add_mono (le_refl (float.round 0)) (confidencePenalty_anti raised)
  have status := Rounding.add_mono confidence (le_refl (statusPenalty top.resolutionStatus))
  have gap := Rounding.add_mono status
    (gapPenalty_anti (!others.isEmpty) (gapTo_mono top others raised))
  exact round3_mono (clamp01_mono (Rounding.add_mono gap (le_refl (signalPenalty top))))

theorem conflictFlag_anti (raised : low ≤ high)
    (conflict : conflictFlag lower (withConfidence top high) others = true) :
    conflictFlag lower (withConfidence top low) others = true := by
  have gap := gapTo_mono top others raised
  simp only [conflictFlag, Bool.or_eq_true, Bool.and_eq_true, decide_eq_true_eq] at conflict ⊢
  exact conflict.imp_right fun merged => ⟨merged.1, gap.trans merged.2⟩

variable (candidate : AuthorityCandidate float.Value)

theorem detected_iff :
    (detectAuthorNil lower (candidate :: others)).detected = true ↔
      (conflictFlag lower candidate others = true ∧ float.round (55 / 100) ≤ nilScoreOf candidate others) ∨
      (others ≠ [] ∧ gapTo candidate others ≤ float.round (2 / 100) ∧
        candidate.confidence < float.round (62 / 100) ∧
        candidate.resolutionStatus = "ambiguous") ∨
      (candidate.confidence < float.round (45 / 100) ∨
        candidate.resolutionStatus = "unresolved" ∧ candidate.confidence < float.round (55 / 100)) := by
  rw [detectAuthorNil]
  split_ifs <;> simp_all

theorem detected_anti (raised : low ≤ high)
    (detected : (detectAuthorNil lower (withConfidence top high :: others)).detected = true) :
    (detectAuthorNil lower (withConfidence top low :: others)).detected = true := by
  rw [detected_iff] at detected ⊢
  have gap := gapTo_mono top others raised
  rcases detected with ⟨conflict, score⟩ | ⟨runnerUp, close, weak, status⟩ | insufficient
  · exact .inl ⟨conflictFlag_anti raised conflict, score.trans (nilScoreOf_anti top others raised)⟩
  · exact .inr (.inl ⟨runnerUp, gap.trans close, raised.trans_lt weak, status⟩)
  · refine .inr (.inr ?_)
    exact insufficient.imp raised.trans_lt (And.imp_right raised.trans_lt)

theorem nilReason_eq_none_iff :
    (summarizeAuthorResolution lower context (candidate :: others)).nilReason = none ↔
      (detectAuthorNil lower (candidate :: others)).detected = false := by
  have paired : (detectAuthorNil lower (candidate :: others)).detected = true ↔
      (detectAuthorNil lower (candidate :: others)).nilReason ≠ none := by
    rw [detectAuthorNil]
    split_ifs <;> simp
  rw [summarizeAuthorResolution]
  by_cases detected : (detectAuthorNil lower (candidate :: others)).detected = true
  · simp only [detected, if_true]
    exact iff_of_false (paired.mp detected) (by simp)
  · simp only [detected, Bool.false_eq_true, if_false]
    split_ifs <;> simp

theorem nilScore_of_undetected
    (undetected : (detectAuthorNil lower (candidate :: others)).detected = false) :
    (detectAuthorNil lower (candidate :: others)).nilScore = nilScoreOf candidate others := by
  rw [detectAuthorNil] at undetected ⊢
  split_ifs at undetected ⊢
  rfl

theorem takesFastPath_mono (raised : low ≤ high) {gap further : float.Value} (wider : gap ≤ further)
    (takes : takesFastPath (withConfidence top low) gap) :
    takesFastPath (withConfidence top high) further :=
  ⟨takes.1.trans raised, takes.2.1, takes.2.2.trans wider⟩

theorem takesBackedHybridPath_mono (raised : low ≤ high) {gap further nilScore lesser : float.Value}
    (wider : gap ≤ further) (surer : lesser ≤ nilScore)
    (takes : takesBackedHybridPath (withConfidence top low) context gap nilScore) :
    takesBackedHybridPath (withConfidence top high) context further lesser := by
  obtain ⟨isExact, strong, apart, identified, score, backed⟩ := takes
  exact ⟨isExact, strong.trans raised, apart.trans wider, identified, surer.trans score, backed⟩

theorem takesHybridPath_mono (raised : low ≤ high) {gap further : float.Value} (wider : gap ≤ further)
    (takes : takesHybridPath (withConfidence top low) gap) :
    takesHybridPath (withConfidence top high) further :=
  ⟨takes.1.trans raised, takes.2.1.trans wider, takes.2.2⟩

theorem takesLlmPath_mono (raised : low ≤ high) (takes : takesLlmPath (withConfidence top low)) :
    takesLlmPath (withConfidence top high) :=
  ⟨takes.1.trans raised, takes.2⟩

theorem routeRank_eq :
    routeRank (summarizeAuthorResolution lower context (candidate :: others)) =
      if (detectAuthorNil lower (candidate :: others)).detected then 1
      else if takesFastPath candidate (round3 (gapTo candidate others)) then 4
      else if takesBackedHybridPath candidate context (round3 (gapTo candidate others))
          (nilScoreOf candidate others) ∨
        takesHybridPath candidate (round3 (gapTo candidate others)) then 3
      else if takesLlmPath candidate then 2
      else 1 := by
  rw [summarizeAuthorResolution]
  by_cases detected : (detectAuthorNil lower (candidate :: others)).detected = true
  · simp only [detected, if_true]
    rfl
  · have score := nilScore_of_undetected candidate (Bool.eq_false_of_not_eq_true detected)
    simp only [detected, Bool.false_eq_true, if_false, score]
    split_ifs <;> simp_all [routeRank]

theorem rank_le_rank {isNil isFast isHybrid isLlm nilLater fastLater hybridLater llmLater : Prop}
    [Decidable isNil] [Decidable isFast] [Decidable isHybrid] [Decidable isLlm]
    [Decidable nilLater] [Decidable fastLater] [Decidable hybridLater] [Decidable llmLater]
    (noNil : nilLater → isNil) (fast : isFast → fastLater) (hybrid : isHybrid → hybridLater)
    (llm : isLlm → llmLater) :
    (if isNil then 1 else if isFast then 4 else if isHybrid then 3 else if isLlm then 2 else 1) ≤
      (if nilLater then 1 else if fastLater then 4 else if hybridLater then 3
        else if llmLater then 2 else 1) := by
  by_cases now : isNil
  · rw [if_pos now]
    split_ifs <;> omega
  · rw [if_neg now, if_neg fun later => now (noNil later)]
    split_ifs <;> first | omega | tauto

/-- However the numbers are rounded: with more confidence in the top candidate and everything
else equal, the route ranks no lower and no NIL decision is made that was not made before. -/
theorem routing_monotone (float : Rounding) (lower : List Char → List Char)
    (context : ResolveContext) (top : AuthorityCandidate float.Value)
    (others : List (AuthorityCandidate float.Value)) {low high : float.Value}
    (raised : low ≤ high) :
    routeRank (summarizeAuthorResolution lower context (withConfidence top low :: others)) ≤
        routeRank (summarizeAuthorResolution lower context (withConfidence top high :: others)) ∧
      ((detectAuthorNil lower (withConfidence top low :: others)).detected = false →
        (detectAuthorNil lower (withConfidence top high :: others)).detected = false) ∧
      ((summarizeAuthorResolution lower context (withConfidence top low :: others)).nilReason = none →
        (summarizeAuthorResolution lower context
          (withConfidence top high :: others)).nilReason = none) := by
  have wider := round3_mono (gapTo_mono top others raised)
  have surer := nilScoreOf_anti top others raised
  have stays : (detectAuthorNil lower (withConfidence top low :: others)).detected = false →
      (detectAuthorNil lower (withConfidence top high :: others)).detected = false := by
    intro undetected
    by_contra detected
    rw [detected_anti raised (Bool.eq_true_of_not_eq_false detected)] at undetected
    cases undetected
  refine ⟨?_, stays, ?_⟩
  · rw [routeRank_eq, routeRank_eq]
    refine rank_le_rank (detected_anti raised) (takesFastPath_mono raised wider) ?_
      (takesLlmPath_mono raised)
    exact Or.imp (takesBackedHybridPath_mono raised wider surer) (takesHybridPath_mono raised wider)
  · rw [nilReason_eq_none_iff, nilReason_eq_none_iff]
    exact stays

end Raised

/-- Numbers that no operation rounds. -/
def exactNumbers : Rounding := ⟨id, monotone_id, fun _ => rfl, rfl⟩

def probableCandidate (confidence : exactNumbers.Value) :
    AuthorityCandidate exactNumbers.Value where
  authoritySource := "openalex"
  authorityId := "A1"
  canonicalLabel := "John Smith"
  confidence := confidence
  scoreBreakdown :=
    [("identifiers", exactNumbers.round (3 / 4)), ("affiliation", exactNumbers.round 0)]
  resolutionStatus := "probable_match"

/-- From the model's path to the hybrid path. -/
theorem routing_monotone_probable :
    routeRank (summarizeAuthorResolution id ⟨none, none⟩
        (withConfidence (probableCandidate (exactNumbers.round 0)) (exactNumbers.round (3 / 4)) ::
          [probableCandidate (exactNumbers.round (5 / 8))])) ≤
      routeRank (summarizeAuthorResolution id ⟨none, none⟩
        (withConfidence (probableCandidate (exactNumbers.round 0)) (exactNumbers.round (7 / 8)) ::
          [probableCandidate (exactNumbers.round (5 / 8))])) :=
  (routing_monotone exactNumbers id ⟨none, none⟩ (probableCandidate (exactNumbers.round 0))
    [probableCandidate (exactNumbers.round (5 / 8))] (Rounding.round_mono (by norm_num))).1

end Ukip.Authority.Routing
