import Ukip.Authority.Routing

/-!
# Reformulated queries

`authority/query_reformulation.py` for any rounding of its numbers, with
`generate_query_reformulations` of `llm_agent.py`: the queries that a language model proposes are
resolved one after the other, and a resolution replaces the best so far where `_is_better_result`
says so.
-/

namespace Ukip.Authority.Reformulation

open Foundation.FloatingPoint
open Analytics.Corpus (strip isPythonSpace)
open Authority.Feedback (roundHalfEven)
open Authority.Routing (AuthorResolutionSummary NilReason routeRank summarizeAuthorResolution)

structure Host where
  environ : String → Option String
  lower : List Char → List Char
  /-- `int(text)`, none for a `ValueError` -/
  int : String → Option Int

structure ResolveContext extends Routing.ResolveContext where
  doi : Option String
  year : Option Int

structure Resolution (Score : Type) where
  candidates : List (AuthorityCandidate Score)
  summary : AuthorResolutionSummary Score

structure ReformulationTrace (Score : Type) where
  enabled : Bool := false
  attempted : Bool := false
  applied : Bool := false
  provider : Option String := none
  model : Option String := none
  generatedQueries : Option (List String) := none
  selectedQuery : Option String := none
  retrievalGain : Int := 0
  candidateCountBefore : Nat := 0
  candidateCountAfter : Nat := 0
  promptTokens : Nat := 0
  completionTokens : Nat := 0
  estimatedCostUsd : Score

/-- The arguments of `generate_query_reformulations`. -/
structure ReformulationRequest where
  value : String
  affiliation : Option String
  orcidHint : Option String
  doi : Option String
  year : Option Int
  maxVariants : Nat
  modelName : String

structure QueryReformulationResult where
  variants : List String := []
  provider : Option String := none
  model : Option String := none
  promptTokens : Nat := 0
  completionTokens : Nat := 0

/-- What is read of a completion: the items of `variants`, none for one that is not a text. -/
structure Completion where
  items : List (Option String)
  promptTokens : Nat
  completionTokens : Nat

/-- `" ".join(item.strip().split())` -/
def cleaned (item : String) : String :=
  String.ofList ([' '].intercalate (Foundation.Words.words isPythonSpace
    (strip isPythonSpace item.toList)))

section Answer

variable (host : Host)

def isRewording (value text : String) : Bool :=
  text ≠ "" && host.lower text.toList ≠ host.lower (strip isPythonSpace value.toList)

def readVariants (value : String) (maxVariants : Nat) :
    List String → List (Option String) → List String
  | variants, [] => variants
  | variants, none :: items => readVariants value maxVariants variants items
  | variants, some item :: items =>
    let known :=
      if isRewording host value (cleaned item) ∧ cleaned item ∉ variants then
        variants ++ [cleaned item]
      else variants
    if maxVariants ≤ known.length then known else readVariants value maxVariants known items

/-- `generate_query_reformulations`; there may be no client, and a call may fail. -/
def generateQueryReformulations (client : Option (ReformulationRequest → Option Completion))
    (request : ReformulationRequest) : QueryReformulationResult :=
  match client.bind fun create => create request with
  | none => {}
  | some completion =>
    { variants := readVariants host request.value request.maxVariants [] completion.items
      provider := some "openai"
      model := some request.modelName
      promptTokens := completion.promptTokens
      completionTokens := completion.completionTokens }

/-- Queries from the texts of an answer, in their order: different, and none the value itself. -/
structure Offered (value : String) (texts variants : List String) : Prop where
  distinct : variants.Nodup
  rewords : ∀ text ∈ variants, isRewording host value text = true
  order : variants.Sublist texts

variable {host}

theorem readVariants_offered {value : String} {maxVariants : Nat} {variants : List String}
    (items : List (Option String)) {texts : List String}
    (offered : Offered host value texts variants) (room : variants.length < max 1 maxVariants) :
    Offered host value (texts ++ items.filterMap (Option.map cleaned))
        (readVariants host value maxVariants variants items) ∧
      (readVariants host value maxVariants variants items).length ≤ max 1 maxVariants := by
  induction items generalizing variants texts with
  | nil => exact ⟨{ offered with order := (List.append_nil texts).symm ▸ offered.order }, room.le⟩
  | cons head rest ih =>
    cases head with
    | none => exact ih offered room
    | some item =>
      have split : texts ++ (some item :: rest).filterMap (Option.map cleaned) =
          (texts ++ [cleaned item]) ++ rest.filterMap (Option.map cleaned) := by simp
      rw [readVariants, split]
      generalize eq : (if isRewording host value (cleaned item) ∧ cleaned item ∉ variants then
        variants ++ [cleaned item] else variants) = known
      obtain ⟨taken, grown⟩ : Offered host value (texts ++ [cleaned item]) known ∧
          known.length ≤ variants.length + 1 := by
        subst eq
        split
        · rename_i added
          refine ⟨⟨?_, ?_, offered.order.append (.refl _)⟩, by simp⟩
          · exact offered.distinct.append (List.nodup_singleton _)
              (List.disjoint_singleton.mpr added.2)
          · simpa [or_imp, forall_and] using ⟨offered.rewords, added.1⟩
        · exact ⟨{ offered with order := offered.order.trans (List.sublist_append_left _ _) },
            Nat.le_succ _⟩
      split
      · exact ⟨{ taken with order := taken.order.trans (List.sublist_append_left _ _) }, by omega⟩
      · exact ih taken (by omega)

/-- Whatever the model answers, the queries are texts of its answer, bounded in number. -/
theorem reformulations_offered (client : Option (ReformulationRequest → Option Completion))
    (request : ReformulationRequest) :
    Offered host request.value
        (((client.bind fun create => create request).elim [] Completion.items).filterMap
          (Option.map cleaned))
        (generateQueryReformulations host client request).variants ∧
      (generateQueryReformulations host client request).variants.length ≤
        max 1 request.maxVariants := by
  have empty : Offered host request.value [] [] := ⟨List.nodup_nil, by simp, .slnil⟩
  unfold generateQueryReformulations
  cases client.bind fun create => create request with
  | none => exact ⟨empty, Nat.zero_le _⟩
  | some completion => exact readVariants_offered completion.items empty (by simp)

end Answer

variable {float : Rounding}

/-- `bool(summary.nil_reason)` -/
def Resolution.isNil {Score : Type} (resolution : Resolution Score) : Bool :=
  resolution.summary.nilReason.isSome

def Resolution.top (resolution : Resolution float.Value) : float.Value :=
  resolution.candidates.head?.elim (float.round 0) AuthorityCandidate.confidence

def isBetterResult (base new : Resolution float.Value) : Bool :=
  if base.isNil && !new.isNil then true
  else if new.isNil && !base.isNil then false
  else if routeRank base.summary < routeRank new.summary then true
  else if routeRank new.summary < routeRank base.summary then false
  else if float.add base.top (float.round (5 / 100)) < new.top then true
  else if base.candidates.length < new.candidates.length ∧ base.top ≤ new.top then true
  else false

/-- The order of the comparison: a resolution without NIL first, then the route, then the
confidence. -/
def standing (resolution : Resolution float.Value) : Bool ×ₗ Nat ×ₗ float.Value :=
  toLex (!resolution.isNil, toLex (routeRank resolution.summary, resolution.top))

section Run

variable (host : Host)

def featureFlagEnabled : Bool :=
  ["1", "true", "yes", "on"].contains (String.ofList (host.lower (strip isPythonSpace
    ((host.environ "UKIP_ENABLE_LLM_QUERY_REFORMULATION").getD "").toList)))

def maxVariants : Nat :=
  match host.int ((host.environ "UKIP_LLM_QUERY_REFORMULATION_MAX_VARIANTS").getD "3") with
  | some count => (max 1 (min 5 count)).toNat
  | none => 3

def modelName : String :=
  let name := strip isPythonSpace
    ((host.environ "UKIP_LLM_QUERY_REFORMULATION_MODEL").getD "gpt-4o-mini").toList
  if name = [] then "gpt-4o-mini" else String.ofList name

variable (float) in
def estimatedCostUsd (promptTokens completionTokens : Nat) : float.Value :=
  let cost := float.add (float.mul (float.round promptTokens) (float.round (15 / 10 ^ 8)))
    (float.mul (float.round completionTokens) (float.round (6 / 10 ^ 7)))
  float.round (roundHalfEven (cost.1 * 10 ^ 6) / 10 ^ 6)

def shouldAttempt (resolution : Resolution float.Value) : Bool :=
  if resolution.candidates = [] then true
  else if resolution.summary.nilReason ∈
      [some .insufficientCoverage, some .unresolvedAmbiguity, some .conflictingEvidence] then true
  else resolution.summary.reviewRequired && decide (resolution.top < float.round (7 / 10))

def reformulationRequest (value : String) (context : ResolveContext) : ReformulationRequest where
  value := value
  affiliation := context.affiliation
  orcidHint := context.orcidHint
  doi := context.doi
  year := context.year
  maxVariants := maxVariants host
  modelName := modelName host

variable (resolverFn : String → String → ResolveContext → List (AuthorityCandidate float.Value))

def resolveVariant (context : ResolveContext) (query : String) : Resolution float.Value where
  candidates := resolverFn query "person" context
  summary := summarizeAuthorResolution host.lower context.toResolveContext
    (resolverFn query "person" context)

/-- What the loop changes: the best so far and what the trace says of it. -/
structure Best (Score : Type) where
  resolution : Resolution Score
  applied : Bool
  selectedQuery : Option String

def consider (context : ResolveContext) (best : Best float.Value) (query : String) :
    Best float.Value :=
  let alt := resolveVariant host resolverFn context query
  if isBetterResult best.resolution alt then
    { resolution := alt, applied := true, selectedQuery := some query }
  else best

def bestOf (context : ResolveContext) (base : Resolution float.Value) (variants : List String) :
    Best float.Value :=
  variants.foldl (consider host resolverFn context) ⟨base, false, none⟩

def runAuthorQueryReformulation (generate : ReformulationRequest → QueryReformulationResult)
    (value : String) (context : ResolveContext) (base : Resolution float.Value) :
    Resolution float.Value × ReformulationTrace float.Value :=
  let trace : ReformulationTrace float.Value :=
    { enabled := featureFlagEnabled host
      candidateCountBefore := base.candidates.length
      estimatedCostUsd := float.round 0 }
  if !trace.enabled || !shouldAttempt base then (base, trace)
  else
    let reformulation := generate (reformulationRequest host value context)
    let best := bestOf host resolverFn context base reformulation.variants
    (best.resolution,
      { trace with
        attempted := true
        applied := best.applied
        provider := reformulation.provider
        model := reformulation.model
        generatedQueries := some reformulation.variants
        selectedQuery := best.selectedQuery
        promptTokens := reformulation.promptTokens
        completionTokens := reformulation.completionTokens
        estimatedCostUsd :=
          estimatedCostUsd float reformulation.promptTokens reformulation.completionTokens
        candidateCountAfter := best.resolution.candidates.length
        retrievalGain := (best.resolution.candidates.length : Int) - base.candidates.length })

end Run

theorem standing_le_iff (first second : Resolution float.Value) :
    standing first ≤ standing second ↔
      (!first.isNil) < (!second.isNil) ∨ first.isNil = second.isNil ∧
        (routeRank first.summary < routeRank second.summary ∨
          routeRank first.summary = routeRank second.summary ∧ first.top ≤ second.top) := by
  rw [standing, standing, Prod.Lex.toLex_le_toLex, Prod.Lex.toLex_le_toLex]
  simp

theorem standing_le_of_isBetterResult {base new : Resolution float.Value}
    (better : isBetterResult base new = true) : standing base ≤ standing new := by
  rw [standing_le_iff]
  unfold isBetterResult at better
  split_ifs at better with found lost higher lower ahead more
  · left
    revert found
    cases base.isNil <;> cases new.isNil <;> decide
  all_goals
    have same : base.isNil = new.isNil := by
      revert found lost
      cases base.isNil <;> cases new.isNil <;> decide
    refine .inr ⟨same, ?_⟩
  · exact .inl higher
  all_goals
    have level : routeRank base.summary = routeRank new.summary := by omega
    refine .inr ⟨level, ?_⟩
  · exact (Rounding.le_add base.top (by norm_num)).trans ahead.le
  · exact more.2

section Loop

variable {host : Host} {context : ResolveContext} {base : Resolution float.Value}
  {resolverFn : String → String → ResolveContext → List (AuthorityCandidate float.Value)}

/-- Where the best so far comes from, and what the trace says of it. -/
def Chosen (host : Host)
    (resolverFn : String → String → ResolveContext → List (AuthorityCandidate float.Value))
    (context : ResolveContext) (base : Resolution float.Value) (variants : List String)
    (best : Best float.Value) : Prop :=
  (best.resolution = base ∧ best.applied = false ∧ best.selectedQuery = none) ∨
    ∃ query ∈ variants, best.resolution = resolveVariant host resolverFn context query ∧
      best.applied = true ∧ best.selectedQuery = some query

variable {best : Best float.Value} {query : String}

theorem consider_better
    (better : isBetterResult best.resolution (resolveVariant host resolverFn context query) = true) :
    consider host resolverFn context best query =
      ⟨resolveVariant host resolverFn context query, true, some query⟩ := if_pos better

theorem consider_other
    (other : ¬isBetterResult best.resolution (resolveVariant host resolverFn context query) = true) :
    consider host resolverFn context best query = best := if_neg other

theorem consider_standing (best : Best float.Value) (query : String) :
    standing best.resolution ≤ standing (consider host resolverFn context best query).resolution := by
  by_cases better : isBetterResult best.resolution (resolveVariant host resolverFn context query) = true
  · rw [consider_better better]
    exact standing_le_of_isBetterResult better
  · rw [consider_other better]

theorem consider_chosen {variants : List String}
    (chosen : Chosen host resolverFn context base variants best) (member : query ∈ variants) :
    Chosen host resolverFn context base variants (consider host resolverFn context best query) := by
  by_cases better : isBetterResult best.resolution (resolveVariant host resolverFn context query) = true
  · rw [consider_better better]
    exact .inr ⟨query, member, rfl, rfl, rfl⟩
  · rw [consider_other better]
    exact chosen

theorem foldl_consider_standing (queries : List String) (best : Best float.Value) :
    standing best.resolution ≤
      standing (queries.foldl (consider host resolverFn context) best).resolution := by
  induction queries generalizing best with
  | nil => exact le_rfl
  | cons query queries ih =>
    rw [List.foldl_cons]
    exact (consider_standing best query).trans (ih _)

theorem foldl_consider_chosen (variants queries : List String) (within : queries ⊆ variants)
    (best : Best float.Value) (chosen : Chosen host resolverFn context base variants best) :
    Chosen host resolverFn context base variants
      (queries.foldl (consider host resolverFn context) best) := by
  induction queries generalizing best with
  | nil => exact chosen
  | cons query queries ih =>
    obtain ⟨member, rest⟩ := List.cons_subset.mp within
    rw [List.foldl_cons]
    exact ih rest _ (consider_chosen chosen member)

theorem bestOf_chosen (variants : List String) :
    Chosen host resolverFn context base variants (bestOf host resolverFn context base variants) :=
  foldl_consider_chosen variants variants (List.Subset.refl _) _ (.inl ⟨rfl, rfl, rfl⟩)

variable {generate : ReformulationRequest → QueryReformulationResult} {value : String}

theorem run_idle (idle : (!featureFlagEnabled host || !shouldAttempt base) = true) :
    runAuthorQueryReformulation host resolverFn generate value context base =
      (base,
        { enabled := featureFlagEnabled host
          candidateCountBefore := base.candidates.length
          estimatedCostUsd := float.round 0 }) :=
  if_pos idle

theorem run_attempted (attempts : ¬(!featureFlagEnabled host || !shouldAttempt base) = true) :
    (runAuthorQueryReformulation host resolverFn generate value context base).1 =
      (bestOf host resolverFn context base
        (generate (reformulationRequest host value context)).variants).resolution := by
  unfold runAuthorQueryReformulation
  exact congrArg Prod.fst (if_neg attempts)

end Loop

/-- The resolution after reformulation stands no lower than the one before, and is that one or the
resolution of one of the variants. -/
theorem reformulation_never_worse (float : Rounding) (host : Host)
    (resolverFn : String → String → ResolveContext → List (AuthorityCandidate float.Value))
    (generate : ReformulationRequest → QueryReformulationResult) (value : String)
    (context : ResolveContext) (base : Resolution float.Value) :
    let result := (runAuthorQueryReformulation host resolverFn generate value context base).1
    standing base ≤ standing result ∧
      (result = base ∨ ∃ query ∈ (generate (reformulationRequest host value context)).variants,
        result = resolveVariant host resolverFn context query) := by
  intro result
  by_cases idle : (!featureFlagEnabled host || !shouldAttempt base) = true
  · have kept : result = base := congrArg Prod.fst (run_idle idle)
    rw [kept]
    exact ⟨le_rfl, .inl rfl⟩
  · have chosen : result = _ := run_attempted idle
    rw [chosen]
    refine ⟨foldl_consider_standing _ ⟨base, false, none⟩, ?_⟩
    refine (bestOf_chosen _).imp (fun kept => kept.1) ?_
    exact fun ⟨query, member, taken, _⟩ => ⟨query, member, taken⟩

end Ukip.Authority.Reformulation
