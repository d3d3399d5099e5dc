import Ukip.Analytics.Delegation
import Ukip.Foundation.NonInterference
import Ukip.Foundation.Separated

/-!
# The analyzer endpoints

`routers/analytics_analyzers.py`: the four endpoints that look in the shared cache
first, then ask the engine, and compute the answer themselves last.  The cache key and
the local path carry the scope of the request; the request to the engine does not.
-/

namespace Ukip.Analytics.Analyzers

open Foundation.Separated Corpus Correlation Delegation Analytics.Engine TopicModeling
open Tenancy.Access

/-- A float as its `repr`, which has no underscore. -/
structure FloatText where
  text : String
  plain : '_' ∉ text.toList

inductive AnalyzerRequest where
  | topics (domainId : String) (topN : Nat)
  | cooccurrence (domainId : String) (topN : Nat) (normalizeSimilar : Bool)
      (minSimilarity : FloatText)
  | clusters (domainId : String) (nClusters : Nat)
  | correlation (domainId : String) (topN : Nat)

def requestDomain : AnalyzerRequest → String
  | .topics domainId _ => domainId
  | .cooccurrence domainId _ _ _ => domainId
  | .clusters domainId _ => domainId
  | .correlation domainId _ => domainId

/-- The bounds of the query parameters; `min_similarity` is within its bounds. -/
def withinBounds : AnalyzerRequest → Bool
  | .topics _ topN => 1 ≤ topN && topN ≤ 100
  | .cooccurrence _ topN _ _ => 1 ≤ topN && topN ≤ 100
  | .clusters _ nClusters => 2 ≤ nClusters && nClusters ≤ 20
  | .correlation _ topN => 1 ≤ topN && topN ≤ 50

/-- `[a-z][a-z0-9_\-]{0,63}` for the whole text. -/
def isDomainText : List Char → Bool
  | [] => false
  | head :: rest =>
    head.isLower && rest.length ≤ 63 &&
      rest.all fun char => char.isLower || char.isDigit || char == '_' || char == '-'

/-- `_DOMAIN_RE.match`; `$` also matches before a final line feed. -/
def isDomainId (domainId : String) : Bool :=
  isDomainText domainId.toList ||
    domainId.toList.getLast? == some '\n' && isDomainText domainId.toList.dropLast

def invalidDomainId (domainId : String) : HttpError where
  statusCode := 422
  detail := "Invalid domain_id '" ++ domainId ++ "': must match [a-z][a-z0-9_-]\x7b0,63\x7d"

/-- The keys of `_analytics_cache` -/
def cacheKey (scope : Option Int) : AnalyzerRequest → String
  | .topics domainId topN =>
    "topics_" ++ domainId ++ "_" ++ scopeTag scope ++ "_" ++ Nat.repr topN
  | .cooccurrence domainId topN normalizeSimilar minSimilarity =>
    "cooccurrence_" ++ domainId ++ "_" ++ scopeTag scope ++ "_" ++ Nat.repr topN ++ "_" ++
      (if normalizeSimilar then "True" else "False") ++ "_" ++ minSimilarity.text
  | .clusters domainId nClusters =>
    "clusters_" ++ domainId ++ "_" ++ scopeTag scope ++ "_" ++ Nat.repr nClusters
  | .correlation domainId topN =>
    "correlation_" ++ domainId ++ "_" ++ scopeTag scope ++ "_" ++ Nat.repr topN

structure Deployment (Number : Type) where
  python : Python
  arithmetic : Arithmetic Number
  /-- the float of a `repr` -/
  ofText : String → Number
  /-- `_concept_key` -/
  conceptKey : String → String
  registry : Registry

structure AnalyticsDb where
  directory : Directory
  entities : List RawEntity

inductive Answer (Number : Type) where
  /-- a parameter out of its bounds: FastAPI answers 422 -/
  | rejected
  | failed (error : HttpError)
  | result (result : AnalyzerResult Number)

abbrev Cache (Number : Type) := List (String × AnalyzerResult Number)

structure Server (Number : Type) where
  db : AnalyticsDb
  cache : Cache Number
  /-- what each user has been answered -/
  answers : List (User × Answer Number)

inductive AnalyzerEvent (Number : Type) where
  | request (user : User) (request : AnalyzerRequest) (client : Option (EngineClient Number))
  /-- entries expire, are evicted or invalidated -/
  | forget (kept : String → Bool)

variable {Number : Type} (deployment : Deployment Number)

def cacheGet (cache : Cache Number) (key : String) : Option (AnalyzerResult Number) :=
  (cache.find? fun entry => entry.1 == key).map Prod.snd

def cacheSet (cache : Cache Number) (key : String) (value : AnalyzerResult Number) :
    Cache Number :=
  (key, value) :: cache.filter fun entry => entry.1 != key

def computeLocally (entities : List RawEntity) (scope : Option Int) :
    AnalyzerRequest → Except AnalyzerError (AnalyzerResult Number)
  | .topics domainId topN =>
    (TopicModeling.topTopics deployment.python deployment.arithmetic deployment.registry entities
      domainId topN scope).map .topics
  | .cooccurrence domainId topN normalizeSimilar minSimilarity =>
    (cooccurrence deployment.python deployment.arithmetic deployment.registry entities domainId
      topN scope normalizeSimilar deployment.conceptKey
      (deployment.ofText minSimilarity.text)).map .cooccurrence
  | .clusters domainId nClusters =>
    (TopicModeling.topicClusters deployment.python deployment.registry entities domainId
      nClusters scope).map .clusters
  | .correlation domainId topN =>
    (topCorrelations deployment.registry entities domainId topN scope).map .correlation

def delegate (client : Option (EngineClient Number)) (entities : List RawEntity)
    (scope : Option Int) : AnalyzerRequest → Option (AnalyzerResult Number)
  | .topics domainId topN =>
    tryEngineAnalytics deployment.arithmetic client entities domainId .topics topN scope
  | .cooccurrence domainId topN normalizeSimilar _ =>
    if normalizeSimilar then none
    else tryEngineAnalytics deployment.arithmetic client entities domainId .cooccurrence topN scope
  | .clusters domainId nClusters =>
    tryEngineAnalytics deployment.arithmetic client entities domainId .clusters nClusters scope
  | .correlation domainId topN =>
    tryEngineAnalytics deployment.arithmetic client entities domainId .correlation topN scope

def toAnswer : Except AnalyzerError (AnalyzerResult Number) → Answer Number
  | .ok result => .result result
  | .error (.valueError detail) => .failed ⟨404, detail⟩
  | .error .other => .failed ⟨500, "Analysis error"⟩

def respond (db : AnalyticsDb) (cache : Cache Number) (user : User) (request : AnalyzerRequest)
    (client : Option (EngineClient Number)) : Answer Number × Cache Number :=
  if !withinBounds request then (.rejected, cache)
  else if !isDomainId (requestDomain request) then
    (.failed (invalidDomainId (requestDomain request)), cache)
  else
    match requestScope db.directory user with
    | .error error => (.failed error, cache)
    | .ok scope =>
      let key := cacheKey scope request
      match cacheGet cache key with
      | some cached => (.result cached, cache)
      | none =>
        match delegate deployment client db.entities scope request with
        | some result => (.result result, cacheSet cache key result)
        | none =>
          match computeLocally deployment db.entities scope request with
          | .ok result => (.result result, cacheSet cache key result)
          | failure => (toAnswer failure, cache)

def step (server : Server Number) : AnalyzerEvent Number → Server Number
  | .request user request client =>
    let outcome := respond deployment server.db server.cache user request client
    { server with
      cache := outcome.2
      answers := server.answers ++ [(user, outcome.1)] }
  | .forget kept => { server with cache := server.cache.filter fun entry => kept entry.1 }

def Server.start (db : AnalyticsDb) : Server Number where
  db := db
  cache := []
  answers := []

/-- A scope that a request can have. -/
def Occurs (scope : Option Int) : Prop :=
  scope = none ∨ scope = some legacyGlobalOrgId ∨ ∃ orgId : Nat, scope = some (orgId : Int)

theorem scopeTag_tail (orgId : Nat) (scope : Option Int) (occurs : Occurs scope)
    (first second : List Char)
    (same : first ++ '_' :: (scopeTag scope).toList =
      second ++ '_' :: (scopeTag (some (orgId : Int))).toList) :
    scope = some (orgId : Int) ∧ first = second := by
  have plain : ∀ value : Nat, '_' ∉ (Nat.repr value).toList := not_mem_repr (by decide)
  have digits : ∀ char ∈ (Nat.repr orgId).toList, char.isDigit = true := by
    intro char member
    rw [Nat.toList_repr] at member
    exact Nat.isDigit_of_mem_toDigits (by decide) (by decide) member
  have globalPlain : '_' ∉ "global".toList := by decide
  have notGlobal : "global".toList ≠ (Nat.repr orgId).toList := by
    intro equal
    have digit := digits 'g' (by rw [← equal]; decide)
    cases digit
  have organizationTail : (scopeTag (some (orgId : Int))).toList =
      "org".toList ++ '_' :: (Nat.repr orgId).toList := by
    rw [scopeTag_organization, String.toList_append]
    rfl
  rw [organizationTail, ← List.cons_append, ← List.append_assoc] at same
  rcases occurs with rfl | rfl | ⟨other, rfl⟩
  · have split := eq_of_last_split globalPlain (plain orgId) same
    exact absurd split.2 notGlobal
  · have legacyTail : (scopeTag (some legacyGlobalOrgId)).toList =
        "legacy".toList ++ '_' :: "global".toList := rfl
    rw [legacyTail, ← List.cons_append, ← List.append_assoc] at same
    have split := eq_of_last_split globalPlain (plain orgId) same
    exact absurd split.2 notGlobal
  · have otherTail : (scopeTag (some (other : Int))).toList =
        "org".toList ++ '_' :: (Nat.repr other).toList := by
      rw [scopeTag_organization, String.toList_append]
      rfl
    rw [otherTail, ← List.cons_append, ← List.append_assoc] at same
    obtain ⟨fronts, numbers⟩ := eq_of_last_split (plain other) (plain orgId) same
    rw [repr_injective numbers]
    exact ⟨rfl, List.append_cancel_right fronts⟩

theorem numberedKey_injective (orgId : Nat) (scope : Option Int) (occurs : Occurs scope)
    (endpoint domainId otherDomain : String) (number otherNumber : Nat)
    (same : (endpoint ++ domainId ++ "_" ++ scopeTag scope ++ "_" ++ Nat.repr number).toList =
      (endpoint ++ otherDomain ++ "_" ++ scopeTag (some (orgId : Int)) ++ "_" ++
        Nat.repr otherNumber).toList) :
    scope = some (orgId : Int) ∧ domainId = otherDomain ∧ number = otherNumber := by
  have plain : ∀ value : Nat, '_' ∉ (Nat.repr value).toList := not_mem_repr (by decide)
  have underscore : "_".toList = ['_'] := rfl
  simp only [String.toList_append, underscore, List.append_assoc, List.cons_append,
    List.nil_append] at same
  simp only [← List.append_assoc, ← List.cons_append] at same
  obtain ⟨fronts, numbers⟩ := eq_of_last_split (plain number) (plain otherNumber) same
  obtain ⟨scopes, domains⟩ := scopeTag_tail orgId scope occurs _ _ fronts
  exact ⟨scopes, String.toList_injective (List.append_cancel_left domains),
    repr_injective numbers⟩

def endpointMark : AnalyzerRequest → List Char
  | .topics _ _ => ['t', 'o', 'p']
  | .cooccurrence _ _ _ _ => ['c', 'o', 'o']
  | .clusters _ _ => ['c', 'l', 'u']
  | .correlation _ _ => ['c', 'o', 'r']

theorem cacheKey_mark (scope : Option Int) (request : AnalyzerRequest) :
    (cacheKey scope request).toList.take 3 = endpointMark request := by
  unfold cacheKey endpointMark
  cases request with
  | topics _ _ => simp
  | cooccurrence _ _ _ _ => simp
  | clusters _ _ => simp
  | correlation _ _ => simp

theorem eq_of_joined {front other back otherBack : String} (plain : '_' ∉ back.toList)
    (otherPlain : '_' ∉ otherBack.toList)
    (same : front ++ "_" ++ back = other ++ "_" ++ otherBack) :
    front = other ∧ back = otherBack := by
  have texts := congrArg String.toList same
  simp only [String.toList_append, List.append_assoc] at texts
  obtain ⟨fronts, backs⟩ := eq_of_last_split plain otherPlain texts
  exact ⟨String.toList_injective fronts, String.toList_injective backs⟩

theorem cacheKey_injective (orgId : Nat) (scope : Option Int) (occurs : Occurs scope)
    (request other : AnalyzerRequest)
    (same : cacheKey scope request = cacheKey (some (orgId : Int)) other) :
    scope = some (orgId : Int) ∧ request = other := by
  have texts := congrArg String.toList same
  have marks := congrArg (List.take 3) texts
  rw [cacheKey_mark, cacheKey_mark] at marks
  cases request with
  | topics domainId topN =>
    cases other with
    | topics otherDomain otherN =>
      unfold cacheKey at texts
      obtain ⟨scopes, rfl, rfl⟩ :=
        numberedKey_injective orgId scope occurs "topics_" _ _ _ _ texts
      exact ⟨scopes, rfl⟩
    | cooccurrence _ _ _ _ => cases marks
    | clusters _ _ => cases marks
    | correlation _ _ => cases marks
  | cooccurrence domainId topN normalizeSimilar minSimilarity =>
    cases other with
    | topics _ _ => cases marks
    | cooccurrence otherDomain otherN otherSimilar otherMin =>
      have flagPlain : ∀ flag : Bool,
          '_' ∉ (if flag then "True" else "False").toList := by
        intro flag
        cases flag <;> decide
      unfold cacheKey at same
      obtain ⟨fronts, floats⟩ := eq_of_joined minSimilarity.plain otherMin.plain same
      obtain ⟨keys, flags⟩ := eq_of_joined (flagPlain normalizeSimilar)
        (flagPlain otherSimilar) fronts
      obtain ⟨scopes, rfl, rfl⟩ := numberedKey_injective orgId scope occurs "cooccurrence_"
        _ _ _ _ (congrArg String.toList keys)
      have similarSame : normalizeSimilar = otherSimilar := by
        revert flags
        cases normalizeSimilar <;> cases otherSimilar <;> decide
      obtain ⟨text, plain⟩ := minSimilarity
      obtain ⟨otherText, otherPlain⟩ := otherMin
      obtain rfl : text = otherText := floats
      subst similarSame
      exact ⟨scopes, rfl⟩
    | clusters _ _ => cases marks
    | correlation _ _ => cases marks
  | clusters domainId nClusters =>
    cases other with
    | topics _ _ => cases marks
    | cooccurrence _ _ _ _ => cases marks
    | clusters otherDomain otherN =>
      unfold cacheKey at texts
      obtain ⟨scopes, rfl, rfl⟩ :=
        numberedKey_injective orgId scope occurs "clusters_" _ _ _ _ texts
      exact ⟨scopes, rfl⟩
    | correlation _ _ => cases marks
  | correlation domainId topN =>
    cases other with
    | topics _ _ => cases marks
    | cooccurrence _ _ _ _ => cases marks
    | clusters _ _ => cases marks
    | correlation otherDomain otherN =>
      unfold cacheKey at texts
      obtain ⟨scopes, rfl, rfl⟩ :=
        numberedKey_injective orgId scope occurs "correlation_" _ _ _ _ texts
      exact ⟨scopes, rfl⟩

end Ukip.Analytics.Analyzers
