import Ukip.Authority.Resolver
import Ukip.Foundation.Grouping

/-!
# Broader concepts among the candidates

`authority/hierarchical_fallback.py`.  For concepts and institutions, a candidate whose label
has only words of the value, but not all of them, is marked as an ancestor.
-/

namespace Ukip.Authority

open Foundation.Grouping (firsts)

def supportedEntityTypes : List String := ["concept", "institution", "organization"]

def supportedSources : List String := ["wikidata", "dbpedia", "openalex"]

def stopwords : List String :=
  ["a", "an", "and", "de", "del", "for", "in", "la", "las", "los", "of", "the", "y"]

/-- `[a-z0-9]` -/
def isTokenChar (c : Char) : Bool :=
  (0x61 ≤ c.toNat && c.toNat ≤ 0x7a) || (0x30 ≤ c.toNat && c.toNat ≤ 0x39)

section Fallback

variable {Score : Type} [LinearOrder Score]
variable (unicode : Unicode)

def tokenize (value : String) : List String :=
  ((Foundation.Words.words (fun c => !isTokenChar c) (normalizeName unicode value).toList).map
    String.ofList).filter fun token => token ∉ stopwords

/-- `len(query_token_set - candidate_token_set)` -/
def hierarchyDistance (queryTokens candidateTokens : List String) : Nat :=
  ((firsts id queryTokens).filter fun token => token ∉ candidateTokens).length

/-- The body of the loop; `floor` is 0.35. -/
def markAncestor (floor : Score) (queryTokens : List String) (candidate : AuthorityCandidate Score) :
    AuthorityCandidate Score :=
  if candidate.authoritySource ∉ supportedSources then candidate
  else if candidate.resolutionStatus = "exact_match" then candidate
  else
    let candidateTokens := tokenize unicode candidate.canonicalLabel
    if candidateTokens.isEmpty then candidate
    else if candidateTokens ⊆ queryTokens ∧ queryTokens ⊆ candidateTokens then candidate
    else if ¬candidateTokens ⊆ queryTokens then candidate
    else
      let distance := hierarchyDistance queryTokens candidateTokens
      if distance = 0 ∨ 3 < distance then candidate
      else if candidate.confidence < floor then candidate
      else
        { candidate with
          resolutionStatus := "partial_ancestor_match"
          hierarchyDistance := some distance
          evidence := firsts id (candidate.evidence ++
            ["hierarchical_fallback:" ++ candidate.authoritySource,
              "hierarchy_distance:" ++ toString distance]) }

def applyHierarchicalFallback (floor : Score) (value entityType : String)
    (candidates : List (AuthorityCandidate Score)) : List (AuthorityCandidate Score) :=
  if entityType ∉ supportedEntityTypes ∨ candidates.isEmpty then candidates
  else
    let queryTokens := tokenize unicode value
    if queryTokens.length < 2 then candidates
    else candidates.map (markAncestor unicode floor queryTokens)

variable {unicode}

end Fallback

end Ukip.Authority
