import Ukip.Analytics.Corpus
import Ukip.Foundation.Elections
import Ukip.Foundation.Words

/-!
# Authority resolution

`authority/resolver.py`: the sources are asked at the same time, and their candidates are
joined in the order in which the calls complete, scored, merged and ranked.  The Unicode
database, the token ratio and the score of a candidate come from outside.
-/

namespace Ukip.Authority

open Foundation.LeaderGroups Foundation.Tally
open Analytics.Corpus (isPythonSpace)

structure AuthorityCandidate (Score : Type) where
  authoritySource : String
  authorityId : String
  canonicalLabel : String
  aliases : List String := []
  description : Option String := none
  confidence : Score
  uri : Option String := none
  scoreBreakdown : List (String × Score) := []
  evidence : List String := []
  resolutionStatus : String := "unresolved"
  mergedSources : List String := []
  hierarchyDistance : Option Int := none
deriving DecidableEq

/-- What `compute_score` answers. -/
structure Scored (Score : Type) where
  score : Score
  breakdown : List (String × Score)
  evidence : List String
  resolutionStatus : String

/-- `unicodedata`, the class `\w` of `re` and `str.lower`. -/
structure Unicode where
  nfd : List Char → List Char
  isNonspacingMark : Char → Bool
  isWordChar : Char → Bool
  lower : List Char → List Char

/-- `thefuzz` on two texts, from 0 to 100. -/
structure Fuzz where
  tokenSortRatio : String → String → Nat
  symmetric : ∀ a b, tokenSortRatio a b = tokenSortRatio b a

section Names

variable (unicode : Unicode)

def stripDiacritics (text : List Char) : List Char :=
  (unicode.nfd text).filter fun c => !unicode.isNonspacingMark c

def normalizeName (name : String) : String :=
  let s := (stripDiacritics unicode name.toList).map fun c =>
    if unicode.isWordChar c || isPythonSpace c then c else ' '
  let collapsed := Foundation.Words.collapse isPythonSpace ' ' false s
  String.ofList (unicode.lower (Foundation.Words.trim isPythonSpace collapsed))

end Names

def dedupThreshold : Nat := 92

def maxResults : Nat := 20

/-- `_SOURCE_PRIORITY`, 0 for any other source. -/
def sourcePriority (source : String) : Nat :=
  (([("orcid", 5), ("openalex", 4), ("viaf", 3), ("wikidata", 2), ("dbpedia", 1)] :
    List (String × Nat)).lookup source).getD 0

section Model

variable {Score : Type} [LinearOrder Score]
variable (unicode : Unicode) (fuzz : Fuzz)

def priority (x : AuthorityCandidate Score) : Nat := sourcePriority x.authoritySource

/-- `sim >= _DEDUP_THRESHOLD` -/
def similar (c other : AuthorityCandidate Score) : Bool :=
  decide (dedupThreshold ≤ fuzz.tokenSortRatio (normalizeName unicode c.canonicalLabel)
    (normalizeName unicode other.canonicalLabel))

def reference (x : AuthorityCandidate Score) : String := x.authoritySource ++ ":" ++ x.authorityId

/-- The candidate that stands for a group; `max` gives the first of the highest priority. -/
def mergeGroup (group : AuthorityCandidate Score × List (AuthorityCandidate Score)) :
    AuthorityCandidate Score :=
  if group.2.isEmpty then group.1
  else
    let (best, others) := firstMax priority group.1 group.2
    { best with mergedSources := others.map reference }

/-- `_deduplicate`; what is left for `groups` is what no earlier group has used. -/
def deduplicate (candidates : List (AuthorityCandidate Score)) : List (AuthorityCandidate Score) :=
  if candidates.length ≤ 1 then candidates
  else (groups (similar unicode fuzz) candidates).map mergeGroup

def applyScore (computeScore : AuthorityCandidate Score → Scored Score)
    (c : AuthorityCandidate Score) : AuthorityCandidate Score :=
  let scored := computeScore c
  { c with
    confidence := scored.score
    scoreBreakdown := scored.breakdown
    evidence := scored.evidence
    resolutionStatus := scored.resolutionStatus }

/-- The outcome of a future: the candidates of a source, or the exception of the call. -/
abbrev Answer (Score : Type) := Except String (List (AuthorityCandidate Score))

/-- What a completed future adds to `raw`: a failed call adds nothing. -/
def resultOf (answers : List (Answer Score)) (future : Nat) : List (AuthorityCandidate Score) :=
  match answers[future]? with
  | some (.ok candidates) => candidates
  | _ => []

/-- `as_completed` gives every future once, in some order. -/
def IsCompletion (answers : List (Answer Score)) (completed : List Nat) : Prop :=
  completed.Perm (List.range answers.length)

instance (answers : List (Answer Score)) (completed : List Nat) :
    Decidable (IsCompletion answers completed) :=
  inferInstanceAs (Decidable (completed.Perm (List.range answers.length)))

def raw (answers : List (Answer Score)) (completed : List Nat) : List (AuthorityCandidate Score) :=
  completed.flatMap (resultOf answers)

def resolveAll (computeScore : AuthorityCandidate Score → Scored Score)
    (answers : List (Answer Score)) (completed : List Nat) : List (AuthorityCandidate Score) :=
  let deduped := deduplicate unicode fuzz ((raw answers completed).map (applyScore computeScore))
  (sortedBy (fun a b => decide (b.confidence ≤ a.confidence)) deduped).take maxResults

/-- The same candidates for every two orders in which the calls complete. -/
def OrderIndependent (computeScore : AuthorityCandidate Score → Scored Score)
    (answers : List (Answer Score)) : Prop :=
  ∀ first second, IsCompletion answers first → IsCompletion answers second →
    resolveAll unicode fuzz computeScore answers first =
      resolveAll unicode fuzz computeScore answers second

/-- A candidate as the `rank`-th of the answer of one future. -/
structure Placed (Score : Type) where
  future : Nat
  rank : Nat
  candidate : AuthorityCandidate Score
deriving DecidableEq

def placedOf (answers : List (Answer Score)) (future : Nat) : List (Placed Score) :=
  (resultOf answers future).zipIdx.map fun entry => ⟨future, entry.2, entry.1⟩

def placed (answers : List (Answer Score)) (completed : List Nat) : List (Placed Score) :=
  completed.flatMap (placedOf answers)

def similarPlaced (a b : Placed Score) : Bool := similar unicode fuzz a.candidate b.candidate

def priorityPlaced (a : Placed Score) : Nat := priority a.candidate

/-- When the order of completion does not show: similarity between two answers is that of
cliques, in each group the highest priority and all the rest come from one answer each, and
two groups whose winners have the same confidence come in the same order in every answer. -/
def SourcesSettled (computeScore : AuthorityCandidate Score → Scored Score)
    (answers : List (Answer Score)) : Prop :=
  Settled Placed.future Placed.rank priorityPlaced (similarPlaced unicode fuzz)
    (placed answers (List.range answers.length)) fun a b =>
      (computeScore a.candidate).score = (computeScore b.candidate).score

end Model

end Ukip.Authority
