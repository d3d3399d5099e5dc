import Ukip.Analytics.Corpus
import Ukip.Clustering.Blocking
import Ukip.Clustering.Phonetics
import Ukip.Foundation.LeaderClusters
import Ukip.Foundation.OrderBy
import Ukip.Foundation.OverlappingLeaders
import Ukip.Foundation.Words

/-!
# The groups of a field's values

`_build_disambig_groups` of `routers/deps.py`: the distinct values of a field, grouped by blocking
and union-find, by the legacy passes over the list, or by a key.  A group is offered for merging
its variations into one canonical value.
-/

namespace Ukip.Clustering.DisambiguationGroups

open Foundation (SetOrder)
open Foundation.Grouping
open Foundation.LeaderClusters (captured foldl_gather gather mem_captured)
open Foundation.OverlappingLeaders Foundation.Tally
open Foundation.Words (words)
open Analytics.Corpus (strip isPythonSpace)
open Clustering.Phonetics (colognePhonetic metaphone)

structure Host where
  environ : String → Option String
  nfd : List Char → List Char
  lower : List Char → List Char
  /-- `unicodedata.category(c) == "Mn"` -/
  isMark : Char → Bool
  /-- `int(round(part / whole * 100))` -/
  percent : Nat → Nat → Nat
  /-- `fuzz.token_sort_ratio` -/
  tokenSortRatio : String → String → Nat
  /-- the score of a choice in `process.extract` with that scorer -/
  extractScore : String → String → Nat
  setOrder : SetOrder String
  /-- `SemanticIndex.build`, the neighbours at 0.85 and above; none without an embedder -/
  buildIndex : List String → Option (String → List String)

structure Group where
  main : String
  variations : List String
  count : Nat
  algorithmUsed : String
  deriving DecidableEq

section Model

variable (host : Host)

def joinWords (tokens : List String) : String := " ".intercalate tokens

def splitWords (text : List Char) : List String := (words isPythonSpace text).map String.ofList

/-- `[a-z0-9]` -/
def isTokenChar (c : Char) : Bool := ('a' ≤ c && c ≤ 'z') || ('0' ≤ c && c ≤ '9')

def fingerprint (s : String) : String :=
  let plain := host.lower ((host.nfd s.toList).filter fun c => !host.isMark c)
  let spaced := plain.map fun c => if isTokenChar c || isPythonSpace c then c else ' '
  joinWords ((splitWords spaced).insertionSort (· ≤ ·))

def ngrams (n : Nat) (s : String) : List (List Char) :=
  let text := strip isPythonSpace (host.lower s.toList)
  if text.length < n then (if text = [] then [] else [text])
  else ((List.range (text.length - n + 1)).map fun i => (text.drop i).take n).dedup

/-- `ngram_similarity` on bigrams. -/
def ngramSimilarity (a b : String) : Nat :=
  let sa := ngrams host 2 a
  let sb := ngrams host 2 b
  if sa = [] ∧ sb = [] then 100
  else if sa = [] ∨ sb = [] then 0
  else host.percent (sa.filter fun gram => gram ∈ sb).length (sa ++ sb).dedup.length

/-- `cologne_phonetic(val) or metaphone(val)` -/
def phoneticCode (value : String) : String :=
  let code := colognePhonetic host.nfd host.lower value.toList
  String.ofList (if code ≠ [] then code else metaphone host.nfd host.lower host.isMark value.toList)

def blockingKeys (value : String) : List String :=
  let fp := fingerprint host value
  let tokens := splitWords fp.toList
  let printed :=
    if fp = "" then []
    else ("fp:" ++ fp) ::
      (if tokens = [] then [] else
        ("pre:" ++ joinWords (tokens.take 3)) ::
          (tokens.filter fun tok => 3 ≤ tok.length).map fun tok => "tok:" ++ tok)
  let code := phoneticCode host value
  host.setOrder.visit (printed ++ if code = "" then [] else ["ph:" ++ code]).dedup

def isSwitchedOn (text : String) : Bool :=
  ["1", "true", "yes", "on"].contains
    (String.ofList (host.lower (strip isPythonSpace text.toList)))

def blockingEnabled : Bool :=
  match host.environ "UKIP_USE_BLOCKING" with
  | none => true
  | some val => if strip isPythonSpace val.toList = [] then true else isSwitchedOn host val

def semanticBlockingEnabled : Bool :=
  isSwitchedOn host ((host.environ "UKIP_ENABLE_SEMANTIC_BLOCKING").getD "")

def maybeBuildIndex (values : List String) : Option (String → List String) :=
  if !semanticBlockingEnabled host || decide (values.length < 2) then none else host.buildIndex values

def groupOf (algorithm main : String) (variations : List String) : Group where
  main := main
  variations := variations
  count := variations.length
  algorithmUsed := algorithm

/-- `max(members, key=len)` -/
def longest : List String → String
  | [] => ""
  | first :: others =>
    others.foldl (fun best value => if best.length < value.length then value else best) first

def blockedGroups (algorithm : String) (threshold : Int) (values : List String) : List Group :=
  let semanticIndex := maybeBuildIndex host values
  let label :=
    if semanticIndex.isSome then algorithm ++ "+blocking+semantic" else algorithm ++ "+blocking"
  let components := clusterValues (blockingKeys host)
    (fun a b => decide (threshold ≤ host.tokenSortRatio a b)) semanticIndex values
  sortedBy (fun first second => decide (second.count ≤ first.count))
    ((components.filter fun component => 1 < component.length).map fun component =>
      groupOf label (longest component) component)

/-- `process.extract(val, values, …, limit=None)` at the threshold, the best first. -/
def extracted (threshold : Int) (values : List String) (val : String) : List String :=
  (sortedBy (fun a b => decide (host.extractScore val b ≤ host.extractScore val a)) values).filter
    fun choice => threshold ≤ host.extractScore val choice

/-- The legacy pass of `token_sort`. -/
def tokenSortGroups (threshold : Int) (values : List String) : List Group :=
  (scan (extracted host threshold values) [] values).map fun found =>
    groupOf "token_sort" found.1 found.2

/-- The legacy pass of `ngram`, with the values that are processed. -/
def ngramScan (similar : String → String → Bool) (values : List String) (processed : List String) :
    List String → List (List String)
  | [] => []
  | val :: rest =>
    if val ∈ processed then ngramScan similar values processed rest
    else
      let gathered := values.foldl (gather similar val)
        (val :: processed, [val])
      gathered.2 :: ngramScan similar values gathered.1 rest

def ngramGroups (threshold : Int) (values : List String) : List Group :=
  ((ngramScan (fun a b => decide (threshold ≤ ngramSimilarity host a b)) values [] values).filter
    fun members => 1 < members.length).map fun members =>
      groupOf "ngram" (members.head?.getD "") members

def buckets (key : String → String) (values : List String) : List (List String) :=
  (grouped ((values.filter fun val => key val ≠ "").map fun val => (key val, val))).map Prod.snd

def bucketGroups (algorithm : String) (key : String → String) (values : List String) : List Group :=
  ((buckets key values).filter fun members => 1 < members.length).map fun members =>
    groupOf algorithm (longest members) members

def allGroups (threshold : Int) (algorithm : String) (values : List String) : List Group :=
  if (algorithm = "token_sort" ∨ algorithm = "ngram") ∧ blockingEnabled host then
    blockedGroups host algorithm threshold values
  else if algorithm = "token_sort" then tokenSortGroups host threshold values
  else if algorithm = "fingerprint" then bucketGroups "fingerprint" (fingerprint host) values
  else if algorithm = "ngram" then ngramGroups host threshold values
  else if algorithm = "phonetic" then bucketGroups "phonetic" (phoneticCode host) values
  else []

/-- `_FIELD_RE`; its `$` lets a line feed at the end pass. -/
def isFieldName (field : List Char) : Bool :=
  let name := if field.getLast? = some '\n' then field.dropLast else field
  match name with
  | [] => false
  | first :: others =>
    ('a' ≤ first && first ≤ 'z') && decide (others.length ≤ 63) &&
      others.all fun c => isTokenChar c || c = '_'

def fieldValues (cells : String → List (Option String)) (field : String) : List String :=
  let entries := host.setOrder.visit ((cells field).filterMap id).dedup
  sortedBy (fun a b => decide (b.length ≤ a.length))
    (entries.filter fun v => strip isPythonSpace v.toList ≠ [])

def invalidFieldName (field : String) : String :=
  "Invalid field name '" ++ field ++ "'. Must be 1-64 lowercase alphanumeric/underscore " ++
    "characters starting with a letter."

/-- `_build_disambig_groups`, with the total where it is asked for. -/
def buildDisambigGroups (cells : String → List (Option String)) (field : String) (threshold : Int)
    (algorithm : String) (skip limit : Option Nat) (withTotal : Bool) :
    Except String (List Group × Option Nat) :=
  if !isFieldName field.toList then .error (invalidFieldName field)
  else
    let groups := allGroups host threshold algorithm (fieldValues host cells field)
    if withTotal then
      let rest := groups.drop (skip.getD 0)
      .ok (limit.elim rest rest.take, some groups.length)
    else .ok (groups, none)

end Model

/-- No value is in two groups, and each group has two values at least. -/
structure Offered (groups : List Group) : Prop where
  disjoint : groups.Pairwise fun first second => first.variations.Disjoint second.variations
  several : ∀ group ∈ groups, ∃ a ∈ group.variations, ∃ b ∈ group.variations, a ≠ b

theorem Offered.sublist {groups some_ : List Group} (offered : Offered groups)
    (within : some_.Sublist groups) : Offered some_ where
  disjoint := offered.disjoint.sublist within
  several := fun group member => offered.several group (within.subset member)

theorem Offered.perm {groups others : List Group} (offered : Offered groups)
    (perm : others.Perm groups) : Offered others where
  disjoint := (perm.pairwise_iff List.disjoint_symm).mpr offered.disjoint
  several := fun group member => offered.several group (perm.mem_iff.mp member)

theorem exists_ne_of_nodup {members : List String} (distinct : members.Nodup)
    (many : 1 < members.length) : ∃ a ∈ members, ∃ b ∈ members, a ≠ b := by
  match members, many with
  | first :: second :: _, _ =>
    refine ⟨first, List.mem_cons_self, second, by simp, ?_⟩
    exact fun same => (List.nodup_cons.mp distinct).1 (same ▸ List.mem_cons_self)

theorem offered_of_parts {parts : List (List String)} (disjoint : parts.Pairwise List.Disjoint)
    (distinct : ∀ part ∈ parts, part.Nodup) (toGroup : List String → Group)
    (shows : ∀ part, (toGroup part).variations = part) :
    Offered ((parts.filter fun part => 1 < part.length).map toGroup) where
  disjoint := by
    rw [List.pairwise_map]
    refine (disjoint.filter _).imp fun apart => ?_
    rw [shows, shows]
    exact apart
  several := by
    intro group member
    obtain ⟨part, inParts, rfl⟩ := List.mem_map.mp member
    obtain ⟨known, many⟩ := List.mem_filter.mp inParts
    rw [shows]
    exact exists_ne_of_nodup (distinct part known) (of_decide_eq_true many)

section Paths

variable {host : Host} {threshold : Int} {values : List String} (algorithm : String)

theorem offered_blocked :
    Offered (blockedGroups host algorithm threshold values) := by
  refine (offered_of_parts ?_ ?_ _ fun _ => rfl).perm (sortedBy_perm _ _)
  · unfold clusterValues
    split
    · exact List.Pairwise.nil
    · exact UnionFind.components_disjoint _
  · intro part member
    unfold clusterValues at member
    split at member
    · cases member
    · exact UnionFind.components_nodup _ member

theorem offered_buckets (key : String → String) (distinct : values.Nodup) :
    Offered (bucketGroups algorithm key values) := by
  have keyed : ∀ group ∈ grouped ((values.filter fun val => key val ≠ "").map fun val => (key val, val)),
      ∀ val ∈ group.2, key val = group.1 := by
    intro group member val inGroup
    rw [((mem_grouped_iff _ _).mp member).2, mem_itemsOf_iff] at inGroup
    obtain ⟨_, _, same⟩ := List.mem_map.mp inGroup
    obtain ⟨isKey, rfl⟩ := Prod.mk.inj same
    exact isKey
  refine offered_of_parts ?_ ?_ _ fun _ => rfl
  · have keysDiffer := (describes_grouped
      ((values.filter fun val => key val ≠ "").map fun val => (key val, val))).distinct
    rw [buckets, List.pairwise_map]
    refine List.Pairwise.imp_of_mem ?_ (List.pairwise_map.mp keysDiffer)
    intro first second firstIn secondIn differ val inFirst inSecond
    exact differ ((keyed first firstIn val inFirst).symm.trans (keyed second secondIn val inSecond))
  · intro part member
    obtain ⟨group, inGroups, rfl⟩ := List.mem_map.mp member
    rw [((mem_grouped_iff _ _).mp inGroups).2, itemsOf, List.filter_map, List.map_map]
    exact ((distinct.filter _).filter _).map fun _ _ same => same

variable (similar : String → String → Bool)

theorem ngramScan_cons (processed : List String) (val : String) (rest : List String) :
    ngramScan similar values processed (val :: rest) =
      if val ∈ processed then ngramScan similar values processed rest
      else
        (values.foldl (gather similar val) (val :: processed, [val])).2 ::
          ngramScan similar values
            (values.foldl (gather similar val) (val :: processed, [val])).1
              rest := rfl

theorem ngramScan_parts (distinct : values.Nodup) (items processed : List String) :
    (ngramScan similar values processed items).Pairwise List.Disjoint ∧
      ∀ part ∈ ngramScan similar values processed items, part.Nodup ∧ part.Disjoint processed := by
  induction items generalizing processed with
  | nil => exact ⟨List.Pairwise.nil, fun _ member => nomatch member⟩
  | cons val rest ih =>
    rw [ngramScan_cons]
    split
    · exact ih processed
    · next free =>
        rw [foldl_gather distinct]
        obtain ⟨laterApart, later⟩ :=
          ih ((captured similar val (val :: processed) values).reverse ++ val :: processed)
        refine ⟨List.pairwise_cons.mpr ⟨?_, laterApart⟩, ?_⟩
        · intro part member other inHead inPart
          refine (later part member).2 inPart (List.mem_append.mpr ?_)
          rcases List.mem_cons.mp inHead with isVal | isCaptured
          · exact .inr (List.mem_cons.mpr (.inl isVal))
          · exact .inl (List.mem_reverse.mpr isCaptured)
        · intro part member
          rcases List.mem_cons.mp member with rfl | isLater
          · refine ⟨List.nodup_cons.mpr ⟨?_, distinct.filter _⟩, ?_⟩
            · exact fun inside => (mem_captured.mp inside).2.1 List.mem_cons_self
            · intro other inHead known
              rcases List.mem_cons.mp inHead with rfl | isCaptured
              · exact free known
              · exact (mem_captured.mp isCaptured).2.1 (List.mem_cons_of_mem _ known)
          · obtain ⟨partDistinct, apart⟩ := later part isLater
            refine ⟨partDistinct, fun other inPart known => apart inPart ?_⟩
            exact List.mem_append_right _ (List.mem_cons_of_mem _ known)

theorem offered_ngram (distinct : values.Nodup) : Offered (ngramGroups host threshold values) := by
  obtain ⟨disjoint, parts⟩ := ngramScan_parts
    (fun a b => decide (threshold ≤ ngramSimilarity host a b)) distinct values []
  exact offered_of_parts disjoint (fun part member => (parts part member).1) _ fun _ => rfl

/-- A leader of the pass offers a value in its group. -/
def TakesAt (host : Host) (threshold : Int) (values : List String) (leader value : String) : Prop :=
  Takes (extracted host threshold values) leader value

/-- No value reaches the threshold against two leaders. -/
def NoneTakenTwice (host : Host) (threshold : Int) (values : List String) : Prop :=
  ∀ first ∈ leaders (extracted host threshold values) values,
    ∀ second ∈ leaders (extracted host threshold values) values, first ≠ second →
      ∀ value, ¬(TakesAt host threshold values first value ∧ TakesAt host threshold values second value)

theorem nodup_extracted (distinct : values.Nodup) (leader : String) :
    (extracted host threshold values leader).Nodup :=
  ((sortedBy_perm _ _).nodup_iff.mpr distinct).filter _

theorem offered_tokenSort_iff (distinct : values.Nodup) :
    Offered (tokenSortGroups host threshold values) ↔ NoneTakenTwice host threshold values := by
  have shown : (tokenSortGroups host threshold values).map Group.variations =
      (scan (extracted host threshold values) [] values).map Prod.snd := by
    rw [tokenSortGroups, List.map_map]
    rfl
  have overlap := disjoint_iff (extracted host threshold values) values distinct
  rw [← shown, List.pairwise_map] at overlap
  refine ⟨fun offered => overlap.mp offered.disjoint, fun apart => ⟨overlap.mpr apart, ?_⟩⟩
  intro group member
  obtain ⟨found, inScan, rfl⟩ := List.mem_map.mp member
  rw [scan_eq _ [] [] values distinct (by simp)] at inScan
  obtain ⟨leader, isLeader, rfl⟩ := List.mem_map.mp inScan
  exact exists_ne_of_nodup (nodup_extracted distinct leader)
    (of_decide_eq_true (List.mem_filter.mp isLeader).2)

theorem offered_allGroups_iff (distinct : values.Nodup) :
    Offered (allGroups host threshold algorithm values) ↔
      (algorithm = "token_sort" → blockingEnabled host = false →
        NoneTakenTwice host threshold values) := by
  unfold allGroups
  split_ifs with blocked tokenSort fingerprints ngrams phonetics
  · refine iff_of_true (offered_blocked algorithm) fun _ off => ?_
    exact absurd (off ▸ blocked.2) Bool.false_ne_true
  · have off : blockingEnabled host = false :=
      Bool.eq_false_of_not_eq_true fun on => blocked ⟨.inl tokenSort, on⟩
    rw [offered_tokenSort_iff distinct]
    exact ⟨fun apart _ _ => apart, fun apart => apart tokenSort off⟩
  · exact iff_of_true (offered_buckets _ _ distinct) fun legacy => absurd legacy tokenSort
  · exact iff_of_true (offered_ngram distinct) fun legacy => absurd legacy tokenSort
  · exact iff_of_true (offered_buckets _ _ distinct) fun legacy => absurd legacy tokenSort
  · exact iff_of_true ⟨List.Pairwise.nil, fun _ member => nomatch member⟩
      fun legacy => absurd legacy tokenSort

end Paths

theorem nodup_fieldValues (host : Host) (cells : String → List (Option String)) (field : String) :
    (fieldValues host cells field).Nodup :=
  (sortedBy_perm _ _).nodup_iff.mpr
    (((host.setOrder.perm _).nodup_iff.mpr (List.nodup_dedup _)).filter _)

/-- Whatever page of whatever field is asked for, the groups are disjoint and have two values at
least, if and only if in the legacy pass of `token_sort` no value reaches the threshold against two
leaders. -/
theorem disambiguation_disjoint_iff (host : Host) (cells : String → List (Option String))
    (field : String) (threshold : Int) (algorithm : String) :
    (∀ (skip limit : Option Nat) (withTotal : Bool) (groups : List Group) (total : Option Nat),
      buildDisambigGroups host cells field threshold algorithm skip limit withTotal =
        .ok (groups, total) → Offered groups) ↔
      (isFieldName field.toList = true → algorithm = "token_sort" → blockingEnabled host = false →
        NoneTakenTwice host threshold (fieldValues host cells field)) := by
  have all := @offered_allGroups_iff host threshold _ algorithm (nodup_fieldValues host cells field)
  unfold buildDisambigGroups
  by_cases named : isFieldName field.toList = true
  · simp only [named, Bool.not_true, Bool.false_eq_true, if_false, true_imp_iff]
    rw [← all]
    constructor
    · intro pages
      exact pages none none false _ _ rfl
    · intro offered skip limit withTotal groups total page
      cases withTotal with
      | false =>
        cases page
        exact offered
      | true =>
        cases page
        refine offered.sublist (List.Sublist.trans ?_ (List.drop_sublist (skip.getD 0) _))
        cases limit with
        | none => exact List.Sublist.refl _
        | some limit => exact List.take_sublist limit _
  · have refused : isFieldName field.toList = false := Bool.eq_false_of_not_eq_true named
    simp [refused]

section LegacyPass

def legacyHost : Host where
  environ := fun name => if name = "UKIP_USE_BLOCKING" then some "0" else none
  nfd := id
  lower := id
  isMark := fun _ => false
  percent := fun _ _ => 0
  tokenSortRatio := scores
  extractScore := scores
  setOrder := ⟨id, fun _ => List.Perm.refl _⟩
  buildIndex := fun _ => none
where
  scores (a b : String) : Nat :=
    if a = b then 100 else if a = "Maria Lopez" ∨ b = "Maria Lopez" then 88 else 79

def mariaLopez : List (Option String) :=
  [some "Maria Lopez MD", some "Maria Lopez JR", some "Maria Lopez"]

/-- The name without a suffix is offered to both names with one. -/
theorem disambiguation_overlaps :
    ¬∀ (skip limit : Option Nat) (withTotal : Bool) (groups : List Group) (total : Option Nat),
      buildDisambigGroups legacyHost (fun _ => mariaLopez) "primary_label" 80 "token_sort" skip limit
        withTotal = .ok (groups, total) → Offered groups := by
  intro offers
  have groups := (offers none none false
    [groupOf "token_sort" "Maria Lopez MD" ["Maria Lopez MD", "Maria Lopez"],
      groupOf "token_sort" "Maria Lopez JR" ["Maria Lopez JR", "Maria Lopez"]] none (by decide)).disjoint
  have apart := List.rel_of_pairwise_cons groups List.mem_cons_self
  exact apart (a := "Maria Lopez") (by decide) (by decide)

end LegacyPass

end Ukip.Clustering.DisambiguationGroups
