import Ukip.Authority.Resolver

/-!
# The order of completion

What `resolve_all` returns is read off the groups of candidates in their places.  Two
orders of completion arrange the answers of the sources in two ways.
-/

namespace Ukip.Authority

open Foundation.LeaderGroups Foundation.Tally

section Reading

variable {Score : Type} {unicode : Unicode} {fuzz : Fuzz}
variable {computeScore : AuthorityCandidate Score → Scored Score} {answers : List (Answer Score)}

theorem map_candidate_placed (completed : List Nat) :
    (placed answers completed).map Placed.candidate = raw answers completed := by
  have one : ∀ future, (placedOf answers future).map Placed.candidate = resultOf answers future := by
    intro future
    rw [placedOf, List.map_map]
    exact List.zipIdx_map_fst 0 (resultOf answers future)
  rw [placed, raw, List.map_flatMap]
  simp only [one]

theorem ranked_placedOf (future : Nat) :
    Ranked Placed.future Placed.rank (placedOf answers future) := by
  rw [Ranked, placedOf, List.pairwise_map]
  have numbers : ((resultOf answers future).zipIdx.map Prod.snd).Pairwise (· < ·) := by
    rw [List.zipIdx_map_snd]
    exact List.pairwise_lt_range'
  apply List.Pairwise.imp _ (List.pairwise_map.mp numbers)
  intro a b lower _
  exact lower

theorem ranked_placed {completed : List Nat} (distinct : completed.Nodup) :
    Ranked Placed.future Placed.rank (placed answers completed) := by
  rw [Ranked, placed, List.pairwise_flatMap]
  refine ⟨fun future _ => ranked_placedOf future, ?_⟩
  apply List.Pairwise.imp _ distinct
  intro first second differ a aIn b bIn same
  obtain ⟨_, _, rfl⟩ := List.mem_map.mp aIn
  obtain ⟨_, _, rfl⟩ := List.mem_map.mp bIn
  exact absurd same differ

theorem similarPlaced_comm (a b : Placed Score) :
    similarPlaced unicode fuzz a b = similarPlaced unicode fuzz b a := by
  rw [similarPlaced, similarPlaced, similar, similar, fuzz.symmetric]

theorem deduplicate_eq (candidates : List (AuthorityCandidate Score)) :
    deduplicate unicode fuzz candidates =
      (groups (similar unicode fuzz) candidates).map mergeGroup := by
  rw [deduplicate]
  split
  · next short =>
      match candidates with
      | [] => rw [groups_nil, List.map_nil]
      | [only] => simp [groups_cons, followers, remaining, groups_nil, mergeGroup]
      | _ :: _ :: _ => simp at short
  · rfl

def mergeChoice (choice : AuthorityCandidate Score × List (AuthorityCandidate Score)) :
    AuthorityCandidate Score :=
  if choice.2.isEmpty then choice.1
  else { choice.1 with mergedSources := choice.2.map reference }

theorem mergeGroup_eq (group : AuthorityCandidate Score × List (AuthorityCandidate Score)) :
    mergeGroup group = mergeChoice (firstMax priority group.1 group.2) := by
  have lengths := (firstMax_perm priority group).length_eq
  simp only [members, List.length_cons, Nat.add_right_cancel_iff] at lengths
  have empty : (firstMax priority group.1 group.2).2.isEmpty = group.2.isEmpty := by
    rw [Bool.eq_iff_iff, List.isEmpty_iff_length_eq_zero, List.isEmpty_iff_length_eq_zero, lengths]
  rw [mergeGroup, mergeChoice, empty]
  by_cases alone : group.2.isEmpty = true
  · rw [if_pos alone, if_pos alone, List.isEmpty_iff.mp alone]
    rfl
  · rw [if_neg alone, if_neg alone]

theorem confidence_mergeChoice
    (choice : AuthorityCandidate Score × List (AuthorityCandidate Score)) :
    (mergeChoice choice).confidence = choice.1.confidence := by
  rw [mergeChoice]
  split <;> rfl

def outcome (computeScore : AuthorityCandidate Score → Scored Score)
    (choice : Placed Score × List (Placed Score)) : AuthorityCandidate Score :=
  mergeChoice (applyScore computeScore choice.1.candidate,
    choice.2.map fun other => applyScore computeScore other.candidate)

theorem deduplicate_placed (completed : List Nat) :
    deduplicate unicode fuzz ((raw answers completed).map (applyScore computeScore)) =
      (elected (similarPlaced unicode fuzz) priorityPlaced (placed answers completed)).map
        (outcome computeScore) := by
  have scored : (raw answers completed).map (applyScore computeScore) =
      (placed answers completed).map fun a => applyScore computeScore a.candidate := by
    rw [← map_candidate_placed, List.map_map]
    rfl
  let scoredOf (a : Placed Score) := applyScore computeScore a.candidate
  have passed : groups (similar unicode fuzz) ((placed answers completed).map scoredOf) =
      (groups (similarPlaced unicode fuzz) (placed answers completed)).map fun group =>
        (scoredOf group.1, group.2.map scoredOf) := groups_map scoredOf (fun _ _ => rfl) _
  rw [deduplicate_eq, scored, passed, elected, List.map_map, List.map_map]
  apply List.map_congr_left
  intro group _
  have elect : firstMax priority (scoredOf group.1) (group.2.map scoredOf) =
      (scoredOf (firstMax priorityPlaced group.1 group.2).1,
        (firstMax priorityPlaced group.1 group.2).2.map scoredOf) :=
    firstMax_map scoredOf (fun _ => rfl) group.1 group.2
  rw [Function.comp_apply, mergeGroup_eq, elect]
  rfl

end Reading

section Main

variable {Score : Type} [LinearOrder Score] {unicode : Unicode} {fuzz : Fuzz}
variable {computeScore : AuthorityCandidate Score → Scored Score} {answers : List (Answer Score)}

def scoresAbove (computeScore : AuthorityCandidate Score → Scored Score) (a b : Placed Score) : Bool :=
  decide ((computeScore b.candidate).score ≤ (computeScore a.candidate).score)

theorem resolveAll_eq (completed : List Nat) :
    resolveAll unicode fuzz computeScore answers completed =
      ((sortedBy (fun a b => scoresAbove computeScore a.1 b.1)
        (elected (similarPlaced unicode fuzz) priorityPlaced (placed answers completed))).map
          (outcome computeScore)).take maxResults := by
  rw [resolveAll, deduplicate_placed, sortedBy, sortedBy]
  congr 1
  symm
  apply List.map_insertionSort
  intro a _ b _
  simp only [scoresAbove, outcome, confidence_mergeChoice, applyScore]

theorem ranking_scoresAbove : Ranking (scoresAbove computeScore) where
  total a b := by
    simp only [scoresAbove, decide_eq_true_eq]
    exact (le_total _ _)
  trans a b c := by
    simp only [scoresAbove, decide_eq_true_eq]
    intro first second
    exact second.trans first

/-- Where the answers are settled, `resolve_all` does not show the order of completion. -/
theorem orderIndependent_of_settled (unicode : Unicode) (fuzz : Fuzz)
    (computeScore : AuthorityCandidate Score → Scored Score) (answers : List (Answer Score))
    (settled : SourcesSettled unicode fuzz computeScore answers) :
    OrderIndependent unicode fuzz computeScore answers := by
  intro first second firstComplete secondComplete
  have range : (List.range answers.length).Nodup := List.nodup_range
  have firstRanked := @ranked_placed _ answers _ (firstComplete.nodup_iff.mpr range)
  have secondRanked := @ranked_placed _ answers _ (secondComplete.nodup_iff.mpr range)
  have fromRange : (placed answers (List.range answers.length)).Perm (placed answers first) :=
    firstComplete.symm.flatMap_right _
  have perm : (placed answers first).Perm (placed answers second) :=
    (firstComplete.trans secondComplete.symm).flatMap_right _
  have settledFirst := settled.of_perm (ranked_placed range) firstRanked fromRange
  have tiedFirst : Settled Placed.future Placed.rank priorityPlaced (similarPlaced unicode fuzz)
      (placed answers first) fun a b =>
        scoresAbove computeScore a b = true ∧ scoresAbove computeScore b a = true := by
    apply settledFirst.of_tied
    intro a b tied
    exact le_antisymm (of_decide_eq_true tied.2) (of_decide_eq_true tied.1)
  rw [resolveAll_eq, resolveAll_eq,
    Settled.sortedBy_eq ranking_scoresAbove tiedFirst firstRanked secondRanked perm]

end Main

section Sample

def sampleUnicode : Unicode where
  nfd text := text
  isNonspacingMark _ := false
  isWordChar c := c.isAlphanum || c == '_'
  lower text := text.map Char.toLower

def sampleRatio (a b : String) : Nat :=
  if a = b then 100
  else if (a = "katherine martin" ∧ b = "catharine martin") ∨
      (b = "katherine martin" ∧ a = "catharine martin") then 88
  else 94

def sampleFuzz : Fuzz where
  tokenSortRatio := sampleRatio
  symmetric a b := by
    simp only [sampleRatio, eq_comm, or_comm]

def sampleScore (c : AuthorityCandidate Nat) : Scored Nat :=
  match c.authoritySource with
  | "viaf" =>
    { score := 796, breakdown := [("identifiers", 650), ("name", 1000)]
      evidence := ["source_quality:viaf=0.65", "token_set_exact", "name_score:1.000"]
      resolutionStatus := "probable_match" }
  | "wikidata" =>
    { score := 713, breakdown := [("identifiers", 550), ("name", 940)]
      evidence := ["source_quality:wikidata=0.55", "name_score:0.940"]
      resolutionStatus := "probable_match" }
  | _ =>
    { score := 625, breakdown := [("identifiers", 400), ("name", 940)]
      evidence := ["source_quality:dbpedia=0.40", "name_score:0.940"]
      resolutionStatus := "ambiguous" }

def sampleCandidate (source identifier label : String) : AuthorityCandidate Nat where
  authoritySource := source
  authorityId := identifier
  canonicalLabel := label
  confidence := 0

def agreement : List (Answer Nat) :=
  [.ok [sampleCandidate "viaf" "95" "Katharine Martin"],
    .ok [sampleCandidate "wikidata" "Q1" "Katharine Martin"], .error "timeout"]

theorem settled_agreement : SourcesSettled sampleUnicode sampleFuzz sampleScore agreement where
  consistent := ⟨fun a b => similarPlaced_comm a b, by decide +kernel⟩
  headed := by decide +kernel
  oneBlock := by decide +kernel
  ordered := by decide +kernel

theorem orderIndependent_agreement :
    OrderIndependent sampleUnicode sampleFuzz sampleScore agreement :=
  orderIndependent_of_settled _ _ _ _ settled_agreement

/-- The middle spelling is close to the two others, which are not close to each other. -/
def spellings : List (Answer Nat) :=
  [.ok [sampleCandidate "wikidata" "Q1" "Katherine Martin"],
    .ok [sampleCandidate "viaf" "95" "Katharine Martin"],
    .ok [sampleCandidate "dbpedia" "Martin" "Catharine Martin"]]

theorem orderIndependent_not_always :
    ¬ OrderIndependent sampleUnicode sampleFuzz sampleScore spellings := by
  intro independent
  have equal := independent [0, 1, 2] [1, 0, 2] (by decide) (by decide)
  have lengths := congrArg List.length equal
  revert lengths
  decide +kernel

end Sample

end Ukip.Authority
