import Ukip.Analytics.Engine
import Ukip.Foundation.Multiplicity
import Ukip.Foundation.SeededGroups
import Ukip.Foundation.StableSort

/-!
# What the engine's topic clusters are

`topic_clusters` counts concepts and pairs in hash maps and assigns every concept in a loop
over the seeds.  Here the clusters are described by the lists alone: in how many of them a
concept occurs, and in how many it occurs together with a seed.
-/

namespace Ukip.Analytics.Engine

open Foundation.Tally Foundation.SeededGroups TopicModeling

def listsHolding (lists : List (List String)) (concept : String) : Nat :=
  lists.countP fun concepts => decide (concept ∈ concepts)

def listsHoldingBoth (lists : List (List String)) (first second : String) : Nat :=
  lists.countP fun concepts => decide (first ∈ concepts ∧ second ∈ concepts)

/-- More frequent, or as frequent with the lesser name. -/
def RanksBefore (lists : List (List String)) (first second : String) : Prop :=
  listsHolding lists second < listsHolding lists first ∨
    listsHolding lists first = listsHolding lists second ∧ first < second

variable {lists otherLists : List (List String)} {order otherOrder : HashOrder}

variable (concepts : List String)

theorem mem_sortedSet_iff (concept : String) :
    concept ∈ sortedSet concepts ↔ concept ∈ concepts :=
  (sortedBy_perm _ _).mem_iff.trans List.mem_dedup

theorem nodup_sortedSet : (sortedSet concepts).Nodup :=
  (sortedBy_perm _ _).nodup_iff.mpr (List.nodup_dedup concepts)

theorem sortedSet_pairwise : (sortedSet concepts).Pairwise (· < ·) := by
  have ranking : Ranking fun first second : String => decide (first ≤ second) :=
    ⟨fun a b => by simpa using le_total a b,
      fun a b c ab bc => by simpa using (of_decide_eq_true ab).trans (of_decide_eq_true bc)⟩
  have ordered := pairwise_sortedBy ranking concepts.dedup
  refine (ordered.and (nodup_sortedSet concepts)).imp ?_
  rintro first second ⟨atMost, apart⟩
  exact lt_of_le_of_ne (of_decide_eq_true atMost) apart

theorem countRows_eq (lists : List (List String)) :
    countRows lists = update [] (lists.map sortedSet).flatten := foldl_update [] _

theorem countPairs_eq (lists : List (List String)) :
    countPairs lists = update [] (lists.map fun concepts => combinations (sortedSet concepts)).flatten := by
  rw [← foldl_update, List.foldl_map]
  rfl

theorem counted_countRows (lists : List (List String)) (concept : String) :
    counted (countRows lists) concept = listsHolding lists concept := by
  rw [countRows_eq, counted_update, show counted [] concept = 0 from rfl, Nat.zero_add]
  exact count_flatten sortedSet concept nodup_sortedSet
    (fun concepts => mem_sortedSet_iff concepts concept) lists

theorem counted_countPairs {first second : String} (ordered : first < second) :
    counted (countPairs lists) (first, second) = listsHoldingBoth lists first second := by
  rw [countPairs_eq, counted_update, show counted [] (first, second) = 0 from rfl, Nat.zero_add]
  refine count_flatten (fun concepts => combinations (sortedSet concepts)) (first, second)
    (fun concepts => combinations_nodup (nodup_sortedSet concepts)) (fun concepts => ?_) lists
  rw [mem_combinations_iff (sortedSet_pairwise concepts) (fun _ _ => lt_asymm) ordered,
    mem_sortedSet_iff, mem_sortedSet_iff]

theorem listsHoldingBoth_comm (first second : String) :
    listsHoldingBoth lists first second = listsHoldingBoth lists second first := by
  unfold listsHoldingBoth
  simp only [and_comm]

variable {concept seed : String}

theorem counted_orderedPair (apart : concept ≠ seed) :
    counted (countPairs lists) (orderedPair concept seed) = listsHoldingBoth lists concept seed := by
  unfold orderedPair
  by_cases ordered : concept ≤ seed
  · rw [if_pos ordered]
    exact counted_countPairs (lt_of_le_of_ne ordered apart)
  · rw [if_neg ordered, listsHoldingBoth_comm]
    exact counted_countPairs (not_le.mp ordered)

theorem listsHolding_pos_iff (concept : String) :
    0 < listsHolding lists concept ↔ concept ∈ lists.flatten := by
  unfold listsHolding
  rw [List.countP_pos_iff, List.mem_flatten]
  simp

theorem proper_countRows (lists : List (List String)) : Proper (countRows lists) := by
  rw [countRows_eq]
  exact proper_update _

theorem ranking_countThenName : Ranking countThenName where
  total := by
    rintro ⟨a, m⟩ ⟨b, n⟩
    simp only [countThenName, Bool.or_eq_true, Bool.and_eq_true, decide_eq_true_eq, beq_iff_eq]
    rcases lt_trichotomy m n with less | tied | more
    · exact .inr (.inl less)
    · rcases le_total a b with names | names
      · exact .inl (.inr ⟨tied.symm, names⟩)
      · exact .inr (.inr ⟨tied, names⟩)
    · exact .inl (.inl more)
  trans := by
    rintro ⟨a, m⟩ ⟨b, n⟩ ⟨c, k⟩
    simp only [countThenName, Bool.or_eq_true, Bool.and_eq_true, decide_eq_true_eq, beq_iff_eq]
    rintro (more | ⟨tied, names⟩) (moreAfter | ⟨tiedAfter, namesAfter⟩)
    · exact .inl (moreAfter.trans more)
    · exact .inl (tiedAfter ▸ more)
    · exact .inl (tied ▸ moreAfter)
    · exact .inr ⟨tiedAfter.trans tied, names.trans namesAfter⟩

theorem countThenName_antisymm {first second : String × Nat} (forward : countThenName first second = true)
    (backward : countThenName second first = true) : first = second := by
  obtain ⟨a, m⟩ := first
  obtain ⟨b, n⟩ := second
  simp only [countThenName, Bool.or_eq_true, Bool.and_eq_true, decide_eq_true_eq, beq_iff_eq]
    at forward backward
  have tied : m = n := by omega
  subst tied
  have names : a = b := by
    rcases forward with less | ⟨_, ab⟩
    · exact absurd less (lt_irrefl m)
    · rcases backward with less | ⟨_, ba⟩
      · exact absurd less (lt_irrefl m)
      · exact le_antisymm ab ba
  rw [names]

theorem sortedBy_countThenName_of_perm {first second : List (String × Nat)} (perm : first.Perm second) :
    sortedBy countThenName first = sortedBy countThenName second := by
  have anyOrder : ∀ entries : List (String × Nat), entries.Pairwise fun _ _ => True :=
    fun entries => List.pairwise_of_forall fun _ _ => trivial
  exact sortedBy_eq_of_perm ranking_countThenName perm (anyOrder first) (anyOrder second)
    fun a _ b _ forward backward _ _ => countThenName_antisymm forward backward

/-- `sorted_concepts`, without the counts. -/
def ranked (order : HashOrder) (lists : List (List String)) : List String :=
  (sortedBy countThenName (order.visit (countRows lists))).map Prod.fst

theorem ranked_perm (order : HashOrder) (lists : List (List String)) :
    (ranked order lists).Perm ((countRows lists).map Prod.fst) :=
  ((sortedBy_perm _ _).trans (order.perm _)).map Prod.fst

theorem nodup_ranked : (ranked order lists).Nodup :=
  (ranked_perm order lists).nodup_iff.mpr (proper_countRows lists).once

theorem mem_ranked_iff (concept : String) : concept ∈ ranked order lists ↔ concept ∈ lists.flatten := by
  rw [(ranked_perm order lists).mem_iff, ← listsHolding_pos_iff, ← counted_countRows]
  constructor
  · intro member
    obtain ⟨entry, isEntry, rfl⟩ := List.mem_map.mp member
    rw [(proper_countRows lists).counted_of_mem isEntry]
    exact (proper_countRows lists).positive entry isEntry
  · intro positive
    exact List.mem_map.mpr ⟨_, mem_of_counted positive, rfl⟩

theorem ranked_pairwise : (ranked order lists).Pairwise (RanksBefore lists) := by
  have entries : ∀ entry ∈ sortedBy countThenName (order.visit (countRows lists)),
      entry.2 = listsHolding lists entry.1 := by
    intro entry member
    have isEntry := (order.perm _).mem_iff.mp ((sortedBy_perm _ _).mem_iff.mp member)
    rw [← counted_countRows, (proper_countRows lists).counted_of_mem isEntry]
  have ordered := pairwise_sortedBy ranking_countThenName (order.visit (countRows lists))
  have apart := List.pairwise_map.mp (nodup_ranked : (ranked order lists).Nodup)
  refine List.pairwise_map.mpr ((ordered.and apart).imp_of_mem ?_)
  rintro first second firstIn secondIn ⟨precedes, differ⟩
  simp only [countThenName, Bool.or_eq_true, Bool.and_eq_true, decide_eq_true_eq, beq_iff_eq,
    entries first firstIn, entries second secondIn] at precedes
  rcases precedes with more | ⟨tied, names⟩
  · exact .inl more
  · exact .inr ⟨tied.symm, lt_of_le_of_ne names differ⟩

theorem length_ranked : (ranked order lists).length = lists.flatten.dedup.length := by
  apply List.Perm.length_eq
  apply (List.perm_ext_iff_of_nodup nodup_ranked (List.nodup_dedup _)).mpr
  intro concept
  rw [mem_ranked_iff, List.mem_dedup]

/-- `seeds` -/
def seedsOf (order : HashOrder) (lists : List (List String)) (nClusters : Nat) : List String :=
  (ranked order lists).take nClusters

def clusterMap (order : HashOrder) (lists : List (List String)) (nClusters : Nat) :
    List (String × String) :=
  assignment (fun concept seed => counted (countPairs lists) (orderedPair concept seed))
    (ranked order lists) (seedsOf order lists nClusters)

def membersOf (order : HashOrder) (lists : List (List String)) (nClusters : Nat) (seed : String) :
    List (String × Nat) :=
  sortedBy countThenName (((order.visit (clusterMap order lists nClusters)).filter fun pair =>
    pair.2 == seed).map fun pair => (pair.1, counted (countRows lists) pair.1))

variable (nClusters : Nat)

theorem seeds_pairwise : (seedsOf order lists nClusters).Pairwise (RanksBefore lists) :=
  ranked_pairwise.sublist (List.take_sublist _ _)

theorem RanksBefore.ne {first second : String} (before : RanksBefore lists first second) :
    first ≠ second := by
  rintro rfl
  rcases before with less | ⟨_, less⟩
  · exact lt_irrefl _ less
  · exact lt_irrefl _ less

theorem topicClusters_eq (order : HashOrder) (lists : List (List String)) (nClusters : Nat) :
    topicClusters order lists nClusters =
      (seedsOf order lists nClusters).map fun seed => (seed, membersOf order lists nClusters seed) := by
  refine List.Pairwise.insertionSort_eq (List.pairwise_map.mpr ((seeds_pairwise nClusters).imp ?_))
  intro first second before
  rw [decide_eq_true_eq, counted_countRows, counted_countRows]
  rcases before with more | ⟨tied, _⟩
  · exact more.le
  · exact tied.ge

theorem map_fst_topicClusters (order : HashOrder) (lists : List (List String)) (nClusters : Nat) :
    (topicClusters order lists nClusters).map Prod.fst = seedsOf order lists nClusters := by
  rw [topicClusters_eq, List.map_map]
  exact List.map_id _

theorem members_perm (seed : String) :
    ((membersOf order lists nClusters seed).map Prod.fst).Perm
      (((clusterMap order lists nClusters).filter fun pair => pair.2 == seed).map Prod.fst) := by
  have visited := ((order.perm (clusterMap order lists nClusters)).filter fun pair => pair.2 == seed)
  refine ((sortedBy_perm _ _).map Prod.fst).trans ?_
  rw [List.map_map]
  exact visited.map Prod.fst

theorem mem_members_iff (seed concept : String) :
    concept ∈ (membersOf order lists nClusters seed).map Prod.fst ↔
      (concept, seed) ∈ clusterMap order lists nClusters := by
  rw [(members_perm nClusters seed).mem_iff, List.mem_map]
  constructor
  · rintro ⟨pair, member, rfl⟩
    obtain ⟨isPair, ofSeed⟩ := List.mem_filter.mp member
    rw [← beq_iff_eq.mp ofSeed]
    exact isPair
  · intro member
    exact ⟨(concept, seed), List.mem_filter.mpr ⟨member, beq_self_eq_true seed⟩, rfl⟩

theorem mem_clusterMap_iff (concept seed : String) :
    (concept, seed) ∈ clusterMap order lists nClusters ↔
      concept = seed ∧ seed ∈ seedsOf order lists nClusters ∨
        (concept ∈ lists.flatten ∧ concept ∉ seedsOf order lists nClusters) ∧
          closest (fun seed => counted (countPairs lists) (orderedPair concept seed))
            (seedsOf order lists nClusters) = some seed := by
  unfold clusterMap seedsOf
  rw [mem_assignment_iff nodup_ranked, mem_ranked_iff]

theorem shared_eq {nClusters : Nat} (isOther : concept ∉ seedsOf order lists nClusters)
    (isSeed : seed ∈ seedsOf order lists nClusters) :
    counted (countPairs lists) (orderedPair concept seed) = listsHoldingBoth lists concept seed :=
  counted_orderedPair fun same => isOther (same ▸ isSeed)

theorem counted_flatten_perm {Item : Type} [DecidableEq Item] (itemsOf : List String → List Item)
    (perm : lists.Perm otherLists) :
    counted (update [] (lists.map itemsOf).flatten) = counted (update [] (otherLists.map itemsOf).flatten) := by
  funext item
  rw [counted_update, counted_update, (perm.map itemsOf).flatten.count_eq]

theorem counted_countRows_perm (perm : lists.Perm otherLists) :
    counted (countRows lists) = counted (countRows otherLists) := by
  rw [countRows_eq, countRows_eq]
  exact counted_flatten_perm sortedSet perm

theorem counted_countPairs_perm (perm : lists.Perm otherLists) :
    counted (countPairs lists) = counted (countPairs otherLists) := by
  rw [countPairs_eq, countPairs_eq]
  exact counted_flatten_perm (fun concepts => combinations (sortedSet concepts)) perm

theorem visited_perm {Entry : Type} {entries others : List Entry} (perm : entries.Perm others) :
    (order.visit entries).Perm (otherOrder.visit others) :=
  ((order.perm entries).trans perm).trans (otherOrder.perm others).symm

theorem ranked_eq (perm : lists.Perm otherLists) : ranked order lists = ranked otherOrder otherLists := by
  have sameEntries := (proper_countRows lists).perm (proper_countRows otherLists)
    (counted_countRows_perm perm)
  unfold ranked
  rw [sortedBy_countThenName_of_perm (visited_perm sameEntries)]

theorem seedsOf_eq (perm : lists.Perm otherLists) (nClusters : Nat) :
    seedsOf order lists nClusters = seedsOf otherOrder otherLists nClusters := by
  unfold seedsOf
  rw [ranked_eq perm]

theorem clusterMap_eq (perm : lists.Perm otherLists) (nClusters : Nat) :
    clusterMap order lists nClusters = clusterMap otherOrder otherLists nClusters := by
  unfold clusterMap
  rw [counted_countPairs_perm perm, ranked_eq perm, seedsOf_eq perm]

theorem membersOf_eq (perm : lists.Perm otherLists) (nClusters : Nat) (seed : String) :
    membersOf order lists nClusters seed = membersOf otherOrder otherLists nClusters seed := by
  unfold membersOf
  rw [counted_countRows_perm perm, clusterMap_eq perm]
  apply sortedBy_countThenName_of_perm
  exact ((visited_perm (List.Perm.refl _)).filter _).map _

theorem topicClusters_of_perm (perm : lists.Perm otherLists) (nClusters : Nat) :
    topicClusters otherOrder otherLists nClusters = topicClusters order lists nClusters := by
  rw [topicClusters_eq, topicClusters_eq, ← seedsOf_eq perm]
  exact List.map_congr_left fun seed _ => by rw [membersOf_eq perm]

def memberConcepts (cluster : String × List (String × Nat)) : List String := cluster.2.map Prod.fst

/-- What the clusters of some lists are, with no word about how they were found. -/
structure GreedyClustering (lists : List (List String)) (nClusters : Nat)
    (clusters : List (String × List (String × Nat))) : Prop where
  /-- the seeds are different concepts and come in the order of their rank -/
  seedsRanked : (clusters.map Prod.fst).Pairwise (RanksBefore lists)
  seedsOccur : ∀ seed ∈ clusters.map Prod.fst, seed ∈ lists.flatten
  seedsFirst : ∀ seed ∈ clusters.map Prod.fst, ∀ concept ∈ lists.flatten,
    concept ∉ clusters.map Prod.fst → RanksBefore lists seed concept
  number : clusters.length = min nClusters lists.flatten.dedup.length
  ownMember : ∀ cluster ∈ clusters, cluster.1 ∈ memberConcepts cluster
  /-- no concept stands in two clusters, nor twice in one -/
  membersOnce : (clusters.flatMap memberConcepts).Nodup
  memberCounts : ∀ cluster ∈ clusters, ∀ member ∈ cluster.2, member.2 = listsHolding lists member.1
  /-- a concept goes with the seed that it shares the most lists with, the first of equals -/
  assigned : ∀ concept, concept ∉ clusters.map Prod.fst →
    (∃ seed ∈ clusters.map Prod.fst, 0 < listsHoldingBoth lists concept seed) →
      ∃ cluster ∈ clusters, concept ∈ memberConcepts cluster ∧
        0 < listsHoldingBoth lists concept cluster.1 ∧
          ∀ seed ∈ clusters.map Prod.fst, seed ≠ cluster.1 →
            listsHoldingBoth lists concept seed < listsHoldingBoth lists concept cluster.1 ∨
              listsHoldingBoth lists concept seed = listsHoldingBoth lists concept cluster.1 ∧
                RanksBefore lists cluster.1 seed
  unassigned : ∀ concept, concept ∉ clusters.map Prod.fst →
    (∀ seed ∈ clusters.map Prod.fst, listsHoldingBoth lists concept seed = 0) →
      ∀ cluster ∈ clusters, concept ∉ memberConcepts cluster

section Description

variable (order : HashOrder) (lists : List (List String)) (nClusters : Nat)

theorem mem_topicClusters_iff (cluster : String × List (String × Nat)) :
    cluster ∈ topicClusters order lists nClusters ↔
      cluster.1 ∈ seedsOf order lists nClusters ∧
        cluster.2 = membersOf order lists nClusters cluster.1 := by
  rw [topicClusters_eq, List.mem_map]
  constructor
  · rintro ⟨seed, isSeed, rfl⟩
    exact ⟨isSeed, rfl⟩
  · rintro ⟨isSeed, members⟩
    exact ⟨cluster.1, isSeed, by rw [← members]⟩

variable {cluster : String × List (String × Nat)}

theorem mem_memberConcepts_iff (isCluster : cluster ∈ topicClusters order lists nClusters)
    (concept : String) :
    concept ∈ memberConcepts cluster ↔ (concept, cluster.1) ∈ clusterMap order lists nClusters := by
  rw [memberConcepts, ((mem_topicClusters_iff order lists nClusters cluster).mp isCluster).2,
    mem_members_iff]

theorem seedsOf_subset {seed : String} (isSeed : seed ∈ seedsOf order lists nClusters) :
    seed ∈ lists.flatten :=
  (mem_ranked_iff seed).mp (List.mem_of_mem_take isSeed)

theorem seedsOf_first {seed concept : String} (isSeed : seed ∈ seedsOf order lists nClusters)
    (occurs : concept ∈ lists.flatten) (isOther : concept ∉ seedsOf order lists nClusters) :
    RanksBefore lists seed concept := by
  have inRest : concept ∈ (ranked order lists).drop nClusters := by
    have member : concept ∈ ranked order lists := (mem_ranked_iff concept).mpr occurs
    rw [← List.take_append_drop nClusters (ranked order lists)] at member
    exact (List.mem_append.mp member).resolve_left isOther
  have ordered : (ranked order lists).Pairwise (RanksBefore lists) := ranked_pairwise
  rw [← List.take_append_drop nClusters (ranked order lists)] at ordered
  exact (List.pairwise_append.mp ordered).2.2 seed isSeed concept inRest

theorem nodup_memberConcepts :
    ((topicClusters order lists nClusters).flatMap memberConcepts).Nodup := by
  have once : ((clusterMap order lists nClusters).map Prod.fst).Nodup := nodup_assignment nodup_ranked
  refine List.nodup_flatMap.mpr ⟨?_, ?_⟩
  · intro cluster isCluster
    rw [memberConcepts, ((mem_topicClusters_iff order lists nClusters cluster).mp isCluster).2]
    refine (members_perm nClusters cluster.1).nodup_iff.mpr ?_
    exact once.sublist (List.filter_sublist.map Prod.fst)
  · have seedsApart : (topicClusters order lists nClusters).Pairwise fun a b => a.1 ≠ b.1 := by
      have ordered : (seedsOf order lists nClusters).Pairwise (RanksBefore lists) :=
        seeds_pairwise nClusters
      rw [← map_fst_topicClusters] at ordered
      exact List.pairwise_map.mp (ordered.imp RanksBefore.ne)
    refine seedsApart.imp_of_mem ?_
    intro first second firstIn secondIn apart concept inFirst inSecond
    have joinedFirst := (mem_memberConcepts_iff order lists nClusters firstIn concept).mp inFirst
    have joinedSecond := (mem_memberConcepts_iff order lists nClusters secondIn concept).mp inSecond
    have same := List.inj_on_of_nodup_map once joinedFirst joinedSecond rfl
    exact apart (congrArg Prod.snd same)

theorem memberConcepts_counts (isCluster : cluster ∈ topicClusters order lists nClusters)
    {member : String × Nat} (isMember : member ∈ cluster.2) :
    member.2 = listsHolding lists member.1 := by
  rw [((mem_topicClusters_iff order lists nClusters cluster).mp isCluster).2] at isMember
  obtain ⟨pair, _, rfl⟩ := List.mem_map.mp ((sortedBy_perm _ _).mem_iff.mp isMember)
  exact counted_countRows lists pair.1

theorem joins_closest (isOther : concept ∉ seedsOf order lists nClusters)
    (isSeed : seed ∈ seedsOf order lists nClusters)
    (shares : 0 < listsHoldingBoth lists concept seed) :
    ∃ cluster ∈ topicClusters order lists nClusters, concept ∈ memberConcepts cluster ∧
      Closest (fun seed => counted (countPairs lists) (orderedPair concept seed))
        (seedsOf order lists nClusters) cluster.1 := by
  have found : closest (fun seed => counted (countPairs lists) (orderedPair concept seed))
      (seedsOf order lists nClusters) ≠ none := by
    intro none
    have zero := closest_eq_none_iff.mp none seed isSeed
    rw [shared_eq isOther isSeed] at zero
    exact shares.ne' zero
  obtain ⟨best, isBest⟩ := Option.ne_none_iff_exists'.mp found
  have closestBest := closest_of_eq_some isBest
  have occurs : concept ∈ lists.flatten := by
    obtain ⟨concepts, inLists, holds⟩ := List.countP_pos_iff.mp shares
    exact List.mem_flatten.mpr ⟨concepts, inLists, (of_decide_eq_true holds).1⟩
  have isCluster := (mem_topicClusters_iff order lists nClusters
    (best, membersOf order lists nClusters best)).mpr ⟨closestBest.mem, rfl⟩
  refine ⟨_, isCluster, ?_, closestBest⟩
  rw [mem_memberConcepts_iff order lists nClusters isCluster]
  exact (mem_clusterMap_iff nClusters concept best).mpr (.inr ⟨⟨occurs, isOther⟩, isBest⟩)

theorem joins_none {concept : String} (isOther : concept ∉ seedsOf order lists nClusters)
    (alone : ∀ seed ∈ seedsOf order lists nClusters, listsHoldingBoth lists concept seed = 0)
    (isCluster : cluster ∈ topicClusters order lists nClusters) :
    concept ∉ memberConcepts cluster := by
  intro isMember
  have joined := (mem_memberConcepts_iff order lists nClusters isCluster concept).mp isMember
  rcases (mem_clusterMap_iff nClusters concept cluster.1).mp joined with ⟨same, isSeed⟩ | ⟨_, found⟩
  · exact isOther (same ▸ isSeed)
  · have best := closest_of_eq_some found
    have zero := alone _ best.mem
    rw [← shared_eq isOther best.mem] at zero
    exact best.1.ne' zero

/-- The loop makes the clustering that the lists describe, in whatever order the hash maps
are listed and the lists come. -/
theorem topicClusters_greedy :
    GreedyClustering lists nClusters (topicClusters order lists nClusters) ∧
      ∀ (otherOrder : HashOrder) (otherLists : List (List String)), lists.Perm otherLists →
        topicClusters otherOrder otherLists nClusters = topicClusters order lists nClusters := by
  refine ⟨?_, fun otherOrder otherLists perm => topicClusters_of_perm perm nClusters⟩
  have seeds := map_fst_topicClusters order lists nClusters
  constructor
  case seedsRanked =>
    rw [seeds]
    exact seeds_pairwise nClusters
  case seedsOccur =>
    rw [seeds]
    exact fun seed isSeed => seedsOf_subset order lists nClusters isSeed
  case seedsFirst =>
    rw [seeds]
    exact fun seed isSeed concept occurs isOther =>
      seedsOf_first order lists nClusters isSeed occurs isOther
  case number =>
    rw [topicClusters_eq, List.length_map, seedsOf, List.length_take, length_ranked]
  case ownMember =>
    intro cluster isCluster
    have isSeed := ((mem_topicClusters_iff order lists nClusters cluster).mp isCluster).1
    rw [mem_memberConcepts_iff order lists nClusters isCluster]
    exact (mem_clusterMap_iff nClusters cluster.1 cluster.1).mpr (.inl ⟨rfl, isSeed⟩)
  case membersOnce => exact nodup_memberConcepts order lists nClusters
  case memberCounts =>
    exact fun cluster isCluster member isMember =>
      memberConcepts_counts order lists nClusters isCluster isMember
  case assigned =>
    rw [seeds]
    rintro concept isOther ⟨seed, isSeed, shares⟩
    obtain ⟨cluster, isCluster, isMember, best⟩ :=
      joins_closest order lists nClusters isOther isSeed shares
    refine ⟨cluster, isCluster, isMember, ?_, ?_⟩
    · rw [← shared_eq isOther best.mem]
      exact best.1
    · intro other isOtherSeed apart
      rw [← shared_eq isOther best.mem, ← shared_eq isOther isOtherSeed]
      exact best.precedes (seeds_pairwise nClusters) isOtherSeed apart
  case unassigned =>
    rw [seeds]
    exact fun concept isOther alone cluster isCluster =>
      joins_none order lists nClusters isOther alone isCluster

end Description

end Ukip.Analytics.Engine
