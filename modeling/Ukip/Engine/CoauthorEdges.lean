import Ukip.Engine.GraphNodes

/-!
# The coauthor edges of a publication

The loop pairs positions of the author list.  The edges are the pairs of distinct canonical
ids exactly where no id stands at two positions.
-/

namespace Ukip.Engine

open Foundation.Tally

section Pairs

variable {first second source target : String} {ids : List String}

theorem sortedPair_eq_iff (apart : first ≠ second) :
    sortedPair (first, second) = (source, target) ↔
      source < target ∧ (source = first ∧ target = second ∨ source = second ∧ target = first) := by
  unfold sortedPair
  rcases lt_or_gt_of_ne apart with less | greater
  · rw [if_pos less.le, Prod.mk.injEq]
    constructor
    · rintro ⟨rfl, rfl⟩
      exact ⟨less, .inl ⟨rfl, rfl⟩⟩
    · rintro ⟨_, ⟨rfl, rfl⟩ | ⟨rfl, rfl⟩⟩
      · exact ⟨rfl, rfl⟩
      · exact absurd less (lt_asymm ‹_›)
  · rw [if_neg (not_le.mpr greater), Prod.mk.injEq]
    constructor
    · rintro ⟨rfl, rfl⟩
      exact ⟨greater, .inr ⟨rfl, rfl⟩⟩
    · rintro ⟨_, ⟨rfl, rfl⟩ | ⟨rfl, rfl⟩⟩
      · exact absurd greater (lt_asymm ‹_›)
      · exact ⟨rfl, rfl⟩

theorem mem_sortedPairs_iff (once : ids.Nodup) :
    (source, target) ∈ (combinations ids).map sortedPair ↔
      source ∈ ids ∧ target ∈ ids ∧ source < target := by
  have apart {pair : String × String} (member : pair ∈ combinations ids) : pair.1 ≠ pair.2 :=
    combinations_apart id ids (by rwa [List.map_id]) pair member
  constructor
  · intro member
    obtain ⟨pair, inPairs, sorted⟩ := List.mem_map.mp member
    obtain ⟨firstIn, secondIn⟩ := mem_combinations ids pair inPairs
    obtain ⟨less, ⟨rfl, rfl⟩ | ⟨rfl, rfl⟩⟩ := (sortedPair_eq_iff (apart inPairs)).mp sorted
    · exact ⟨firstIn, secondIn, less⟩
    · exact ⟨secondIn, firstIn, less⟩
  · rintro ⟨sourceIn, targetIn, less⟩
    rcases combinations_complete sourceIn targetIn with same | straight | crossed
    · exact absurd same less.ne
    · exact List.mem_map.mpr ⟨_, straight,
        (sortedPair_eq_iff less.ne).mpr ⟨less, .inl ⟨rfl, rfl⟩⟩⟩
    · exact List.mem_map.mpr ⟨_, crossed,
        (sortedPair_eq_iff less.ne').mpr ⟨less, .inr ⟨rfl, rfl⟩⟩⟩

theorem sortedPair_inj {head : String} (apartFirst : head ≠ first) (apartSecond : head ≠ second)
    (same : sortedPair (head, first) = sortedPair (head, second)) : first = second := by
  obtain ⟨_, sides⟩ := (sortedPair_eq_iff apartFirst).mp (same.trans (Prod.mk.eta).symm)
  rcases sortedPair_mem (head, second) with ⟨left, right⟩ | ⟨left, right⟩ <;>
    rw [left, right] at sides
  · exact sides.elim (fun straight => straight.2.symm) fun crossed => absurd crossed.1 apartFirst
  · exact sides.elim (fun straight => absurd straight.1.symm apartSecond) fun crossed => crossed.1.symm

theorem nodup_sortedPairs (once : ids.Nodup) : ((combinations ids).map sortedPair).Nodup := by
  induction ids with
  | nil => exact List.nodup_nil
  | cons head rest ih =>
    obtain ⟨fresh, onceRest⟩ := List.nodup_cons.mp once
    have apart {other : String} (member : other ∈ rest) : head ≠ other :=
      fun same => fresh (same ▸ member)
    rw [combinations, List.map_append, List.map_map]
    refine (onceRest.map_on fun first firstIn second secondIn =>
      sortedPair_inj (apart firstIn) (apart secondIn)).append (ih onceRest) ?_
    intro pair withHead later
    obtain ⟨other, otherIn, rfl⟩ := List.mem_map.mp withHead
    have pair : ((sortedPair (head, other)).1, (sortedPair (head, other)).2) ∈
        (combinations rest).map sortedPair := later
    have ends := (mem_sortedPairs_iff onceRest).mp pair
    rcases sortedPair_mem (head, other) with ⟨source, _⟩ | ⟨_, target⟩
    · rw [source] at ends
      exact fresh ends.1
    · rw [target] at ends
      exact fresh ends.2.1

theorem exists_loop (twice : ¬ids.Nodup) : ∃ id, (id, id) ∈ (combinations ids).map sortedPair := by
  induction ids with
  | nil => exact absurd List.nodup_nil twice
  | cons head rest ih =>
    rw [combinations, List.map_append]
    by_cases fresh : head ∈ rest
    · exact ⟨head, List.mem_append_left _ (List.mem_map.mpr
        ⟨(head, head), List.mem_map_of_mem fresh, by simp [sortedPair]⟩)⟩
    · obtain ⟨id, loop⟩ := ih fun once => twice (List.nodup_cons.mpr ⟨fresh, once⟩)
      exact ⟨id, List.mem_append_right _ loop⟩

end Pairs

section Edges

variable (job : GraphJob) (publication : Publication)

def coauthorEdges : List (String × String) :=
  ((computeRelationships job publication).filter fun rel => rel.relationType = .coauthorWith).map
    fun rel => (rel.sourceCanonicalId, rel.targetCanonicalId)

def authorIds : List String := publication.authors.map (authorCanonicalId job.tables)

/-- Each pair of distinct ids of authors once, from the lesser to the greater id. -/
def CoauthorsPairedOnce : Prop :=
  (coauthorEdges job publication).Nodup ∧ ∀ source target,
    (source, target) ∈ coauthorEdges job publication ↔
      source ∈ authorIds job publication ∧ target ∈ authorIds job publication ∧ source < target

theorem coauthorEdges_eq :
    coauthorEdges job publication = (combinations (authorIds job publication)).map sortedPair := by
  have others (rels : List PendingRelationship)
      (typed : ∀ rel ∈ rels, rel.relationType ≠ .coauthorWith) :
      (rels.filter fun rel => rel.relationType = .coauthorWith) = [] :=
    List.filter_eq_nil_iff.mpr fun rel member => by simp [typed rel member]
  rw [coauthorEdges, computeRelationships, List.filter_append, others]
  · rw [List.nil_append, List.filter_eq_self.mpr, List.map_map]
    · rfl
    · intro rel member
      obtain ⟨pair, _, rfl⟩ := List.mem_map.mp member
      rfl
  · intro rel member
    simp only [belongsToRelationships, List.mem_append, List.mem_map, List.mem_flatMap] at member
    rcases member with (((⟨_, _, rfl⟩ | ⟨_, _, ⟨_, _, rfl⟩ | ⟨_, _, rfl⟩⟩) | ⟨_, _, rfl⟩) |
      ⟨_, _, rfl⟩) | ⟨_, _, rfl⟩
    all_goals exact RelationType.noConfusion

theorem coauthors_paired_once_iff :
    CoauthorsPairedOnce job publication ↔ (authorIds job publication).Nodup := by
  unfold CoauthorsPairedOnce
  rw [coauthorEdges_eq]
  constructor
  · rintro ⟨_, exact_⟩
    by_contra twice
    obtain ⟨id, loop⟩ := exists_loop twice
    exact absurd ((exact_ id id).mp loop).2.2 (lt_irrefl id)
  · exact fun once => ⟨nodup_sortedPairs once, fun source target => mem_sortedPairs_iff once⟩

end Edges

def namesakesJob : GraphJob where
  tables := sampleTables
  jsonText := fun _ => "{}"
  orgId := some 1
  importBatchId := 1
  domain := "science"

def namesakes : Publication :=
  { withDoi "10.1000/a" with authors := [byName "Wei Wang", byName "Wei Wang"] }

theorem namesakes_loop : ¬CoauthorsPairedOnce namesakesJob namesakes := by
  rintro ⟨_, paired⟩
  exact absurd ((paired "author:wei-wang" "author:wei-wang").mp (by decide)).2.2 (lt_irrefl _)

end Ukip.Engine
