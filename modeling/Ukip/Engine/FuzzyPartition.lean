import Ukip.Engine.FuzzyClusters

/-!
# The fuzzy clusters as a partition

Every distinct value is in one cluster, and the clusters' frequencies count the list.  A frequency
is a number of 32 bits; the requests that are let through are much shorter than that.
-/

namespace Ukip.Engine.FuzzyPartition

open Foundation.LeaderClusters Foundation.Tally

inductive ValidationError where
  | emptyInput
  | invalidField (message : String)

/-- `DisambiguationPipeline::validate`, with the values of its own kind of payload. -/
def validate (payload : Option (List String)) : Except ValidationError Unit :=
  match payload with
  | some values =>
    if values.isEmpty then .error .emptyInput
    else if 50000 < values.length then
      .error (.invalidField ("too many values: " ++ toString values.length ++ " (max 50,000)"))
    else .ok ()
  | none => .error .emptyInput

variable {Score Score32 : Type}

def shown (cluster : DisambiguationCluster Score32) : List String :=
  cluster.canonicalValue :: cluster.variants

section Counting

variable {tables : UnicodeTables} {strsim : Strsim Score Score32} {values keys : List String}

theorem length_eq_sum_freq (order : IsKeyOrder values keys) :
    (keys.map (freq values)).sum = values.length := by
  have perm : keys.Perm values.dedup := by
    rw [List.perm_ext_iff_of_nodup order.distinct (List.nodup_dedup values)]
    intro value
    rw [order.keyed, List.mem_dedup]
  rw [(perm.map _).sum_eq]
  exact List.sum_map_count_dedup_eq_length values

theorem frequency_toCluster {members : List String}
    (bound : (members.map (freq values)).sum < 2 ^ 31) :
    (toCluster tables strsim values members).frequency = (members.map (freq values)).sum := by
  have sorted : ((sortedBy (precedes values) members).map (freq values)).sum =
      (members.map (freq values)).sum := ((sortedBy_perm _ _).map _).sum_eq
  have exact_ := Int.bmod_eq_of_le (n := ((members.map (freq values)).sum : Int)) (m := 2 ^ 32)
    (by omega) (by omega)
  simp only [toCluster, sorted]
  exact exact_

theorem sum_frequencies (groups : List (List String))
    (bound : (groups.flatten.map (freq values)).sum < 2 ^ 31) :
    ((groups.map (toCluster tables strsim values)).map DisambiguationCluster.frequency).sum =
      ((groups.flatten.map (freq values)).sum : Int) := by
  induction groups with
  | nil => rfl
  | cons members rest ih =>
    rw [List.flatten_cons, List.map_append, List.sum_append] at bound ⊢
    rw [List.map_cons, List.map_cons, List.sum_cons, frequency_toCluster (by omega), ih (by omega)]
    exact (Nat.cast_add _ _).symm

end Counting

section Partition

variable [LinearOrder Score] (tables : UnicodeTables) (strsim : Strsim Score Score32)
variable (threshold : Score) {values keys : List String}

def groups (keys : List String) : List (List String) :=
  clusters (fun a b =>
      similarNorms strsim threshold (normalizeName tables a) (normalizeName tables b))
    (windowSize - 1) [] (sortedByName tables keys)

theorem fuzzyCluster_groups (filled : values ≠ []) :
    fuzzyCluster tables strsim threshold keys values =
      (groups tables strsim threshold keys).map (toCluster tables strsim values) := by
  simp [fuzzyCluster, groups, filled]

theorem groups_perm (order : IsKeyOrder values keys) :
    (groups tables strsim threshold keys).flatten.Perm keys := by
  have arranged : Arranged tables values (sortedByName tables keys) := arranged_sortedByName order
  have all : (groups tables strsim threshold keys).flatten.Perm
      ((sortedByName tables keys).filter fun item => item ∉ ([] : List String)) :=
    clusters_flatten_perm [] arranged.keys.distinct
  have whole : ((sortedByName tables keys).filter fun item => item ∉ ([] : List String)) =
      sortedByName tables keys := by simp
  rw [whole] at all
  exact all.trans (sortedBy_perm _ keys)

theorem shown_perm (order : IsKeyOrder values keys) :
    ((fuzzyCluster tables strsim threshold keys values).flatMap shown).Perm keys := by
  by_cases filled : values = []
  · have none : keys = [] := List.eq_nil_iff_forall_not_mem.mpr fun value member => by
      simpa [filled] using (order.keyed value).mp member
    simp [fuzzyCluster, filled, none]
  · have arranged : Arranged tables values (sortedByName tables keys) := arranged_sortedByName order
    have members : ∀ part ∈ groups tables strsim threshold keys,
        (shown (toCluster tables strsim values part)).Perm part := by
      intro part listed
      have some : part ≠ [] := ne_nil_of_mem_clusters [] arranged.keys.distinct listed
      rw [shown, toCluster_members some]
      exact sortedBy_perm _ part
    rw [fuzzyCluster_groups tables strsim threshold filled, List.flatMap_map]
    refine (List.Perm.flatMap_left _ members).trans ?_
    rw [List.flatMap_id']
    exact groups_perm tables strsim threshold order

end Partition

/-- Each value of the list is in the clusters once, no other value is, and the frequencies add up
to the length of the list, up to lengths that no request has. -/
theorem fuzzyCluster_partition [LinearOrder Score] (tables : UnicodeTables)
    (strsim : Strsim Score Score32) (threshold : Score) (values keys : List String)
    (order : IsKeyOrder values keys) :
    (∀ value, ((fuzzyCluster tables strsim threshold keys values).flatMap shown).count value =
        if value ∈ values then 1 else 0) ∧
      (values.length < 2 ^ 31 →
        ((fuzzyCluster tables strsim threshold keys values).map
          DisambiguationCluster.frequency).sum = values.length) ∧
      (validate (some values) = .ok () → values.length < 2 ^ 31) := by
  refine ⟨fun value => ?_, fun bound => ?_, fun accepted => ?_⟩
  · rw [(shown_perm tables strsim threshold order).count_eq, order.distinct.count]
    simp only [order.keyed]
  · by_cases filled : values = []
    · simp [fuzzyCluster, filled]
    · have total : ((groups tables strsim threshold keys).flatten.map (freq values)).sum =
          values.length := by
        rw [((groups_perm tables strsim threshold order).map _).sum_eq, length_eq_sum_freq order]
      rw [fuzzyCluster_groups tables strsim threshold filled, sum_frequencies _ (total ▸ bound), total]
  · by_contra long
    have tooMany : 50000 < values.length := by omega
    have some : values ≠ [] := List.ne_nil_of_length_pos (by omega)
    simp [validate, tooMany, some] at accepted

theorem fuzzyCluster_partition_smiths :
    (∀ value, ((fuzzyCluster sampleTables exactStrsim (85 / 100) ["john smith", "John Smith"]
          ["John Smith", "john smith", "John Smith"]).flatMap shown).count value =
        if value ∈ ["John Smith", "john smith", "John Smith"] then 1 else 0) ∧
      ((fuzzyCluster sampleTables exactStrsim (85 / 100) ["john smith", "John Smith"]
          ["John Smith", "john smith", "John Smith"]).map
        DisambiguationCluster.frequency).sum = 3 := by
  have partition := fuzzyCluster_partition sampleTables exactStrsim (85 / 100)
    ["John Smith", "john smith", "John Smith"] ["john smith", "John Smith"]
    ⟨by decide, fun value => by simp [or_comm]⟩
  exact ⟨partition.1, partition.2.1 (partition.2.2 rfl)⟩

end Ukip.Engine.FuzzyPartition
