import Ukip.Engine.Names
import Ukip.Foundation.LeaderClusters
import Ukip.Foundation.StableSort

/-!
# Fuzzy clustering in the engine

The distinct values come out of a hash map in any order and are sorted by normal form, so
only the values of one normal form can change places.  The result depends on the order
exactly where two of them tie, or where the window cuts a normal form in two.
-/

namespace Ukip.Engine

open Foundation.Tally Foundation.LeaderClusters

structure DisambiguationCluster (Score32 : Type) where
  canonicalValue : String
  variants : List String
  scores : List Score32
  frequency : Int
deriving DecidableEq

def windowSize : Nat := 20

section Model

variable {Score Score32 : Type} [LinearOrder Score]
variable (tables : UnicodeTables) (strsim : Strsim Score Score32)

def freq (values : List String) (value : String) : Nat := values.count value

/-- The order in which a hash map gives its keys: any order. -/
structure IsKeyOrder (values keys : List String) : Prop where
  distinct : keys.Nodup
  keyed : ∀ value, value ∈ keys ↔ value ∈ values

/-- `unique`, sorted stably. -/
def sortedByName (keys : List String) : List String :=
  sortedBy (fun a b => decide (normalizeName tables a ≤ normalizeName tables b)) keys

def similarNorms (threshold : Score) (normI normJ : String) : Bool :=
  decide (threshold ≤ tokenSortRatio strsim normI normJ)

def precedes (values : List String) (a b : String) : Bool :=
  decide (freq values b < freq values a ∨
    (freq values a = freq values b ∧ a.utf8ByteSize ≤ b.utf8ByteSize))

def toCluster (values members : List String) : DisambiguationCluster Score32 :=
  let sortedMembers := sortedBy (precedes values) members
  let canonical := sortedMembers.headD ""
  let variants := sortedMembers.tail
  { canonicalValue := canonical
    variants
    scores := variants.map fun v => strsim.asF32
      (tokenSortRatio strsim (normalizeName tables canonical) (normalizeName tables v))
    frequency := Int.bmod (sortedMembers.map (freq values)).sum (2 ^ 32) }

def fuzzyCluster (threshold : Score) (keys values : List String) :
    List (DisambiguationCluster Score32) :=
  if values.isEmpty then []
  else
    (clusters (fun a b =>
        similarNorms strsim threshold (normalizeName tables a) (normalizeName tables b))
      (windowSize - 1) [] (sortedByName tables keys)).map (toCluster tables strsim values)

/-- The same answer for every order of the values and every order of the keys. -/
def OrderIndependent (threshold : Score) (values : List String) : Prop :=
  ∀ reordered keys otherKeys, reordered.Perm values → IsKeyOrder values keys →
    IsKeyOrder reordered otherKeys →
      fuzzyCluster tables strsim threshold keys values =
        fuzzyCluster tables strsim threshold otherKeys reordered

/-- Frequency and length tell the values of one normal form apart. -/
def NoTies (values : List String) : Prop :=
  ∀ a ∈ values, ∀ b ∈ values, normalizeName tables a = normalizeName tables b →
    freq values a = freq values b → a.utf8ByteSize = b.utf8ByteSize → a = b

def sortedNorms (values : List String) : List String :=
  sortedBy (fun a b => decide (a ≤ b)) (values.dedup.map (normalizeName tables))

def similarAt (threshold : Score) (norms : List String) (i j : Nat) : Bool :=
  similarNorms strsim threshold (norms.getD i "") (norms.getD j "")

/-- Among the sorted normal forms, equal ones follow one leader. -/
def Uncut (threshold : Score) (values : List String) : Prop :=
  let norms := sortedNorms tables values
  ∀ i j, i < norms.length → j < norms.length → norms.getD i "" = norms.getD j "" →
    ∀ leader, Follows (Near (similarAt strsim threshold norms) (windowSize - 1)) leader i →
      Follows (Near (similarAt strsim threshold norms) (windowSize - 1)) leader j

end Model

section Arrangements

variable {Score Score32 : Type} [LinearOrder Score]
variable {tables : UnicodeTables} {strsim : Strsim Score Score32} {threshold : Score}
variable {values : List String}

/-- An order of the distinct values by normal form, as the stable sort leaves it. -/
structure Arranged (tables : UnicodeTables) (values unique : List String) : Prop where
  keys : IsKeyOrder values unique
  ordered : unique.Pairwise fun a b => normalizeName tables a ≤ normalizeName tables b

theorem ranking_of_le {Item : Type} {Rank : Type} [LinearOrder Rank] (rank : Item → Rank) :
    Ranking fun a b => decide (rank a ≤ rank b) where
  total a b := by
    simp only [decide_eq_true_eq]
    exact le_total (rank a) (rank b)
  trans a b c := by
    simp only [decide_eq_true_eq]
    exact le_trans

theorem ranking_precedes (values : List String) : Ranking (precedes values) where
  total a b := by
    simp only [precedes, decide_eq_true_eq]
    omega
  trans a b c := by
    simp only [precedes, decide_eq_true_eq]
    omega

theorem arranged_sortedByName {keys : List String} (order : IsKeyOrder values keys) :
    Arranged tables values (sortedByName tables keys) where
  keys := by
    have perm := sortedBy_perm (fun a b => decide (normalizeName tables a ≤ normalizeName tables b)) keys
    exact ⟨perm.nodup_iff.mpr order.distinct, fun value => perm.mem_iff.trans (order.keyed value)⟩
  ordered := by
    have sorted := pairwise_sortedBy (ranking_of_le (normalizeName tables)) keys
    exact sorted.imp of_decide_eq_true

variable {unique : List String}

theorem Arranged.sortedByName_eq (arranged : Arranged tables values unique) :
    sortedByName tables unique = unique := by
  apply List.Pairwise.insertionSort_eq
  exact arranged.ordered.imp decide_eq_true

theorem Arranged.norms (arranged : Arranged tables values unique) :
    unique.map (normalizeName tables) = sortedNorms tables values := by
  have distinctValues : unique.Perm values.dedup := by
    rw [List.perm_ext_iff_of_nodup arranged.keys.distinct (List.nodup_dedup values)]
    intro value
    rw [arranged.keys.keyed, List.mem_dedup]
  have sameNorms : (unique.map (normalizeName tables)).Perm (sortedNorms tables values) :=
    (distinctValues.map _).trans (sortedBy_perm _ _).symm
  have sorted := pairwise_sortedBy (ranking_of_le id) (values.dedup.map (normalizeName tables))
  refine sameNorms.eq_of_pairwise ?_ (List.pairwise_map.mpr arranged.ordered)
    (sorted.imp of_decide_eq_true)
  intro a b _ _ forward backward
  exact le_antisymm forward backward

def positionClusters (strsim : Strsim Score Score32) (threshold : Score) (norms : List String) :
    List (List Nat) :=
  clusters (similarAt strsim threshold norms) (windowSize - 1) [] (List.range norms.length)

def valuesAt (unique : List String) (positions : List Nat) : List String :=
  positions.map fun i => unique.getD i ""

theorem Arranged.length (arranged : Arranged tables values unique) :
    (sortedNorms tables values).length = unique.length := by
  rw [← arranged.norms, List.length_map]

theorem Arranged.norm_getD (arranged : Arranged tables values unique) {i : Nat}
    (inside : i < unique.length) :
    (sortedNorms tables values).getD i "" = normalizeName tables (unique.getD i "") := by
  rw [← arranged.norms]
  simp [inside]

theorem getD_injective (distinct : unique.Nodup) {i j : Nat} (iInside : i < unique.length)
    (jInside : j < unique.length) (same : unique.getD i "" = unique.getD j "") : i = j := by
  rw [List.getD_eq_getElem _ _ iInside, List.getD_eq_getElem _ _ jInside] at same
  exact (distinct.getElem_inj_iff).mp same

theorem Arranged.clusters_eq (arranged : Arranged tables values unique) :
    clusters (fun a b =>
        similarNorms strsim threshold (normalizeName tables a) (normalizeName tables b))
      (windowSize - 1) [] unique =
        (positionClusters strsim threshold (sortedNorms tables values)).map (valuesAt unique) := by
  have itself : (List.range unique.length).map (fun i => unique.getD i "") = unique := by
    apply List.ext_getElem
    · simp
    · intro i before after
      simp [after]
  have renamed := clusters_map
    (fun a b => similarNorms strsim threshold (normalizeName tables a) (normalizeName tables b))
    (similarAt strsim threshold (sortedNorms tables values)) (fun i => unique.getD i "")
    (windowSize - 1) (List.range unique.length) [] List.nodup_range ?_ ?_
  · rw [itself] at renamed
    rw [positionClusters, arranged.length]
    exact renamed
  · intro i iIn j jIn same
    have jInside := jIn.elim List.mem_range.mp nofun
    exact getD_injective arranged.keys.distinct (List.mem_range.mp iIn) jInside same
  · intro i iIn j jIn
    rw [similarAt, arranged.norm_getD (List.mem_range.mp iIn), arranged.norm_getD (List.mem_range.mp jIn)]

theorem fuzzyCluster_eq {keys : List String} (order : IsKeyOrder values keys) :
    fuzzyCluster tables strsim threshold keys values =
      (positionClusters strsim threshold (sortedNorms tables values)).map fun positions =>
        toCluster tables strsim values (valuesAt (sortedByName tables keys) positions) := by
  unfold fuzzyCluster
  split
  · next empty =>
      rw [List.isEmpty_iff.mp empty]
      rfl
  · rw [(arranged_sortedByName order).clusters_eq, List.map_map]
    rfl

theorem fuzzyCluster_perm {keys reordered : List String} (perm : reordered.Perm values) :
    fuzzyCluster tables strsim threshold keys reordered =
      fuzzyCluster tables strsim threshold keys values := by
  have frequencies : freq reordered = freq values := funext fun value => perm.count_eq value
  have orders : precedes reordered = precedes values := by
    funext a b
    simp only [precedes, frequencies]
  have clustersSame : toCluster tables strsim reordered = toCluster tables strsim values := by
    funext members
    simp only [toCluster, orders, frequencies]
  simp only [fuzzyCluster, clustersSame, perm.isEmpty_eq]

omit [LinearOrder Score] in
theorem toCluster_members {members : List String} (filled : members ≠ []) :
    (toCluster tables strsim values members).canonicalValue ::
      (toCluster tables strsim values members).variants = sortedBy (precedes values) members := by
  have sortedFilled : sortedBy (precedes values) members ≠ [] := by
    rwa [Ne, sortedBy_eq_nil_iff]
  obtain ⟨canonical, variants, found⟩ := List.exists_cons_of_ne_nil sortedFilled
  simp only [toCluster, found]
  rfl

variable {positions : List Nat}

theorem mem_valuesAt {value : String} :
    value ∈ valuesAt unique positions ↔ ∃ i ∈ positions, unique.getD i "" = value :=
  List.mem_map

theorem Arranged.mem_iff (arranged : Arranged tables values unique) (value : String) :
    value ∈ values ↔ ∃ i, i < unique.length ∧ unique.getD i "" = value := by
  rw [← arranged.keys.keyed, List.mem_iff_getElem]
  constructor
  · intro found
    obtain ⟨i, inside, isValue⟩ := found
    exact ⟨i, inside, by rw [List.getD_eq_getElem _ _ inside, isValue]⟩
  · intro found
    obtain ⟨i, inside, isValue⟩ := found
    exact ⟨i, inside, by rw [← isValue, List.getD_eq_getElem _ _ inside]⟩

theorem valuesAt_subset (uncut : Uncut tables strsim threshold values) {unique other : List String}
    (arranged : Arranged tables values unique) (otherArranged : Arranged tables values other)
    (member : positions ∈ positionClusters strsim threshold (sortedNorms tables values))
    {value : String} (valueIn : value ∈ valuesAt unique positions) :
    value ∈ valuesAt other positions := by
  obtain ⟨_, leader, _, _, followers⟩ := cluster_range member
  obtain ⟨i, iIn, rfl⟩ := mem_valuesAt.mp valueIn
  obtain ⟨iInside, follows⟩ := (followers i).mp iIn
  have iBelow : i < unique.length := arranged.length ▸ iInside
  obtain ⟨j, jBelow, same⟩ := (otherArranged.mem_iff _).mp ((arranged.mem_iff _).mpr ⟨i, iBelow, rfl⟩)
  have jInside : j < (sortedNorms tables values).length := otherArranged.length ▸ jBelow
  have sameNorm : (sortedNorms tables values).getD i "" = (sortedNorms tables values).getD j "" := by
    rw [arranged.norm_getD iBelow, otherArranged.norm_getD jBelow, same]
  refine mem_valuesAt.mpr ⟨j, (followers j).mpr ⟨jInside, ?_⟩, same⟩
  exact uncut i j iInside jInside sameNorm leader follows

theorem valuesAt_nodup (arranged : Arranged tables values unique)
    (member : positions ∈ positionClusters strsim threshold (sortedNorms tables values)) :
    (valuesAt unique positions).Nodup := by
  obtain ⟨increasing, leader, _, _, followers⟩ := cluster_range member
  have below : ∀ i ∈ positions, i < unique.length := by
    intro i iIn
    exact arranged.length ▸ ((followers i).mp iIn).1
  apply List.Nodup.map_on _ (increasing.imp fun lower => lower.ne)
  intro i iIn j jIn same
  exact getD_injective arranged.keys.distinct (below i iIn) (below j jIn) same

theorem valuesAt_ordered (arranged : Arranged tables values unique)
    (member : positions ∈ positionClusters strsim threshold (sortedNorms tables values)) :
    (valuesAt unique positions).Pairwise fun a b =>
      normalizeName tables a ≤ normalizeName tables b := by
  obtain ⟨increasing, leader, _, _, followers⟩ := cluster_range member
  rw [valuesAt, List.pairwise_map]
  refine increasing.imp_of_mem ?_
  intro i j iIn jIn lower
  have iBelow : i < unique.length := arranged.length ▸ ((followers i).mp iIn).1
  have jBelow : j < unique.length := arranged.length ▸ ((followers j).mp jIn).1
  rw [List.getD_eq_getElem _ _ iBelow, List.getD_eq_getElem _ _ jBelow]
  exact List.pairwise_iff_getElem.mp arranged.ordered i j iBelow jBelow lower

theorem orderIndependent_of (noTies : NoTies tables values)
    (uncut : Uncut tables strsim threshold values) :
    OrderIndependent tables strsim threshold values := by
  intro reordered keys otherKeys perm order otherOrder
  have otherOrder : IsKeyOrder values otherKeys :=
    ⟨otherOrder.distinct, fun value => (otherOrder.keyed value).trans perm.mem_iff⟩
  rw [fuzzyCluster_perm perm, fuzzyCluster_eq order, fuzzyCluster_eq otherOrder]
  have arranged : Arranged tables values (sortedByName tables keys) := arranged_sortedByName order
  have otherArranged : Arranged tables values (sortedByName tables otherKeys) :=
    arranged_sortedByName otherOrder
  apply List.map_congr_left
  intro positions member
  have sameValues : (valuesAt (sortedByName tables keys) positions).Perm
      (valuesAt (sortedByName tables otherKeys) positions) := by
    rw [List.perm_ext_iff_of_nodup (valuesAt_nodup arranged member)
      (valuesAt_nodup otherArranged member)]
    intro value
    exact ⟨valuesAt_subset uncut arranged otherArranged member,
      valuesAt_subset uncut otherArranged arranged member⟩
  have sameSorted : sortedBy (precedes values) (valuesAt (sortedByName tables keys) positions) =
      sortedBy (precedes values) (valuesAt (sortedByName tables otherKeys) positions) := by
    apply sortedBy_eq_of_perm (ranking_precedes values) sameValues (valuesAt_ordered arranged member)
      (valuesAt_ordered otherArranged member)
    intro a aIn b bIn forward backward normForward normBackward
    obtain ⟨_, _, _, _, followers⟩ := cluster_range member
    have inValues : ∀ value ∈ valuesAt (sortedByName tables keys) positions, value ∈ values := by
      intro value valueIn
      obtain ⟨i, iIn, isValue⟩ := mem_valuesAt.mp valueIn
      exact (arranged.mem_iff value).mpr ⟨i, arranged.length ▸ ((followers i).mp iIn).1, isValue⟩
    simp only [precedes, decide_eq_true_eq] at forward backward
    exact noTies a (inValues a aIn) b (inValues b bIn) (le_antisymm normForward normBackward)
      (by omega) (by omega)
  simp only [toCluster, sameSorted]

theorem swap_mem {a b value : String} (aIn : a ∈ values) (bIn : b ∈ values) (valueIn : value ∈ values) :
    Equiv.swap a b value ∈ values := by
  rw [Equiv.swap_apply_def]
  split
  · exact bIn
  · split
    · exact aIn
    · exact valueIn

theorem Arranged.swap (arranged : Arranged tables values unique) {a b : String} (aIn : a ∈ values)
    (bIn : b ∈ values) (sameNorm : normalizeName tables a = normalizeName tables b) :
    Arranged tables values (unique.map (Equiv.swap a b)) where
  keys := by
    refine ⟨arranged.keys.distinct.map (Equiv.swap a b).injective, ?_⟩
    intro value
    rw [List.mem_map]
    constructor
    · intro found
      obtain ⟨original, originalIn, rfl⟩ := found
      exact swap_mem aIn bIn ((arranged.keys.keyed original).mp originalIn)
    · intro valueIn
      refine ⟨Equiv.swap a b value, ?_, Equiv.swap_apply_self a b value⟩
      exact (arranged.keys.keyed _).mpr (swap_mem aIn bIn valueIn)
  ordered := by
    have norms : ∀ value, normalizeName tables (Equiv.swap a b value) = normalizeName tables value := by
      intro value
      rw [Equiv.swap_apply_def]
      split
      · next isA => rw [isA, sameNorm]
      · split
        · next isB => rw [isB, sameNorm]
        · rfl
    rw [List.pairwise_map]
    simpa only [norms] using arranged.ordered

theorem toCluster_swap (independent : OrderIndependent tables strsim threshold values)
    (arranged : Arranged tables values unique) {a b : String} (aIn : a ∈ values) (bIn : b ∈ values)
    (sameNorm : normalizeName tables a = normalizeName tables b)
    (member : positions ∈ positionClusters strsim threshold (sortedNorms tables values)) :
    toCluster tables strsim values (valuesAt unique positions) =
      toCluster tables strsim values ((valuesAt unique positions).map (Equiv.swap a b)) := by
  have swapped := arranged.swap aIn bIn sameNorm
  have same := independent values unique (unique.map (Equiv.swap a b)) (List.Perm.refl values)
    arranged.keys swapped.keys
  rw [fuzzyCluster_eq arranged.keys, fuzzyCluster_eq swapped.keys, arranged.sortedByName_eq,
    swapped.sortedByName_eq] at same
  rw [List.map_inj_left.mp same positions member]
  obtain ⟨_, _, _, _, followers⟩ := cluster_range member
  congr 1
  rw [valuesAt, valuesAt, List.map_map]
  apply List.map_congr_left
  intro i iIn
  have inside : i < unique.length := arranged.length ▸ ((followers i).mp iIn).1
  simp [inside]

theorem exists_positions (arranged : Arranged tables values unique) {i : Nat}
    (inside : i < unique.length) {leader : Nat}
    (follows : Follows (Near (similarAt strsim threshold (sortedNorms tables values)) (windowSize - 1))
      leader i) :
    ∃ positions ∈ positionClusters strsim threshold (sortedNorms tables values), i ∈ positions ∧
      ∀ j, j < unique.length → (j ∈ positions ↔ Follows
        (Near (similarAt strsim threshold (sortedNorms tables values)) (windowSize - 1)) leader j) := by
  have iInside : i < (sortedNorms tables values).length := arranged.length.symm ▸ inside
  obtain ⟨positions, member, followers⟩ := exists_cluster_range iInside follows
  refine ⟨positions, member, (followers i).mpr ⟨iInside, follows⟩, ?_⟩
  intro j jInside
  rw [followers j, arranged.length]
  exact and_iff_right jInside

theorem sortedBy_swap {a b : String} (sameFreq : freq values a = freq values b)
    (sameSize : a.utf8ByteSize = b.utf8ByteSize) (members : List String) :
    sortedBy (precedes values) (members.map (Equiv.swap a b)) =
      (sortedBy (precedes values) members).map (Equiv.swap a b) := by
  have kept : ∀ value, freq values (Equiv.swap a b value) = freq values value ∧
      (Equiv.swap a b value).utf8ByteSize = value.utf8ByteSize := by
    intro value
    rw [Equiv.swap_apply_def]
    split
    · next isA => rw [isA, sameFreq, sameSize]; exact ⟨rfl, rfl⟩
    · split
      · next isB => rw [isB, sameFreq, sameSize]; exact ⟨rfl, rfl⟩
      · exact ⟨rfl, rfl⟩
  symm
  apply List.map_insertionSort
  intro first _ second _
  simp only [precedes, (kept first).1, (kept first).2, (kept second).1, (kept second).2]

theorem noTies_of (independent : OrderIndependent tables strsim threshold values) :
    NoTies tables values := by
  intro a aIn b bIn sameNorm sameFreq sameSize
  have arranged : Arranged tables values (sortedByName tables values.dedup) :=
    arranged_sortedByName ⟨List.nodup_dedup values, fun value => List.mem_dedup⟩
  obtain ⟨i, inside, isA⟩ := (arranged.mem_iff a).mp aIn
  obtain ⟨leader, _, follows⟩ := exists_follows
    (Near (similarAt strsim threshold (sortedNorms tables values)) (windowSize - 1)) i
  obtain ⟨positions, member, iIn, _⟩ := exists_positions arranged inside follows
  have aMember : a ∈ valuesAt (sortedByName tables values.dedup) positions :=
    mem_valuesAt.mpr ⟨i, iIn, isA⟩
  have same := toCluster_swap independent arranged aIn bIn sameNorm member
  generalize valuesAt (sortedByName tables values.dedup) positions = members at aMember same
  have filled : members ≠ [] := List.ne_nil_of_mem aMember
  have swappedFilled : members.map (Equiv.swap a b) ≠ [] := by simpa using filled
  have shown : (toCluster tables strsim values members).canonicalValue ::
      (toCluster tables strsim values members).variants = sortedBy (precedes values) members :=
    toCluster_members filled
  rw [same, toCluster_members swappedFilled, sortedBy_swap sameFreq sameSize] at shown
  have fixed : (sortedBy (precedes values) members).map (Equiv.swap a b) =
      (sortedBy (precedes values) members).map id := by rw [shown, List.map_id]
  have aSorted := (sortedBy_perm (precedes values) members).mem_iff.mpr aMember
  have unmoved := List.map_inj_left.mp fixed a aSorted
  rw [Equiv.swap_apply_left] at unmoved
  exact unmoved.symm

theorem uncut_of (independent : OrderIndependent tables strsim threshold values) :
    Uncut tables strsim threshold values := by
  intro i j iInside jInside sameNorm leader follows
  have arranged : Arranged tables values (sortedByName tables values.dedup) :=
    arranged_sortedByName ⟨List.nodup_dedup values, fun value => List.mem_dedup⟩
  have iBelow : i < (sortedByName tables values.dedup).length := arranged.length ▸ iInside
  have jBelow : j < (sortedByName tables values.dedup).length := arranged.length ▸ jInside
  obtain ⟨positions, member, iIn, followers⟩ := exists_positions arranged iBelow follows
  rw [← followers j jBelow]
  have aIn := (arranged.mem_iff _).mpr ⟨i, iBelow, rfl⟩
  have bIn := (arranged.mem_iff _).mpr ⟨j, jBelow, rfl⟩
  have sameNames : normalizeName tables ((sortedByName tables values.dedup).getD i "") =
      normalizeName tables ((sortedByName tables values.dedup).getD j "") := by
    rw [← arranged.norm_getD iBelow, ← arranged.norm_getD jBelow]
    exact sameNorm
  have same := toCluster_swap independent arranged aIn bIn sameNames member
  have aMember : (sortedByName tables values.dedup).getD i "" ∈
      valuesAt (sortedByName tables values.dedup) positions := mem_valuesAt.mpr ⟨i, iIn, rfl⟩
  -- the swap puts the value at `j` into the cluster of `i`
  have bSwapped : (sortedByName tables values.dedup).getD j "" ∈
      (valuesAt (sortedByName tables values.dedup) positions).map (Equiv.swap
        ((sortedByName tables values.dedup).getD i "") ((sortedByName tables values.dedup).getD j "")) :=
    List.mem_map.mpr ⟨_, aMember, Equiv.swap_apply_left _ _⟩
  have shown : (toCluster tables strsim values _).canonicalValue :: _ = _ :=
    toCluster_members (List.ne_nil_of_mem aMember)
  rw [same, toCluster_members (List.ne_nil_of_mem bSwapped)] at shown
  have bMember := (sortedBy_perm (precedes values) _).mem_iff.mpr bSwapped
  rw [shown, (sortedBy_perm (precedes values) _).mem_iff] at bMember
  obtain ⟨k, kIn, isB⟩ := mem_valuesAt.mp bMember
  obtain ⟨_, _, _, _, inside⟩ := cluster_range member
  have kBelow : k < (sortedByName tables values.dedup).length :=
    arranged.length ▸ ((inside k).mp kIn).1
  rwa [getD_injective arranged.keys.distinct kBelow jBelow isB] at kIn

end Arrangements

/-- The clusters are the same in every order exactly if frequency and length tell the values
of one normal form apart and the window cuts no normal form. -/
theorem fuzzyCluster_orderIndependent_iff {Score Score32 : Type} [LinearOrder Score]
    (tables : UnicodeTables) (strsim : Strsim Score Score32) (threshold : Score)
    (values : List String) :
    OrderIndependent tables strsim threshold values ↔
      NoTies tables values ∧ Uncut tables strsim threshold values := by
  constructor
  · intro independent
    exact ⟨noTies_of independent, uncut_of independent⟩
  · intro condition
    exact orderIndependent_of condition.1 condition.2

def exactStrsim : Strsim Rat Rat where
  normalizedLevenshtein a b := if a = b then 1 else 0
  one := 1
  asF32 := id

/-- Two spellings that differ by case only: either can become the canonical value. -/
theorem fuzzyCluster_order_matters :
    ¬ OrderIndependent sampleTables exactStrsim (85 / 100) ["John Smith", "john smith"] := by
  intro independent
  have same := independent ["John Smith", "john smith"] ["John Smith", "john smith"]
    ["john smith", "John Smith"] (List.Perm.refl _) ⟨by decide, fun _ => Iff.rfl⟩
    ⟨by decide, fun value => by simp [or_comm]⟩
  exact absurd same (by decide +kernel)

end Ukip.Engine
