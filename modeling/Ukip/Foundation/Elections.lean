import Ukip.Foundation.LeaderGroups
import Ukip.Foundation.StableSort

/-!
# One representative for each group

Every group elects its first item of the highest key, and keeps the others in order.  Where
the groups do not depend on how the blocks of items are arranged, the representatives, what
they keep and their stable sort need conditions of their own.
-/

namespace Foundation.LeaderGroups

open Tally

variable {Item : Type}

def firstMax (key : Item → Nat) : Item → List Item → Item × List Item
  | leader, [] => (leader, [])
  | leader, next :: rest =>
    let later := firstMax key next rest
    if key later.1 ≤ key leader then (leader, next :: rest) else (later.1, leader :: later.2)

theorem firstMax_map {Other : Type} {key : Item → Nat} {keyOther : Other → Nat}
    (rename : Item → Other) (same : ∀ item, keyOther (rename item) = key item) (leader : Item)
    (rest : List Item) :
    firstMax keyOther (rename leader) (rest.map rename) =
      (rename (firstMax key leader rest).1, (firstMax key leader rest).2.map rename) := by
  induction rest generalizing leader with
  | nil => rfl
  | cons next rest ih =>
    simp only [List.map_cons, firstMax, ih, same]
    split <;> rfl

theorem firstMax_spec (key : Item → Nat) (leader : Item) (rest : List Item) :
    ∃ before after, leader :: rest = before ++ (firstMax key leader rest).1 :: after ∧
      (firstMax key leader rest).2 = before ++ after ∧
        (∀ item ∈ before, key item < key (firstMax key leader rest).1) ∧
          ∀ item ∈ after, key item ≤ key (firstMax key leader rest).1 := by
  induction rest generalizing leader with
  | nil => exact ⟨[], [], rfl, rfl, by simp, by simp⟩
  | cons next rest ih =>
    obtain ⟨before, after, split, others, lower, atMost⟩ := ih next
    rw [firstMax]
    by_cases leads : key (firstMax key next rest).1 ≤ key leader
    · rw [if_pos leads]
      refine ⟨[], next :: rest, rfl, rfl, by simp, ?_⟩
      intro item member
      rw [split] at member
      rcases List.mem_append.mp member with isBefore | isAfter
      · exact (lower item isBefore).le.trans leads
      · rcases List.mem_cons.mp isAfter with isBest | later
        · exact isBest ▸ leads
        · exact (atMost item later).trans leads
    · rw [if_neg leads]
      refine ⟨leader :: before, after, ?_, ?_, ?_, atMost⟩
      · rw [List.cons_append, ← split]
      · rw [List.cons_append, ← others]
      · intro item member
        rcases List.mem_cons.mp member with isLeader | isBefore
        · rw [isLeader]
          exact Nat.lt_of_not_le leads
        · exact lower item isBefore

def elected (similar : Item → Item → Bool) (key : Item → Nat) (items : List Item) :
    List (Item × List Item) :=
  (groups similar items).map fun group => firstMax key group.1 group.2

section Conditions

variable {Block : Type} [DecidableEq Block] (block : Item → Block) (rank key : Item → Nat)
variable (similar : Item → Item → Bool) (items : List Item)

/-- Of the highest key among its kin, and before every other of that key in its block. -/
def Heads (w : Item) : Prop :=
  ∀ b ∈ items, Kin block similar items w b →
    key b < key w ∨ (key b = key w ∧ block b = block w ∧ rank w ≤ rank b)

/-- In each block the kin of `v` come after some kin of `w`. -/
def Precedes (w v : Item) : Prop :=
  ∀ b ∈ items, Kin block similar items v b →
    ∃ a ∈ items, Kin block similar items w a ∧ block a = block b ∧ rank a < rank b

section Decidability

variable [DecidableEq Item]

instance (w : Item) : Decidable (Heads block rank key similar items w) :=
  inferInstanceAs (Decidable (∀ b ∈ items, Kin block similar items w b →
    key b < key w ∨ (key b = key w ∧ block b = block w ∧ rank w ≤ rank b)))

instance (w v : Item) : Decidable (Precedes block rank similar items w v) :=
  inferInstanceAs (Decidable (∀ b ∈ items, Kin block similar items v b →
    ∃ a ∈ items, Kin block similar items w a ∧ block a = block b ∧ rank a < rank b))

end Decidability

/-- When neither the groups nor the order of their representatives depends on how the blocks
are arranged; `tied` says that the sort leaves two items as they come. -/
structure Settled (tied : Item → Item → Prop) : Prop where
  consistent : Consistent block similar items
  headed : ∀ a ∈ items, ∃ w ∈ items, Kin block similar items a w ∧
    Heads block rank key similar items w
  oneBlock : ∀ w ∈ items, Heads block rank key similar items w → ∀ a ∈ items, ∀ b ∈ items,
    Kin block similar items w a → Kin block similar items w b → a ≠ w → b ≠ w → block a = block b
  ordered : ∀ w ∈ items, ∀ v ∈ items, Heads block rank key similar items w →
    Heads block rank key similar items v → w ≠ v → tied w v →
      Precedes block rank similar items w v ∨ Precedes block rank similar items v w

end Conditions

section Elections

variable {Block : Type} [DecidableEq Block] {block : Item → Block} {rank key : Item → Nat}
variable {similar : Item → Item → Bool} {items : List Item} {tied : Item → Item → Prop}

theorem firstMax_perm (key : Item → Nat) (group : Item × List Item) :
    ((firstMax key group.1 group.2).1 :: (firstMax key group.1 group.2).2).Perm (members group) := by
  obtain ⟨before, after, split, others, _, _⟩ := firstMax_spec key group.1 group.2
  rw [members, split, others]
  exact List.perm_middle.symm

variable {choice : Item × List Item}

theorem exists_group_of_elected (isElected : choice ∈ elected similar key items) :
    ∃ group ∈ groups similar items, (choice.1 :: choice.2).Perm (members group) := by
  obtain ⟨group, isGroup, rfl⟩ := List.mem_map.mp isElected
  exact ⟨group, isGroup, firstMax_perm key group⟩

theorem mem_of_elected (isElected : choice ∈ elected similar key items) {item : Item}
    (member : item ∈ choice.1 :: choice.2) : item ∈ items := by
  obtain ⟨group, isGroup, perm⟩ := exists_group_of_elected isElected
  exact mem_of_mem_group isGroup (perm.mem_iff.mp member)

theorem kin_of_elected (consistent : Consistent block similar items) (distinct : items.Nodup)
    (isElected : choice ∈ elected similar key items) {item : Item} (member : item ∈ items) :
    Kin block similar items choice.1 item ↔ item ∈ choice.1 :: choice.2 := by
  obtain ⟨group, isGroup, perm⟩ := exists_group_of_elected isElected
  have own : choice.1 ∈ members group := perm.mem_iff.mp List.mem_cons_self
  rw [← together_iff_kin consistent distinct (mem_of_mem_group isGroup own) member,
    together_iff distinct isGroup own, perm.mem_iff]

theorem nodup_of_elected (distinct : items.Nodup) (isElected : choice ∈ elected similar key items) :
    (choice.1 :: choice.2).Nodup := by
  obtain ⟨group, isGroup, perm⟩ := exists_group_of_elected isElected
  exact perm.nodup_iff.mpr (distinct.sublist (sublist_of_mem_groups isGroup))

theorem nodup_elected (distinct : items.Nodup) : (elected similar key items).Nodup := by
  rw [elected, List.Nodup, List.pairwise_map]
  apply List.Pairwise.imp _ (pairwise_disjoint distinct)
  intro first second disjoint same
  have inFirst := (firstMax_perm key first).mem_iff.mp List.mem_cons_self
  rw [same] at inFirst
  exact disjoint inFirst ((firstMax_perm key second).mem_iff.mp List.mem_cons_self)

theorem sublist_of_elected (isElected : choice ∈ elected similar key items) :
    choice.2.Sublist items := by
  obtain ⟨group, isGroup, rfl⟩ := List.mem_map.mp isElected
  obtain ⟨before, after, split, others, _, _⟩ := firstMax_spec key group.1 group.2
  have whole := sublist_of_mem_groups isGroup
  rw [members, split] at whole
  rw [others]
  exact ((List.Sublist.refl before).append (List.sublist_cons_self _ after)).trans whole

theorem kin_of_together (consistent : Consistent block similar items) (distinct : items.Nodup)
    (isElected : choice ∈ elected similar key items) {a b : Item} (aIn : a ∈ choice.1 :: choice.2)
    (bIn : b ∈ choice.1 :: choice.2) : Kin block similar items a b := by
  obtain ⟨group, isGroup, perm⟩ := exists_group_of_elected isElected
  apply (together_iff_kin consistent distinct (mem_of_elected isElected aIn)
    (mem_of_elected isElected bIn)).mp
  exact ⟨group, isGroup, perm.mem_iff.mp aIn, perm.mem_iff.mp bIn⟩

theorem Settled.heads_of_elected (settled : Settled block rank key similar items tied)
    (ranked : Ranked block rank items) (isElected : choice ∈ elected similar key items) :
    Heads block rank key similar items choice.1 := by
  have distinct := ranked.nodup
  have own : choice.1 ∈ choice.1 :: choice.2 := List.mem_cons_self
  have chosenIn := mem_of_elected isElected own
  obtain ⟨head, headIn, kin, heads⟩ := settled.headed choice.1 chosenIn
  have headHere := (kin_of_elected settled.consistent distinct isElected headIn).mp kin
  rcases List.mem_cons.mp headHere with isHead | isOther
  · rw [← isHead]
    exact heads
  · exfalso
    have back := heads choice.1 chosenIn
      (kin_of_together settled.consistent distinct isElected headHere own)
    obtain ⟨group, isGroup, rfl⟩ := List.mem_map.mp isElected
    obtain ⟨before, after, split, others, lower, atMost⟩ := firstMax_spec key group.1 group.2
    rw [others] at isOther
    have inOrder : Ranked block rank (members group) :=
      ranked.sublist (sublist_of_mem_groups isGroup)
    rw [members, split] at inOrder
    rcases List.mem_append.mp isOther with isBefore | isAfter
    · have below := lower head isBefore
      omega
    · have below := atMost head isAfter
      have later := (List.pairwise_cons.mp (List.pairwise_append.mp inOrder).2.1).1 head isAfter
      rcases back with above | first
      · omega
      · have rankLower := later first.2.1
        omega

theorem Settled.of_tied (settled : Settled block rank key similar items tied)
    {other : Item → Item → Prop} (fewer : ∀ a b, other a b → tied a b) :
    Settled block rank key similar items other where
  consistent := settled.consistent
  headed := settled.headed
  oneBlock := settled.oneBlock
  ordered w wIn v vIn wHeads vHeads differ tie :=
    settled.ordered w wIn v vIn wHeads vHeads differ (fewer w v tie)

theorem Heads.eq_of_kin (ranked : Ranked block rank items) {w v : Item} (wIn : w ∈ items)
    (vIn : v ∈ items) (wHeads : Heads block rank key similar items w)
    (vHeads : Heads block rank key similar items v) (forward : Kin block similar items w v)
    (backward : Kin block similar items v w) : w = v := by
  have below := wHeads v vIn forward
  have above := vHeads w wIn backward
  rcases below with lower | same
  · omega
  · rcases above with lower | other
    · omega
    · exact ranked.eq_of_rank wIn vIn other.2.1 (by omega)

theorem Precedes.asymm {w v : Item} (forward : Precedes block rank similar items w v)
    (backward : Precedes block rank similar items v w) {b : Item} (bIn : b ∈ items) :
    ¬ Kin block similar items v b := by
  -- each step finds an earlier one of the kin of `v`
  induction lower : rank b using Nat.strong_induction_on generalizing b with
  | _ n ih =>
    intro kin
    obtain ⟨a, aIn, aKin, _, aLower⟩ := forward b bIn kin
    obtain ⟨c, cIn, cKin, _, cLower⟩ := backward a aIn aKin
    exact ih (rank c) (by omega) cIn rfl cKin

section Arrangements

variable {first second : List Item} (firstRanked : Ranked block rank first)
  (secondRanked : Ranked block rank second) (perm : first.Perm second)
include firstRanked secondRanked perm

theorem Kin.iff_of_perm {a b : Item} :
    Kin block similar first a b ↔ Kin block similar second a b :=
  ⟨Kin.of_perm firstRanked secondRanked perm, Kin.of_perm secondRanked firstRanked perm.symm⟩

theorem Settled.of_perm (settled : Settled block rank key similar first tied) :
    Settled block rank key similar second tied := by
  have sameKin : Kin block similar second = Kin block similar first := by
    funext a b
    exact propext (Kin.iff_of_perm firstRanked secondRanked perm).symm
  have sameHeads : ∀ w, Heads block rank key similar second w ↔
      Heads block rank key similar first w := by
    intro w
    simp only [Heads, sameKin, perm.mem_iff]
  have samePrecedes : ∀ w v, Precedes block rank similar second w v ↔
      Precedes block rank similar first w v := by
    intro w v
    simp only [Precedes, sameKin, perm.mem_iff]
  refine ⟨settled.consistent.of_perm perm, ?_, ?_, ?_⟩
  · simpa only [sameHeads, sameKin, perm.mem_iff] using settled.headed
  · simpa only [sameHeads, sameKin, perm.mem_iff] using settled.oneBlock
  · simpa only [sameHeads, samePrecedes, perm.mem_iff] using settled.ordered

theorem mem_elected_of_perm (settled : Settled block rank key similar first tied)
    (isElected : choice ∈ elected similar key first) : choice ∈ elected similar key second := by
  have settledSecond := settled.of_perm firstRanked secondRanked perm
  have distinct := firstRanked.nodup
  have distinctSecond := secondRanked.nodup
  have own : choice.1 ∈ choice.1 :: choice.2 := List.mem_cons_self
  have chosenIn := perm.mem_iff.mp (mem_of_elected isElected own)
  obtain ⟨group, isGroup, inGroup⟩ := @exists_group Item similar choice.1 second chosenIn
  have isOther : firstMax key group.1 group.2 ∈ elected similar key second :=
    List.mem_map_of_mem isGroup
  have here := (firstMax_perm key group).mem_iff.mpr inGroup
  generalize firstMax key group.1 group.2 = other at isOther here
  have otherOwn : other.1 ∈ other.1 :: other.2 := List.mem_cons_self
  have otherIn := mem_of_elected isOther otherOwn
  -- both are the head of one group
  have sameHead : choice.1 = other.1 := by
    apply Heads.eq_of_kin secondRanked chosenIn otherIn _
      (settledSecond.heads_of_elected secondRanked isOther)
      (kin_of_together settledSecond.consistent distinctSecond isOther here otherOwn)
      (kin_of_together settledSecond.consistent distinctSecond isOther otherOwn here)
    have heads := settled.heads_of_elected firstRanked isElected
    intro b bIn kin
    exact heads b (perm.mem_iff.mpr bIn) ((Kin.iff_of_perm firstRanked secondRanked perm).mpr kin)
  have sameMembers : ∀ item, item ∈ choice.1 :: choice.2 ↔ item ∈ other.1 :: other.2 := by
    intro item
    by_cases itemIn : item ∈ first
    · rw [← kin_of_elected settled.consistent distinct isElected itemIn,
        ← kin_of_elected settledSecond.consistent distinctSecond isOther (perm.mem_iff.mp itemIn),
        Kin.iff_of_perm firstRanked secondRanked perm, sameHead]
    · refine iff_of_false (fun member => itemIn (mem_of_elected isElected member)) fun member => ?_
      exact itemIn (perm.mem_iff.mpr (mem_of_elected isOther member))
  have choiceDistinct := nodup_of_elected distinct isElected
  have others : choice.2.Perm other.2 := by
    have whole := (List.perm_ext_iff_of_nodup choiceDistinct
      (nodup_of_elected distinctSecond isOther)).mpr sameMembers
    rw [sameHead] at whole
    exact whole.cons_inv
  have sameOthers : choice.2 = other.2 := by
    apply (firstRanked.sublist (sublist_of_elected isElected)).eq_of_perm
      (secondRanked.sublist (sublist_of_elected isOther)) others
    have kin : ∀ a ∈ choice.2, Kin block similar first choice.1 a := fun a member =>
      kin_of_together settled.consistent distinct isElected own (List.mem_cons_of_mem _ member)
    have differ : ∀ a ∈ choice.2, a ≠ choice.1 := fun a member same =>
      (List.nodup_cons.mp choiceDistinct).1 (same ▸ member)
    have inFirst : ∀ a ∈ choice.2, a ∈ first := fun a member =>
      mem_of_elected isElected (List.mem_cons_of_mem _ member)
    intro a aIn b bIn
    exact settled.oneBlock choice.1 (mem_of_elected isElected own)
      (settled.heads_of_elected firstRanked isElected) a (inFirst a aIn) b (inFirst b bIn)
      (kin a aIn) (kin b bIn) (differ a aIn) (differ b bIn)
  have same : choice = other := Prod.ext sameHead sameOthers
  rw [same]
  exact isOther

theorem elected_perm (settled : Settled block rank key similar first tied) :
    (elected similar key first).Perm (elected similar key second) := by
  apply (List.perm_ext_iff_of_nodup (nodup_elected firstRanked.nodup)
    (nodup_elected secondRanked.nodup)).mpr
  intro choice
  exact ⟨mem_elected_of_perm firstRanked secondRanked perm settled,
    mem_elected_of_perm secondRanked firstRanked perm.symm
      (settled.of_perm firstRanked secondRanked perm)⟩

end Arrangements

/-- Where the sort leaves a tie, the representatives come in the order that their kin have in
every block. -/
def InOrder (block : Item → Block) (rank : Item → Nat) (similar : Item → Item → Bool)
    (items : List Item) (tied : Item → Item → Prop) (first second : Item × List Item) : Prop :=
  tied first.1 second.1 → Precedes block rank similar items first.1 second.1

theorem Settled.pairwise_elected (settled : Settled block rank key similar items tied)
    (ranked : Ranked block rank items) :
    (elected similar key items).Pairwise (InOrder block rank similar items tied) := by
  have distinct := ranked.nodup
  rw [elected, List.pairwise_map]
  have facts := (@pairwise_groups Item similar items _ ranked).and (pairwise_disjoint distinct)
  apply List.Pairwise.imp_of_mem _ facts
  intro earlier later isEarlier isLater fact tie
  have electedEarlier : firstMax key earlier.1 earlier.2 ∈ elected similar key items :=
    List.mem_map_of_mem isEarlier
  have electedLater : firstMax key later.1 later.2 ∈ elected similar key items :=
    List.mem_map_of_mem isLater
  have earlierPerm := firstMax_perm key earlier
  have laterPerm := firstMax_perm key later
  generalize firstMax key earlier.1 earlier.2 = w at electedEarlier earlierPerm tie
  generalize firstMax key later.1 later.2 = v at electedLater laterPerm tie
  have wIn := mem_of_elected electedEarlier (List.mem_cons_self : w.1 ∈ w.1 :: w.2)
  have vIn := mem_of_elected electedLater (List.mem_cons_self : v.1 ∈ v.1 :: v.2)
  have differ : w.1 ≠ v.1 := fun same =>
    fact.2 (earlierPerm.mem_iff.mp List.mem_cons_self)
      (same ▸ laterPerm.mem_iff.mp List.mem_cons_self)
  rcases settled.ordered w.1 wIn v.1 vIn (settled.heads_of_elected ranked electedEarlier)
    (settled.heads_of_elected ranked electedLater) differ tie with forward | backward
  · exact forward
  · -- the leader of the earlier group stands before the whole later one
    exfalso
    have leader : earlier.1 ∈ members earlier := mem_members.mpr (.inl rfl)
    have leaderHere := earlierPerm.mem_iff.mpr leader
    obtain ⟨a, aIn, aKin, sameBlock, lower⟩ := backward earlier.1 (mem_of_mem_group isEarlier leader)
      (kin_of_together settled.consistent distinct electedEarlier List.mem_cons_self leaderHere)
    have aHere := (kin_of_elected settled.consistent distinct electedLater aIn).mp aKin
    have above := fact.1 a (laterPerm.mem_iff.mp aHere) sameBlock.symm
    omega

theorem Settled.sortedBy_eq {precedes : Item → Item → Bool} (ranking : Ranking precedes)
    {first second : List Item}
    (settled : Settled block rank key similar first fun a b =>
      precedes a b = true ∧ precedes b a = true)
    (firstRanked : Ranked block rank first) (secondRanked : Ranked block rank second)
    (perm : first.Perm second) :
    sortedBy (fun a b => precedes a.1 b.1) (elected similar key first) =
      sortedBy (fun a b => precedes a.1 b.1) (elected similar key second) := by
  have rankingElected : Ranking fun a b : Item × List Item => precedes a.1 b.1 :=
    ⟨fun a b => ranking.total a.1 b.1, fun a b c => ranking.trans a.1 b.1 c.1⟩
  have secondInOrder := (settled.of_perm firstRanked secondRanked perm).pairwise_elected secondRanked
  apply sortedBy_eq_of_perm rankingElected (elected_perm firstRanked secondRanked perm settled)
    (settled.pairwise_elected firstRanked)
  · apply List.Pairwise.imp _ secondInOrder
    intro a b inOrder tie c cIn kin
    obtain ⟨d, dIn, dKin, sameBlock, lower⟩ := inOrder tie c (perm.mem_iff.mp cIn)
      ((Kin.iff_of_perm firstRanked secondRanked perm).mp kin)
    exact ⟨d, perm.mem_iff.mpr dIn, (Kin.iff_of_perm firstRanked secondRanked perm).mpr dKin,
      sameBlock, lower⟩
  · intro a _ b bIn forward backward aFirst bFirst
    exfalso
    have own : b.1 ∈ b.1 :: b.2 := List.mem_cons_self
    exact Precedes.asymm (aFirst ⟨forward, backward⟩) (bFirst ⟨backward, forward⟩)
      (mem_of_elected bIn own)
      (kin_of_together settled.consistent firstRanked.nodup bIn own own)

end Elections

end Foundation.LeaderGroups
