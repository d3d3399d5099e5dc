import Mathlib.Data.List.Nodup
import Mathlib.Data.List.Pairwise
import Mathlib.Data.List.Perm.Basic

/-!
# Groups around their first items

One pass over a list: the first item takes every later one that is similar to it, and what
is left is grouped in the same way.  Similarity need not be transitive, so the groups depend
on the order of the list.  They do not where the items come in blocks and the similarity
between two blocks is that of cliques.
-/

namespace Foundation.LeaderGroups

variable {Item : Type}

def followers (similar : Item → Item → Bool) (leader : Item) (rest : List Item) : List Item :=
  rest.filter fun item => similar leader item

def remaining (similar : Item → Item → Bool) (leader : Item) (rest : List Item) : List Item :=
  rest.filter fun item => !similar leader item

def groups (similar : Item → Item → Bool) : List Item → List (Item × List Item)
  | [] => []
  | leader :: rest =>
    (leader, followers similar leader rest) :: groups similar (remaining similar leader rest)
termination_by items => items.length
decreasing_by
  simp only [List.length_cons]
  exact Nat.lt_succ_of_le (List.length_filter_le _ rest)

def members (group : Item × List Item) : List Item := group.1 :: group.2

/-- Two items in one group. -/
def Together (similar : Item → Item → Bool) (items : List Item) (a b : Item) : Prop :=
  ∃ group ∈ groups similar items, a ∈ members group ∧ b ∈ members group

instance [DecidableEq Item] (similar : Item → Item → Bool) (items : List Item) (a b : Item) :
    Decidable (Together similar items a b) :=
  inferInstanceAs (Decidable (∃ group ∈ groups similar items, a ∈ members group ∧ b ∈ members group))

variable {similar : Item → Item → Bool}

variable {group : Item × List Item} {item : Item}

theorem mem_members : item ∈ members group ↔ item = group.1 ∨ item ∈ group.2 := List.mem_cons

theorem groups_nil : groups similar [] = [] := by rw [groups]

theorem groups_cons (leader : Item) (rest : List Item) :
    groups similar (leader :: rest) =
      (leader, followers similar leader rest) :: groups similar (remaining similar leader rest) := by
  rw [groups]

theorem flatMap_members_perm (items : List Item) :
    ((groups similar items).flatMap members).Perm items := by
  induction items using groups.induct similar with
  | case1 => simp [groups_nil]
  | case2 leader rest ih =>
    rw [groups_cons, List.flatMap_cons, members, List.cons_append]
    apply List.Perm.cons
    exact (ih.append_left _).trans (List.filter_append_perm _ rest)

variable {items : List Item}

theorem exists_group (member : item ∈ items) :
    ∃ group ∈ groups similar items, item ∈ members group :=
  List.mem_flatMap.mp ((flatMap_members_perm items).mem_iff.mpr member)

theorem mem_of_mem_group (isGroup : group ∈ groups similar items) (member : item ∈ members group) :
    item ∈ items :=
  (flatMap_members_perm items).mem_iff.mp (List.mem_flatMap.mpr ⟨group, isGroup, member⟩)

theorem sublist_of_mem_groups (isGroup : group ∈ groups similar items) :
    (members group).Sublist items := by
  induction items using groups.induct similar with
  | case1 => simp [groups_nil] at isGroup
  | case2 leader rest ih =>
    rw [groups_cons] at isGroup
    rcases List.mem_cons.mp isGroup with isFirst | later
    · rw [isFirst]
      exact List.filter_sublist.cons_cons leader
    · exact ((ih later).trans List.filter_sublist).cons leader

theorem similar_of_mem_groups (isGroup : group ∈ groups similar items) (follows : item ∈ group.2) :
    similar group.1 item = true := by
  induction items using groups.induct similar with
  | case1 => simp [groups_nil] at isGroup
  | case2 leader rest ih =>
    rw [groups_cons] at isGroup
    rcases List.mem_cons.mp isGroup with isFirst | later
    · rw [isFirst] at follows ⊢
      exact (List.mem_filter.mp follows).2
    · exact ih later

theorem pairwise_groups {before : Item → Item → Prop} (ordered : items.Pairwise before) :
    (groups similar items).Pairwise fun first second =>
      ∀ item ∈ members second, before first.1 item := by
  induction items using groups.induct similar with
  | case1 => simp [groups_nil]
  | case2 leader rest ih =>
    obtain ⟨first, restOrdered⟩ := List.pairwise_cons.mp ordered
    rw [groups_cons]
    refine List.pairwise_cons.mpr ⟨?_, ih (restOrdered.sublist List.filter_sublist)⟩
    intro group isGroup item member
    exact first item (List.mem_of_mem_filter (mem_of_mem_group isGroup member))

theorem pairwise_disjoint (distinct : items.Nodup) :
    (groups similar items).Pairwise fun first second =>
      List.Disjoint (members first) (members second) := by
  have whole : ((groups similar items).flatMap members).Nodup :=
    (flatMap_members_perm items).nodup_iff.mpr distinct
  exact (List.nodup_flatMap.mp whole).2

theorem eq_of_mem_groups (distinct : items.Nodup) {first second : Item × List Item}
    (isFirst : first ∈ groups similar items) (isSecond : second ∈ groups similar items)
    (inFirst : item ∈ members first) (inSecond : item ∈ members second) : first = second := by
  by_contra differ
  have symmetric : Std.Symm fun first second : Item × List Item =>
      List.Disjoint (members first) (members second) :=
    ⟨fun _ _ disjoint item inSecond inFirst => disjoint inFirst inSecond⟩
  exact (pairwise_disjoint distinct).forall isFirst isSecond differ inFirst inSecond

variable {a b : Item}

theorem together_iff (distinct : items.Nodup) (isGroup : group ∈ groups similar items)
    (member : a ∈ members group) :
    Together similar items a b ↔ b ∈ members group := by
  constructor
  · intro together
    obtain ⟨other, isOther, aIn, bIn⟩ := together
    rw [eq_of_mem_groups distinct isGroup isOther member aIn]
    exact bIn
  · intro bIn
    exact ⟨group, isGroup, member, bIn⟩

theorem groups_map {Other : Type} {similarOther : Other → Other → Bool} (rename : Item → Other)
    (same : ∀ a b, similarOther (rename a) (rename b) = similar a b) (items : List Item) :
    groups similarOther (items.map rename) =
      (groups similar items).map fun group => (rename group.1, group.2.map rename) := by
  induction items using groups.induct similar with
  | case1 => simp [groups_nil]
  | case2 leader rest ih =>
    rw [List.map_cons, groups_cons, groups_cons, List.map_cons, ← ih, followers, followers,
      remaining, remaining, List.filter_map, List.filter_map]
    simp only [Function.comp_def, same]

/-- Similarity does not lead out of `part`. -/
def Closed (similar : Item → Item → Bool) (items : List Item) (part : Item → Bool) : Prop :=
  ∀ a ∈ items, ∀ b ∈ items, similar a b = true → part a = part b

variable {part : Item → Bool}

theorem groups_filter (closed : Closed similar items part) :
    groups similar (items.filter part) =
      (groups similar items).filter fun group => part group.1 := by
  induction items using groups.induct similar with
  | case1 => simp [groups_nil]
  | case2 leader rest ih =>
    have follow : ∀ item ∈ rest, similar leader item = true → part leader = part item :=
      fun item member => closed leader List.mem_cons_self item (List.mem_cons_of_mem leader member)
    have inner : Closed similar (remaining similar leader rest) part :=
      fun a aIn b bIn => closed a (List.mem_cons_of_mem leader (List.mem_of_mem_filter aIn))
        b (List.mem_cons_of_mem leader (List.mem_of_mem_filter bIn))
    rw [groups_cons]
    by_cases inPart : part leader = true
    · have takes : followers similar leader (rest.filter part) = followers similar leader rest := by
        rw [followers, followers, List.filter_filter]
        apply List.filter_congr
        intro item member
        by_cases close : similar leader item = true
        · simp [close, ← follow item member close, inPart]
        · simp [close]
      have leaves : remaining similar leader (rest.filter part) =
          (remaining similar leader rest).filter part := by
        rw [remaining, remaining, List.filter_filter, List.filter_filter]
        apply List.filter_congr
        intro item _
        exact Bool.and_comm _ _
      rw [List.filter_cons_of_pos inPart, groups_cons, takes, leaves, ih inner]
      exact (List.filter_cons_of_pos (p := fun group : Item × List Item => part group.1) inPart).symm
    · have leaves : rest.filter part = (remaining similar leader rest).filter part := by
        rw [remaining, List.filter_filter]
        apply List.filter_congr
        intro item member
        by_cases close : similar leader item = true
        · simp [close, ← follow item member close, inPart]
        · simp [close]
      rw [List.filter_cons_of_neg inPart, leaves, ih inner]
      exact (List.filter_cons_of_neg (p := fun group : Item × List Item => part group.1) inPart).symm

theorem mem_groups_filter (closed : Closed similar items part)
    (isGroup : group ∈ groups similar items) (member : item ∈ members group)
    (inPart : part item = true) :
    group ∈ groups similar (items.filter part) := by
  rw [groups_filter closed, List.mem_filter]
  refine ⟨isGroup, ?_⟩
  rcases mem_members.mp member with isLeader | follows
  · rw [← isLeader]
    exact inPart
  · have leaderIn := mem_of_mem_group isGroup (mem_members.mpr (.inl rfl))
    rw [closed group.1 leaderIn item (mem_of_mem_group isGroup member)
      (similar_of_mem_groups isGroup follows)]
    exact inPart

theorem members_eq_filter (distinct : items.Nodup) (closed : Closed similar items part)
    (clique : ∀ a ∈ items, ∀ b ∈ items, part a = true → part b = true → a ≠ b → similar a b = true)
    (isGroup : group ∈ groups similar items) (member : item ∈ members group)
    (inPart : part item = true) : members group = items.filter part := by
  have inGroups := mem_groups_filter closed isGroup member inPart
  have partDistinct := distinct.sublist (List.filter_sublist (p := part))
  cases parts : items.filter part with
  | nil => simp [parts, groups_nil] at inGroups
  | cons leader rest =>
    have all : ∀ other ∈ rest, similar leader other = true := by
      intro other otherIn
      have leaderHere : leader ∈ items.filter part := parts ▸ List.mem_cons_self
      have otherHere : other ∈ items.filter part := parts ▸ List.mem_cons_of_mem leader otherIn
      rw [parts] at partDistinct
      have differ : leader ≠ other :=
        fun same => (List.nodup_cons.mp partDistinct).1 (same ▸ otherIn)
      exact clique leader (List.mem_of_mem_filter leaderHere) other
        (List.mem_of_mem_filter otherHere) (List.of_mem_filter leaderHere)
        (List.of_mem_filter otherHere) differ
    have whole : groups similar (leader :: rest) = [(leader, rest)] := by
      have leaves : remaining similar leader rest = [] := by
        rw [remaining, List.filter_eq_nil_iff]
        intro other otherIn
        simp [all other otherIn]
      rw [groups_cons, leaves, groups_nil, followers, List.filter_eq_self.mpr all]
    rw [parts, whole, List.mem_singleton] at inGroups
    rw [inGroups]
    rfl

section Ranks

variable {Block : Type} (block : Item → Block) (rank : Item → Nat)

/-- Every block is in the order of `rank`. -/
def Ranked (items : List Item) : Prop :=
  items.Pairwise fun a b => block a = block b → rank a < rank b

variable {block rank} {items : List Item}

theorem Ranked.nodup (ranked : Ranked block rank items) : items.Nodup := by
  apply List.Pairwise.imp _ ranked
  intro a b ordered same
  have lower := ordered (same ▸ rfl)
  rw [same] at lower
  exact Nat.lt_irrefl _ lower

theorem Ranked.sublist (ranked : Ranked block rank items) {part : List Item}
    (sublist : part.Sublist items) : Ranked block rank part := List.Pairwise.sublist sublist ranked

theorem Ranked.eq_of_rank (ranked : Ranked block rank items) (aIn : a ∈ items) (bIn : b ∈ items)
    (sameBlock : block a = block b) (sameRank : rank a = rank b) : a = b := by
  by_contra differ
  have apart : items.Pairwise fun a b => block a = block b → rank a ≠ rank b := by
    apply List.Pairwise.imp _ ranked
    intro a b ordered same
    exact Nat.ne_of_lt (ordered same)
  have symmetric : Std.Symm fun a b => block a = block b → rank a ≠ rank b :=
    ⟨fun _ _ differ same => (differ same.symm).symm⟩
  exact apart.forall aIn bIn differ sameBlock sameRank

theorem Ranked.eq_of_perm {first second : List Item} (firstRanked : Ranked block rank first)
    (secondRanked : Ranked block rank second) (perm : first.Perm second)
    (oneBlock : ∀ a ∈ first, ∀ b ∈ first, block a = block b) : first = second := by
  apply perm.eq_of_pairwise _ firstRanked secondRanked
  intro a b aIn bIn forward backward
  have same := oneBlock a aIn b (perm.mem_iff.mpr bIn)
  have lower := forward same
  have upper := backward same.symm
  omega

end Ranks

section Kinship

variable {Block : Type} (block : Item → Block)

/-- Similarity between two blocks is that of cliques: two similar items of different blocks
have the same similar items. -/
structure Consistent (similar : Item → Item → Bool) (items : List Item) : Prop where
  symmetric : ∀ a b, similar a b = similar b a
  bridges : ∀ a ∈ items, ∀ b ∈ items, block a ≠ block b → similar a b = true →
    ∀ c ∈ items, c ≠ a → c ≠ b → (similar c a = true ↔ similar c b = true)

/-- Similar to an item of another block. -/
def Bridged (similar : Item → Item → Bool) (items : List Item) (a : Item) : Prop :=
  ∃ b ∈ items, block a ≠ block b ∧ similar a b = true

/-- The item and what is similar to it. -/
def IsRelative (similar : Item → Item → Bool) (a item : Item) : Prop :=
  item = a ∨ similar item a = true

variable {block} {items : List Item}

theorem Bridged.similar_iff {a x : Item} (bridged : Bridged block similar items a)
    (consistent : Consistent block similar items) (aIn : a ∈ items) (xIn : x ∈ items)
    (close : similar x a = true) {y : Item} (yIn : y ∈ items) (yNota : y ≠ a) (yNotx : y ≠ x) :
    similar y x = true ↔ similar y a = true := by
  obtain ⟨b, bIn, apart, bridge⟩ := bridged
  by_cases isA : x = a
  · rw [isA]
  by_cases same : block x = block a
  · have further : block x ≠ block b := fun inB => apart (same.symm.trans inB)
    have xNotb : x ≠ b := fun isB => further (isB ▸ rfl)
    have toB : similar x b = true :=
      (consistent.bridges a aIn b bIn apart bridge x xIn isA xNotb).mp close
    by_cases isB : y = b
    · rw [isB, consistent.symmetric b x, consistent.symmetric b a]
      exact iff_of_true toB bridge
    · exact (consistent.bridges x xIn b bIn further toB y yIn yNotx isB).trans
        (consistent.bridges a aIn b bIn apart bridge y yIn yNota isB).symm
  · exact consistent.bridges x xIn a aIn same close y yIn yNotx yNota

theorem Bridged.clique {a : Item} (bridged : Bridged block similar items a)
    (consistent : Consistent block similar items) (aIn : a ∈ items) {x y : Item} (xIn : x ∈ items)
    (yIn : y ∈ items) (xRelative : IsRelative similar a x) (yRelative : IsRelative similar a y)
    (differ : x ≠ y) : similar x y = true := by
  by_cases yIsA : y = a
  · rw [yIsA]
    exact xRelative.resolve_left fun xIsA => differ (xIsA.trans yIsA.symm)
  · have yClose := yRelative.resolve_left yIsA
    rcases xRelative with xIsA | xClose
    · rw [xIsA, consistent.symmetric]
      exact yClose
    · rw [consistent.symmetric]
      exact (bridged.similar_iff consistent aIn xIn xClose yIn yIsA differ.symm).mpr yClose

theorem Bridged.closed {a : Item} (bridged : Bridged block similar items a)
    (consistent : Consistent block similar items) (aIn : a ∈ items) {x y : Item} (xIn : x ∈ items)
    (yIn : y ∈ items) (close : similar x y = true) (relative : IsRelative similar a x) :
    IsRelative similar a y := by
  by_cases isA : y = a
  · exact .inl isA
  by_cases isX : y = x
  · rw [isX]
    exact relative
  have back : similar y x = true := (consistent.symmetric y x).trans close
  rcases relative with xIsA | xClose
  · rw [← xIsA]
    exact .inr back
  · exact .inr ((bridged.similar_iff consistent aIn xIn xClose yIn isA isX).mp back)

theorem Bridged.of_similar {a x : Item} (bridged : Bridged block similar items a)
    (consistent : Consistent block similar items) (aIn : a ∈ items) (xIn : x ∈ items)
    (close : similar x a = true) : Bridged block similar items x := by
  obtain ⟨b, bIn, apart, bridge⟩ := bridged
  by_cases same : block x = block a
  · have further : block x ≠ block b := fun inB => apart (same.symm.trans inB)
    refine ⟨b, bIn, further, ?_⟩
    by_cases isA : x = a
    · rw [isA]
      exact bridge
    · have xNotb : x ≠ b := fun isB => further (isB ▸ rfl)
      exact (consistent.bridges a aIn b bIn apart bridge x xIn isA xNotb).mp close
  · exact ⟨a, aIn, same, close⟩

theorem Consistent.of_perm {first second : List Item} (consistent : Consistent block similar first)
    (perm : first.Perm second) : Consistent block similar second where
  symmetric := consistent.symmetric
  bridges a aIn b bIn apart close c cIn :=
    consistent.bridges a (perm.mem_iff.mpr aIn) b (perm.mem_iff.mpr bIn) apart close c
      (perm.mem_iff.mpr cIn)

open Classical in
theorem Bridged.together_iff (bridged : Bridged block similar items a)
    (consistent : Consistent block similar items) (distinct : items.Nodup) (aIn : a ∈ items)
    {part : List Item} (inPart : part.Sublist items) (aInPart : a ∈ part) :
    Together similar part a b ↔ b ∈ part ∧ IsRelative similar a b := by
  obtain ⟨group, isGroup, member⟩ := @exists_group Item similar a part aInPart
  have closed : Closed similar part fun item => decide (IsRelative similar a item) := by
    intro x xIn y yIn close
    have back : similar y x = true := (consistent.symmetric y x).trans close
    have xHere := inPart.subset xIn
    have yHere := inPart.subset yIn
    rw [Bool.eq_iff_iff, decide_eq_true_iff, decide_eq_true_iff]
    exact ⟨bridged.closed consistent aIn xHere yHere close,
      bridged.closed consistent aIn yHere xHere back⟩
  have whole : members group = part.filter fun item => decide (IsRelative similar a item) := by
    apply members_eq_filter (distinct.sublist inPart) closed _ isGroup member
    · exact decide_eq_true (.inl rfl)
    · intro x xIn y yIn xRelative yRelative differ
      exact bridged.clique consistent aIn (inPart.subset xIn) (inPart.subset yIn)
        (of_decide_eq_true xRelative) (of_decide_eq_true yRelative) differ
  rw [LeaderGroups.together_iff (distinct.sublist inPart) isGroup member, whole, List.mem_filter,
    decide_eq_true_iff]

variable [DecidableEq Block]

variable (block) in
/-- In one group of the pass over their block, or similar and of different blocks. -/
def Kin (similar : Item → Item → Bool) (items : List Item) (a b : Item) : Prop :=
  if block a = block b then Together similar (items.filter fun item => block item = block a) a b
  else similar a b = true

instance [DecidableEq Item] (similar : Item → Item → Bool) (items : List Item) (a b : Item) :
    Decidable (Kin block similar items a b) :=
  inferInstanceAs (Decidable (if block a = block b then
    Together similar (items.filter fun item => block item = block a) a b else similar a b = true))

open Classical in
theorem together_iff_of_not_bridged (alone : ¬ Bridged block similar items a)
    (consistent : Consistent block similar items) (distinct : items.Nodup) (aIn : a ∈ items) :
    Together similar items a b ↔
      Together similar (items.filter fun item => block item = block a) a b := by
  obtain ⟨group, isGroup, member⟩ := @exists_group Item similar a items aIn
  have closed : Closed similar items fun item =>
      decide (block item = block a ∧ ¬ Bridged block similar items item) := by
    have leads : ∀ x ∈ items, ∀ y ∈ items, similar x y = true →
        block x = block a ∧ ¬ Bridged block similar items x →
          block y = block a ∧ ¬ Bridged block similar items y := by
      intro x xIn y yIn close inside
      constructor
      · by_contra outside
        exact inside.2 ⟨y, yIn, fun same => outside (same.symm.trans inside.1), close⟩
      · intro bridged
        exact inside.2 (bridged.of_similar consistent yIn xIn close)
    intro x xIn y yIn close
    have back : similar y x = true := (consistent.symmetric y x).trans close
    rw [Bool.eq_iff_iff, decide_eq_true_iff, decide_eq_true_iff]
    exact ⟨leads x xIn y yIn close, leads y yIn x xIn back⟩
  have inBlock : group ∈ groups similar (items.filter fun item => block item = block a) := by
    have inPart := mem_groups_filter closed isGroup member (decide_eq_true ⟨rfl, alone⟩)
    have nested : (items.filter fun item =>
          decide (block item = block a ∧ ¬ Bridged block similar items item)) =
        (items.filter fun item => block item = block a).filter fun item =>
          decide (block item = block a ∧ ¬ Bridged block similar items item) := by
      rw [List.filter_filter]
      apply List.filter_congr
      intro item _
      rw [Bool.eq_iff_iff, Bool.and_eq_true, decide_eq_true_iff, decide_eq_true_iff]
      exact ⟨fun inside => ⟨inside, inside.1⟩, And.left⟩
    have closedBlock : Closed similar (items.filter fun item => block item = block a) fun item =>
        decide (block item = block a ∧ ¬ Bridged block similar items item) :=
      fun x xIn y yIn => closed x (List.mem_of_mem_filter xIn) y (List.mem_of_mem_filter yIn)
    rw [nested, groups_filter closedBlock] at inPart
    exact List.mem_of_mem_filter inPart
  rw [LeaderGroups.together_iff distinct isGroup member,
    LeaderGroups.together_iff (distinct.sublist List.filter_sublist) inBlock member]

theorem together_iff_kin (consistent : Consistent block similar items) (distinct : items.Nodup)
    (aIn : a ∈ items) (bIn : b ∈ items) :
    Together similar items a b ↔ Kin block similar items a b := by
  have aInBlock : a ∈ items.filter fun item => block item = block a :=
    List.mem_filter.mpr ⟨aIn, decide_eq_true rfl⟩
  rw [Kin]
  by_cases bridged : Bridged block similar items a
  · rw [bridged.together_iff consistent distinct aIn (List.Sublist.refl items) aIn]
    split
    · next same =>
        rw [bridged.together_iff consistent distinct aIn List.filter_sublist aInBlock,
          List.mem_filter, decide_eq_true_iff]
        exact ⟨fun found => ⟨⟨bIn, same.symm⟩, found.2⟩, fun found => ⟨bIn, found.2⟩⟩
    · next apart =>
        have differ : b ≠ a := fun same => apart (same ▸ rfl)
        rw [consistent.symmetric a b]
        exact ⟨fun found => found.2.resolve_left differ, fun close => ⟨bIn, .inr close⟩⟩
  · rw [together_iff_of_not_bridged bridged consistent distinct aIn]
    split
    · exact Iff.rfl
    · next apart =>
        refine iff_of_false ?_ fun close => bridged ⟨b, bIn, apart, close⟩
        intro together
        obtain ⟨group, isGroup, _, bMember⟩ := together
        have inBlock := List.of_mem_filter (mem_of_mem_group isGroup bMember)
        exact apart (of_decide_eq_true inBlock).symm

theorem Kin.of_perm {rank : Item → Nat} {first second : List Item}
    (firstRanked : Ranked block rank first) (secondRanked : Ranked block rank second)
    (perm : first.Perm second) (kin : Kin block similar first a b) :
    Kin block similar second a b := by
  have sameBlock : (first.filter fun item => block item = block a) =
      second.filter fun item => block item = block a := by
    apply (firstRanked.sublist List.filter_sublist).eq_of_perm
      (secondRanked.sublist List.filter_sublist) (perm.filter _)
    intro x xIn y yIn
    have xBlock := (List.mem_filter.mp xIn).2
    have yBlock := (List.mem_filter.mp yIn).2
    exact (of_decide_eq_true xBlock).trans (of_decide_eq_true yBlock).symm
  rw [Kin, ← sameBlock]
  exact kin

end Kinship

end Foundation.LeaderGroups
