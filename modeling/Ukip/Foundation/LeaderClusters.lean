import Mathlib.Data.List.Nodup
import Mathlib.Data.List.Range
import Mathlib.Data.Nat.Find
import Mathlib.Data.Set.Function

/-!
# Greedy clusters around leaders

One pass over a list.  An item that no cluster has yet starts one, and takes from the next
few items those that are similar to it and still free.  The pass over the items of a list
is the image of the pass over its positions, where the leaders have a definition of their
own.
-/

namespace Foundation.LeaderClusters

variable {Item : Type} [DecidableEq Item]

/-- One candidate of the leader's window; the state has the items that some cluster has and
the leader's own. -/
def gather (similar : Item → Item → Bool) (leader : Item) (state : List Item × List Item)
    (candidate : Item) : List Item × List Item :=
  if candidate ∈ state.1 then state
  else if similar leader candidate then (candidate :: state.1, state.2 ++ [candidate])
  else state

/-- The clusters of the items from some position on, each leader looking `reach` items ahead. -/
def clusters (similar : Item → Item → Bool) (reach : Nat) : List Item → List Item → List (List Item)
  | _, [] => []
  | taken, item :: rest =>
    if item ∈ taken then clusters similar reach taken rest
    else
      let gathered := (rest.take reach).foldl (gather similar item) (item :: taken, [item])
      gathered.2 :: clusters similar reach gathered.1 rest

def captured (similar : Item → Item → Bool) (leader : Item) (taken window : List Item) : List Item :=
  window.filter fun candidate => decide (candidate ∉ taken) && similar leader candidate

variable {similar : Item → Item → Bool} {reach : Nat}

theorem foldl_gather {leader : Item} {taken members window : List Item} (distinct : window.Nodup) :
    window.foldl (gather similar leader) (taken, members) =
      ((captured similar leader taken window).reverse ++ taken,
        members ++ captured similar leader taken window) := by
  induction window generalizing taken members with
  | nil => simp [captured]
  | cons candidate rest ih =>
    obtain ⟨fresh, restDistinct⟩ := List.nodup_cons.mp distinct
    have untouched : captured similar leader (candidate :: taken) rest =
        captured similar leader taken rest := by
      apply List.filter_congr
      intro other member
      have differ : other ≠ candidate := fun same => fresh (same ▸ member)
      simp [differ]
    rw [List.foldl_cons]
    by_cases known : candidate ∈ taken
    · rw [gather, if_pos known, ih restDistinct]
      simp [captured, known]
    · by_cases close : similar leader candidate = true
      · rw [gather, if_neg known, if_pos close, ih restDistinct, untouched]
        simp [captured, known, close]
      · rw [gather, if_neg known, if_neg close, ih restDistinct]
        simp [captured, known, close]

theorem clusters_cons {item : Item} {taken rest : List Item} (free : item ∉ taken)
    (distinct : (item :: rest).Nodup) :
    clusters similar reach taken (item :: rest) =
      (item :: captured similar item taken (rest.take reach)) ::
        clusters similar reach ((captured similar item taken (rest.take reach)).reverse ++ item :: taken)
          rest := by
  obtain ⟨fresh, restDistinct⟩ := List.nodup_cons.mp distinct
  have untouched : captured similar item (item :: taken) (rest.take reach) =
      captured similar item taken (rest.take reach) := by
    apply List.filter_congr
    intro other member
    have differ : other ≠ item := fun same => fresh (same ▸ List.mem_of_mem_take member)
    simp [differ]
  rw [clusters, if_neg free]
  simp only [foldl_gather (restDistinct.sublist (List.take_sublist _ _)), untouched]
  rfl

theorem ne_nil_of_mem_clusters {items cluster : List Item} (taken : List Item)
    (distinct : items.Nodup) (member : cluster ∈ clusters similar reach taken items) :
    cluster ≠ [] := by
  induction items generalizing taken with
  | nil => cases member
  | cons item rest ih =>
    have restDistinct := (List.nodup_cons.mp distinct).2
    by_cases known : item ∈ taken
    · rw [clusters, if_pos known] at member
      exact ih taken restDistinct member
    · rw [clusters_cons known distinct] at member
      rcases List.mem_cons.mp member with first | later
      · rw [first]
        exact List.cons_ne_nil _ _
      · exact ih _ restDistinct later

theorem mem_captured {leader item : Item} {taken window : List Item} :
    item ∈ captured similar leader taken window ↔
      item ∈ window ∧ item ∉ taken ∧ similar leader item = true := by
  simp [captured]

theorem clusters_flatten_perm {items : List Item} (taken : List Item) (distinct : items.Nodup) :
    (clusters similar reach taken items).flatten.Perm (items.filter fun item => item ∉ taken) := by
  induction items generalizing taken with
  | nil => exact .nil
  | cons item rest ih =>
    obtain ⟨fresh, restDistinct⟩ := List.nodup_cons.mp distinct
    by_cases known : item ∈ taken
    · rw [clusters, if_pos known, List.filter_cons_of_neg (by simpa using known)]
      exact ih taken restDistinct
    · rw [clusters_cons known distinct, List.flatten_cons, List.cons_append,
        List.filter_cons_of_pos (by simpa using known), List.perm_cons]
      refine ((ih _ restDistinct).append_left _).trans ?_
      have gathered : (captured similar item taken (rest.take reach)).Nodup :=
        (restDistinct.sublist (List.take_sublist _ _)).filter _
      rw [List.perm_ext_iff_of_nodup]
      · intro other
        simp only [List.mem_append, mem_captured, List.mem_filter, List.mem_reverse, List.mem_cons,
          decide_eq_true_eq, not_or]
        constructor
        · rintro (⟨inWindow, free, _⟩ | ⟨inRest, _, _, free⟩)
          · exact ⟨List.mem_of_mem_take inWindow, free⟩
          · exact ⟨inRest, free⟩
        · rintro ⟨inRest, free⟩
          have notItem : other ≠ item := fun same => fresh (same ▸ inRest)
          tauto
      · refine List.nodup_append'.mpr ⟨gathered, restDistinct.filter _, fun other inside outside => ?_⟩
        have free := (List.mem_filter.mp outside).2
        simp [inside] at free
      · exact restDistinct.filter _

section Renaming

variable {Other : Type} [DecidableEq Other]

theorem clusters_map (similar : Item → Item → Bool) (similarOther : Other → Other → Bool)
    (rename : Other → Item) (reach : Nat) (items taken : List Other) (distinct : items.Nodup)
    (injective : ∀ a ∈ items, ∀ b, b ∈ items ∨ b ∈ taken → rename a = rename b → a = b)
    (same : ∀ a ∈ items, ∀ b ∈ items, similar (rename a) (rename b) = similarOther a b) :
    clusters similar reach (taken.map rename) (items.map rename) =
      (clusters similarOther reach taken items).map fun cluster => cluster.map rename := by
  induction items generalizing taken with
  | nil => rfl
  | cons item rest ih =>
    have known : rename item ∈ taken.map rename ↔ item ∈ taken := by
      constructor
      · intro member
        obtain ⟨other, otherTaken, sameName⟩ := List.mem_map.mp member
        rw [injective item List.mem_cons_self other (.inr otherTaken) sameName.symm]
        exact otherTaken
      · exact List.mem_map_of_mem
    have later : ∀ more : List Other, (∀ b ∈ more, b ∈ item :: rest ∨ b ∈ taken) →
        clusters similar reach (more.map rename) (rest.map rename) =
          (clusters similarOther reach more rest).map fun cluster => cluster.map rename := by
      intro more known
      apply ih more (List.nodup_cons.mp distinct).2
      · intro a aIn b bKnown sameName
        apply injective a (List.mem_cons_of_mem item aIn) b _ sameName
        rcases bKnown with inRest | inMore
        · exact .inl (List.mem_cons_of_mem item inRest)
        · exact known b inMore
      · intro a aIn b bIn
        exact same a (List.mem_cons_of_mem item aIn) b (List.mem_cons_of_mem item bIn)
    by_cases free : item ∈ taken
    · rw [List.map_cons, clusters, if_pos (known.mpr free), clusters, if_pos free]
      exact later taken fun b member => .inr member
    · have named : (rename item :: rest.map rename).Nodup := by
        rw [← List.map_cons]
        apply List.Nodup.map_on _ distinct
        intro a aIn b bIn sameName
        exact injective a aIn b (.inl bIn) sameName
      have takes : captured similar (rename item) (taken.map rename) ((rest.map rename).take reach) =
          (captured similarOther item taken (rest.take reach)).map rename := by
        rw [captured, captured, ← List.map_take, List.filter_map]
        congr 1
        apply List.filter_congr
        intro other member
        have inRest := List.mem_of_mem_take member
        have otherKnown : rename other ∈ taken.map rename ↔ other ∈ taken := by
          constructor
          · intro found
            obtain ⟨original, originalTaken, sameName⟩ := List.mem_map.mp found
            rw [injective other (List.mem_cons_of_mem item inRest) original (.inr originalTaken)
              sameName.symm]
            exact originalTaken
          · exact List.mem_map_of_mem
        simp only [Function.comp_apply, otherKnown,
          same item List.mem_cons_self other (List.mem_cons_of_mem item inRest)]
      rw [List.map_cons, clusters_cons (fun found => free (known.mp found)) named,
        clusters_cons free distinct, takes, List.map_cons, List.map_cons]
      have state : ((captured similarOther item taken (rest.take reach)).map rename).reverse ++
          rename item :: taken.map rename =
            ((captured similarOther item taken (rest.take reach)).reverse ++ item :: taken).map
              rename := by
        simp
      rw [state, later]
      intro b member
      rcases List.mem_append.mp member with isCaptured | isOld
      · have inWindow := List.mem_of_mem_filter (List.mem_reverse.mp isCaptured)
        exact .inl (List.mem_cons_of_mem item (List.mem_of_mem_take inWindow))
      · rcases List.mem_cons.mp isOld with isItem | isTaken
        · exact .inl (isItem ▸ List.mem_cons_self)
        · exact .inr isTaken

end Renaming

/-- A position leads where no leader before it is near it. -/
def Leads (near : Nat → Nat → Prop) (position : Nat) : Prop :=
  ∀ leader, leader < position → near leader position → ¬ Leads near leader
termination_by position

/-- The first leader that a position is near, or itself where there is none. -/
def Follows (near : Nat → Nat → Prop) (leader position : Nat) : Prop :=
  Leads near leader ∧ (leader = position ∨ near leader position) ∧
    ∀ earlier, earlier < leader → Leads near earlier → ¬ near earlier position

/-- The second position stands in the window of the first and is similar to it. -/
def Near (similar : Nat → Nat → Bool) (reach leader position : Nat) : Prop :=
  leader < position ∧ position ≤ leader + reach ∧ similar leader position = true

section Positions

variable {similar : Nat → Nat → Bool}

theorem leads_iff {near : Nat → Nat → Prop} (position : Nat) :
    Leads near position ↔ ∀ leader, leader < position → near leader position → ¬ Leads near leader := by
  rw [Leads]

theorem exists_follows (near : Nat → Nat → Prop) (position : Nat) :
    ∃ leader, leader ≤ position ∧ Follows near leader position := by
  classical
  by_cases met : ∃ leader, leader < position ∧ Leads near leader ∧ near leader position
  · refine ⟨Nat.find met, (Nat.find_spec met).1.le, (Nat.find_spec met).2.1,
      .inr (Nat.find_spec met).2.2, ?_⟩
    intro earlier lower leads close
    exact Nat.find_min met lower ⟨lower.trans (Nat.find_spec met).1, leads, close⟩
  · have alone : ∀ leader, leader < position → Leads near leader → ¬ near leader position :=
      fun leader lower leads close => met ⟨leader, lower, leads, close⟩
    refine ⟨position, le_refl position, ?_, .inl rfl, alone⟩
    rw [leads_iff]
    intro leader lower close leads
    exact alone leader lower leads close

theorem take_range' (start count reach : Nat) :
    (List.range' start count).take reach =
      (List.range' start count).filter fun position => decide (position < start + reach) := by
  induction count generalizing start reach with
  | zero => simp
  | succ count ih =>
    rw [List.range'_succ]
    cases reach with
    | zero =>
      symm
      rw [List.take_zero, List.filter_eq_nil_iff]
      intro position member
      have above : start ≤ position := by
        rcases List.mem_cons.mp member with isStart | later
        · omega
        · have bounds := List.mem_range'_1.mp later
          omega
      simp only [decide_eq_true_eq]
      omega
    | succ reach =>
      have shifted : start + 1 + reach = start + (reach + 1) := by omega
      rw [List.take_succ_cons, ih, List.filter_cons_of_pos (by simp), shifted]

/-- What the leaders before `start` have taken, among the positions below `bound`. -/
def Known (similar : Nat → Nat → Bool) (reach start bound : Nat) (taken : List Nat) : Prop :=
  ∀ position, start ≤ position → position < bound → (position ∈ taken ↔
    ∃ leader, leader < start ∧ Leads (Near similar reach) leader ∧ Near similar reach leader position)

variable {taken : List Nat}

theorem Known.leads_iff {reach start bound : Nat} (known : Known similar reach start bound taken)
    (below : start < bound) : Leads (Near similar reach) start ↔ start ∉ taken := by
  rw [LeaderClusters.leads_iff, known start (le_refl start) below]
  constructor
  · intro leads met
    obtain ⟨leader, lower, leaderLeads, close⟩ := met
    exact leads leader lower close leaderLeads
  · intro alone leader lower close leaderLeads
    exact alone ⟨leader, lower, leaderLeads, close⟩

theorem Known.skip {reach start bound : Nat} (known : Known similar reach start bound taken)
    (below : start < bound) (isTaken : start ∈ taken) :
    Known similar reach (start + 1) bound taken := by
  intro position above inside
  rw [known position (by omega) inside]
  have follower : ¬ Leads (Near similar reach) start := fun leads =>
    (known.leads_iff below).mp leads isTaken
  constructor
  · intro met
    obtain ⟨leader, lower, leads, close⟩ := met
    exact ⟨leader, by omega, leads, close⟩
  · intro met
    obtain ⟨leader, lower, leads, close⟩ := met
    have earlier : leader ≠ start := fun same => follower (same ▸ leads)
    exact ⟨leader, by omega, leads, close⟩

variable {reach start count : Nat}

theorem mem_captured_range' {position : Nat} :
    position ∈ captured similar start taken ((List.range' (start + 1) count).take reach) ↔
      position < start + 1 + count ∧ position ∉ taken ∧ Near similar reach start position := by
  rw [captured, take_range', List.mem_filter, List.mem_filter, List.mem_range'_1]
  simp only [decide_eq_true_eq, Bool.and_eq_true, Near]
  constructor
  · intro found
    exact ⟨found.1.1.2, found.2.1, by omega, by omega, found.2.2⟩
  · intro found
    exact ⟨⟨⟨by omega, found.1⟩, by omega⟩, found.2.1, found.2.2.2.2⟩

theorem Known.lead (known : Known similar reach start (start + 1 + count) taken)
    (free : start ∉ taken) :
    Known similar reach (start + 1) (start + 1 + count)
      ((captured similar start taken ((List.range' (start + 1) count).take reach)).reverse ++
        start :: taken) := by
  intro position above inside
  have leads := (known.leads_iff (by omega)).mpr free
  have later : position ≠ start := by omega
  rw [List.mem_append, List.mem_reverse, mem_captured_range', List.mem_cons]
  constructor
  · intro found
    rcases found with isNew | isStart | old
    · exact ⟨start, by omega, leads, isNew.2.2⟩
    · exact absurd isStart later
    · obtain ⟨leader, lower, leaderLeads, close⟩ := (known position (by omega) inside).mp old
      exact ⟨leader, by omega, leaderLeads, close⟩
  · intro met
    obtain ⟨leader, lower, leaderLeads, close⟩ := met
    by_cases isStart : leader = start
    · subst isStart
      by_cases old : position ∈ taken
      · exact .inr (.inr old)
      · exact .inl ⟨inside, old, close⟩
    · have old := (known position (by omega) inside).mpr ⟨leader, by omega, leaderLeads, close⟩
      exact .inr (.inr old)

theorem Known.follows_iff (known : Known similar reach start (start + 1 + count) taken)
    (free : start ∉ taken) {position : Nat} (above : start < position)
    (inside : position < start + 1 + count) :
    Follows (Near similar reach) start position ↔
      position ∉ taken ∧ Near similar reach start position := by
  have leads := (known.leads_iff (by omega)).mpr free
  rw [known position (by omega) inside]
  constructor
  · intro follows
    obtain ⟨_, isOrNear, first⟩ := follows
    refine ⟨?_, isOrNear.resolve_left (by omega)⟩
    intro met
    obtain ⟨leader, lower, leaderLeads, close⟩ := met
    exact first leader lower leaderLeads close
  · intro found
    refine ⟨leads, .inr found.2, ?_⟩
    intro earlier lower earlierLeads close
    exact found.1 ⟨earlier, lower, earlierLeads, close⟩

open Classical in
theorem clusters_range' {reach start count : Nat} {taken : List Nat}
    (known : Known similar reach start (start + count) taken) :
    clusters similar reach taken (List.range' start count) =
      ((List.range' start count).filter fun leader => Leads (Near similar reach) leader).map
        fun leader => (List.range' start count).filter fun position =>
          Follows (Near similar reach) leader position := by
  induction count generalizing start taken with
  | zero => rfl
  | succ count ih =>
    have bound : start + (count + 1) = start + 1 + count := by omega
    rw [bound] at known
    -- a later leader has no follower at `start`
    have restOnly : ((List.range' (start + 1) count).filter fun leader =>
          Leads (Near similar reach) leader).map (fun leader =>
            (start :: List.range' (start + 1) count).filter fun position =>
              Follows (Near similar reach) leader position) =
        ((List.range' (start + 1) count).filter fun leader =>
          Leads (Near similar reach) leader).map fun leader =>
            (List.range' (start + 1) count).filter fun position =>
              Follows (Near similar reach) leader position := by
      apply List.map_congr_left
      intro leader member
      have later := List.mem_range'_1.mp (List.mem_of_mem_filter member)
      apply List.filter_cons_of_neg
      intro follows
      rcases (of_decide_eq_true follows).2.1 with isStart | close
      · omega
      · have lower := close.1
        omega
    rw [List.range'_succ]
    by_cases isTaken : start ∈ taken
    · have follower : ¬ Leads (Near similar reach) start := fun leads =>
        (known.leads_iff (by omega)).mp leads isTaken
      rw [clusters, if_pos isTaken, ih (known.skip (by omega) isTaken),
        List.filter_cons_of_neg (by simpa using follower), restOnly]
    · have leads := (known.leads_iff (by omega)).mpr isTaken
      have own : start :: captured similar start taken ((List.range' (start + 1) count).take reach) =
          (start :: List.range' (start + 1) count).filter fun position =>
            Follows (Near similar reach) start position := by
        have self : Follows (Near similar reach) start start := by
          refine ⟨leads, .inl rfl, ?_⟩
          intro earlier lower earlierLeads close
          exact (leads_iff start).mp leads earlier lower close earlierLeads
        rw [List.filter_cons_of_pos (by simpa using self), captured, take_range', List.filter_filter]
        congr 1
        apply List.filter_congr
        intro position member
        obtain ⟨above, inside⟩ := List.mem_range'_1.mp member
        rw [Bool.eq_iff_iff, decide_eq_true_iff, known.follows_iff isTaken (by omega) inside]
        simp only [Bool.and_eq_true, decide_eq_true_eq, Near]
        constructor
        · intro found
          exact ⟨found.1.1, by omega, by omega, found.1.2⟩
        · intro found
          exact ⟨⟨found.1, found.2.2.2⟩, by omega⟩
      have distinct : (start :: List.range' (start + 1) count).Nodup := by
        rw [← List.range'_succ]
        exact List.nodup_range'
      have leaders : ((start :: List.range' (start + 1) count).filter fun leader =>
            Leads (Near similar reach) leader) =
          start :: (List.range' (start + 1) count).filter fun leader =>
            Leads (Near similar reach) leader := List.filter_cons_of_pos (by simpa using leads)
      rw [clusters_cons isTaken distinct, ih (known.lead isTaken), own, leaders, List.map_cons,
        restOnly]

open Classical in
theorem clusters_range (reach count : Nat) :
    clusters similar reach [] (List.range count) =
      ((List.range count).filter fun leader => Leads (Near similar reach) leader).map
        fun leader => (List.range count).filter fun position =>
          Follows (Near similar reach) leader position := by
  rw [List.range_eq_range', clusters_range']
  intro position _ _
  constructor
  · intro member
    cases member
  · intro met
    obtain ⟨_, lower, _⟩ := met
    omega

theorem cluster_range {reach count : Nat} {cluster : List Nat}
    (member : cluster ∈ clusters similar reach [] (List.range count)) :
    cluster.Pairwise (· < ·) ∧ ∃ leader, Leads (Near similar reach) leader ∧ leader < count ∧
      ∀ position, position ∈ cluster ↔
        position < count ∧ Follows (Near similar reach) leader position := by
  rw [clusters_range] at member
  obtain ⟨leader, isLeader, rfl⟩ := List.mem_map.mp member
  obtain ⟨below, leads⟩ := List.mem_filter.mp isLeader
  refine ⟨List.pairwise_lt_range.filter _, leader, by simpa using leads, List.mem_range.mp below, ?_⟩
  intro position
  simp

theorem exists_cluster_range {reach count leader position : Nat} (inside : position < count)
    (follows : Follows (Near similar reach) leader position) :
    ∃ cluster ∈ clusters similar reach [] (List.range count), ∀ other,
      other ∈ cluster ↔ other < count ∧ Follows (Near similar reach) leader other := by
  classical
  have below : leader < count := by
    rcases follows.2.1 with same | close
    · omega
    · have lower := close.1
      omega
  refine ⟨(List.range count).filter fun other => Follows (Near similar reach) leader other, ?_,
    fun other => by simp⟩
  rw [clusters_range]
  refine List.mem_map.mpr ⟨leader, List.mem_filter.mpr ⟨List.mem_range.mpr below, ?_⟩, rfl⟩
  simpa using follows.1

end Positions

end Foundation.LeaderClusters
