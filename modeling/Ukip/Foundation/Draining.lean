import Mathlib.Data.List.Basic
import Mathlib.Data.List.TakeWhile

/-!
# Items served in rounds

A round shows items in an order that it chooses.  Those that are settled are passed over, the
first `limit` of the rest are served, and the served ones that succeed are settled.  An item
whose service fails is shown again and takes a place of the round again: every item is served
in the end exactly if no round can show, before an item, failing items for all its places.
-/

namespace Foundation.Draining

variable {Item : Type} [DecidableEq Item]

structure Round (Item : Type) where
  shown : List Item
  succeeds : Item → Bool

def waiting (settled : List Item) (round : Round Item) : List Item :=
  round.shown.filter fun item => item ∉ settled

def served (limit : Nat) (settled : List Item) (round : Round Item) : List Item :=
  (waiting settled round).take limit

def afterRound (limit : Nat) (settled : List Item) (round : Round Item) : List Item :=
  settled ++ (served limit settled round).filter round.succeeds

def servedAt (limit : Nat) (settled : List Item) (rounds : Nat → Round Item) : Nat → List Item
  | 0 => served limit settled (rounds 0)
  | time + 1 =>
    servedAt limit (afterRound limit settled (rounds 0)) (fun later => rounds (later + 1)) time

/-- Items that fail, and are shown before `item`. -/
def obstacles (settled : List Item) (round : Round Item) (item : Item) : List Item :=
  (round.shown.takeWhile (· ≠ item)).filter fun other => other ∉ settled ∧ ¬round.succeeds other

/-- However the rounds are chosen, each item is settled at the start or served at some time. -/
def Drains (limit : Nat) (settled : List Item) (mayBe : Round Item → Prop)
    (wanted : Item → Prop) : Prop :=
  ∀ rounds : Nat → Round Item, (∀ time, mayBe (rounds time)) → ∀ item, wanted item →
    item ∈ settled ∨ ∃ time, item ∈ servedAt limit settled rounds time

/-- The round shows the item, and has a place for it behind the items that fail. -/
def Reaches (limit : Nat) (settled : List Item) (round : Round Item) (item : Item) : Prop :=
  item ∈ round.shown ∧ (obstacles settled round item).length < limit

instance (limit : Nat) (settled : List Item) (round : Round Item) (item : Item) :
    Decidable (Reaches limit settled round item) :=
  inferInstanceAs (Decidable (_ ∧ _))

variable {limit : Nat} {settled : List Item} {round : Round Item} {item : Item}

theorem mem_waiting_iff : item ∈ waiting settled round ↔ item ∈ round.shown ∧ item ∉ settled := by
  simp [waiting]

theorem mem_afterRound_iff : item ∈ afterRound limit settled round ↔
    item ∈ settled ∨ item ∈ served limit settled round ∧ round.succeeds item = true := by
  simp [afterRound]

theorem takeWhile_filter_ne (keep : Item → Bool) (kept : keep item = true) (items : List Item) :
    (items.filter keep).takeWhile (· ≠ item) = (items.takeWhile (· ≠ item)).filter keep := by
  induction items with
  | nil => rfl
  | cons head rest ih =>
    by_cases isItem : head = item
    · subst isItem
      simp [kept]
    · cases keeps : keep head with
      | true => simp only [List.filter_cons, keeps, List.takeWhile_cons, isItem, ne_eq,
          not_false_eq_true, decide_true, if_true, ih]
      | false => simp only [List.filter_cons, keeps, List.takeWhile_cons, isItem, ne_eq,
          not_false_eq_true, decide_true, if_true, Bool.false_eq_true, if_false, ih]

theorem mem_take_iff_length_takeWhile (items : List Item) (member : item ∈ items) :
    item ∈ items.take limit ↔ (items.takeWhile (· ≠ item)).length < limit := by
  induction items generalizing limit with
  | nil => cases member
  | cons head rest ih =>
    cases limit with
    | zero => simp
    | succ limit =>
      by_cases isItem : head = item
      · simp [isItem]
      · have later : item ∈ rest :=
          (List.mem_cons.mp member).resolve_left fun same => isItem same.symm
        have before : (head :: rest).takeWhile (· ≠ item) =
            head :: rest.takeWhile (· ≠ item) := by
          simp [isItem]
        rw [List.take_succ_cons, List.mem_cons, before, List.length_cons, ih later]
        have apart : item ≠ head := fun same => isItem same.symm
        simp [apart]

def ahead (settled : List Item) (round : Round Item) (item : Item) : List Item :=
  (round.shown.takeWhile (· ≠ item)).filter fun other => other ∉ settled

theorem mem_served_iff (unsettled : item ∉ settled) : item ∈ served limit settled round ↔
    item ∈ round.shown ∧ (ahead settled round item).length < limit := by
  have before : (waiting settled round).takeWhile (· ≠ item) = ahead settled round item :=
    takeWhile_filter_ne _ (by simpa using unsettled) round.shown
  constructor
  · intro member
    have waits := List.mem_of_mem_take member
    exact ⟨(mem_waiting_iff.mp waits).1,
      before ▸ (mem_take_iff_length_takeWhile _ waits).mp member⟩
  · rintro ⟨shown, few⟩
    have waits := mem_waiting_iff.mpr ⟨shown, unsettled⟩
    exact (mem_take_iff_length_takeWhile _ waits).mpr (before ▸ few)

theorem obstacles_sublist_ahead : (obstacles settled round item).Sublist (ahead settled round item) := by
  unfold obstacles ahead
  refine List.monotone_filter_right _ ?_
  intro other obstructs
  simp only [decide_eq_true_eq] at obstructs ⊢
  exact obstructs.1

theorem take_ahead_subset_served (unsettled : item ∉ settled) {other : Item}
    (member : other ∈ (ahead settled round item).take limit) :
    other ∈ served limit settled round := by
  have before : (waiting settled round).takeWhile (· ≠ item) = ahead settled round item :=
    takeWhile_filter_ne _ (by simpa using unsettled) round.shown
  obtain ⟨rest, split⟩ := List.takeWhile_prefix (· ≠ item) (l := waiting settled round)
  rw [served, ← split, List.take_append, before]
  exact List.mem_append_left _ member

theorem length_obstacles_le {more : List Item} (grows : ∀ other ∈ settled, other ∈ more) :
    (obstacles more round item).length ≤ (obstacles settled round item).length := by
  refine (List.monotone_filter_right _ ?_).length_le
  intro other obstructs
  simp only [decide_eq_true_eq] at obstructs ⊢
  exact ⟨fun old => obstructs.1 (grows other old), obstructs.2⟩

theorem servedAt_congr {other : List Item} (same : ∀ item, item ∈ settled ↔ item ∈ other)
    (rounds : Nat → Round Item) (time : Nat) :
    servedAt limit settled rounds time = servedAt limit other rounds time := by
  have serves : ∀ {first second : List Item}, (∀ item, item ∈ first ↔ item ∈ second) →
      ∀ round : Round Item, served limit first round = served limit second round := by
    intro first second same round
    simp only [served, waiting, same]
  induction time generalizing settled other rounds with
  | zero => exact serves same (rounds 0)
  | succ time ih =>
    refine ih (fun item => ?_) _
    rw [mem_afterRound_iff, mem_afterRound_iff, serves same, same]

theorem served_ne_nil_of_reaches (reaches : Reaches limit settled round item)
    (unsettled : item ∉ settled) : served limit settled round ≠ [] := by
  have waits := mem_waiting_iff.mpr ⟨reaches.1, unsettled⟩
  have open_place : 0 < limit := Nat.lt_of_le_of_lt (Nat.zero_le _) reaches.2
  intro nothing
  rcases List.take_eq_nil_iff.mp nothing with closed | idle
  · omega
  · rw [idle] at waits
    cases waits

theorem progress_of_reaches (reaches : Reaches limit settled round item)
    (unsettled : item ∉ settled) (passed : item ∉ served limit settled round) :
    ∃ other ∈ round.shown, other ∉ settled ∧ other ∈ afterRound limit settled round := by
  have many : limit ≤ (ahead settled round item).length := by
    rw [mem_served_iff unsettled] at passed
    exact Nat.le_of_not_lt fun few => passed ⟨reaches.1, few⟩
  by_contra stuck
  -- if all that are served fail, they are obstacles, and fill every place
  have fail : ∀ other ∈ (ahead settled round item).take limit, ¬round.succeeds other = true := by
    intro other member succeeds
    have isServed := take_ahead_subset_served unsettled member
    have waits := mem_waiting_iff.mp (List.mem_of_mem_take isServed)
    exact stuck ⟨other, waits.1, waits.2, mem_afterRound_iff.mpr (.inr ⟨isServed, succeeds⟩)⟩
  have places : ((ahead settled round item).take limit).length = limit :=
    List.length_take_of_le many
  have obstruct : (obstacles settled round item) =
      (ahead settled round item).filter fun other => ¬round.succeeds other := by
    simp only [obstacles, ahead, List.filter_filter]
    refine List.filter_congr fun other _ => ?_
    by_cases old : other ∈ settled <;> cases succeeds : round.succeeds other <;> simp [old]
  have full : limit ≤ (obstacles settled round item).length := by
    rw [obstruct, ← places]
    have kept : ((ahead settled round item).take limit).filter
        (fun other => ¬round.succeeds other) = (ahead settled round item).take limit :=
      List.filter_eq_self.mpr fun other member => by simpa using fail other member
    rw [← kept]
    exact ((List.take_sublist limit _).filter _).length_le
  exact absurd reaches.2 (Nat.not_lt.mpr full)

theorem length_unsettled_lt (everything : List Item) {more : List Item} {other : Item}
    (grows : ∀ old ∈ settled, old ∈ more) (known : other ∈ everything) (unsettled : other ∉ settled)
    (settles : other ∈ more) :
    (everything.filter fun item => item ∉ more).length <
      (everything.filter fun item => item ∉ settled).length := by
  rw [← List.countP_eq_length_filter, ← List.countP_eq_length_filter]
  induction everything with
  | nil => cases known
  | cons head rest ih =>
    have le : rest.countP (fun item => decide (item ∉ more)) ≤
        rest.countP (fun item => decide (item ∉ settled)) := by
      refine List.countP_mono_left fun item _ fresh => ?_
      simp only [decide_eq_true_eq] at fresh ⊢
      exact fun old => fresh (grows item old)
    rw [List.countP_cons, List.countP_cons]
    rcases List.mem_cons.mp known with isHead | later
    · subst isHead
      simp only [unsettled, settles, not_true_eq_false, not_false_eq_true, decide_true,
        decide_false, if_true, Bool.false_eq_true, if_false]
      omega
    · have fewer := ih later
      by_cases old : head ∈ settled
      · simp only [grows head old, old, not_true_eq_false, decide_false, Bool.false_eq_true,
          if_false]
        omega
      · by_cases new : head ∈ more <;> simp only [old, new, not_true_eq_false,
          not_false_eq_true, decide_true, decide_false, Bool.false_eq_true, if_false, if_true] <;>
          omega

theorem exists_mem_servedAt (everything : List Item) (rounds : Nat → Round Item)
    (known : ∀ time, ∀ other ∈ (rounds time).shown, other ∈ everything)
    (reaches : ∀ time, Reaches limit settled (rounds time) item) (unsettled : item ∉ settled) :
    ∃ time, item ∈ servedAt limit settled rounds time := by
  -- the number of unsettled items goes down in every round that does not serve this one
  induction count : (everything.filter fun other => other ∉ settled).length using
    Nat.strong_induction_on generalizing settled rounds with
  | _ count ih =>
    by_cases now : item ∈ served limit settled (rounds 0)
    · exact ⟨0, now⟩
    · have grows : ∀ old ∈ settled, old ∈ afterRound limit settled (rounds 0) :=
        fun old member => mem_afterRound_iff.mpr (.inl member)
      obtain ⟨other, shown, fresh, settles⟩ := progress_of_reaches (reaches 0) unsettled now
      have fewer := length_unsettled_lt everything grows (known 0 other shown) fresh settles
      obtain ⟨time, later⟩ := ih _ (count ▸ fewer) (fun later => rounds (later + 1))
        (fun time => known (time + 1))
        (fun time => ⟨(reaches (time + 1)).1,
          Nat.lt_of_le_of_lt (length_obstacles_le grows) (reaches (time + 1)).2⟩)
        (fun member => (mem_afterRound_iff.mp member).elim unsettled fun new => now new.1) rfl
      exact ⟨time + 1, later⟩

theorem not_mem_servedAt_of_not_reaches (unreached : ¬Reaches limit settled round item)
    (unsettled : item ∉ settled) (time : Nat) :
    item ∉ servedAt limit settled (fun _ => round) time := by
  -- the obstacles stay: no round settles an item that fails
  induction time generalizing settled with
  | zero =>
    intro member
    obtain ⟨shown, few⟩ := (mem_served_iff unsettled).mp member
    exact unreached ⟨shown, Nat.lt_of_le_of_lt obstacles_sublist_ahead.length_le few⟩
  | succ time ih =>
    have passed : item ∉ served limit settled round := by
      intro member
      obtain ⟨shown, few⟩ := (mem_served_iff unsettled).mp member
      exact unreached ⟨shown, Nat.lt_of_le_of_lt obstacles_sublist_ahead.length_le few⟩
    have same : obstacles (afterRound limit settled round) round item =
        obstacles settled round item := by
      refine List.filter_congr fun other _ => ?_
      simp only [mem_afterRound_iff]
      cases succeeds : round.succeeds other <;> simp
    refine ih ?_ fun member => (mem_afterRound_iff.mp member).elim unsettled fun new => passed new.1
    unfold Reaches
    rw [same]
    exact unreached

theorem drains_iff (limit : Nat) (settled : List Item) {mayBe : Round Item → Prop}
    (wanted : Item → Prop) (everything : List Item)
    (known : ∀ round, mayBe round → ∀ other ∈ round.shown, other ∈ everything) :
    Drains limit settled mayBe wanted ↔ ∀ item, wanted item → item ∉ settled →
      ∀ round, mayBe round → Reaches limit settled round item := by
  constructor
  · intro drains item wants unsettled round may
    by_contra unreached
    rcases drains (fun _ => round) (fun _ => may) item wants with old | ⟨time, member⟩
    · exact unsettled old
    · exact not_mem_servedAt_of_not_reaches unreached unsettled time member
  · intro reach rounds may item wants
    by_cases old : item ∈ settled
    · exact .inl old
    · exact .inr (exists_mem_servedAt everything rounds (fun time => known _ (may time))
        (fun time => reach item wants old _ (may time)) old)

end Foundation.Draining
