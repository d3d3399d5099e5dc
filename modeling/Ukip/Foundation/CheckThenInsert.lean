import Ukip.Foundation.EventRun
import Mathlib.Data.List.Nodup
import Mathlib.Data.List.Pairwise

/-!
# Inserts after a check, under a uniqueness constraint

Sessions write rows that are known by a key: a session looks the key up in what it sees,
and if it finds nothing it inserts a row in a step of its own.  The table's constraint
refuses a second row of a key that it covers; a row of a key that it does not cover (one
with a NULL in it) is always let in.  An insert that is refused rolls the whole session
back before the key is looked up again.

A session sees the committed rows and its own.  An insert of a covered key that another
session holds uncommitted waits for that session.
-/

namespace Foundation.CheckThenInsert

open EventRun

structure Writer (Request Row Key : Type) where
  /-- What is checked before the look-up. -/
  accepts : Request → Bool
  key : Request → Key
  /-- The row to insert; `none` if making it fails. -/
  record : Request → Option Row
  keyOf : Row → Key
  keyOf_record : ∀ request row, record request = some row → keyOf row = key request
  covered : Key → Bool

inductive Answer (Row : Type) where
  | wrote (row : Row)
  | found (row : Row)
  | failed

structure Session (Row Change : Type) where
  /-- Uncommitted changes of other tables. -/
  changes : List Change
  /-- The row to be inserted next: its key was looked up and not found. -/
  checked : Option Row
  answer : Option (Answer Row)

structure State (Row Change : Type) where
  committed : List Row
  /-- Uncommitted rows, each with the session that inserted it. -/
  pending : List (Nat × Row)
  stored : List Change
  sessions : Nat → Session Row Change

inductive Event (Request Change : Type) where
  | change (session : Nat) (change : Change)
  | check (session : Nat) (request : Request)
  | insert (session : Nat)
  | commit (session : Nat)
  | rollback (session : Nat)

variable {Request Row Key Change : Type}

namespace State

def empty : State Row Change where
  committed := []
  pending := []
  stored := []
  sessions := fun _ => { changes := [], checked := none, answer := none }

def own (state : State Row Change) (session : Nat) : List Row :=
  (state.pending.filter fun entry => entry.1 = session).map Prod.snd

def others (state : State Row Change) (session : Nat) : List (Nat × Row) :=
  state.pending.filter fun entry => entry.1 ≠ session

def put (state : State Row Change) (session : Nat) (now : Session Row Change) :
    State Row Change :=
  { state with sessions := fun other => if other = session then now else state.sessions other }

def commit (state : State Row Change) (session : Nat) : State Row Change :=
  { state with
    committed := state.committed ++ state.own session
    pending := state.others session
    stored := state.stored ++ (state.sessions session).changes }.put session
      { state.sessions session with changes := [] }

def rollback (state : State Row Change) (session : Nat) : State Row Change :=
  { state with pending := state.others session }.put session
    { state.sessions session with changes := [] }

variable (state : State Row Change) (session : Nat) (now : Session Row Change)

@[simp] theorem put_self :
    (state.put session now).sessions session = now :=
  if_pos rfl

theorem put_of_ne {session other : Nat} (apart : other ≠ session) :
    (state.put session now).sessions other = state.sessions other :=
  if_neg apart

@[simp] theorem committed_put :
    (state.put session now).committed = state.committed := rfl

@[simp] theorem pending_put :
    (state.put session now).pending = state.pending := rfl

@[simp] theorem own_put (session other : Nat) (now : Session Row Change) :
    (state.put session now).own other = state.own other := rfl

end State

variable [DecidableEq Key] (writer : Writer Request Row Key)

namespace Writer

def find? (rows : List Row) (key : Key) : Option Row :=
  rows.find? fun row => writer.keyOf row = key

def check (state : State Row Change) (session : Nat) (request : Request) : State Row Change :=
  let here := state.sessions session
  if writer.accepts request then
    match writer.find? (state.committed ++ state.own session) (writer.key request) with
    | some row => state.put session { here with answer := some (.found row) }
    | none =>
      match writer.record request with
      | none => state.put session { here with answer := some .failed }
      | some row => state.put session { here with checked := some row }
  else state.put session { here with answer := some .failed }

/-- Another session holds a row of the key. -/
def Held (state : State Row Change) (session : Nat) (key : Key) : Prop :=
  ∃ entry ∈ state.others session, writer.keyOf entry.2 = key

instance (state : State Row Change) (session : Nat) (key : Key) :
    Decidable (writer.Held state session key) :=
  inferInstanceAs (Decidable (∃ entry ∈ state.others session, _))

/-- The constraint refuses a row of the key. -/
def Refused (state : State Row Change) (session : Nat) (key : Key) : Prop :=
  writer.covered key = true ∧
    ∃ row ∈ state.committed ++ state.own session, writer.keyOf row = key

instance (state : State Row Change) (session : Nat) (key : Key) :
    Decidable (writer.Refused state session key) :=
  inferInstanceAs (Decidable (_ ∧ ∃ row ∈ _, _))

def recover (state : State Row Change) (session : Nat) (key : Key) : State Row Change :=
  let answer :=
    match writer.find? state.committed key with
    | some row => .found row
    | none => .failed
  { state with pending := state.others session }.put session
    { changes := [], checked := none, answer := some answer }

def insert (state : State Row Change) (session : Nat) : State Row Change :=
  let here := state.sessions session
  match here.checked with
  | none => state
  | some row =>
    let key := writer.keyOf row
    if writer.covered key = true ∧ writer.Held state session key then state
    else if writer.Refused state session key then writer.recover state session key
    else
      { state with pending := state.pending ++ [(session, row)] }.put session
        { here with checked := none, answer := some (.wrote row) }

def step (state : State Row Change) : Event Request Change → State Row Change
  | .insert session => writer.insert state session
  | .change session change =>
    let here := state.sessions session
    if here.checked.isSome then state
    else state.put session { here with changes := here.changes ++ [change] }
  | .check session request =>
    if (state.sessions session).checked.isSome then state else writer.check state session request
  | .commit session =>
    if (state.sessions session).checked.isSome then state else state.commit session
  | .rollback session =>
    if (state.sessions session).checked.isSome then state else state.rollback session

/-- At most one committed row of every key. -/
def OnePerKey (state : State Row Change) : Prop := (state.committed.map writer.keyOf).Nodup

instance (state : State Row Change) : Decidable (writer.OnePerKey state) :=
  inferInstanceAs (Decidable (List.Nodup _))

/-- An insert that comes after another row of its key was committed answers that row and
leaves what its session has not committed. -/
def LoserUnharmed (state : State Row Change) : Event Request Change → Prop
  | .insert session =>
    ∀ row, (state.sessions session).checked = some row →
      (∃ winner ∈ state.committed, writer.keyOf winner = writer.keyOf row) →
        (∃ winner ∈ state.committed, writer.keyOf winner = writer.keyOf row ∧
          ((writer.insert state session).sessions session).answer = some (.found winner)) ∧
        ((writer.insert state session).sessions session).changes =
          (state.sessions session).changes ∧
        (writer.insert state session).own session = state.own session
  | _ => True

/-- A session whose key was committed meanwhile has a key that the constraint covers and
nothing uncommitted; and a session commits no row of an uncovered key that is committed
already. -/
def Undisturbed (state : State Row Change) : Event Request Change → Prop
  | .insert session =>
    ∀ row, (state.sessions session).checked = some row →
      (∃ winner ∈ state.committed, writer.keyOf winner = writer.keyOf row) →
        writer.covered (writer.keyOf row) = true ∧ (state.sessions session).changes = [] ∧
          state.own session = []
  | .commit session =>
    (state.sessions session).checked = none →
      ∀ row ∈ state.own session, writer.covered (writer.keyOf row) = false →
        ∀ other ∈ state.committed, writer.keyOf other ≠ writer.keyOf row
  | _ => True

/-- Two uncommitted rows of one key are rows of an uncovered key, and of two sessions. -/
def Apart (first second : Nat × Row) : Prop :=
  writer.keyOf first.2 = writer.keyOf second.2 →
    writer.covered (writer.keyOf first.2) = false ∧ first.1 ≠ second.1

structure Consistent (state : State Row Change) : Prop where
  once : writer.OnePerKey state
  apart : state.pending.Pairwise writer.Apart
  new : ∀ entry ∈ state.pending, writer.covered (writer.keyOf entry.2) = true →
    ∀ row ∈ state.committed, writer.keyOf row ≠ writer.keyOf entry.2
  unwritten : ∀ session row, (state.sessions session).checked = some row →
    ∀ other ∈ state.own session, writer.keyOf other ≠ writer.keyOf row

variable {writer}

theorem mem_own_iff (state : State Row Change) (session : Nat) (row : Row) :
    row ∈ state.own session ↔ (session, row) ∈ state.pending := by
  simp [State.own]

variable {rows : List Row} {key : Key}

theorem find?_eq_some {row : Row} (found : writer.find? rows key = some row) :
    row ∈ rows ∧ writer.keyOf row = key :=
  ⟨List.mem_of_find?_eq_some found, by simpa using List.find?_some found⟩

theorem find?_eq_none (none : writer.find? rows key = none) :
    ∀ row ∈ rows, writer.keyOf row ≠ key := by
  intro row member
  simpa using List.find?_eq_none.mp none row member

theorem find?_of_mem (held : ∃ row ∈ rows, writer.keyOf row = key) :
    ∃ row, writer.find? rows key = some row := by
  cases found : writer.find? rows key with
  | some row => exact ⟨row, rfl⟩
  | none =>
    obtain ⟨row, member, same⟩ := held
    exact absurd same (find?_eq_none found row member)

omit [DecidableEq Key] in
theorem consistent_empty : writer.Consistent (State.empty : State Row Change) where
  once := List.nodup_nil
  apart := List.Pairwise.nil
  new := by simp [State.empty]
  unwritten := by simp [State.empty]

omit [DecidableEq Key] in
theorem consistent_of_sublist {before after : State Row Change}
    (consistent : writer.Consistent before) (committed : after.committed = before.committed)
    (pending : after.pending.Sublist before.pending)
    (checked : ∀ session row, (after.sessions session).checked = some row →
      (before.sessions session).checked = some row) : writer.Consistent after where
  once := by
    rw [OnePerKey, committed]
    exact consistent.once
  apart := consistent.apart.sublist pending
  new := by
    rw [committed]
    exact fun entry member => consistent.new entry (pending.mem member)
  unwritten := by
    intro session row looked other member
    rw [mem_own_iff] at member
    exact consistent.unwritten session row (checked session row looked) other
      ((mem_own_iff before session other).mpr (pending.mem member))

variable {state : State Row Change}

theorem checked_put {session : Nat} {now : Session Row Change}
    (cleared : now.checked = none ∨ now.checked = (state.sessions session).checked) (other : Nat)
    (row : Row) (looked : ((state.put session now).sessions other).checked = some row) :
    (state.sessions other).checked = some row := by
  by_cases own : other = session
  · subst own
    rw [State.put_self] at looked
    rcases cleared with none | same
    · rw [none] at looked
      cases looked
    · exact same.symm.trans looked
  · rwa [State.put_of_ne state now own] at looked

omit [DecidableEq Key] in
theorem consistent_put {state : State Row Change} (consistent : writer.Consistent state)
    (session : Nat) (now : Session Row Change)
    (cleared : now.checked = none ∨ now.checked = (state.sessions session).checked) :
    writer.Consistent (state.put session now) :=
  consistent_of_sublist consistent rfl (List.Sublist.refl _) (checked_put cleared)

omit [DecidableEq Key] in
theorem consistent_takeBack {state : State Row Change} (consistent : writer.Consistent state)
    (session : Nat) (now : Session Row Change)
    (cleared : now.checked = none ∨ now.checked = (state.sessions session).checked) :
    writer.Consistent ({ state with pending := state.others session }.put session now) :=
  consistent_of_sublist consistent rfl List.filter_sublist fun other row looked =>
    (checked_put cleared other row looked :
      (({ state with pending := state.others session } : State Row Change).sessions
        other).checked = some row)

theorem consistent_check (consistent : writer.Consistent state) (session : Nat) (request : Request) :
    writer.Consistent (writer.check state session request) := by
  unfold check
  dsimp only
  split
  · split
    · exact consistent_put consistent session _ (.inr rfl)
    · next missing =>
        split
        · exact consistent_put consistent session _ (.inr rfl)
        · next row made =>
            refine
              { once := consistent.once
                apart := consistent.apart
                new := consistent.new
                unwritten := fun other looked written late member => ?_ }
            by_cases own : other = session
            · subst own
              rw [State.put_self] at written
              obtain rfl := Option.some.inj written
              rw [writer.keyOf_record request row made]
              exact find?_eq_none missing _ (List.mem_append_right _ member)
            · rw [State.put_of_ne state _ own] at written
              exact consistent.unwritten other looked written late member
  · exact consistent_put consistent session _ (.inr rfl)

theorem consistent_insert (consistent : writer.Consistent state) (session : Nat) :
    writer.Consistent (writer.insert state session) := by
  unfold insert
  dsimp only
  split
  · exact consistent
  · next row looked =>
      split
      · exact consistent
      · next free =>
          split
          · exact consistent_takeBack consistent session _ (.inl rfl)
          · next allowed =>
              have alone : writer.covered (writer.keyOf row) = true →
                  ∀ entry ∈ state.pending, writer.keyOf entry.2 ≠ writer.keyOf row := by
                intro covered entry member same
                by_cases mine : entry.1 = session
                · have own : entry.2 ∈ state.own session := by
                    rw [mem_own_iff, ← mine]
                    exact member
                  exact consistent.unwritten session row looked entry.2 own same
                · exact free ⟨covered, entry, List.mem_filter.mpr ⟨member, by simpa using mine⟩, same⟩
              refine
                { once := consistent.once
                  apart := ?_
                  new := ?_
                  unwritten := ?_ }
              · refine List.pairwise_append.mpr ⟨consistent.apart, List.pairwise_singleton _ _, ?_⟩
                intro entry member added isAdded same
                obtain rfl := List.mem_singleton.mp isAdded
                refine ⟨?_, fun mine => ?_⟩
                · cases covered : writer.covered (writer.keyOf entry.2) with
                  | false => rfl
                  | true =>
                    rw [same] at covered
                    exact absurd same (alone covered entry member)
                · have own : entry.2 ∈ state.own session := by
                    rw [mem_own_iff, ← show entry.1 = session from mine]
                    exact member
                  exact consistent.unwritten session row looked entry.2 own same
              · intro entry member covered other isCommitted same
                rcases List.mem_append.mp member with old | isAdded
                · exact consistent.new entry old covered other isCommitted same
                · obtain rfl := List.mem_singleton.mp isAdded
                  exact allowed ⟨covered, other, List.mem_append_left _ isCommitted, same⟩
              · intro other waiting written late member same
                by_cases own : other = session
                · subst own
                  rw [State.put_self] at written
                  cases written
                · rw [State.put_of_ne _ _ own] at written
                  rw [mem_own_iff] at member
                  rcases List.mem_append.mp member with old | isAdded
                  · exact consistent.unwritten other waiting written late
                      ((mem_own_iff state other late).mpr old) same
                  · exact own (congrArg Prod.fst (List.mem_singleton.mp isAdded))

omit [DecidableEq Key] in
theorem nodup_own {state : State Row Change} (consistent : writer.Consistent state)
    (session : Nat) : ((state.own session).map writer.keyOf).Nodup := by
  unfold State.own
  rw [List.map_map]
  refine List.Pairwise.map _ (fun _ _ apart => apart) ?_
  refine (consistent.apart.filter _).imp_of_mem ?_
  intro first second inFirst inSecond apart same
  have firstOwner : first.1 = session := by simpa using (List.mem_filter.mp inFirst).2
  have secondOwner : second.1 = session := by simpa using (List.mem_filter.mp inSecond).2
  exact (apart same).2 (firstOwner.trans secondOwner.symm)

omit [DecidableEq Key] in
theorem onePerKey_commit_iff {state : State Row Change} (consistent : writer.Consistent state)
    (session : Nat) :
    writer.OnePerKey (state.commit session) ↔
      ∀ row ∈ state.own session, writer.covered (writer.keyOf row) = false →
        ∀ other ∈ state.committed, writer.keyOf other ≠ writer.keyOf row := by
  have committed : (state.commit session).committed = state.committed ++ state.own session := rfl
  rw [OnePerKey, committed, List.map_append, List.nodup_append]
  constructor
  · rintro ⟨_, _, apart⟩ row member _ other isCommitted
    exact apart _ (List.mem_map_of_mem isCommitted) _ (List.mem_map_of_mem member)
  · intro uncovered
    refine ⟨consistent.once, nodup_own consistent session, ?_⟩
    intro committedKey isCommitted ownKey isOwn same
    obtain ⟨other, otherMember, rfl⟩ := List.mem_map.mp isCommitted
    obtain ⟨row, rowMember, rfl⟩ := List.mem_map.mp isOwn
    cases covered : writer.covered (writer.keyOf row) with
    | false => exact uncovered row rowMember covered other otherMember same
    | true =>
      exact consistent.new (session, row) ((mem_own_iff state session row).mp rowMember) covered
        other otherMember same

instance : Std.Symm writer.Apart where
  symm := by
    intro first second apart same
    obtain ⟨uncovered, owners⟩ := apart same.symm
    exact ⟨by rw [same]; exact uncovered, owners.symm⟩

omit [DecidableEq Key] in
theorem consistent_commit {state : State Row Change} (consistent : writer.Consistent state)
    (session : Nat) (once : writer.OnePerKey (state.commit session)) :
    writer.Consistent (state.commit session) where
  once := once
  apart := consistent.apart.sublist List.filter_sublist
  new := by
    intro entry member covered row isCommitted same
    obtain ⟨old, foreign⟩ := List.mem_filter.mp member
    rcases List.mem_append.mp isCommitted with before | now
    · exact consistent.new entry old covered row before same
    · have mine := (mem_own_iff state session row).mp now
      have different : (session, row) ≠ entry := by
        rintro rfl
        simp at foreign
      have uncovered := (consistent.apart.forall mine old different same).1
      rw [same, covered] at uncovered
      cases uncovered
  unwritten := by
    intro other row written late member
    have looked : (state.sessions other).checked = some row := by
      rw [← written, State.commit]
      by_cases own : other = session
      · subst own
        rw [State.put_self]
      · rw [State.put_of_ne _ _ own]
    rw [mem_own_iff] at member
    exact consistent.unwritten other row looked late
      ((mem_own_iff state other late).mpr (List.mem_of_mem_filter member))

theorem loserUnharmed_iff (consistent : writer.Consistent state) (session : Nat) {row : Row}
    (looked : (state.sessions session).checked = some row)
    (beaten : ∃ winner ∈ state.committed, writer.keyOf winner = writer.keyOf row) :
    ((∃ winner ∈ state.committed, writer.keyOf winner = writer.keyOf row ∧
        ((writer.insert state session).sessions session).answer = some (.found winner)) ∧
      ((writer.insert state session).sessions session).changes =
        (state.sessions session).changes ∧
      (writer.insert state session).own session = state.own session) ↔
    writer.covered (writer.keyOf row) = true ∧ (state.sessions session).changes = [] ∧
      state.own session = [] := by
  have unheld : ¬ (writer.covered (writer.keyOf row) = true ∧
      writer.Held state session (writer.keyOf row)) := by
    rintro ⟨covered, entry, member, same⟩
    obtain ⟨winner, isCommitted, sameKey⟩ := beaten
    refine consistent.new entry (List.mem_of_mem_filter member) ?_ winner isCommitted ?_
    · rw [same]
      exact covered
    · rw [same]
      exact sameKey
  cases covered : writer.covered (writer.keyOf row) with
  | true =>
    have refused : writer.Refused state session (writer.keyOf row) := by
      obtain ⟨winner, isCommitted, sameKey⟩ := beaten
      exact ⟨covered, winner, List.mem_append_left _ isCommitted, sameKey⟩
    have moved : writer.insert state session = writer.recover state session (writer.keyOf row) := by
      unfold insert
      simp only [looked]
      rw [if_neg unheld, if_pos refused]
    obtain ⟨winner, found⟩ := find?_of_mem beaten
    obtain ⟨isCommitted, sameKey⟩ := find?_eq_some found
    have emptied : (writer.recover state session (writer.keyOf row)).own session = [] := by
      simp [recover, State.own, State.others]
    rw [moved, emptied]
    unfold recover
    rw [State.put_self, found]
    constructor
    · rintro ⟨_, changes, own⟩
      exact ⟨rfl, changes.symm, own.symm⟩
    · rintro ⟨_, changes, own⟩
      exact ⟨⟨winner, isCommitted, sameKey, rfl⟩, changes.symm, own.symm⟩
  | false =>
    have allowed : ¬ writer.Refused state session (writer.keyOf row) := by
      rintro ⟨isCovered, _⟩
      rw [covered] at isCovered
      cases isCovered
    have answered : ((writer.insert state session).sessions session).answer = some (.wrote row) := by
      unfold insert
      simp only [looked]
      rw [if_neg unheld, if_neg allowed, State.put_self]
    constructor
    · rintro ⟨⟨winner, _, _, found⟩, _⟩
      rw [answered] at found
      cases found
    · rintro ⟨isCovered, _⟩
      cases isCovered

theorem consistent_step (state : State Row Change) (event : Event Request Change)
    (consistent : writer.Consistent state) (undisturbed : writer.Undisturbed state event) :
    writer.Consistent (writer.step state event) := by
  cases event with
  | insert session => exact consistent_insert consistent session
  | change session change =>
    simp only [step]
    split
    · exact consistent
    · exact consistent_put consistent session _ (.inr rfl)
  | check session request =>
    simp only [step]
    split
    · exact consistent
    · exact consistent_check consistent session request
  | commit session =>
    simp only [step]
    split
    · exact consistent
    · next idle =>
        exact consistent_commit consistent session ((onePerKey_commit_iff consistent session).mpr
          (undisturbed (by simpa using idle)))
  | rollback session =>
    simp only [step]
    split
    · exact consistent
    · exact consistent_takeBack consistent session _ (.inr rfl)

theorem committed_step (state : State Row Change) (event : Event Request Change) :
    (writer.step state event).committed = state.committed ∨
      ∃ session, event = .commit session ∧ (state.sessions session).checked = none ∧
        writer.step state event = state.commit session := by
  cases event with
  | insert session =>
    left
    simp only [step, insert]
    split
    · rfl
    · split
      · rfl
      · split <;> rfl
  | change session change =>
    left
    simp only [step]
    split <;> rfl
  | check session request =>
    left
    simp only [step, check]
    split
    · rfl
    · split
      · split
        · rfl
        · split <;> rfl
      · rfl
  | rollback session =>
    left
    simp only [step]
    split <;> rfl
  | commit session =>
    cases looked : (state.sessions session).checked with
    | some row => exact .inl (by simp [step, looked])
    | none => exact .inr ⟨session, rfl, looked, by simp [step, looked]⟩

theorem sound_step_iff (state : State Row Change) (event : Event Request Change)
    (consistent : writer.Consistent state) :
    (writer.LoserUnharmed state event ∧ writer.OnePerKey (writer.step state event)) ↔
      writer.Undisturbed state event := by
  have cases : (writer.step state event).committed = state.committed ∨ _ :=
    committed_step state event
  rcases cases with same | ⟨session, rfl, idle, moved⟩
  · have once : writer.OnePerKey (writer.step state event) := by
      rw [OnePerKey, same]
      exact consistent.once
    cases event with
    | insert session =>
      constructor
      · rintro ⟨unharmed, _⟩ row looked beaten
        exact (loserUnharmed_iff consistent session looked beaten).mp (unharmed row looked beaten)
      · intro undisturbed
        refine ⟨fun row looked beaten => ?_, once⟩
        exact (loserUnharmed_iff consistent session looked beaten).mpr
          (undisturbed row looked beaten)
    | commit session =>
      constructor
      · rintro ⟨_, unique⟩ idle
        have moved : writer.step state (.commit session : Event Request Change) =
            state.commit session := by simp [step, idle]
        rw [moved] at unique
        exact (onePerKey_commit_iff consistent session).mp unique
      · exact fun _ => ⟨trivial, once⟩
    | change _ _ | check _ _ | rollback _ => exact ⟨fun _ => trivial, fun _ => ⟨trivial, once⟩⟩
  · rw [moved, onePerKey_commit_iff consistent session]
    exact ⟨fun sound _ => sound.2, fun undisturbed => ⟨trivial, undisturbed idle⟩⟩

/-- A run keeps one row of every key, and harms no session that loses a race, exactly if
its steps are undisturbed. -/
theorem sound_iff_undisturbed (events : List (Event Request Change)) :
    (EveryState writer.step writer.OnePerKey (State.empty : State Row Change) events ∧
      EveryStep writer.step writer.LoserUnharmed (State.empty : State Row Change) events) ↔
    EveryStep writer.step writer.Undisturbed (State.empty : State Row Change) events := by
  have decided : EveryStep writer.step (fun state event => writer.LoserUnharmed state event ∧
      writer.OnePerKey (writer.step state event)) (State.empty : State Row Change) events ↔
        EveryStep writer.step writer.Undisturbed State.empty events :=
    everyStep_iff_everyStep consistent_step sound_step_iff _ events consistent_empty
  rw [everyStep_and] at decided
  constructor
  · rintro ⟨once, unharmed⟩
    exact decided.mp ⟨unharmed, everyStep_of_everyState (fun _ _ after => after) _ events once⟩
  · intro undisturbed
    refine ⟨?_, (decided.mpr undisturbed).1⟩
    exact everyState_mono (fun _ consistent => consistent.once) _ events
      (everyState_of_guard consistent_step _ events consistent_empty undisturbed)

end Writer

end Foundation.CheckThenInsert
