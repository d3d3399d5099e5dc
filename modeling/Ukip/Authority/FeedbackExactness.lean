import Ukip.Authority.Feedback
import Mathlib

/-!
# Exact counters, fresh priors

A commit adds the session's outcomes to the counters when these are still as the session
loaded them; a prior is fresh as long as none is kept over a commit.  What a session holds
of the row accounts for the outcomes it has recorded, and no step of another session takes
that from it.
-/

namespace Ukip.Authority.Feedback

open Foundation.EventRun Foundation.UnitOfWork

/-- A counter that was raised some times since it was loaded. -/
def Raised (loaded current : Option Nat) : Prop :=
  current = loaded ∨ ∃ times, current = some (loaded.getD 0 + times + 1)

def gain (outcome : Outcome) (entry : Held) : Nat :=
  (entry.current outcome).getD 0 - (entry.loaded outcome).getD 0

theorem raised_raise {loaded current : Option Nat} (raised : Raised loaded current) :
    Raised loaded (raise current) ∧
      (raise current).getD 0 - loaded.getD 0 = current.getD 0 - loaded.getD 0 + 1 := by
  rcases raised with rfl | ⟨times, rfl⟩
  · exact ⟨.inr ⟨0, rfl⟩, by simp [raise]⟩
  · refine ⟨.inr ⟨times + 1, by simp [raise]; omega⟩, ?_⟩
    simp [raise]
    omega

/-- The held rows of a session, against the rows of the table. -/
structure Accounts (rows : List Row) (session : Nat) (here : Session) : Prop where
  listed : ∀ entry ∈ here.held, ∃ row ∈ rows, row.id = entry.id ∧
    (row.owner = none ∨ row.owner = some session)
  distinct : (here.held.map Held.id).Nodup
  raised : ∀ entry ∈ here.held, ∀ outcome, Raised (entry.loaded outcome) (entry.current outcome)
  gained : ∀ outcome, (here.held.map (gain outcome)).sum = here.outcomes outcome
  single : (rows.filter fun row => row.owner = some session).length ≤ 1
  missing : ∀ confirmed rejected, here.phase = .selected confirmed rejected none →
    (rows.filter fun row => row.owner = some session) = []
  found : ∀ confirmed rejected id, here.phase = .selected confirmed rejected (some id) →
    ∃ entry ∈ here.held, entry.id = id

variable {rows : List Row} {session : Nat}

theorem accounts_fresh (none : (rows.filter fun row => row.owner = some session) = []) :
    Accounts rows session .fresh where
  listed := by simp [Session.fresh]
  distinct := by simp [Session.fresh]
  raised := by simp [Session.fresh]
  gained := by simp [Session.fresh]
  single := by simp [none]
  missing := fun _ _ _ => none
  found := by simp [Session.fresh]

variable {here : Session}

theorem accounts_of_rows {before after : List Row} (accounts : Accounts before session here)
    (kept : ∀ row ∈ before, row.owner = none ∨ row.owner = some session →
      ∃ same ∈ after, same.id = row.id ∧ (same.owner = none ∨ same.owner = some session))
    (own : (after.filter fun row => row.owner = some session) =
      before.filter fun row => row.owner = some session) : Accounts after session here where
  listed := by
    intro entry member
    obtain ⟨row, inRows, sameId, visible⟩ := accounts.listed entry member
    obtain ⟨same, inAfter, isSame, stillVisible⟩ := kept row inRows visible
    exact ⟨same, inAfter, isSame.trans sameId, stillVisible⟩
  distinct := accounts.distinct
  raised := accounts.raised
  gained := accounts.gained
  single := by
    rw [own]
    exact accounts.single
  missing := by
    rw [own]
    exact accounts.missing
  found := accounts.found

theorem mem_first {pick : Nat} {row : Row} (found : first rows pick = some row) : row ∈ rows :=
  List.mem_of_getElem? found

theorem first_eq_none {pick : Nat} (none : first rows pick = none) : rows = [] := by
  rw [first, List.getElem?_eq_none_iff] at none
  by_contra some
  exact absurd (Nat.mod_lt pick (List.length_pos_iff.mpr some)) (Nat.not_lt.mpr none)

theorem mem_hold_self (held : List Held) (row : Row) : ∃ entry ∈ hold held row, entry.id = row.id := by
  unfold hold
  split
  · next present => exact present
  · exact ⟨_, List.mem_append_right _ List.mem_cons_self, rfl⟩

theorem accounts_hold {row : Row} (accounts : Accounts rows session here) (member : row ∈ rows)
    (visible : row.owner = none ∨ row.owner = some session) (confirmed rejected : Bool) :
    Accounts rows session
      { here with
        held := hold here.held row
        phase := .selected confirmed rejected (some row.id) } := by
  have found : ∀ isConfirmed isRejected id,
      Phase.selected confirmed rejected (some row.id) = .selected isConfirmed isRejected (some id) →
        ∃ entry ∈ hold here.held row, entry.id = id := by
    rintro _ _ _ ⟨⟩
    exact mem_hold_self here.held row
  unfold hold at found ⊢
  split
  · next present =>
      rw [if_pos present] at found
      exact
        { listed := accounts.listed
          distinct := accounts.distinct
          raised := accounts.raised
          gained := accounts.gained
          single := accounts.single
          missing := nofun
          found := found }
  · next absent =>
      rw [if_neg absent] at found
      refine
        { listed := ?_
          distinct := ?_
          raised := ?_
          gained := ?_
          single := accounts.single
          missing := nofun
          found := found }
      · intro entry inHeld
        rcases List.mem_append.mp inHeld with old | new
        · exact accounts.listed entry old
        · obtain rfl := List.mem_singleton.mp new
          exact ⟨row, member, rfl, visible⟩
      · rw [List.map_append, List.nodup_append]
        refine ⟨accounts.distinct, by simp, ?_⟩
        intro old oldMember new newMember same
        obtain ⟨entry, inHeld, rfl⟩ := List.mem_map.mp oldMember
        exact absent ⟨entry, inHeld, same.trans (List.mem_singleton.mp newMember)⟩
      · intro entry inHeld
        rcases List.mem_append.mp inHeld with old | new
        · exact accounts.raised entry old
        · obtain rfl := List.mem_singleton.mp new
          exact fun _ => .inl rfl
      · intro outcome
        rw [List.map_append, List.sum_append, accounts.gained outcome]
        simp [gain]

theorem sum_gain_raised {held : List Held} {id : Nat} (flags : Outcome → Bool)
    (distinct : (held.map Held.id).Nodup) (found : ∃ entry ∈ held, entry.id = id)
    (raised : ∀ entry ∈ held, ∀ outcome, Raised (entry.loaded outcome) (entry.current outcome))
    (outcome : Outcome) :
    ((held.map fun entry => if entry.id = id then entry.raised flags else entry).map
        (gain outcome)).sum =
      (held.map (gain outcome)).sum + if flags outcome then 1 else 0 := by
  induction held with
  | nil =>
    obtain ⟨_, member, _⟩ := found
    cases member
  | cons head rest ih =>
    rw [List.map_cons, List.nodup_cons] at distinct
    by_cases same : head.id = id
    · have others : (rest.map fun entry => if entry.id = id then entry.raised flags else entry) =
          rest := by
        refine (List.map_congr_left fun entry member => if_neg fun again => ?_).trans
          (List.map_id rest)
        exact distinct.1 (List.mem_map.mpr ⟨entry, member, again.trans same.symm⟩)
      have headGain : gain outcome (head.raised flags) =
          gain outcome head + if flags outcome then 1 else 0 := by
        unfold gain Held.raised
        cases flagged : flags outcome with
        | false => simp [flagged]
        | true => simpa [flagged] using (raised_raise (raised head List.mem_cons_self outcome)).2
      simp only [List.map_cons, List.sum_cons, same, if_true, others, headGain]
      omega
    · have later : ∃ entry ∈ rest, entry.id = id := by
        obtain ⟨entry, member, isId⟩ := found
        rcases List.mem_cons.mp member with rfl | inRest
        · exact absurd isId same
        · exact ⟨entry, inRest, isId⟩
      have tail := ih distinct.2 later fun entry member =>
        raised entry (List.mem_cons_of_mem head member)
      simp only [List.map_cons, List.sum_cons, same, if_false]
      omega

theorem accounts_mark {session id : Nat} {confirmed rejected : Bool}
    (accounts : Accounts rows session here)
    (selected : here.phase = .selected confirmed rejected (some id)) :
    Accounts rows session
      { held := here.held.map fun entry : Held =>
          if entry.id = id then entry.raised (flag confirmed rejected) else entry
        phase := .idle
        outcomes := fun outcome =>
          here.outcomes outcome + if flag confirmed rejected outcome then 1 else 0
        calls := here.calls + 1 } := by
  have sameId : ∀ entry : Held,
      (if entry.id = id then entry.raised (flag confirmed rejected) else entry).id = entry.id := by
    intro entry
    split <;> rfl
  refine
    { listed := ?_
      distinct := ?_
      raised := ?_
      gained := ?_
      single := accounts.single
      missing := nofun
      found := nofun }
  · intro entry member
    obtain ⟨old, oldMember, rfl⟩ := List.mem_map.mp member
    obtain ⟨row, inRows, isRow, visible⟩ := accounts.listed old oldMember
    exact ⟨row, inRows, isRow.trans (sameId old).symm, visible⟩
  · rw [List.map_map]
    simpa [Function.comp_def, sameId] using accounts.distinct
  · intro entry member outcome
    obtain ⟨old, oldMember, rfl⟩ := List.mem_map.mp member
    have before := accounts.raised old oldMember outcome
    split
    · unfold Held.raised
      dsimp only
      split
      · exact (raised_raise before).1
      · exact before
    · exact before
  · intro outcome
    dsimp only
    rw [← accounts.gained outcome]
    exact sum_gain_raised _ accounts.distinct (accounts.found _ _ _ selected) accounts.raised outcome

structure Sound (state : State) : Prop where
  exact : Exact state
  cached : ∀ prior, state.cache = some prior → prior.asOf = state.commits
  loaded : ∀ entry ∈ state.loading, entry.2.asOf = state.commits
  zero : ∀ row ∈ state.rows, row.owner ≠ none → ∀ outcome, (row.counters outcome).getD 0 = 0
  accounts : ∀ session, Accounts state.rows session (state.sessions session)

theorem sound_start (scope : Scope) : Sound (.start scope) where
  exact := .inl ⟨rfl, fun _ => rfl⟩
  cached := by
    intro prior here
    cases here
  loaded := by
    intro entry here
    cases here
  zero := by
    intro row here
    cases here
  accounts := fun session => accounts_fresh rfl

variable {state : State}

theorem sound_put (sound : Sound state) {now : Session} (accounts : Accounts state.rows session now) :
    Sound (state.put session now) where
  exact := sound.exact
  cached := sound.cached
  loaded := sound.loaded
  zero := sound.zero
  accounts := by
    intro other
    by_cases own : other = session
    · subst own
      simpa [State.put] using accounts
    · simpa [State.put, Function.update_of_ne own] using sound.accounts other

theorem sound_select (sound : Sound state) (session : Nat) (confirmed rejected : Bool) (pick : Nat) :
    Sound (select state session confirmed rejected pick) := by
  have accounts := sound.accounts session
  unfold select
  dsimp only
  split
  · exact sound
  · split
    · next none =>
        have unseen := first_eq_none none
        refine sound_put sound
          { listed := accounts.listed
            distinct := accounts.distinct
            raised := accounts.raised
            gained := accounts.gained
            single := accounts.single
            missing := fun _ _ _ => ?_
            found := nofun }
        rw [List.filter_eq_nil_iff]
        intro row member own
        refine List.filter_eq_nil_iff.mp unseen row member ?_
        simp [of_decide_eq_true own]
    · next row found =>
        obtain ⟨member, visible⟩ := List.mem_filter.mp (mem_first found)
        exact sound_put sound (accounts_hold accounts member (by simpa using visible) _ _)

theorem sound_discard (sound : Sound state) (session : Nat) : Sound (state.discard session) := by
  have ownOf : ∀ other, other ≠ session →
      ((state.rows.filter fun row => row.owner ≠ some session).filter
        fun row => row.owner = some other) = state.rows.filter fun row => row.owner = some other := by
    intro other apart
    rw [List.filter_filter]
    refine List.filter_congr fun row _ => ?_
    by_cases mine : row.owner = some other
    · simp [mine, apart]
    · simp [mine]
  have committed : (state.discard session).committedRows = state.committedRows := by
    unfold State.committedRows State.discard State.put
    dsimp only
    rw [List.filter_filter]
    refine List.filter_congr fun row _ => ?_
    cases owner : row.owner <;> simp
  exact
    { exact := by
        unfold Exact
        rw [committed]
        exact sound.exact
      cached := sound.cached
      loaded := sound.loaded
      zero := fun row member => sound.zero row (List.mem_of_mem_filter member)
      accounts := by
        intro other
        by_cases own : other = session
        · subst own
          unfold State.discard State.put
          dsimp only
          rw [Function.update_self]
          refine accounts_fresh ?_
          rw [List.filter_filter, List.filter_eq_nil_iff]
          intro row _ both
          simp at both
        · unfold State.discard State.put
          dsimp only
          rw [Function.update_of_ne own]
          refine accounts_of_rows (sound.accounts other) ?_ (ownOf other own)
          intro row member visible
          refine ⟨row, List.mem_filter.mpr ⟨member, ?_⟩, rfl, visible⟩
          rcases visible with none | mine
          · simp [none]
          · simp [mine, own] }

theorem sound_insert (sound : Sound state) (session : Nat) : Sound (insert state session) := by
  unfold insert
  dsimp only
  split
  · next confirmed rejected selected =>
      split
      · exact sound
      · split
        · exact sound_discard sound session
        · have accounts := sound.accounts session
          have none := accounts.missing _ _ selected
          have ownOf : ∀ other, other ≠ session →
              ((state.rows ++ [newRow state session]).filter fun row => row.owner = some other) =
                state.rows.filter fun row => row.owner = some other := by
            intro other apart
            simp [newRow, Ne.symm apart]
          have wider : Accounts (state.rows ++ [newRow state session]) session
              { state.sessions session with phase := .idle } :=
            { listed := by
                intro entry member
                obtain ⟨row, inRows, same⟩ := accounts.listed entry member
                exact ⟨row, List.mem_append_left _ inRows, same⟩
              distinct := accounts.distinct
              raised := accounts.raised
              gained := accounts.gained
              single := by
                rw [List.filter_append, none]
                simp [newRow]
              missing := nofun
              found := nofun }
          have held := accounts_hold wider (List.mem_append_right _ List.mem_cons_self)
            (.inr rfl) confirmed rejected
          exact
            { exact := by
                have committed : ((state.rows ++ [newRow state session]).filter
                    fun row => row.owner = Option.none) = state.committedRows := by
                  simp [newRow, State.committedRows]
                unfold Exact State.committedRows State.put
                dsimp only
                rw [committed]
                exact sound.exact
              cached := sound.cached
              loaded := sound.loaded
              zero := by
                intro row member foreign outcome
                rcases List.mem_append.mp member with old | new
                · exact sound.zero row old foreign outcome
                · obtain rfl := List.mem_singleton.mp new
                  rfl
              accounts := by
                intro other
                unfold State.put
                dsimp only
                by_cases own : other = session
                · subst own
                  rw [Function.update_self]
                  exact held
                · rw [Function.update_of_ne own]
                  refine accounts_of_rows (sound.accounts other) ?_ (ownOf other own)
                  exact fun row member visible =>
                    ⟨row, List.mem_append_left _ member, rfl, visible⟩ }
  · exact sound

theorem sound_mark (sound : Sound state) (session : Nat) : Sound (mark state session) := by
  unfold mark
  dsimp only
  split
  · next confirmed rejected id selected =>
      have dropped : Sound { state with cache := none } :=
        { exact := sound.exact
          cached := by
            intro prior here
            cases here
          loaded := sound.loaded
          zero := sound.zero
          accounts := sound.accounts }
      exact sound_put dropped (accounts_mark (sound.accounts session) selected)
  · exact sound

theorem id_flushRow (held : List Held) (row : Row) : (flushRow held row).id = row.id := by
  unfold flushRow
  split <;> rfl

theorem committedRows_settle (state : State) (session : Nat) :
    (settle state session).committedRows =
      (state.visibleRows session).map (settleRow session (state.sessions session).held) := by
  unfold settle State.committedRows State.visibleRows State.put
  dsimp only
  induction state.rows with
  | nil => rfl
  | cons row rest ih =>
    rw [List.map_cons, List.filter_cons, List.filter_cons, ih]
    by_cases visible : row.owner = none ∨ row.owner = some session
    · have settled : (settleRow session (state.sessions session).held row).owner = none := by
        rw [settleRow, if_pos visible]
      rw [if_pos (decide_eq_true settled), if_pos (decide_eq_true visible), List.map_cons]
    · have foreign : row.owner ≠ none := fun none => visible (.inl none)
      have same : settleRow session (state.sessions session).held row = row := if_neg visible
      rw [same, if_neg (by simpa using foreign), if_neg (by simpa using visible)]

theorem filter_map_settleRow {session other : Nat} (apart : other ≠ session) (held : List Held)
    (rows : List Row) :
    ((rows.map (settleRow session held)).filter fun row => row.owner = some other) =
      rows.filter fun row => row.owner = some other := by
  induction rows with
  | nil => rfl
  | cons row rest ih =>
    rw [List.map_cons, List.filter_cons, List.filter_cons, ih]
    by_cases visible : row.owner = none ∨ row.owner = some session
    · have foreign : row.owner ≠ some other := by
        rcases visible with none | mine
        · simp [none]
        · simp [mine, Ne.symm apart]
      simp [settleRow, visible, foreign]
    · rw [settleRow, if_neg visible]

theorem visibleRows_cases (sound : Sound state) (session : Nat)
    (single : state.ownRows session ≠ [] → state.committedRows = []) :
    (state.visibleRows session = [] ∧ ∀ outcome, state.recorded outcome = 0) ∨
      ∃ row, state.visibleRows session = [row] ∧
        ∀ outcome, (row.counters outcome).getD 0 = state.recorded outcome := by
  by_cases own : state.ownRows session = []
  · have seen : state.visibleRows session = state.committedRows := by
      refine List.filter_congr fun row member => ?_
      have foreign := List.filter_eq_nil_iff.mp own row member
      simp at foreign
      simp [foreign]
    rw [seen]
    exact sound.exact
  · have none := single own
    have seen : state.visibleRows session = state.ownRows session := by
      refine List.filter_congr fun row member => ?_
      have taken := List.filter_eq_nil_iff.mp none row member
      simp at taken
      simp [taken]
    rcases sound.exact with ⟨_, zero⟩ | ⟨row, some, _⟩
    · right
      obtain ⟨row, only⟩ : ∃ row, state.ownRows session = [row] := by
        cases rows : state.ownRows session with
        | nil => exact absurd rows own
        | cons row rest =>
          have short := (sound.accounts session).single
          rw [show (state.rows.filter fun row => row.owner = some session) = row :: rest from rows]
            at short
          have empty : rest = [] := by
            simpa using short
          exact ⟨row, by rw [empty]⟩
      refine ⟨row, seen.trans only, fun outcome => ?_⟩
      have member : row ∈ state.ownRows session := by rw [only]; exact List.mem_cons_self
      obtain ⟨inRows, mine⟩ := List.mem_filter.mp member
      rw [zero outcome]
      exact sound.zero row inRows (by simp [of_decide_eq_true mine]) outcome
    · rw [none] at some
      cases some

theorem counters_flushRow {row : Row}
    (accounts : Accounts state.rows session (state.sessions session))
    (only : state.visibleRows session = [row])
    (unchanged : ∀ entry ∈ (state.sessions session).held, ∀ row ∈ state.rows, row.id = entry.id →
      ∀ outcome, entry.current outcome ≠ entry.loaded outcome →
        row.counters outcome = entry.loaded outcome) (outcome : Outcome) :
    ((flushRow (state.sessions session).held row).counters outcome).getD 0 =
      (row.counters outcome).getD 0 + (state.sessions session).outcomes outcome := by
  have member : row ∈ state.rows :=
    List.mem_of_mem_filter (p := fun row => row.owner = none ∨ row.owner = some session)
      (by rw [← State.visibleRows, only]; exact List.mem_cons_self)
  have sameRow : ∀ entry ∈ (state.sessions session).held, entry.id = row.id := by
    intro entry inHeld
    obtain ⟨found, inRows, sameId, visible⟩ := accounts.listed entry inHeld
    have seen : found ∈ state.visibleRows session :=
      List.mem_filter.mpr ⟨inRows, by simpa using visible⟩
    rw [only, List.mem_singleton] at seen
    rw [← sameId, seen]
  have gained := accounts.gained outcome
  have raised := accounts.raised
  have distinct := accounts.distinct
  generalize (state.sessions session).held = held at *
  match held with
  | [] =>
    have nothing : (state.sessions session).outcomes outcome = 0 := gained.symm
    simp [flushRow, nothing]
  | [entry] =>
    have isRow : entry.id = row.id := sameRow entry List.mem_cons_self
    have flushed : (flushRow [entry] row).counters outcome =
        flushColumn (entry.loaded outcome) (entry.current outcome) (row.counters outcome) := by
      simp [flushRow, isRow]
    have total : gain outcome entry = (state.sessions session).outcomes outcome := by
      simpa using gained
    rw [flushed, ← total]
    rcases raised entry List.mem_cons_self outcome with same | ⟨times, more⟩
    · rw [same, flushColumn_unchanged]
      simp [gain, same]
    · have changed : entry.current outcome ≠ entry.loaded outcome := by
        intro same
        rw [more] at same
        cases loaded : entry.loaded outcome with
        | none => simp [loaded] at same
        | some count =>
          rw [loaded] at same
          have equal := Option.some.inj same
          simp at equal
          omega
      have still := unchanged entry List.mem_cons_self row member isRow.symm outcome changed
      rw [flushColumn_changed changed, still]
      simp [gain, more]
      omega
  | first :: second :: rest =>
    have firstId := sameRow first (by simp)
    have secondId := sameRow second (by simp)
    simp [firstId, secondId] at distinct

theorem sound_settle (sound : Sound state) (session : Nat)
    (unchanged : ∀ entry ∈ (state.sessions session).held, ∀ row ∈ state.rows, row.id = entry.id →
      ∀ outcome, entry.current outcome ≠ entry.loaded outcome →
        row.counters outcome = entry.loaded outcome)
    (single : state.ownRows session ≠ [] → state.committedRows = [])
    (quiet : 0 < (state.sessions session).calls → state.cache = none ∧ state.loading = []) :
    Sound (settle state session) := by
  have accounts := sound.accounts session
  have seen : ∀ entry ∈ (state.sessions session).held, state.visibleRows session ≠ [] := by
    intro entry inHeld none
    obtain ⟨row, inRows, _, visible⟩ := accounts.listed entry inHeld
    have member : row ∈ state.visibleRows session :=
      List.mem_filter.mpr ⟨inRows, by simpa using visible⟩
    rw [none] at member
    cases member
  have still : ∀ prior : Prior, prior.asOf = state.commits →
      ¬ 0 < (state.sessions session).calls → prior.asOf = (settle state session).commits :=
    fun prior fresh silent => fresh.trans (if_neg silent).symm
  refine
    { exact := ?_
      cached := ?_
      loaded := ?_
      zero := ?_
      accounts := ?_ }
  · unfold Exact
    rw [committedRows_settle]
    rcases visibleRows_cases sound session single with ⟨none, zero⟩ | ⟨row, only, counts⟩
    · left
      refine ⟨by rw [none]; rfl, fun outcome => ?_⟩
      have nothing : (state.sessions session).held = [] :=
        List.eq_nil_iff_forall_not_mem.mpr fun entry inHeld => seen entry inHeld none
      have gained := accounts.gained outcome
      rw [nothing] at gained
      have total : (settle state session).recorded outcome =
          state.recorded outcome + (state.sessions session).outcomes outcome := rfl
      rw [total, zero outcome, ← gained]
      rfl
    · right
      refine ⟨_, by rw [only]; rfl, fun outcome => ?_⟩
      have visible : row.owner = none ∨ row.owner = some session := by
        have member : row ∈ state.visibleRows session := by rw [only]; exact List.mem_cons_self
        simpa using (List.mem_filter.mp member).2
      have total : (settle state session).recorded outcome =
          state.recorded outcome + (state.sessions session).outcomes outcome := rfl
      rw [total, ← counts outcome, settleRow, if_pos visible]
      exact counters_flushRow accounts only unchanged outcome
  · intro prior here
    refine still prior (sound.cached prior here) fun called => ?_
    rw [show (settle state session).cache = state.cache from rfl, (quiet called).1] at here
    cases here
  · intro entry member
    refine still entry.2 (sound.loaded entry member) fun called => ?_
    rw [show (settle state session).loading = state.loading from rfl, (quiet called).2] at member
    cases member
  · intro row member foreign outcome
    obtain ⟨old, inRows, rfl⟩ := List.mem_map.mp member
    unfold settleRow at foreign ⊢
    split at foreign
    · exact absurd rfl foreign
    · next unseen =>
        rw [if_neg unseen]
        exact sound.zero old inRows foreign outcome
  · intro other
    have rows : (settle state session).rows =
        state.rows.map (settleRow session (state.sessions session).held) := rfl
    have sessions : (settle state session).sessions =
        Function.update state.sessions session .fresh := rfl
    rw [rows, sessions]
    by_cases own : other = session
    · subst own
      rw [Function.update_self]
      refine accounts_fresh (List.filter_eq_nil_iff.mpr ?_)
      intro row member mine
      obtain ⟨old, inRows, rfl⟩ := List.mem_map.mp member
      unfold settleRow at mine
      split at mine
      · simp at mine
      · next unseen => exact unseen (.inr (of_decide_eq_true mine))
    · rw [Function.update_of_ne own]
      refine accounts_of_rows (sound.accounts other) ?_ (filter_map_settleRow own _ _)
      intro row member visible
      refine ⟨_, List.mem_map_of_mem member, ?_⟩
      unfold settleRow
      split
      · exact ⟨id_flushRow _ row, .inl rfl⟩
      · exact ⟨rfl, visible⟩

theorem sound_commit (sound : Sound state) (session : Nat)
    (undisturbed : Undisturbed state (.commit session)) : Sound (commit state session) := by
  unfold commit
  split
  · exact sound
  · next idle =>
      obtain ⟨unchanged, single, quiet⟩ := undisturbed idle
      exact sound_settle sound session unchanged single quiet

theorem sound_reader {state after : State} (sound : Sound state) (rows : after.rows = state.rows)
    (sessions : after.sessions = state.sessions) (recorded : after.recorded = state.recorded)
    (cached : ∀ prior, after.cache = some prior → prior.asOf = after.commits)
    (loaded : ∀ entry ∈ after.loading, entry.2.asOf = after.commits) : Sound after where
  exact := by
    unfold Exact State.committedRows
    rw [rows, recorded]
    exact sound.exact
  cached := cached
  loaded := loaded
  zero := by
    rw [rows]
    exact sound.zero
  accounts := by
    rw [rows, sessions]
    exact sound.accounts

theorem sound_step (state : State) (event : Event) (sound : Sound state)
    (undisturbed : Undisturbed state event) : Sound (step state event) := by
  cases event with
  | select session confirmed rejected pick => exact sound_select sound session _ _ pick
  | insert session => exact sound_insert sound session
  | mark session => exact sound_mark sound session
  | commit session => exact sound_commit sound session undisturbed
  | rollback session => exact sound_discard sound session
  | lookup reader =>
    simp only [step]
    split
    · exact sound_reader sound rfl rfl rfl sound.cached sound.loaded
    · exact sound
  | load reader pick =>
    simp only [step]
    split
    · refine sound_reader sound rfl rfl rfl sound.cached fun entry member => ?_
      rcases List.mem_append.mp member with old | new
      · exact sound.loaded entry old
      · obtain rfl := List.mem_singleton.mp new
        rfl
    · exact sound
  | store reader =>
    simp only [step]
    split
    · exact sound
    · next entry found =>
        refine sound_reader sound rfl rfl rfl ?_ fun other member =>
          sound.loaded other (List.mem_of_mem_eraseP member)
        intro prior here
        obtain rfl := Option.some.inj here
        exact sound.loaded entry (List.mem_of_find?_eq_some found)

theorem fresh_of_sound (state : State) (event : Event) (sound : Sound state) :
    Fresh state event := by
  intro prior answered
  cases event with
  | lookup reader => exact sound.cached prior answered
  | store reader =>
    obtain ⟨entry, found, rfl⟩ := Option.map_eq_some_iff.mp answered
    exact sound.loaded entry (List.mem_of_find?_eq_some found)
  | _ => cases answered

/-- In every run of requests and readers of a scope whose commits are undisturbed, the
committed counters are the numbers of recorded outcomes in every state, and every prior that
is served was computed from all commits before it. -/
theorem counters_exact_of_undisturbed (scope : Scope) (events : List Event)
    (undisturbed : EveryStep step Undisturbed (.start scope) events) :
    EveryState step Exact (.start scope) events ∧ EveryStep step Fresh (.start scope) events :=
  ⟨everyState_mono (fun _ sound => sound.exact) _ events
      (everyState_of_guard sound_step _ events (sound_start scope) undisturbed),
    everyStep_of_guard sound_step (fun state event sound _ => fresh_of_sound state event sound) _
      events (sound_start scope) undisturbed⟩

def openalexAuthors : Scope where
  orgId := some 1
  fieldName := "author"
  authoritySource := "openalex"

def confirmedInTurn : List Event :=
  [.select 0 true false 0, .insert 0, .mark 0, .commit 0, .select 1 true false 0, .mark 1,
    .commit 1, .lookup 7, .load 7 0, .store 7]

theorem counters_exact_confirmed_in_turn :
    EveryState step Exact (.start openalexAuthors) confirmedInTurn ∧
      EveryStep step Fresh (.start openalexAuthors) confirmedInTurn :=
  counters_exact_of_undisturbed openalexAuthors confirmedInTurn (by decide)

def confirmedAtOnce : List Event :=
  [.select 0 true false 0, .insert 0, .mark 0, .commit 0, .select 1 true false 0,
    .select 2 true false 0, .mark 1, .mark 2, .commit 1, .commit 2]

/-- A reader asks between the deletion of the prior and the commit, and another one after
it. -/
def askedBeforeCommit : List Event :=
  [.select 0 true false 0, .insert 0, .mark 0, .lookup 7, .load 7 0, .store 7, .commit 0,
    .lookup 8]

/-- Of three confirmations two are counted, and the second reader is served the prior of
before the commit. -/
theorem confirmation_lost_and_prior_stale :
    ¬ EveryState step Exact (.start openalexAuthors) confirmedAtOnce ∧
      ¬ EveryStep step Fresh (.start openalexAuthors) askedBeforeCommit := by
  constructor
  · intro every
    have last := (everyState_iff_front _ _).mp every confirmedAtOnce [] (by simp)
    have counted : ((runEvents step (.start openalexAuthors) confirmedAtOnce).committedRows.map
        fun row => (row.counters .confirmed).getD 0) = [2] := by decide
    have recorded : (runEvents step (.start openalexAuthors) confirmedAtOnce).recorded .confirmed =
        3 := by decide
    rcases last with ⟨none, _⟩ | ⟨row, only, counts⟩
    · rw [none] at counted
      cases counted
    · rw [only] at counted
      have equal := counts .confirmed
      rw [recorded] at equal
      simp [equal] at counted
  · rintro ⟨_, _, _, _, _, _, _, stale, _⟩
    have fresh := stale _ rfl
    revert fresh
    decide

end Ukip.Authority.Feedback
