import Ukip.Foundation.EventRun
import Ukip.Foundation.UnitOfWork
import Mathlib.Algebra.Order.Ring.Rat

/-!
# Feedback on authority sources

`feedback.py`, for the requests and the readers of one scope.  `record_outcome` selects the
row of the scope, inserts it if there is none, raises its counters in memory and deletes the
cached prior; the counters are written when the caller commits, as the columns that were
changed.  `get_source_prior` looks into the cache, else loads the row, and stores what it
computed before it returns it.

`recorded` and `commits` are an observer's: the outcomes of the transactions that were
committed, and how many of these there were.
-/

namespace Ukip.Authority.Feedback

open Foundation.UnitOfWork

structure Scope where
  orgId : Option Int
  fieldName : String
  authoritySource : String

inductive Outcome where
  | confirmed
  | rejected

instance {holds : Outcome → Prop} [DecidablePred holds] : Decidable (∀ outcome, holds outcome) :=
  decidable_of_iff (holds .confirmed ∧ holds .rejected)
    ⟨fun both outcome => by cases outcome <;> simp [both], fun all => ⟨all _, all _⟩⟩

def roundHalfEven (value : Rat) : Int :=
  let below := value.floor
  let rest := value - below
  if rest < 1 / 2 then below
  else if 1 / 2 < rest then below + 1
  else if below % 2 = 0 then below
  else below + 1

/-- `compute_adjustment`, on exact numbers: the fourth decimal of a float may differ at a half. -/
def computeAdjustment (confirmed rejected : Option Nat) : Rat :=
  let confirmed := confirmed.getD 0
  let rejected := rejected.getD 0
  let total := confirmed + rejected
  if total < 3 then 0
  else
    let balance : Rat := ((confirmed : Rat) - rejected) / total
    let confidence : Rat := total / (total + 3)
    let adjustment := max (-(5 / 100)) (min (5 / 100) (balance * confidence * (5 / 100)))
    roundHalfEven (adjustment * 10000) / 10000

/-- A prior, with the commits that the counters it was computed from had in them. -/
structure Prior where
  adjustment : Rat
  asOf : Nat

structure Row where
  id : Nat
  counters : Outcome → Option Nat
  /-- The session that inserted the row and has not committed it. -/
  owner : Option Nat

/-- A row in the identity map of a session: as it was loaded, and as it is in memory. -/
structure Held where
  id : Nat
  loaded : Outcome → Option Nat
  current : Outcome → Option Nat

/-- How far a session is with its call of `record_outcome`. -/
inductive Phase where
  | idle
  /-- The row was selected, or is missing. -/
  | selected (confirmed rejected : Bool) (row : Option Nat)
  deriving DecidableEq

structure Session where
  held : List Held
  phase : Phase
  /-- The outcomes recorded since the last commit. -/
  outcomes : Outcome → Nat
  calls : Nat

def Session.fresh : Session where
  held := []
  phase := .idle
  outcomes := fun _ => 0
  calls := 0

structure State where
  scope : Scope
  rows : List Row
  nextId : Nat
  sessions : Nat → Session
  cache : Option Prior
  /-- Readers that did not find a cached prior. -/
  missed : List Nat
  /-- Readers that have loaded the row and not returned. -/
  loading : List (Nat × Prior)
  recorded : Outcome → Nat
  commits : Nat

def State.start (scope : Scope) : State where
  scope := scope
  rows := []
  nextId := 1
  sessions := fun _ => .fresh
  cache := none
  missed := []
  loading := []
  recorded := fun _ => 0
  commits := 0

inductive Event where
  /-- The query of `record_outcome`; `pick` is the row that `first()` takes. -/
  | select (session : Nat) (confirmed rejected : Bool) (pick : Nat)
  /-- The flush of the missing row. -/
  | insert (session : Nat)
  /-- The counters in memory, and the deletion from the cache. -/
  | mark (session : Nat)
  | commit (session : Nat)
  | rollback (session : Nat)
  /-- `get_source_prior`: the look-up, the query, and the return. -/
  | lookup (reader : Nat)
  | load (reader : Nat) (pick : Nat)
  | store (reader : Nat)

/-- One of the rows, as `first()` without an order takes one. -/
def first (rows : List Row) (pick : Nat) : Option Row := rows[pick % rows.length]?

namespace State

def committedRows (state : State) : List Row := state.rows.filter fun row => row.owner = none

def ownRows (state : State) (session : Nat) : List Row :=
  state.rows.filter fun row => row.owner = some session

def visibleRows (state : State) (session : Nat) : List Row :=
  state.rows.filter fun row => row.owner = none ∨ row.owner = some session

def put (state : State) (session : Nat) (now : Session) : State :=
  { state with sessions := Function.update state.sessions session now }

def discard (state : State) (session : Nat) : State :=
  { state with rows := state.rows.filter fun row => row.owner ≠ some session }.put session .fresh

end State

/-- `identity map`: a row that is held already keeps its values in memory. -/
def hold (held : List Held) (row : Row) : List Held :=
  if ∃ entry ∈ held, entry.id = row.id then held
  else held ++ [{ id := row.id, loaded := row.counters, current := row.counters }]

/-- `(row.confirmed or 0) + 1` -/
def raise (counter : Option Nat) : Option Nat := some (counter.getD 0 + 1)

def flag (confirmed rejected : Bool) : Outcome → Bool
  | .confirmed => confirmed
  | .rejected => rejected

def Held.raised (held : Held) (flags : Outcome → Bool) : Held :=
  { held with
    current := fun outcome =>
      if flags outcome then raise (held.current outcome) else held.current outcome }

def flushRow (held : List Held) (row : Row) : Row :=
  match held.find? fun entry => entry.id = row.id with
  | none => row
  | some entry =>
    { row with
      counters := fun outcome =>
        flushColumn (entry.loaded outcome) (entry.current outcome) (row.counters outcome) }

def select (state : State) (session : Nat) (confirmed rejected : Bool) (pick : Nat) : State :=
  let here := state.sessions session
  match here.phase with
  | .selected _ _ _ => state
  | .idle =>
    match first (state.visibleRows session) pick with
    | none => state.put session { here with phase := .selected confirmed rejected none }
    | some row =>
      state.put session
        { here with
          held := hold here.held row
          phase := .selected confirmed rejected (some row.id) }

/-- The new row: `confirmed=0, rejected=0`. -/
def newRow (state : State) (session : Nat) : Row where
  id := state.nextId
  counters := fun _ => some 0
  owner := some session

/-- `uq_scoring_feedback_scope` compares rows of an organisation only: a second one waits
for an uncommitted row, and is refused beside a committed one, which ends the request. -/
def insert (state : State) (session : Nat) : State :=
  let here := state.sessions session
  match here.phase with
  | .selected confirmed rejected none =>
    if state.scope.orgId.isSome ∧ ∃ row ∈ state.rows, row.owner ≠ none ∧ row.owner ≠ some session
    then state
    else if state.scope.orgId.isSome ∧ state.committedRows ≠ [] then state.discard session
    else
      { state with
        rows := state.rows ++ [newRow state session]
        nextId := state.nextId + 1 }.put session
        { here with
          held := hold here.held (newRow state session)
          phase := .selected confirmed rejected (some state.nextId) }
  | _ => state

def mark (state : State) (session : Nat) : State :=
  let here := state.sessions session
  match here.phase with
  | .selected confirmed rejected (some id) =>
    let flags := flag confirmed rejected
    { state with cache := none }.put session
      { held := here.held.map fun entry : Held =>
          if entry.id = id then entry.raised flags else entry
        phase := .idle
        outcomes := fun outcome => here.outcomes outcome + if flags outcome then 1 else 0
        calls := here.calls + 1 }
  | _ => state

/-- A row after the commit of a session: flushed and committed if the session saw it. -/
def settleRow (session : Nat) (held : List Held) (row : Row) : Row :=
  if row.owner = none ∨ row.owner = some session then { flushRow held row with owner := none }
  else row

def settle (state : State) (session : Nat) : State :=
  let here := state.sessions session
  { state with
    rows := state.rows.map (settleRow session here.held)
    recorded := fun outcome => state.recorded outcome + here.outcomes outcome
    commits := if 0 < here.calls then state.commits + 1 else state.commits }.put session .fresh

def commit (state : State) (session : Nat) : State :=
  match (state.sessions session).phase with
  | .selected _ _ _ => state
  | .idle => settle state session

/-- `_load` -/
def priorOf (state : State) (pick : Nat) : Prior where
  adjustment :=
    match first state.committedRows pick with
    | some row => computeAdjustment (row.counters .confirmed) (row.counters .rejected)
    | none => 0
  asOf := state.commits

def step (state : State) : Event → State
  | .select session confirmed rejected pick => select state session confirmed rejected pick
  | .insert session => insert state session
  | .mark session => mark state session
  | .commit session => commit state session
  | .rollback session => state.discard session
  | .lookup reader =>
    if state.cache = none then { state with missed := state.missed ++ [reader] } else state
  | .load reader pick =>
    if reader ∈ state.missed then
      { state with
        missed := state.missed.erase reader
        loading := state.loading ++ [(reader, priorOf state pick)] }
    else state
  | .store reader =>
    match state.loading.find? fun entry => entry.1 = reader with
    | none => state
    | some entry =>
      { state with
        loading := state.loading.eraseP fun entry => entry.1 = reader
        cache := some entry.2 }

def served (state : State) : Event → Option Prior
  | .lookup _ => state.cache
  | .store reader => (state.loading.find? fun entry => entry.1 = reader).map Prod.snd
  | _ => none

/-- The committed counters are those of one row, and count the recorded outcomes. -/
def Exact (state : State) : Prop :=
  (state.committedRows = [] ∧ ∀ outcome, state.recorded outcome = 0) ∨
    ∃ row, state.committedRows = [row] ∧
      ∀ outcome, (row.counters outcome).getD 0 = state.recorded outcome

/-- No prior is served that an earlier commit is missing from. -/
def Fresh (state : State) (event : Event) : Prop :=
  ∀ prior, served state event = some prior → prior.asOf = state.commits

/-- At a commit every counter that it changes is as the session loaded it, a row that the
session inserted is the only one, and, if an outcome was recorded, no prior has been cached
or loaded since it was deleted. -/
def Undisturbed (state : State) : Event → Prop
  | .commit session =>
    (state.sessions session).phase = .idle →
      (∀ entry ∈ (state.sessions session).held, ∀ row ∈ state.rows, row.id = entry.id →
        ∀ outcome, entry.current outcome ≠ entry.loaded outcome →
          row.counters outcome = entry.loaded outcome) ∧
      (state.ownRows session ≠ [] → state.committedRows = []) ∧
      (0 < (state.sessions session).calls → state.cache = none ∧ state.loading = [])
  | _ => True

instance (state : State) (event : Event) : Decidable (Undisturbed state event) :=
  match event with
  | .commit _ => inferInstanceAs (Decidable (_ → _ ∧ _ ∧ _))
  | .select _ _ _ _ | .insert _ | .mark _ | .rollback _ | .lookup _ | .load _ _ | .store _ =>
    inferInstanceAs (Decidable True)

end Ukip.Authority.Feedback
