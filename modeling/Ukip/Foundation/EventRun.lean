import Mathlib.Data.List.Basic
import Mathlib.Data.List.Induction

/-!
# Runs of an event-driven system

A system is a total step function: every choice the environment makes (which
actor moves, what the clock shows, which row a race picked) is part of the
event, and an event that is not enabled leaves the state as it is.  A run is a
finite list of events from a start state.

`EveryStep` and `EveryState` speak about all points of one run.  The rules below
turn a statement about one step into one about the whole run: an invariant kept
by the steps that meet a guard holds in every state of a guarded run
(`everyState_of_guard`), and where one step breaks the invariant exactly when it
misses the guard, the run keeps the invariant exactly when it meets the guard
(`everyState_iff_everyStep`, `everyState_iff_everyStep_within`).
-/

namespace Foundation.EventRun

universe u v

variable {State : Type u} {Event : Type v}

def runEvents (step : State → Event → State) : State → List Event → State
  | state, [] => state
  | state, event :: rest => runEvents step (step state event) rest

/-- `holds before event` for every event of the run, `before` being the state
the event meets. -/
def EveryStep (step : State → Event → State) (holds : State → Event → Prop) :
    State → List Event → Prop
  | _, [] => True
  | state, event :: rest => holds state event ∧ EveryStep step holds (step state event) rest

/-- `holds` in the start state and after every event of the run. -/
def EveryState (step : State → Event → State) (holds : State → Prop) :
    State → List Event → Prop
  | state, [] => holds state
  | state, event :: rest => holds state ∧ EveryState step holds (step state event) rest

variable {step : State → Event → State}

instance decidableEveryStep {holds : State → Event → Prop}
    [∀ state event, Decidable (holds state event)] :
    ∀ (state : State) (events : List Event), Decidable (EveryStep step holds state events)
  | _, [] => inferInstanceAs (Decidable True)
  | state, event :: rest =>
    have : Decidable (EveryStep step holds (step state event) rest) :=
      decidableEveryStep (step state event) rest
    inferInstanceAs (Decidable (_ ∧ _))

instance decidableEveryState {holds : State → Prop} [∀ state, Decidable (holds state)] :
    ∀ (state : State) (events : List Event), Decidable (EveryState step holds state events)
  | state, [] => inferInstanceAs (Decidable (holds state))
  | state, event :: rest =>
    have : Decidable (EveryState step holds (step state event) rest) :=
      decidableEveryState (step state event) rest
    inferInstanceAs (Decidable (_ ∧ _))

variable (start : State) (first second : List Event)

theorem runEvents_append :
    runEvents step start (first ++ second) =
      runEvents step (runEvents step start first) second := by
  induction first generalizing start with
  | nil => rfl
  | cons event rest ih => simpa [runEvents] using ih (step start event)

variable {holds : State → Event → Prop}

theorem everyStep_append :
    EveryStep step holds start (first ++ second) ↔
      EveryStep step holds start first ∧ EveryStep step holds (runEvents step start first) second := by
  induction first generalizing start with
  | nil => simp [EveryStep, runEvents]
  | cons event rest ih =>
    simp only [List.cons_append, EveryStep, runEvents, ih]
    exact and_assoc.symm

variable (events : List Event)

/-- A property of every step is a property of each event in the state that the
events before it lead to. -/
theorem everyStep_iff_split :
    EveryStep step holds start events ↔
      ∀ before event after, events = before ++ event :: after →
        holds (runEvents step start before) event := by
  induction events generalizing start with
  | nil =>
    constructor
    · intro _ before event after split
      simp at split
    · intro _
      trivial
  | cons head rest ih =>
    constructor
    · rintro ⟨headHolds, restHolds⟩ before event after split
      cases before with
      | nil =>
        obtain ⟨rfl, rfl⟩ := List.cons.inj split
        exact headHolds
      | cons first before =>
        obtain ⟨rfl, tail⟩ := List.cons.inj split
        exact (ih (step start head)).mp restHolds before event after tail
    · intro all
      refine ⟨all [] head rest rfl, (ih (step start head)).mpr ?_⟩
      intro before event after split
      exact all (head :: before) event after (by rw [split]; rfl)

theorem everyState_iff_front {holds : State → Prop} :
    EveryState step holds start events ↔
      ∀ before after, events = before ++ after → holds (runEvents step start before) := by
  induction events generalizing start with
  | nil =>
    constructor
    · intro here before after split
      obtain ⟨rfl, rfl⟩ := List.append_eq_nil_iff.mp split.symm
      exact here
    · intro all
      exact all [] [] rfl
  | cons head rest ih =>
    constructor
    · rintro ⟨here, later⟩ before after split
      cases before with
      | nil => exact here
      | cons first before =>
        obtain ⟨rfl, tail⟩ := List.cons.inj split
        exact (ih (step start head)).mp later before after tail
    · intro all
      refine ⟨all [] (head :: rest) rfl, (ih (step start head)).mpr ?_⟩
      intro before after split
      exact all (head :: before) after (by rw [split]; rfl)

variable {first second : State → Event → Prop}

theorem everyStep_mono (weaker : ∀ state event, first state event → second state event)
    (start : State) (events : List Event) (every : EveryStep step first start events) :
    EveryStep step second start events := by
  induction events generalizing start with
  | nil => trivial
  | cons event rest ih => exact ⟨weaker start event every.1, ih (step start event) every.2⟩

theorem everyStep_and :
    EveryStep step (fun state event => first state event ∧ second state event) start events ↔
      EveryStep step first start events ∧ EveryStep step second start events := by
  induction events generalizing start with
  | nil => simp [EveryStep]
  | cons event rest ih =>
    simp only [EveryStep, ih]
    exact and_and_and_comm

theorem everyStep_congr (same : ∀ state event, first state event ↔ second state event)
    (start : State) (events : List Event) :
    EveryStep step first start events ↔ EveryStep step second start events :=
  ⟨everyStep_mono (fun state event => (same state event).mp) start events,
    everyStep_mono (fun state event => (same state event).mpr) start events⟩

theorem everyState_mono {first second : State → Prop}
    (weaker : ∀ state, first state → second state)
    (start : State) (events : List Event) (every : EveryState step first start events) :
    EveryState step second start events := by
  induction events generalizing start with
  | nil => exact weaker start every
  | cons event rest ih => exact ⟨weaker start every.1, ih (step start event) every.2⟩

theorem everyStep_of_forall (each : ∀ event ∈ events, ∀ state, holds state event) :
    EveryStep step holds start events := by
  induction events generalizing start with
  | nil => trivial
  | cons event rest ih =>
    exact ⟨each event List.mem_cons_self start,
      ih (step start event) fun other member => each other (List.mem_cons_of_mem event member)⟩

/-- A view that only the events of `mine` move, and move in the same way wherever it
is the same, is after the run what it is after the events of `mine` alone. -/
theorem runEvents_filter_view {View : Type*} (view : State → View) (mine : Event → Bool)
    (moves : ∀ first second event, mine event = true → view first = view second →
      view (step first event) = view (step second event))
    (start other : State) (events : List Event) (same : view start = view other)
    (stays : EveryStep step (fun state event => mine event = false →
      view (step state event) = view state) start events) :
    view (runEvents step start events) = view (runEvents step other (events.filter mine)) := by
  induction events generalizing start other with
  | nil => exact same
  | cons event rest ih =>
    cases isMine : mine event with
    | true =>
      rw [List.filter_cons_of_pos isMine]
      exact ih (step start event) (step other event) (moves start other event isMine same)
        stays.2
    | false =>
      rw [List.filter_cons_of_neg (by rw [isMine]; decide)]
      exact ih (step start event) other ((stays.1 isMine).trans same) stays.2

section Invariant

variable {inv : State → Prop} {guard : State → Event → Prop}

theorem everyState_of_guard
    (kept : ∀ state event, inv state → guard state event → inv (step state event))
    (start : State) (events : List Event) (initial : inv start)
    (guarded : EveryStep step guard start events) : EveryState step inv start events := by
  induction events generalizing start with
  | nil => exact initial
  | cons event rest ih =>
    exact ⟨initial, ih (step start event) (kept start event initial guarded.1) guarded.2⟩

theorem runEvents_of_invariant (kept : ∀ state event, inv state → inv (step state event))
    (start : State) (events : List Event) (initial : inv start) :
    inv (runEvents step start events) := by
  induction events generalizing start with
  | nil => exact initial
  | cons event rest ih => exact ih (step start event) (kept start event initial)

theorem runEvents_related (relation : State → State → Prop) (refl : ∀ state, relation state state)
    (trans : ∀ {first second third}, relation first second → relation second third →
      relation first third)
    (moved : ∀ state event, relation state (step state event))
    (start : State) (events : List Event) : relation start (runEvents step start events) := by
  induction events generalizing start with
  | nil => exact refl start
  | cons event rest ih => exact trans (moved start event) (ih (step start event))

variable {shown : State → Event → Prop}

/-- What every guarded step shows in an invariant state, every step of a guarded
run shows. -/
theorem everyStep_of_guard
    (kept : ∀ state event, inv state → guard state event → inv (step state event))
    (reveals : ∀ state event, inv state → guard state event → shown state event) (start : State)
    (events : List Event) (initial : inv start) (guarded : EveryStep step guard start events) :
    EveryStep step shown start events := by
  induction events generalizing start with
  | nil => trivial
  | cons event rest ih =>
    exact ⟨reveals start event initial guarded.1,
      ih (step start event) (kept start event initial guarded.1) guarded.2⟩

theorem everyStep_of_everyState
    (reveals : ∀ state event, inv (step state event) → shown state event) (start : State)
    (events : List Event) (every : EveryState step inv start events) :
    EveryStep step shown start events := by
  induction events generalizing start with
  | nil => trivial
  | cons event rest ih =>
    have next : inv (step start event) := by
      cases rest with
      | nil => exact every.2
      | cons _ _ => exact every.2.1
    exact ⟨reveals start event next, ih (step start event) every.2⟩

/-- Where the guard decides what a step from an invariant state shows, and keeps the
invariant, it decides what the run shows. -/
theorem everyStep_iff_everyStep
    (kept : ∀ state event, inv state → guard state event → inv (step state event))
    (decides : ∀ state event, inv state → (shown state event ↔ guard state event)) (start : State)
    (events : List Event) (initial : inv start) :
    EveryStep step shown start events ↔ EveryStep step guard start events := by
  induction events generalizing start with
  | nil => exact Iff.rfl
  | cons event rest ih =>
    constructor
    · rintro ⟨here, later⟩
      have meets := (decides start event initial).mp here
      exact ⟨meets, (ih (step start event) (kept start event initial meets)).mp later⟩
    · rintro ⟨meets, later⟩
      exact ⟨(decides start event initial).mpr meets,
        (ih (step start event) (kept start event initial meets)).mpr later⟩

/-- Where the guard decides each step that starts in a state of the invariant
`base`, and every step keeps `base`, the guard decides the run. -/
theorem everyState_iff_everyStep_within {base : State → Prop}
    (kept : ∀ state event, base state → base (step state event))
    (decides : ∀ state event, base state → inv state → (inv (step state event) ↔ guard state event))
    (start : State) (events : List Event) (based : base start) (initial : inv start) :
    EveryState step inv start events ↔ EveryStep step guard start events := by
  constructor
  · intro every
    induction events generalizing start with
    | nil => trivial
    | cons event rest ih =>
      have next : inv (step start event) := by
        cases rest with
        | nil => exact every.2
        | cons _ _ => exact every.2.1
      exact ⟨(decides start event based initial).mp next,
        ih (step start event) (kept start event based) next every.2⟩
  · intro guarded
    have both : EveryState step (fun state => base state ∧ inv state) start events := by
      refine everyState_of_guard (fun state event holds meets => ?_) start events
        ⟨based, initial⟩ guarded
      exact ⟨kept state event holds.1, (decides state event holds.1 holds.2).mpr meets⟩
    exact everyState_mono (fun state holds => holds.2) start events both

theorem everyState_iff_everyStep
    (decides : ∀ state event, inv state → (inv (step state event) ↔ guard state event))
    (start : State) (events : List Event) (initial : inv start) :
    EveryState step inv start events ↔ EveryStep step guard start events :=
  everyState_iff_everyStep_within (fun _ _ (based : True) => based)
    (fun state event _ holds => decides state event holds) start events trivial initial

end Invariant

/-- `keeps` from every state of the run to every later one. -/
def Throughout (step : State → Event → State) (keeps : State → State → Prop) (start : State)
    (events : List Event) : Prop :=
  ∀ before middle after, events = before ++ middle ++ after →
    keeps (runEvents step start before) (runEvents step start (before ++ middle))

theorem throughout_iff_everyStep {keeps : State → State → Prop} (refl : ∀ state, keeps state state)
    (trans : ∀ {first second third}, keeps first second → keeps second third → keeps first third)
    (start : State) (events : List Event) :
    Throughout step keeps start events ↔
      EveryStep step (fun state event => keeps state (step state event)) start events := by
  rw [everyStep_iff_split]
  constructor
  · intro kept before event after split
    have here := kept before [event] after (by rw [split, List.append_assoc, List.singleton_append])
    rw [runEvents_append] at here
    exact here
  · intro each before middle after split
    induction middle using List.reverseRecOn generalizing after with
    | nil =>
      rw [List.append_nil]
      exact refl _
    | append_singleton middle event ih =>
      have earlier := ih (event :: after) (by rw [split]; simp only [List.append_assoc,
        List.singleton_append])
      have here := each (before ++ middle) event after (by rw [split]; simp only
        [List.append_assoc, List.singleton_append])
      rw [← List.append_assoc, runEvents_append]
      exact trans earlier here

inductive Interleaved : List (List Event) → List Event → Prop
  | done (count : Nat) : Interleaved (List.replicate count []) []
  | turn (before : List (List Event)) (event : Event) (task : List Event)
      (after : List (List Event)) (rest : List Event)
      (later : Interleaved (before ++ task :: after) rest) :
      Interleaved (before ++ (event :: task) :: after) (event :: rest)

theorem Interleaved.of_task {tasks : List (List Event)} {events : List Event}
    (interleaved : Interleaved tasks events) {event : Event} (member : event ∈ events) :
    ∃ task ∈ tasks, event ∈ task := by
  induction interleaved with
  | done count => cases member
  | turn before first task after rest _ ih =>
    rcases List.mem_cons.mp member with rfl | later
    · exact ⟨event :: task, List.mem_append_right _ List.mem_cons_self, List.mem_cons_self⟩
    · obtain ⟨owner, inside, has⟩ := ih later
      rcases List.mem_append.mp inside with earlier | here
      · exact ⟨owner, List.mem_append_left _ earlier, has⟩
      · rcases List.mem_cons.mp here with rfl | others
        · exact ⟨first :: owner, List.mem_append_right _ List.mem_cons_self,
            List.mem_cons_of_mem first has⟩
        · exact ⟨owner, List.mem_append_right _ (List.mem_cons_of_mem _ others), has⟩

end Foundation.EventRun
