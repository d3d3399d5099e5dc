import Ukip.Foundation.EventRun

/-!
# Views that a run only fills

A step that fills a view keeps the values that are there, and takes those of its own layer
where there are none.  After a run of such steps a value is that of the first layer that had
one.  It is the value of the last layer alone exactly where every step fills in what the last
layer has.
-/

namespace Foundation.Filling

open EventRun

universe u v w x

variable {State : Type u} {Event : Type v} {Key : Type w} {Value : Type x}
variable (step : State → Event → State) (view : State → Key → Option Value)
variable (layer : State → Event → Key → Option Value)

/-- What is there stays, and the layer fills the rest. -/
def Fills (state : State) (event : Event) : Prop :=
  ∀ key, view (step state event) key = (view state key).or (layer state event key)

/-- What the step fills in, the last layer has. -/
def FillsAs (last : Key → Option Value) (state : State) (event : Event) : Prop :=
  ∀ key value, view state key = none → layer state event key = some value →
    last key = some value

variable {step view layer}

theorem view_kept {state : State} {event : Event} (fills : Fills step view layer state event)
    {key : Key} {value : Value} (there : view state key = some value) :
    view (step state event) key = some value := by
  rw [fills key, there, Option.some_or]

theorem run_kept {start : State} {events : List Event}
    (fills : EveryStep step (Fills step view layer) start events) {key : Key} {value : Value}
    (there : view start key = some value) :
    view (runEvents step start events) key = some value := by
  induction events generalizing start with
  | nil => exact there
  | cons event rest ih => exact ih fills.2 (view_kept fills.1 there)

theorem step_or_iff (last : Key → Option Value) {state : State} {event : Event}
    (fills : Fills step view layer state event) :
    (∀ key, (view (step state event) key).or (last key) = (view state key).or (last key)) ↔
      FillsAs view layer last state event := by
  constructor
  · intro same key value absent offered
    have here := same key
    rw [fills key, absent, offered, Option.none_or, Option.some_or, Option.none_or] at here
    exact here.symm
  · intro agrees key
    rw [fills key]
    cases there : view state key with
    | some value => rfl
    | none =>
      cases offered : layer state event key with
      | none => rfl
      | some value => rw [agrees key value there offered]; rfl

theorem run_or_iff (last : Key → Option Value) {start : State} {events : List Event}
    (fills : EveryStep step (Fills step view layer) start events) :
    (∀ key, (view (runEvents step start events) key).or (last key) =
        (view start key).or (last key)) ↔
      EveryStep step (FillsAs view layer last) start events := by
  induction events generalizing start with
  | nil => exact ⟨fun _ => trivial, fun _ key => rfl⟩
  | cons event rest ih =>
    rw [EveryStep, ← step_or_iff last fills.1, ← ih fills.2, runEvents]
    constructor
    · intro same
      have first : ∀ key, (view (step start event) key).or (last key) =
          (view start key).or (last key) := by
        intro key
        cases there : view (step start event) key with
        | some value => rw [← same key, run_kept fills.2 there]
        | none =>
          have absent : view start key = none := by
            have here := fills.1 key
            rw [there] at here
            exact (Option.or_eq_none_iff.mp here.symm).1
          rw [absent]
      exact ⟨first, fun key => (same key).trans (first key).symm⟩
    · rintro ⟨first, later⟩ key
      exact (later key).trans (first key)

end Foundation.Filling
