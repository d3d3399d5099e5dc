import Mathlib.Data.List.Count
import Ukip.Foundation.EventRun

/-!
# Deliveries of one message

A message may be delivered any number of times.  Every delivery goes through a local
state of its own and acts on effects that all of them share; their events interleave
freely, and a delivery that is lost simply has no further events.

`AsOneDelivery` says that the effects of a run are those of each delivery that
succeeded in it, taken alone.  Its two sides are compared by marks: some events leave
their delivery's number in the effects, and a run in which only one delivery marks
leads to the effects of that delivery alone as soon as unmarked events of the others
change nothing.
-/

namespace Foundation.Redelivery

open EventRun

universe u v w

variable {Effects : Type u} {Work : Type v} {Event : Type w}

/-- The shared effects and the local state of each delivery. -/
structure Crowd (Effects : Type u) (Work : Type v) where
  effects : Effects
  works : Nat → Work

/-- An event `moved` is the number of its delivery and what happens there; where it
cannot happen, `act` changes nothing. -/
def stepDelivery (act : Nat → Effects → Work → Event → Effects × Work)
    (crowd : Crowd Effects Work) (moved : Nat × Event) : Crowd Effects Work where
  effects := (act moved.1 crowd.effects (crowd.works moved.1) moved.2).1
  works := Function.update crowd.works moved.1
    (act moved.1 crowd.effects (crowd.works moved.1) moved.2).2

variable {act : Nat → Effects → Work → Event → Effects × Work}

def alone (delivery : Nat) (events : List (Nat × Event)) : List (Nat × Event) :=
  events.filter fun moved => moved.1 == delivery

/-- What can be observed after the run is what each delivery that has succeeded leads
to when it is the only one. -/
def AsOneDelivery {Observed : Type*} (act : Nat → Effects → Work → Event → Effects × Work)
    (succeeded : Work → Prop) (observed : Effects → Observed) (start : Crowd Effects Work)
    (events : List (Nat × Event)) : Prop :=
  ∀ delivery, succeeded ((runEvents (stepDelivery act) start events).works delivery) →
    observed (runEvents (stepDelivery act) start events).effects =
      observed (runEvents (stepDelivery act) start (alone delivery events)).effects

theorem stepDelivery_works_self (crowd : Crowd Effects Work) (moved : Nat × Event) :
    (stepDelivery act crowd moved).works moved.1 =
      (act moved.1 crowd.effects (crowd.works moved.1) moved.2).2 :=
  Function.update_self _ _ _

theorem stepDelivery_works_other (crowd : Crowd Effects Work) (moved : Nat × Event)
    (delivery : Nat) (different : moved.1 ≠ delivery) :
    (stepDelivery act crowd moved).works delivery = crowd.works delivery :=
  Function.update_of_ne different.symm _ _

/-- A view of a delivery that its own events move by what they see of it, and that no
other event moves. -/
theorem view_alone {View : Type*} (act : Nat → Effects → Work → Event → Effects × Work)
    (delivery : Nat) (view : Effects → Work → View)
    (moves : ∀ first second firstWork secondWork event,
      view first firstWork = view second secondWork →
        view (act delivery first firstWork event).1 (act delivery first firstWork event).2 =
          view (act delivery second secondWork event).1 (act delivery second secondWork event).2)
    (start : Crowd Effects Work) (events : List (Nat × Event))
    (stays : EveryStep (stepDelivery act) (fun crowd moved => moved.1 ≠ delivery →
      view (stepDelivery act crowd moved).effects (crowd.works delivery) =
        view crowd.effects (crowd.works delivery)) start events) :
    view (runEvents (stepDelivery act) start events).effects
        ((runEvents (stepDelivery act) start events).works delivery) =
      view (runEvents (stepDelivery act) start (alone delivery events)).effects
        ((runEvents (stepDelivery act) start (alone delivery events)).works delivery) := by
  refine runEvents_filter_view
    (fun crowd : Crowd Effects Work => view crowd.effects (crowd.works delivery))
    (fun moved => moved.1 == delivery) ?_ start start events rfl ?_
  · rintro first second ⟨number, event⟩ isMine same
    obtain rfl : number = delivery := by simpa using isMine
    simp only [stepDelivery, Function.update_self]
    exact moves _ _ _ _ event same
  · refine everyStep_mono (fun crowd moved unmoved notMine => ?_) start events stays
    have different : moved.1 ≠ delivery := by simpa using notMine
    simp only [stepDelivery_works_other crowd moved delivery different]
    exact unmoved different

section Marks

variable {marks : Effects → List Nat} {marking : Crowd Effects Work → Nat × Event → Prop}
  (marked : ∀ crowd moved, marking crowd moved →
    marks (stepDelivery act crowd moved).effects = marks crowd.effects ++ [moved.1])
  (unmarked : ∀ crowd moved, ¬ marking crowd moved →
    marks (stepDelivery act crowd moved).effects = marks crowd.effects)

include marked unmarked

variable (delivery : Nat) (start : Crowd Effects Work) (events : List (Nat × Event))

theorem marks_by_iff :
    (∀ mark ∈ marks (runEvents (stepDelivery act) start events).effects, mark = delivery) ↔
      (∀ mark ∈ marks start.effects, mark = delivery) ∧
        EveryStep (stepDelivery act) (fun crowd moved => marking crowd moved → moved.1 = delivery)
          start events := by
  induction events generalizing start with
  | nil => exact (and_iff_left trivial).symm
  | cons moved rest ih =>
    rw [runEvents, ih, EveryStep, ← and_assoc]
    refine and_congr_left fun _ => ?_
    by_cases marks_now : marking start moved
    · rw [marked start moved marks_now]
      simp [marks_now, or_imp, forall_and]
    · rw [unmarked start moved marks_now]
      simp [marks_now]

theorem marks_alone (clean : marks start.effects = []) :
    ∀ mark ∈ marks (runEvents (stepDelivery act) start (alone delivery events)).effects,
      mark = delivery := by
  refine (marks_by_iff marked unmarked delivery start _).mpr ⟨by simp [clean], ?_⟩
  refine everyStep_of_forall start _ fun moved member crowd _ => ?_
  simpa using (List.mem_filter.mp member).2

/-- Where a delivery leaves as many marks in the run as alone, and the run as many as
the delivery alone, the run has no other marks. -/
theorem marks_by_of_length (clean : marks start.effects = [])
    (ownMarks : (marks (runEvents (stepDelivery act) start events).effects).count delivery =
      (marks (runEvents (stepDelivery act) start (alone delivery events)).effects).count delivery)
    (sameLength : (marks (runEvents (stepDelivery act) start events).effects).length =
      (marks (runEvents (stepDelivery act) start (alone delivery events)).effects).length) :
    ∀ mark ∈ marks (runEvents (stepDelivery act) start events).effects, mark = delivery := by
  have aloneMarks := marks_alone marked unmarked delivery start events clean
  have full : (marks (runEvents (stepDelivery act) start events).effects).count delivery =
      (marks (runEvents (stepDelivery act) start events).effects).length := by
    rw [ownMarks, sameLength]
    exact List.count_eq_length.mpr fun mark member => (aloneMarks mark member).symm
  exact fun mark member => (List.count_eq_length.mp full mark member).symm

end Marks

end Foundation.Redelivery
