import Ukip.Foundation.EventRun

/-!
# Non-interference by unwinding

Two runs of one system that differ in what the others do.  A relation between states
that an event of the others keeps on either side, and that an event of one's own keeps
when both runs take it, holds at the end of any two runs with the same own events.
What such a relation says about the states is then independent of the others.
-/

namespace Foundation.NonInterference

open EventRun

universe u v

variable {State : Type u} {Event : Type v} {step : State → Event → State} {mine : Event → Bool}

theorem related_of_others {related : State → State → Prop}
    (unmoved : ∀ first second event, mine event = false → related first second →
      related (step first event) second) (first second : State) (events : List Event)
    (start : related first second) (others : events.filter mine = []) :
    related (runEvents step first events) second := by
  induction events generalizing first with
  | nil => exact start
  | cons event rest ih =>
    cases own : mine event with
    | true =>
      rw [List.filter_cons_of_pos own] at others
      cases others
    | false =>
      rw [List.filter_cons_of_neg (by rw [own]; decide)] at others
      exact ih (step first event) (unmoved first second event own start) others

theorem related_of_same_events {related : State → State → Prop} {fair : Event → Prop}
    (symmetric : ∀ first second, related first second → related second first)
    (unmoved : ∀ first second event, mine event = false → related first second →
      related (step first event) second)
    (moved : ∀ first second event, mine event = true → fair event → related first second →
      related (step first event) (step second event)) (first second : State)
    (events others : List Event) (start : related first second)
    (same : events.filter mine = others.filter mine)
    (allFair : ∀ event ∈ events, mine event = true → fair event) :
    related (runEvents step first events) (runEvents step second others) := by
  induction events generalizing first second others with
  | nil =>
    apply symmetric
    exact related_of_others unmoved second first others (symmetric first second start) same.symm
  | cons event rest ih =>
    have restFair := fun other member => allFair other (List.mem_cons_of_mem event member)
    cases own : mine event with
    | false =>
      rw [List.filter_cons_of_neg (by rw [own]; decide)] at same
      exact ih (step first event) second others
        (unmoved first second event own start) same restFair
    | true =>
      rw [List.filter_cons_of_pos own] at same
      obtain ⟨before, after, rfl, skipped, _, restSame⟩ :=
        List.filter_eq_cons_iff.mp same.symm
      rw [runEvents_append]
      have reached : related first (runEvents step second before) := by
        apply symmetric
        refine related_of_others unmoved second first before
          (symmetric first second start) ?_
        exact List.filter_eq_nil_iff.mpr skipped
      exact ih (step first event) (step (runEvents step second before) event) after
        (moved first _ event own (allFair event List.mem_cons_self own) reached)
        restSame.symm restFair

end Foundation.NonInterference
