import Mathlib.Algebra.Order.Group.Int
import Ukip.Breaker.CircuitBreaker

/-!
# Probes and recovery

Every caller that meets a HALF_OPEN breaker is let through, and every success closes the
breaker, whatever state its call was admitted in.  Both are what the schedule of the
calls makes of them: one probe at a time is in flight exactly when the callers of a
HALF_OPEN breaker come one at a time, and a breaker that has opened is closed by a probe
of its own cool-down exactly when no earlier call succeeds late.
-/

namespace Ukip.Breaker

open Foundation.EventRun

namespace System

def OneProbe (system : System) : Prop :=
  system.breaker.state = .halfOpen → system.probes.length ≤ 1

instance (system : System) : Decidable system.OneProbe :=
  inferInstanceAs (Decidable (_ → _))

/-- A caller that is let through in HALF_OPEN finds no probe in flight. -/
def ProbesAlone (system : System) : Event → Prop
  | .enter caller =>
    system.flight? caller = none →
      (system.breaker.currentState system.now).state = .halfOpen → system.probes = []
  | _ => True

variable (system : System) (event : Event)

theorem probes_step_cases :
    (system.step event).probes.length ≤ system.probes.length ∨
      ∃ caller, event = .enter caller ∧ system.flight? caller = none ∧
        (system.breaker.currentState system.now).state = .halfOpen ∧
        (system.step event).breaker.state = .halfOpen ∧
        (system.step event).probes.length = system.probes.length + 1 := by
  have fewer : ∀ (caller : Nat) (breaker : CircuitBreaker),
      (system.put breaker (system.without caller)).probes.length ≤ system.probes.length :=
    by
    intro caller breaker
    exact (List.Sublist.filter _ List.filter_sublist).length_le
  cases event with
  | wait elapsed => exact .inl (Nat.le_refl _)
  | readState => exact .inl (Nat.le_refl _)
  | reset => exact .inl (Nat.le_refl _)
  | leave caller outcome =>
    left
    simp only [step]
    split
    · cases outcome with
      | returned => exact fewer caller _
      | raised => exact fewer caller _
      | escaped => exact fewer caller _
    · exact Nat.le_refl _
  | enter caller =>
    cases found : system.flight? caller with
    | some flight => exact .inl (by simp [step, found])
    | none =>
      have moved : system.step (.enter caller) = system.enter caller := by simp [step, found]
      rw [moved, enter_eq]
      cases state : (system.breaker.currentState system.now).state with
      | opened => exact .inl (by simp [probes])
      | closed => exact .inl (by simp [probes])
      | halfOpen => exact .inr ⟨caller, rfl, found, rfl, state, by simp [probes]⟩

theorem probesAlone_of_oneProbe (one : (system.step event).OneProbe) :
    system.ProbesAlone event := by
  cases event with
  | enter caller =>
    intro free state
    have moved : system.step (.enter caller) = system.enter caller := by simp [step, free]
    rw [moved, enter_eq] at one
    have most := one state
    simpa [state, probes] using most
  | _ => trivial

theorem probes_step_of_alone (atMost : system.probes.length ≤ 1)
    (alone : system.ProbesAlone event) : (system.step event).probes.length ≤ 1 := by
  rcases probes_step_cases system event with fewer | ⟨caller, rfl, free, state, _, more⟩
  · exact fewer.trans atMost
  · have none : system.probes = [] := alone free state
    rw [more, none]
    exact Nat.le_refl _

/-- At most one probe is in flight in every HALF_OPEN state of a run exactly when every
caller that the run lets through in HALF_OPEN finds no probe in flight. -/
theorem one_probe_iff_probes_alone (breaker : CircuitBreaker) (now : Int)
    (events : List Event) :
    EveryState step OneProbe (start breaker now) events ↔
      EveryStep step ProbesAlone (start breaker now) events := by
  constructor
  · exact everyStep_of_everyState probesAlone_of_oneProbe (start breaker now) events
  · intro alone
    have atMost : EveryState step (fun system => system.probes.length ≤ 1)
        (start breaker now) events :=
      everyState_of_guard probes_step_of_alone (start breaker now) events (Nat.zero_le 1) alone
    refine everyState_mono ?_ (start breaker now) events atMost
    intro system one _
    exact one

/-- Three failures open the breaker; after the cool-down two callers enter before the
first of them is back. -/
def twoProbes : List Event :=
  [.enter 0, .leave 0 .raised, .enter 1, .leave 1 .raised, .enter 2, .leave 2 .raised,
    .wait 60000000, .enter 3, .enter 4]

theorem two_probes_in_flight :
    ¬ EveryState step OneProbe (start (CircuitBreaker.withDefaults "openalex") 0) twoProbes := by
  decide

/-- A reset, or the success of a call that was admitted in HALF_OPEN since the breaker
last opened, no sooner than its cool-down after that. -/
def Closing (system : System) : Event → Prop
  | .reset => True
  | .leave caller .returned =>
    ∃ flight ∈ system.flight? caller, flight.admittedIn = .halfOpen ∧
      flight.opening = system.openings ∧
      system.openedAt + system.breaker.recoveryTimeout ≤ flight.startedAt
  | _ => False

/-- Only such an event closes a breaker that is not CLOSED. -/
def ClosesByProbe (system : System) (event : Event) : Prop :=
  system.breaker.state ≠ .closed → (system.step event).breaker.state = .closed →
    system.Closing event

/-- A call that succeeds while the breaker is not CLOSED was admitted in HALF_OPEN, since
the breaker last opened. -/
def NoLateSuccess (system : System) : Event → Prop
  | .leave caller .returned =>
    system.breaker.state ≠ .closed → ∀ flight ∈ system.flight? caller,
      flight.admittedIn = .halfOpen ∧ flight.opening = system.openings
  | _ => True

/-- What the breaker and the calls in flight know of the last opening. -/
structure Timed (system : System) : Prop where
  noted : system.openedAt ≤ system.now
  opened : system.breaker.state = .opened → system.openedAt ≤ system.breaker.lastFailureTime
  cooled : system.breaker.state = .halfOpen →
    system.openedAt + system.breaker.recoveryTimeout ≤ system.now
  counted : ∀ flight ∈ system.inFlight, flight.opening ≤ system.openings
  started : ∀ flight ∈ system.inFlight, flight.admittedIn = .halfOpen →
    flight.opening = system.openings →
      system.openedAt + system.breaker.recoveryTimeout ≤ flight.startedAt

variable (breaker : CircuitBreaker)

theorem timed_start (now : Int) (closed : breaker.state = .closed) :
    (start breaker now).Timed where
  noted := le_refl now
  opened := by simp [start, closed]
  cooled := by simp [start, closed]
  counted := by simp [start]
  started := by simp [start]

theorem timed_put (inFlight : List Flight) (timed : system.Timed)
    (stays : breaker.state = .opened → system.breaker.state = .opened)
    (timeout : breaker.recoveryTimeout = system.breaker.recoveryTimeout)
    (opened : breaker.state = .opened → system.openedAt ≤ breaker.lastFailureTime)
    (cooled : breaker.state = .halfOpen →
      system.openedAt + system.breaker.recoveryTimeout ≤ system.now)
    (flights : ∀ flight ∈ inFlight, flight ∈ system.inFlight ∨
      flight.opening = system.openings ∧ flight.startedAt = system.now ∧
        (flight.admittedIn = .halfOpen → breaker.state = .halfOpen)) :
    (system.put breaker inFlight).Timed := by
  have same : ¬ (system.breaker.state ≠ .opened ∧ breaker.state = .opened) :=
    fun opens => opens.1 (stays opens.2)
  have noted : (system.put breaker inFlight).openedAt = system.openedAt := if_neg same
  have counts : (system.put breaker inFlight).openings = system.openings := if_neg same
  refine
    { noted := by rw [noted]; exact timed.noted
      opened := fun state => by rw [noted]; exact opened state
      cooled := fun state => by rw [noted]; simpa [timeout] using cooled state
      counted := fun flight member => ?_
      started := fun flight member probe current => ?_ }
  · rw [counts]
    rcases flights flight member with old | ⟨fresh, _⟩
    · exact timed.counted flight old
    · exact fresh.le
  · rw [counts] at current
    rw [noted, breaker_put, timeout]
    rcases flights flight member with old | ⟨_, now, admitted⟩
    · exact timed.started flight old probe current
    · rw [now]
      exact cooled (admitted probe)

theorem timed_put_of_opens (inFlight : List Flight) (timed : system.Timed)
    (before : system.breaker.state ≠ .opened) (after : breaker.state = .opened)
    (failed : breaker.lastFailureTime = system.now)
    (flights : ∀ flight ∈ inFlight, flight ∈ system.inFlight) :
    (system.put breaker inFlight).Timed := by
  have noted : (system.put breaker inFlight).openedAt = system.now := if_pos ⟨before, after⟩
  have counts : (system.put breaker inFlight).openings = system.openings + 1 :=
    if_pos ⟨before, after⟩
  refine
    { noted := by rw [noted]; exact le_refl _
      opened := fun _ => by rw [noted, breaker_put, failed]
      cooled := fun state => by
        rw [breaker_put, after] at state
        cases state
      counted := fun flight member => ?_
      started := fun flight member _ current => ?_ }
  · rw [counts]
    exact Nat.le_succ_of_le (timed.counted flight (flights flight member))
  · have most := timed.counted flight (flights flight member)
    rw [counts] at current
    omega

theorem timed_currentState (timed : system.Timed) (added : List Flight)
    (flights : ∀ flight ∈ added, flight.opening = system.openings ∧
      flight.startedAt = system.now ∧ flight.admittedIn =
        (system.breaker.currentState system.now).state) :
    (system.put (system.breaker.currentState system.now) (system.inFlight ++ added)).Timed := by
  have cases := system.breaker.state_currentState_cases system.now
  refine timed_put system _ _ timed ?_ (by simp) ?_ ?_ ?_
  · intro opened
    rcases cases with same | ⟨_, half, _⟩
    · rw [← same]
      exact opened
    · rw [half] at opened
      cases opened
  · intro opened
    rw [CircuitBreaker.lastFailureTime_currentState]
    rcases cases with same | ⟨before, _, _⟩
    · exact timed.opened (same.symm.trans opened)
    · exact timed.opened before
  · intro half
    rcases cases with same | ⟨before, _, cooled⟩
    · exact timed.cooled (same.symm.trans half)
    · have last := timed.opened before
      omega
  · intro flight member
    rcases List.mem_append.mp member with old | fresh
    · exact .inl old
    · obtain ⟨opening, startedAt, admittedIn⟩ := flights flight fresh
      exact .inr ⟨opening, startedAt, fun half => admittedIn.symm.trans half⟩

theorem timed_leave (timed : system.Timed) (caller : Nat) (outcome : Outcome) :
    (system.leave caller outcome).Timed := by
  have flights : ∀ flight ∈ system.without caller, flight ∈ system.inFlight :=
    fun flight member => List.mem_of_mem_filter member
  cases outcome with
  | returned =>
    exact timed_put system _ _ timed (by simp) rfl (by simp) (by simp)
      fun flight member => .inl (flights flight member)
  | escaped =>
    exact timed_put system _ _ timed id rfl timed.opened timed.cooled
      fun flight member => .inl (flights flight member)
  | raised =>
    rcases system.breaker.state_recordFailure_cases system.now with same | ⟨before, after⟩
    · refine timed_put system _ _ timed (fun opened => same.symm.trans opened) (by simp)
        (fun _ => ?_) (fun half => timed.cooled (same.symm.trans half))
        fun flight member => .inl (flights flight member)
      rw [CircuitBreaker.lastFailureTime_recordFailure]
      exact timed.noted
    · exact timed_put_of_opens system _ _ timed before after (by simp) flights

theorem timed_step (timed : system.Timed) : (system.step event).Timed := by
  cases event with
  | wait elapsed =>
    have later : system.now ≤ system.now + elapsed := by omega
    exact
      { noted := timed.noted.trans later
        opened := timed.opened
        cooled := fun half => (timed.cooled half).trans later
        counted := timed.counted
        started := timed.started }
  | enter caller =>
    simp only [step]
    split
    · rw [enter_eq]
      split
      · rw [← List.append_nil system.inFlight]
        exact timed_currentState system timed [] (by simp)
      · exact timed_currentState system timed _ (by simp)
    · exact timed
  | leave caller outcome =>
    simp only [step]
    split
    · exact timed_leave system timed caller outcome
    · exact timed
  | readState =>
    simp only [step]
    rw [← List.append_nil system.inFlight]
    exact timed_currentState system timed [] (by simp)
  | reset =>
    exact timed_put system _ _ timed (by simp) rfl (by simp) (by simp)
      fun flight member => .inl member

theorem closes_cases (before : system.breaker.state ≠ .closed)
    (after : (system.step event).breaker.state = .closed) :
    event = .reset ∨
      ∃ caller flight, event = .leave caller .returned ∧ system.flight? caller = some flight := by
  have reads : (system.breaker.currentState system.now).state ≠ .closed := by
    rcases system.breaker.state_currentState_cases system.now with same | ⟨_, half, _⟩
    · rw [same]
      exact before
    · rw [half]
      decide
  cases event with
  | wait elapsed => exact absurd after before
  | readState => exact absurd after reads
  | reset => exact .inl rfl
  | enter caller =>
    simp only [step] at after
    split at after
    · rw [enter_eq] at after
      exact absurd after reads
    · exact absurd after before
  | leave caller outcome =>
    cases found : system.flight? caller with
    | none =>
      simp only [step, found, Option.isSome_none, Bool.false_eq_true, if_false] at after
      exact absurd after before
    | some flight =>
      simp only [step, found, Option.isSome_some, if_true] at after
      cases outcome with
      | returned => exact .inr ⟨caller, flight, rfl, found⟩
      | escaped => exact absurd after before
      | raised =>
        rcases system.breaker.state_recordFailure_cases system.now with same | ⟨_, opened⟩
        · exact absurd (same.symm.trans after) before
        · rw [leave, breaker_put, opened] at after
          cases after

theorem closesByProbe_iff (timed : system.Timed) :
    system.ClosesByProbe event ↔ system.NoLateSuccess event := by
  constructor
  · intro sound
    cases event with
    | leave caller outcome =>
      cases outcome with
      | returned =>
        intro before flight found
        have after : (system.step (.leave caller .returned)).breaker.state = .closed := by
          simp [step, Option.mem_def.mp found, leave]
        obtain ⟨known, same, probe, current, _⟩ := sound before after
        rw [Option.mem_def.mp found] at same
        obtain rfl := Option.some.inj same
        exact ⟨probe, current⟩
      | raised | escaped => trivial
    | _ => trivial
  · intro guarded before after
    obtain rfl | ⟨caller, flight, rfl, found⟩ := closes_cases system event before after
    · trivial
    · obtain ⟨probe, current⟩ := guarded before flight found
      exact ⟨flight, found, probe, current,
        timed.started flight (system.mem_of_flight? found).1 probe current⟩

/-- Whatever the callers do, a breaker that has opened is closed by resets and by probes
of its own cool-down only, exactly when no call of an earlier admission succeeds before
the breaker is closed again. -/
theorem closes_by_probe_iff_no_late_success (name : String) (failureThreshold : Int)
    (recoveryTimeout now : Int) (events : List Event) :
    EveryStep step ClosesByProbe
        (start (CircuitBreaker.init name failureThreshold recoveryTimeout) now) events ↔
      EveryStep step NoLateSuccess
        (start (CircuitBreaker.init name failureThreshold recoveryTimeout) now) events :=
  everyStep_iff_everyStep (fun system event timed _ => timed_step system event timed)
    closesByProbe_iff _ events (timed_start _ now rfl)

/-- Four callers enter a CLOSED breaker, three of them fail, and the fourth is back with a
result. -/
def lateSuccess : List Event :=
  [.enter 0, .enter 1, .enter 2, .enter 3, .leave 0 .raised, .leave 1 .raised,
    .leave 2 .raised, .leave 3 .returned]

theorem late_success_closes :
    ¬ EveryStep step ClosesByProbe (start (CircuitBreaker.withDefaults "openalex") 0)
        lateSuccess := by
  intro every
  obtain ⟨_, _, _, _, _, _, _, last, _⟩ := every
  obtain ⟨flight, found, admitted, _⟩ := last (by decide) (by decide)
  obtain rfl := Option.some.inj found
  cases admitted

/-! ### Failures -/

/-- A CLOSED breaker that has failed since its last success is below its threshold; one that is
not CLOSED has reached it. -/
def Counted (system : System) : Prop :=
  (system.breaker.state = .closed → system.breaker.failureCount = 0 ∨
    system.breaker.failureCount < system.breaker.failureThreshold) ∧
  (system.breaker.state ≠ .closed →
    system.breaker.failureThreshold ≤ system.breaker.failureCount)

theorem counted_step (counted : system.Counted) : (system.step event).Counted := by
  have current : Counted { system with breaker := system.breaker.currentState system.now } := by
    unfold Counted CircuitBreaker.currentState at *
    grind
  have recovered : Counted { system with breaker := system.breaker.recordSuccess } :=
    ⟨fun _ => .inl rfl, fun opened => absurd rfl opened⟩
  cases event with
  | enter caller =>
    simp only [step, enter_eq]
    split
    · exact current
    · exact counted
  | leave caller outcome =>
    simp only [step]
    split
    · cases outcome with
      | raised =>
        unfold Counted at *
        simp only [leave, breaker_put, CircuitBreaker.recordFailure]
        grind
      | returned => exact recovered
      | escaped => exact counted
    · exact counted
  | readState => exact current
  | reset => exact recovered
  | wait elapsed => exact counted

/-- Whatever the callers do, the failure count tells CLOSED from the other states. -/
theorem failures_counted (name : String) (failureThreshold recoveryTimeout now : Int)
    (events : List Event) :
    EveryState step Counted (start (CircuitBreaker.init name failureThreshold recoveryTimeout) now)
      events :=
  (everyState_iff_front _ events).mpr fun before _ _ =>
    runEvents_of_invariant counted_step _ before
      ⟨fun _ => .inl rfl, fun opened => absurd rfl opened⟩

end System

end Ukip.Breaker
