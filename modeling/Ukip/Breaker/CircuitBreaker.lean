import Ukip.Core.Clock
import Ukip.Foundation.EventRun

/-!
# The circuit breaker

`circuit_breaker.py`, for concurrent callers.  What holds the lock is one step: the
admission of a call, the record of its outcome, a read of `state` and a reset.  The
called function runs between the first two, and any of the other steps may fall there.

`openings` and `openedAt` are an observer's notes: how often the breaker went to OPEN,
and when it last did.  The code keeps neither.  Times are microseconds of the monotonic
clock.
-/

namespace Ukip.Breaker

open Core.Clock

inductive CircuitState where
  | closed
  | opened
  | halfOpen
  deriving DecidableEq

structure CircuitBreaker where
  name : String
  failureThreshold : Int
  recoveryTimeout : Int
  state : CircuitState
  failureCount : Nat
  successCount : Nat
  lastFailureTime : Int

namespace CircuitBreaker

def init (name : String) (failureThreshold : Int) (recoveryTimeout : Int) : CircuitBreaker where
  name := name
  failureThreshold := failureThreshold
  recoveryTimeout := recoveryTimeout
  state := .closed
  failureCount := 0
  successCount := 0
  lastFailureTime := 0

/-- The defaults of `__init__`: three failures, sixty seconds. -/
def withDefaults (name : String) : CircuitBreaker := init name 3 (seconds 60)

/-- `_current_state`: an OPEN breaker whose cool-down is over moves to HALF_OPEN; the
state it returns is the one it leaves. -/
def currentState (breaker : CircuitBreaker) (now : Int) : CircuitBreaker :=
  if breaker.state = .opened then
    let elapsed := now - breaker.lastFailureTime
    if breaker.recoveryTimeout ≤ elapsed then { breaker with state := .halfOpen } else breaker
  else breaker

/-- The text of `CircuitOpenError`. -/
def circuitOpenMessage (breaker : CircuitBreaker) : String :=
  "Circuit '" ++ breaker.name ++ "' is OPEN — skipping external call."

/-- The locked part of `call`: the breaker, and the message of the error or the state in
which the call was admitted. -/
def admission (breaker : CircuitBreaker) (now : Int) :
    CircuitBreaker × Except String CircuitState :=
  let current := breaker.currentState now
  match current.state with
  | .opened => (current, .error current.circuitOpenMessage)
  | .halfOpen => (current, .ok .halfOpen)
  | .closed => (current, .ok .closed)

def recordFailure (breaker : CircuitBreaker) (now : Int) : CircuitBreaker :=
  let failureCount := breaker.failureCount + 1
  let failed := { breaker with failureCount := failureCount, lastFailureTime := now }
  if (breaker.state = .closed ∨ breaker.state = .halfOpen) ∧
      breaker.failureThreshold ≤ failureCount then
    { failed with state := .opened }
  else failed

def recordSuccess (breaker : CircuitBreaker) : CircuitBreaker :=
  let counted := if breaker.state = .halfOpen then 0 else breaker.successCount
  { breaker with successCount := counted + 1, state := .closed, failureCount := 0 }

def reset (breaker : CircuitBreaker) : CircuitBreaker :=
  { breaker with state := .closed, failureCount := 0, successCount := 0, lastFailureTime := 0 }

variable (breaker : CircuitBreaker) (now : Int)

@[simp] theorem recoveryTimeout_currentState :
    (breaker.currentState now).recoveryTimeout = breaker.recoveryTimeout := by
  unfold currentState
  grind

@[simp] theorem lastFailureTime_currentState :
    (breaker.currentState now).lastFailureTime = breaker.lastFailureTime := by
  unfold currentState
  grind

theorem state_currentState_cases :
    (breaker.currentState now).state = breaker.state ∨
      breaker.state = .opened ∧ (breaker.currentState now).state = .halfOpen ∧
        breaker.recoveryTimeout ≤ now - breaker.lastFailureTime := by
  unfold currentState
  grind

@[simp] theorem recoveryTimeout_recordFailure :
    (breaker.recordFailure now).recoveryTimeout = breaker.recoveryTimeout := by
  unfold recordFailure
  grind

@[simp] theorem lastFailureTime_recordFailure :
    (breaker.recordFailure now).lastFailureTime = now := by
  unfold recordFailure
  grind

theorem state_recordFailure_cases :
    (breaker.recordFailure now).state = breaker.state ∨
      breaker.state ≠ .opened ∧ (breaker.recordFailure now).state = .opened := by
  unfold recordFailure
  grind

@[simp] theorem state_recordSuccess : breaker.recordSuccess.state = .closed := rfl

@[simp] theorem recoveryTimeout_recordSuccess :
    breaker.recordSuccess.recoveryTimeout = breaker.recoveryTimeout := rfl

@[simp] theorem state_reset : breaker.reset.state = .closed := rfl

@[simp] theorem recoveryTimeout_reset : breaker.reset.recoveryTimeout = breaker.recoveryTimeout :=
  rfl

end CircuitBreaker

structure Flight where
  caller : Nat
  admittedIn : CircuitState
  startedAt : Int
  /-- The openings the observer had counted at the admission. -/
  opening : Nat

/-- How the called function ends: with a result, with an `Exception`, or with another
`BaseException`, which `call` does not catch. -/
inductive Outcome where
  | returned
  | raised
  | escaped

inductive Event where
  | wait (elapsed : Nat)
  | enter (caller : Nat)
  | leave (caller : Nat) (outcome : Outcome)
  | readState
  | reset

structure System where
  breaker : CircuitBreaker
  now : Int
  inFlight : List Flight
  openings : Nat
  openedAt : Int

namespace System

def start (breaker : CircuitBreaker) (now : Int) : System where
  breaker := breaker
  now := now
  inFlight := []
  openings := 0
  openedAt := now

def put (system : System) (breaker : CircuitBreaker) (inFlight : List Flight) : System :=
  let opens := system.breaker.state ≠ .opened ∧ breaker.state = .opened
  { system with
    breaker := breaker
    inFlight := inFlight
    openings := if opens then system.openings + 1 else system.openings
    openedAt := if opens then system.now else system.openedAt }

def flight? (system : System) (caller : Nat) : Option Flight :=
  system.inFlight.find? (fun flight => flight.caller = caller)

def without (system : System) (caller : Nat) : List Flight :=
  system.inFlight.filter (fun flight => flight.caller ≠ caller)

def probes (system : System) : List Flight :=
  system.inFlight.filter (fun flight => flight.admittedIn = .halfOpen)

def enter (system : System) (caller : Nat) : System :=
  match system.breaker.admission system.now with
  | (breaker, .error _) => system.put breaker system.inFlight
  | (breaker, .ok admittedIn) =>
    let flight : Flight :=
      { caller := caller, admittedIn := admittedIn, startedAt := system.now,
        opening := system.openings }
    system.put breaker (system.inFlight ++ [flight])

def leave (system : System) (caller : Nat) : Outcome → System
  | .returned => system.put system.breaker.recordSuccess (system.without caller)
  | .raised => system.put (system.breaker.recordFailure system.now) (system.without caller)
  | .escaped => system.put system.breaker (system.without caller)

def step (system : System) : Event → System
  | .wait elapsed => { system with now := system.now + elapsed }
  | .enter caller => if (system.flight? caller).isNone then system.enter caller else system
  | .leave caller outcome =>
    if (system.flight? caller).isSome then system.leave caller outcome else system
  | .readState => system.put (system.breaker.currentState system.now) system.inFlight
  | .reset => system.put system.breaker.reset system.inFlight

variable (system : System) (breaker : CircuitBreaker) (inFlight : List Flight)

@[simp] theorem breaker_put :
    (system.put breaker inFlight).breaker = breaker := rfl

@[simp] theorem inFlight_put :
    (system.put breaker inFlight).inFlight = inFlight := rfl

@[simp] theorem now_put :
    (system.put breaker inFlight).now = system.now := rfl

theorem enter_eq (caller : Nat) :
    system.enter caller =
      system.put (system.breaker.currentState system.now)
        (if (system.breaker.currentState system.now).state = .opened then system.inFlight
        else system.inFlight ++ [{
          caller := caller, admittedIn := (system.breaker.currentState system.now).state,
          startedAt := system.now, opening := system.openings }]) := by
  unfold enter CircuitBreaker.admission
  cases state : (system.breaker.currentState system.now).state <;> simp [state]

theorem mem_of_flight? {caller : Nat} {flight : Flight}
    (found : system.flight? caller = some flight) :
    flight ∈ system.inFlight ∧ flight.caller = caller :=
  ⟨List.mem_of_find?_eq_some found, by simpa using List.find?_some found⟩

end System

end Ukip.Breaker
