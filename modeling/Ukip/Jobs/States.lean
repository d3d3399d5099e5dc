import Mathlib.Data.List.Basic

/-!
# Finite state machine of durable background jobs

`jobs/states.py`: the seven statuses, the transition table and the check that
fails closed.
-/

namespace Ukip.Jobs.States

inductive JobStatus where
  | pending
  | queued
  | running
  | succeeded
  | retryWait
  | failed
  | cancelled
  deriving DecidableEq

def terminalStates : List JobStatus := [.succeeded, .failed, .cancelled]

def allowedTransitions : JobStatus → List JobStatus
  | .pending => [.queued, .cancelled]
  | .queued => [.running, .cancelled]
  | .running => [.succeeded, .retryWait, .failed]
  | .retryWait => [.queued, .cancelled]
  | .succeeded => []
  | .failed => []
  | .cancelled => []

structure InvalidTransition where
  current : JobStatus
  target : JobStatus

def isTerminal (status : JobStatus) : Bool := status ∈ terminalStates

def assertTransition (current target : JobStatus) : Except InvalidTransition Unit :=
  if target ∈ allowedTransitions current then .ok () else .error ⟨current, target⟩

theorem assertTransition_then {Result : Type} (current target : JobStatus) (result : Result) :
    (assertTransition current target >>= fun _ => .ok result) =
      if target ∈ allowedTransitions current then .ok result else .error ⟨current, target⟩ := by
  unfold assertTransition
  split <;> rfl

theorem isTerminal_iff_no_transition (status : JobStatus) :
    isTerminal status = true ↔ allowedTransitions status = [] := by
  cases status <;> decide

theorem finish_source (current target : JobStatus)
    (finishing : target = .succeeded ∨ target = .retryWait ∨ target = .failed) :
    target ∈ allowedTransitions current ↔ current = .running := by
  rcases finishing with rfl | rfl | rfl <;> cases current <;> decide

def isWaiting (status : JobStatus) : Bool :=
  status ∈ [JobStatus.pending, .queued, .retryWait]

theorem cancel_source (current : JobStatus) :
    JobStatus.cancelled ∈ allowedTransitions current ↔ isWaiting current = true := by
  cases current <;> decide

end Ukip.Jobs.States
