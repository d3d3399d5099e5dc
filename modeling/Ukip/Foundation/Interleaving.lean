import Ukip.Foundation.EventRun

/-!
# Requests in flight over one store

A request advances in phases.  A phase is one atomic step on the shared store, a read
or a commit, and between two phases of a request the others may take any number of
steps.  A key names one request for the whole run and keeps its answer.

The rule of this file is the rely-guarantee rule: what a request knows between its
phases is stable under whatever the others may do to the store, and each of its own
phases establishes what it knows next (`step_of_rely_guarantee`).
-/

namespace Foundation.Interleaving

variable {Store Request Phase Answer Moment : Type}

inductive Slot (Request Phase Answer : Type) where
  | free
  | active (request : Request) (phase : Phase)
  | answered (request : Request) (answer : Answer)
  deriving DecidableEq

/-- What a phase leaves: the store, and the next phase or the answer. -/
inductive Outcome (Store Phase Answer : Type) where
  | goesOn (store : Store) (phase : Phase)
  | answers (store : Store) (answer : Answer)

namespace Outcome

def store : Outcome Store Phase Answer → Store
  | .goesOn store _ => store
  | .answers store _ => store

def slot (request : Request) : Outcome Store Phase Answer → Slot Request Phase Answer
  | .goesOn _ phase => .active request phase
  | .answers _ answer => .answered request answer

@[simp] theorem store_goesOn (store : Store) (phase : Phase) :
    (goesOn store phase : Outcome Store Phase Answer).store = store := rfl

@[simp] theorem store_answers (store : Store) (answer : Answer) :
    (answers store answer : Outcome Store Phase Answer).store = store := rfl

@[simp] theorem slot_goesOn (request : Request) (store : Store) (phase : Phase) :
    (goesOn store phase : Outcome Store Phase Answer).slot request = .active request phase := rfl

@[simp] theorem slot_answers (request : Request) (store : Store) (answer : Answer) :
    (answers store answer : Outcome Store Phase Answer).slot request = .answered request answer :=
  rfl

variable {outcome : Outcome Store Phase Answer} {request other : Request}

theorem request_of_active {phase : Phase} (slot : outcome.slot request = .active other phase) :
    request = other := by
  cases outcome <;> cases slot
  rfl

theorem request_of_answered {answer : Answer} (slot : outcome.slot request = .answered other answer) :
    request = other := by
  cases outcome <;> cases slot
  rfl

end Outcome

/-- How requests are served: the phase they begin in, and one phase at a moment. -/
structure Protocol (Store Request Phase Answer Moment : Type) where
  begins : Request → Phase
  advance : Store → Moment → Request → Phase → Outcome Store Phase Answer

structure System (Store Request Phase Answer : Type) where
  store : Store
  slots : Nat → Slot Request Phase Answer

inductive Event (Request Moment : Type) where
  | arrive (key : Nat) (request : Request)
  /-- The next phase of the request. -/
  | proceed (key : Nat) (moment : Moment)

def System.put (system : System Store Request Phase Answer) (store : Store) (key : Nat)
    (slot : Slot Request Phase Answer) : System Store Request Phase Answer where
  store := store
  slots := fun other => if other = key then slot else system.slots other

variable (system : System Store Request Phase Answer) (store : Store)

@[simp] theorem System.store_put (key : Nat) (slot : Slot Request Phase Answer) :
    (system.put store key slot).store = store :=
  rfl

@[simp] theorem System.slots_put_self (key : Nat) (slot : Slot Request Phase Answer) 
    :
    (system.put store key slot).slots key = slot :=
  if_pos rfl

theorem System.slots_put_of_ne {key other : Nat} (slot : Slot Request Phase Answer)
    (apart : other ≠ key) :
    (system.put store key slot).slots other = system.slots other :=
  if_neg apart

def System.idle (store : Store) : System Store Request Phase Answer where
  store := store
  slots := fun _ => .free

variable (protocol : Protocol Store Request Phase Answer Moment)

namespace Protocol

def step (system : System Store Request Phase Answer) :
    Event Request Moment → System Store Request Phase Answer
  | .arrive key request =>
    match system.slots key with
    | .free => system.put system.store key (.active request (protocol.begins request))
    | .active _ _ => system
    | .answered _ _ => system
  | .proceed key moment =>
    match system.slots key with
    | .free => system
    | .active request phase =>
      let outcome := protocol.advance system.store moment request phase
      system.put outcome.store key (outcome.slot request)
    | .answered _ _ => system

variable {protocol}

variable {system : System Store Request Phase Answer} {key : Nat}

theorem step_arrive_of_free (request : Request) (free : system.slots key = .free) :
    protocol.step system (.arrive key request) =
      system.put system.store key (.active request (protocol.begins request)) := by
  simp only [step, free]

theorem step_proceed_of_active {request : Request} {phase : Phase} (moment : Moment)
    (active : system.slots key = .active request phase) :
    protocol.step system (.proceed key moment) =
      system.put (protocol.advance system.store moment request phase).store key
        ((protocol.advance system.store moment request phase).slot request) := by
  simp only [step, active]

theorem step_cases (system : System Store Request Phase Answer) (event : Event Request Moment) :
    (protocol.step system event = system ∧ ∀ key moment, event = .proceed key moment →
        ∀ request phase, system.slots key ≠ .active request phase) ∨
      (∃ key request, event = .arrive key request ∧ system.slots key = .free ∧
        protocol.step system event =
          system.put system.store key (.active request (protocol.begins request))) ∨
      ∃ key moment request phase, event = .proceed key moment ∧
        system.slots key = .active request phase ∧
          protocol.step system event =
            system.put (protocol.advance system.store moment request phase).store key
              ((protocol.advance system.store moment request phase).slot request) := by
  cases event with
  | arrive key request =>
    cases here : system.slots key with
    | free => exact .inr (.inl ⟨key, request, rfl, here, step_arrive_of_free request here⟩)
    | active _ _ | answered _ _ =>
      refine .inl ⟨by simp only [step, here], fun other moment same => ?_⟩
      cases same
  | proceed key moment =>
    cases here : system.slots key with
    | active request phase =>
      exact .inr (.inr ⟨key, moment, request, phase, rfl, here,
        step_proceed_of_active moment here⟩)
    | free | answered _ _ =>
      refine .inl ⟨by simp only [step, here], fun other later same request phase active => ?_⟩
      cases same
      rw [here] at active
      cases active

section RelyGuarantee

variable {inv : Store → Prop} {knows : Nat → Store → Slot Request Phase Answer → Prop}

/-- The invariant of the store, and what each request knows of it. -/
def Agrees (inv : Store → Prop) (knows : Nat → Store → Slot Request Phase Answer → Prop)
    (system : System Store Request Phase Answer) : Prop :=
  inv system.store ∧ ∀ key, knows key system.store (system.slots key)

theorem step_of_rely_guarantee (rely : Store → Store → Prop)
    (guard : System Store Request Phase Answer → Event Request Moment → Prop)
    (stable : ∀ key before after slot, rely before after → knows key before slot →
      knows key after slot)
    (begun : ∀ system key request, Agrees inv knows system → system.slots key = .free →
      guard system (.arrive key request) →
        knows key system.store (.active request (protocol.begins request)))
    (moves : ∀ system key moment request phase, Agrees inv knows system →
      system.slots key = .active request phase → guard system (.proceed key moment) →
        let outcome := protocol.advance system.store moment request phase
        inv outcome.store ∧ rely system.store outcome.store ∧
          knows key outcome.store (outcome.slot request))
    (system : System Store Request Phase Answer) (event : Event Request Moment)
    (agrees : Agrees inv knows system) (guarded : guard system event) :
    Agrees inv knows (protocol.step system event) := by
  obtain ⟨same, _⟩ | ⟨key, request, rfl, free, moved⟩ | ⟨key, moment, request, phase, rfl, active, moved⟩ :=
    protocol.step_cases system event
  · rw [same]
    exact agrees
  · rw [moved]
    refine ⟨agrees.1, fun other => ?_⟩
    by_cases own : other = key
    · subst own
      rw [System.slots_put_self]
      exact begun system other request agrees free guarded
    · rw [System.slots_put_of_ne system _ _ own]
      exact agrees.2 other
  · rw [moved]
    obtain ⟨holds, related, known⟩ := moves system key moment request phase agrees active guarded
    refine ⟨holds, fun other => ?_⟩
    by_cases own : other = key
    · subst own
      rw [System.slots_put_self]
      exact known
    · rw [System.slots_put_of_ne system _ _ own]
      exact stable other _ _ _ related (agrees.2 other)

end RelyGuarantee

section Marks

variable {Mark : Type} {spent : Slot Request Phase Answer → Option Mark}
  {marked : Store → Mark → Prop}

/-- Every mark that a request has spent is set, and no two requests have spent one. -/
structure SpentOnce (spent : Slot Request Phase Answer → Option Mark)
    (marked : Store → Mark → Prop) (system : System Store Request Phase Answer) : Prop where
  set : ∀ key mark, spent (system.slots key) = some mark → marked system.store mark
  once : ∀ first second mark, spent (system.slots first) = some mark →
    spent (system.slots second) = some mark → first = second

theorem spentOnce_step (begun : ∀ request, spent (.active request (protocol.begins request)) = none)
    (system : System Store Request Phase Answer) (event : Event Request Moment)
    (before : SpentOnce spent marked system)
    (persists : ∀ mark, marked system.store mark → marked (protocol.step system event).store mark)
    (moves : ∀ key moment request phase mark, event = .proceed key moment →
      system.slots key = .active request phase →
        spent ((protocol.advance system.store moment request phase).slot request) = some mark →
          spent (.active request phase) = some mark ∨
            ¬ marked system.store mark ∧
              marked (protocol.advance system.store moment request phase).store mark) :
    SpentOnce spent marked (protocol.step system event) := by
  obtain ⟨same, _⟩ | ⟨key, request, rfl, free, moved⟩ | ⟨key, moment, request, phase, rfl, active, moved⟩ :=
    protocol.step_cases system event
  · rw [same]
    exact before
  · have old : ∀ other mark,
        spent ((system.put system.store key (.active request (protocol.begins request))).slots other) =
            some mark → other ≠ key ∧ spent (system.slots other) = some mark := by
      intro other mark here
      by_cases own : other = key
      · subst own
        rw [System.slots_put_self, begun request] at here
        cases here
      · rw [System.slots_put_of_ne system _ _ own] at here
        exact ⟨own, here⟩
    rw [moved]
    exact
      { set := fun other mark here => before.set other mark (old other mark here).2
        once := fun first second mark one other =>
          before.once first second mark (old first mark one).2 (old second mark other).2 }
  · rw [moved] at persists ⊢
    have cases : ∀ other mark,
        spent ((system.put (protocol.advance system.store moment request phase).store key
          ((protocol.advance system.store moment request phase).slot request)).slots other) =
            some mark →
          spent (system.slots other) = some mark ∨ other = key ∧ ¬ marked system.store mark ∧
            marked (protocol.advance system.store moment request phase).store mark := by
      intro other mark here
      by_cases own : other = key
      · subst own
        rw [System.slots_put_self] at here
        rcases moves other moment request phase mark rfl active here with kept | clear
        · rw [active]
          exact .inl kept
        · exact .inr ⟨rfl, clear⟩
      · rw [System.slots_put_of_ne system _ _ own] at here
        exact .inl here
    refine { set := fun other mark here => ?_, once := fun first second mark one other => ?_ }
    · rcases cases other mark here with kept | ⟨_, _, after⟩
      · exact persists mark (before.set other mark kept)
      · exact after
    · rcases cases first mark one with firstKept | ⟨firstOwn, clear, _⟩
      · rcases cases second mark other with secondKept | ⟨_, clear, _⟩
        · exact before.once first second mark firstKept secondKept
        · exact absurd (before.set first mark firstKept) clear
      · rcases cases second mark other with secondKept | ⟨secondOwn, _, _⟩
        · exact absurd (before.set second mark secondKept) clear
        · exact firstOwn.trans secondOwn.symm

end Marks

theorem step_related (relation : Store → Store → Prop) (refl : ∀ store, relation store store)
    (moves : ∀ store moment request phase,
      relation store (protocol.advance store moment request phase).store)
    (system : System Store Request Phase Answer) (event : Event Request Moment) :
    relation system.store (protocol.step system event).store := by
  obtain ⟨same, _⟩ | ⟨key, request, rfl, free, moved⟩ | ⟨key, moment, request, phase, rfl, active, moved⟩ :=
    protocol.step_cases system event
  · rw [same]
    exact refl system.store
  · rw [moved]
    exact refl system.store
  · rw [moved]
    exact moves system.store moment request phase

theorem slots_of_answered {request : Request} {answer : Answer}
    (answered : system.slots key = .answered request answer) (event : Event Request Moment) :
    (protocol.step system event).slots key = .answered request answer := by
  obtain ⟨same, _⟩ | ⟨other, arriving, rfl, free, moved⟩ | ⟨other, moment, moving, phase, rfl, active, moved⟩ :=
    protocol.step_cases system event
  · rw [same]
    exact answered
  · have apart : key ≠ other := by
      rintro rfl
      rw [answered] at free
      cases free
    rw [moved, System.slots_put_of_ne system _ _ apart]
    exact answered
  · have apart : key ≠ other := by
      rintro rfl
      rw [answered] at active
      cases active
    rw [moved, System.slots_put_of_ne system _ _ apart]
    exact answered

end Protocol

end Foundation.Interleaving
