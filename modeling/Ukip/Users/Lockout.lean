import Ukip.Core.Clock
import Ukip.Foundation.Interleaving
import Ukip.Foundation.UnitOfWork

/-!
# The lockout of an account

`authenticate_user` of `auth.py`, for concurrent attempts on one account.  An attempt
reads the row, looks at the lock, verifies the password against what it has read, and
writes the counter back in a commit; clearing an expired lock is a commit of its own,
after which the row is read again.  Timestamps are stored as ISO strings with their
microseconds, so a stored lock is a time.
-/

namespace Ukip.Users.Lockout

open Foundation.EventRun Foundation.Interleaving Foundation.UnitOfWork Core.Clock

def maxFailedAttempts : Nat := 5

def lockoutMinutes : Int := 15

structure Account where
  username : String
  passwordHash : String
  isActive : Option Bool
  failedAttempts : Option Nat
  lockedUntil : Option Time
  deriving DecidableEq

/-- The columns as `models.User` fills them. -/
def newAccount (username passwordHash : String) : Account where
  username := username
  passwordHash := passwordHash
  isActive := some true
  failedAttempts := some 0
  lockedUntil := none

structure Attempt where
  username : String
  password : String
  deriving DecidableEq

inductive Phase where
  | arrived
  /-- The lock in the row has expired and is to be cleared. -/
  | lockExpired (row : Account)
  /-- Committed; the attributes are read again at their next use. -/
  | cleared
  | verifying (row : Account)
  deriving DecidableEq

inductive Answer where
  | unknownUser
  /-- 423 -/
  | locked (until_ : Time)
  | wrongPassword
  | authenticated
  deriving DecidableEq

/-- `user.failed_attempts or 0` -/
def Account.failures (account : Account) : Nat := account.failedAttempts.getD 0

def Account.flush (stored read : Account) (failedAttempts : Option Nat)
    (lockedUntil : Option Time) : Account :=
  { stored with
    failedAttempts := flushColumn read.failedAttempts failedAttempts stored.failedAttempts
    lockedUntil := flushColumn read.lockedUntil lockedUntil stored.lockedUntil }

def recordFailure (stored read : Account) (now : Time) : Account :=
  if maxFailedAttempts ≤ read.failures + 1 then
    stored.flush read (some (read.failures + 1)) (some (now + minutes lockoutMinutes))
  else stored.flush read (some (read.failures + 1)) read.lockedUntil

variable (verifyPassword : String → String → Bool)

def advance (stored : Account) (now : Time) (attempt : Attempt) :
    Phase → Outcome Account Phase Answer
  | .arrived =>
    if stored.username = attempt.username ∧ stored.isActive = some true then
      match stored.lockedUntil with
      | none => .goesOn stored (.verifying stored)
      | some lockExpiry =>
        if now < lockExpiry then .answers stored (.locked lockExpiry)
        else .goesOn stored (.lockExpired stored)
    else .answers stored .unknownUser
  | .lockExpired row => .goesOn (stored.flush row (some 0) none) .cleared
  | .cleared => .goesOn stored (.verifying stored)
  | .verifying row =>
    if verifyPassword attempt.password row.passwordHash = true then
      .answers (stored.flush row (some 0) none) .authenticated
    else .answers (recordFailure stored row now) .wrongPassword

def protocol : Protocol Account Attempt Phase Answer Time where
  begins := fun _ => .arrived
  advance := advance verifyPassword

abbrev State := System Account Attempt Phase Answer

inductive Verdict where
  | wrong
  | authenticated
  /-- An attempt clears the lock that it has found expired. -/
  | lockCleared
  deriving DecidableEq

def verdict (state : State) : Event Attempt Time → Option Verdict
  | .arrive _ _ => none
  | .proceed key _ =>
    match state.slots key with
    | .active attempt (.verifying row) =>
      if verifyPassword attempt.password row.passwordHash = true then some .authenticated
      else some .wrong
    | .active _ (.lockExpired row) =>
      if state.store.lockedUntil = row.lockedUntil then some .lockCleared else none
    | _ => none

def tally (wrong : Nat) : Option Verdict → Nat
  | some .wrong => wrong + 1
  | some .authenticated => 0
  | some .lockCleared => 0
  | none => wrong

/-- The system, and how many wrong passwords were verified since the last login or the
last cleared lock. -/
structure Observed where
  system : State
  wrong : Nat

def Observed.start (account : Account) : Observed where
  system := System.idle account
  wrong := 0

def step (observed : Observed) (event : Event Attempt Time) : Observed where
  system := (protocol verifyPassword).step observed.system event
  wrong := tally observed.wrong (verdict verifyPassword observed.system event)

def Bounded (observed : Observed) : Prop := observed.wrong ≤ maxFailedAttempts

instance (observed : Observed) : Decidable (Bounded observed) :=
  inferInstanceAs (Decidable (observed.wrong ≤ maxFailedAttempts))

def respectsLock (observed : Observed) : Event Attempt Time → Bool
  | .arrive _ _ => true
  | .proceed key now =>
    verdict verifyPassword observed.system (.proceed key now) != some .authenticated ||
      observed.system.store.lockedUntil.all fun lockExpiry => decide (lockExpiry ≤ now)

/-- An attempt that is about to commit finds the counters as it has read them, and one that
verifies a password finds the account unlocked. -/
def asRead (observed : Observed) : Event Attempt Time → Bool
  | .arrive _ _ => true
  | .proceed key _ =>
    match observed.system.slots key with
    | .active _ (.lockExpired row) =>
      observed.system.store.failedAttempts == row.failedAttempts &&
        observed.system.store.lockedUntil == row.lockedUntil
    | .active _ (.verifying row) =>
      observed.system.store.failedAttempts == row.failedAttempts &&
        observed.system.store.lockedUntil.isNone && row.lockedUntil.isNone
    | _ => true

/-- The stored counter covers the wrong passwords, and an unlocked account has some left. -/
structure Within (account : Account) (wrong : Nat) : Prop where
  covered : wrong ≤ account.failures
  bounded : account.failures ≤ maxFailedAttempts
  unlocked : account.lockedUntil = none → account.failures < maxFailedAttempts

@[simp] theorem lockedUntil_flush (stored read : Account) (failedAttempts : Option Nat)
    (lockedUntil : Option Time) :
    (stored.flush read failedAttempts lockedUntil).lockedUntil =
      flushColumn read.lockedUntil lockedUntil stored.lockedUntil := rfl

@[simp] theorem failures_flush (stored read : Account) (failedAttempts : Option Nat)
    (lockedUntil : Option Time) :
    (stored.flush read failedAttempts lockedUntil).failures =
      (flushColumn read.failedAttempts failedAttempts stored.failedAttempts).getD 0 := rfl

theorem within_reset {stored read : Account}
    (failures : stored.failedAttempts = read.failedAttempts) :
    Within (stored.flush read (some 0) none) 0 := by
  have none : (stored.flush read (some 0) none).failures = 0 := by
    rw [failures_flush, failures, flushColumn_fresh]
    rfl
  exact
    { covered := Nat.zero_le _
      bounded := by rw [none]; exact Nat.zero_le _
      unlocked := fun _ => by rw [none]; decide }

theorem within_recordFailure {stored read : Account} {wrong : Nat} (now : Time)
    (before : Within stored wrong) (failures : stored.failedAttempts = read.failedAttempts)
    (unlocked : stored.lockedUntil = none) (readUnlocked : read.lockedUntil = none) :
    Within (recordFailure stored read now) (wrong + 1) := by
  have same : read.failures = stored.failures := congrArg (Option.getD · 0) failures.symm
  have covered := before.covered
  have room := before.unlocked unlocked
  unfold recordFailure
  rw [same]
  split
  · rename_i full
    have count : (stored.flush read (some (stored.failures + 1))
        (some (now + minutes lockoutMinutes))).failures = stored.failures + 1 := by
      rw [failures_flush, failures, flushColumn_fresh]
      rfl
    refine { covered := by omega, bounded := by omega, unlocked := fun lock => ?_ }
    rw [lockedUntil_flush, readUnlocked, unlocked, flushColumn_fresh] at lock
    cases lock
  · rename_i open'
    have count : (stored.flush read (some (stored.failures + 1)) read.lockedUntil).failures =
        stored.failures + 1 := by
      rw [failures_flush, failures, flushColumn_fresh]
      rfl
    exact { covered := by omega, bounded := by omega, unlocked := fun _ => by omega }

def Observed.Sound (observed : Observed) : Prop := Within observed.system.store observed.wrong

theorem Observed.Sound.bounded {observed : Observed} (sound : observed.Sound) : Bounded observed :=
  Nat.le_trans sound.covered (Within.bounded sound)

theorem sound_start (username passwordHash : String) :
    (Observed.start (newAccount username passwordHash)).Sound where
  covered := Nat.zero_le _
  bounded := Nat.zero_le _
  unlocked := fun _ => Nat.zero_lt_succ _

theorem sound_step (observed : Observed) (event : Event Attempt Time)
    (before : observed.Sound) (undisturbed : asRead observed event = true) :
    (step verifyPassword observed event).Sound := by
  unfold Observed.Sound at before ⊢
  cases event with
  | arrive key attempt =>
    have same : (step verifyPassword observed (.arrive key attempt)).system.store =
        observed.system.store := by
      simp only [step, Protocol.step]
      split <;> rfl
    rw [same]
    exact before
  | proceed key now =>
    cases here : observed.system.slots key with
    | free | answered _ _ =>
      simpa only [step, Protocol.step, here, verdict, tally] using before
    | active attempt phase =>
      simp only [asRead, here] at undisturbed
      simp only [step, Protocol.step, here, verdict, System.store_put]
      cases phase with
      | arrived =>
        have same : (advance verifyPassword observed.system.store now attempt .arrived).store =
            observed.system.store := by
          simp only [advance]
          split
          · split
            · rfl
            · split <;> rfl
          · rfl
        simp only [protocol, same, tally]
        exact before
      | lockExpired row =>
        simp only [Bool.and_eq_true, beq_iff_eq] at undisturbed
        simp only [protocol, advance, Outcome.store_goesOn, undisturbed.2, if_true, tally]
        exact within_reset undisturbed.1
      | cleared => exact before
      | verifying row =>
        simp only [Bool.and_eq_true, beq_iff_eq, Option.isNone_iff_eq_none] at undisturbed
        obtain ⟨⟨failures, unlocked⟩, readUnlocked⟩ := undisturbed
        simp only [protocol, advance]
        split
        · exact within_reset failures
        · exact within_recordFailure now before failures unlocked readUnlocked

theorem respectsLock_of_asRead (observed : Observed) (event : Event Attempt Time)
    (undisturbed : asRead observed event = true) :
    respectsLock verifyPassword observed event = true := by
  cases event with
  | arrive key attempt => rfl
  | proceed key now =>
    simp only [respectsLock]
    cases seen : verdict verifyPassword observed.system (.proceed key now) with
    | none => rfl
    | some shown =>
      cases shown with
      | wrong | lockCleared => rfl
      | authenticated =>
        simp only [verdict] at seen
        split at seen
        · rename_i attempt row here
          simp only [asRead, here, Bool.and_eq_true, Option.isNone_iff_eq_none] at undisturbed
          rw [undisturbed.1.2]
          rfl
        · split at seen <;> cases seen
        · cases seen

/-- While every commit finds the counters as they were read, at most five wrong passwords
are verified between two logins or expired locks, and a locked account lets nobody in. -/
theorem lockout_of_asRead (username passwordHash : String) (events : List (Event Attempt Time))
    (undisturbed : EveryStep (step verifyPassword) (fun observed event => asRead observed event = true)
      (Observed.start (newAccount username passwordHash)) events) :
    EveryState (step verifyPassword) Bounded (Observed.start (newAccount username passwordHash))
        events ∧
      EveryStep (step verifyPassword)
        (fun observed event => respectsLock verifyPassword observed event = true)
        (Observed.start (newAccount username passwordHash)) events := by
  constructor
  · exact everyState_mono (fun _ sound => sound.bounded) _ events
      (everyState_of_guard (sound_step verifyPassword) _ events
        (sound_start username passwordHash) undisturbed)
  · exact everyStep_mono (respectsLock_of_asRead verifyPassword) _ events undisturbed

def equalPasswords (password hash : String) : Bool := password == hash

def wrongAttempt (key : Nat) : List (Event Attempt Time) :=
  [.arrive key ⟨"ana", "guess"⟩, .proceed key 0, .proceed key 0]

def lockedOut : List (Event Attempt Time) :=
  [0, 1, 2, 3, 4].flatMap wrongAttempt ++
    [.arrive 5 ⟨"ana", "secret"⟩, .proceed 5 (minutes 1)]

theorem lockout_of_asRead_lockedOut :
    EveryState (step equalPasswords) Bounded (Observed.start (newAccount "ana" "secret")) lockedOut ∧
      EveryStep (step equalPasswords)
        (fun observed event => respectsLock equalPasswords observed event = true)
        (Observed.start (newAccount "ana" "secret")) lockedOut :=
  lockout_of_asRead equalPasswords "ana" "secret" lockedOut (by decide)

example : (runEvents (step equalPasswords) (Observed.start (newAccount "ana" "secret"))
    lockedOut).system.slots 5 = .answered ⟨"ana", "secret"⟩ (.locked (minutes 15)) := by
  decide

def sixGuesses : List (Event Attempt Time) :=
  [0, 1, 2, 3, 4, 5].map (fun key => .arrive key ⟨"ana", "guess"⟩) ++
    [0, 1, 2, 3, 4, 5].map (fun key => .proceed key 0) ++
    [0, 1, 2, 3, 4, 5].map (fun key => .proceed key 0)

def readBeforeLock : List (Event Attempt Time) :=
  [.arrive 5 ⟨"ana", "secret"⟩, .proceed 5 0] ++ [0, 1, 2, 3, 4].flatMap wrongAttempt ++
    [.proceed 5 (minutes 1)]

theorem overlapping_attempts_escape_lockout :
    (¬ EveryState (step equalPasswords) Bounded (Observed.start (newAccount "ana" "secret"))
        sixGuesses) ∧
      ¬ EveryStep (step equalPasswords)
        (fun observed event => respectsLock equalPasswords observed event = true)
        (Observed.start (newAccount "ana" "secret")) readBeforeLock := by
  decide

end Ukip.Users.Lockout
