import Ukip.Core.Clock
import Ukip.Foundation.Interleaving
import Ukip.Foundation.SerialTable
import Ukip.Foundation.UnitOfWork
import Ukip.Tenancy.Access

/-!
# Two single-use protocols

`confirm_password_reset` reads that a token is unused and marks it in a later commit.
`sso_exchange` marks its code in one conditional UPDATE and looks at the number of rows
that it hit.  Both are in `routers/auth_users.py`, and both tables have the same columns.
-/

namespace Ukip.Users.PasswordReset

open Foundation.EventRun Foundation.Interleaving Foundation.Relational Foundation.UnitOfWork
open Core.Clock
open Tenancy.Access (HttpError)

/-- A row of `password_reset_tokens` or `sso_login_codes`. -/
structure SecretRow where
  id : Nat
  userId : Nat
  hash : String
  expiresAt : Time
  usedAt : Option Time

def secretSchema : Schema SecretRow where
  key := SecretRow.id
  withKey := fun value row => { row with id := value }
  key_withKey := fun _ _ => rfl
  clash := fun first second => first.hash == second.hash
  clash_comm := fun _ _ => Bool.beq_comm
  clash_withKey := fun _ _ _ => rfl

structure UserRow where
  id : Nat
  isActive : Option Bool
  passwordHash : String
  failedAttempts : Option Int
  lockedUntil : Option String
  deriving DecidableEq

structure Store where
  users : List UserRow
  resetTokens : SerialTable secretSchema
  ssoCodes : SerialTable secretSchema

/-- The digests: SHA-256 of a token, and bcrypt of a password under a salt. -/
structure Digests where
  tokenHash : String → String
  hashPassword : String → String → String

inductive Request where
  /-- `request_password_reset` where it finds the account and SMTP is configured. -/
  | requestReset (userId : Nat) (token : String)
  | confirm (token newPassword : String)
  /-- The end of `sso_callback`. -/
  | ssoCallback (userId : Nat) (code : String)
  | exchange (code : String)
  /-- Whatever the rest of the program commits to the users table. -/
  | elsewhere (users : List UserRow)

inductive Phase where
  | arrived
  /-- The token row that was read, and `now`. -/
  | checked (row : SecretRow) (now : Time)
  | loaded (row : SecretRow) (now : Time) (user : UserRow)
  | claimed

inductive Answer where
  | refused (error : HttpError)
  /-- The password was changed by a commit at this moment. -/
  | reset (moment : Time)
  /-- The code was spent, and its user may start a session. -/
  | exchanged (userId : Nat)
  | stored
  | raised

/-- What a phase is given: the clock, and the salt that bcrypt draws. -/
structure Moment where
  now : Time
  salt : String

def invalidResetToken : HttpError where
  statusCode := 400
  detail := "Invalid or expired reset token"

def invalidSsoCode : HttpError where
  statusCode := 400
  detail := "Invalid or expired SSO code"

variable (digests : Digests)

def newSecret (userId : Nat) (hash : String) (expiresAt : Time) : SecretRow where
  id := 0
  userId := userId
  hash := hash
  expiresAt := expiresAt
  usedAt := none

/-- `UPDATE ... SET used_at` -/
def useSet (now : Time) : SetClause secretSchema where
  apply := fun row => { row with usedAt := some now }
  key_apply := fun _ => rfl
  clash_apply := fun _ _ => rfl

def writtenUser (loaded : UserRow) (passwordHash : String) (stored : UserRow) : UserRow :=
  if stored.id = loaded.id then
    { stored with
      passwordHash := flushColumn loaded.passwordHash passwordHash stored.passwordHash
      failedAttempts := flushColumn loaded.failedAttempts (some 0) stored.failedAttempts
      lockedUntil := flushColumn loaded.lockedUntil none stored.lockedUntil }
  else stored

/-- The commit of `confirm_password_reset`.  The token was read unused, so the UPDATE
assigns `used_at`; it is addressed by primary key. -/
def commitReset (store : Store) (moment : Moment) (newPassword : String) (row : SecretRow)
    (now : Time) (user : UserRow) : Store :=
  { store with
    users := store.users.map (writtenUser user (digests.hashPassword moment.salt newPassword))
    resetTokens := store.resetTokens.updateWhere (fun stored => stored.id == row.id) (useSet now) }

/-- What the conditional UPDATE of `sso_exchange` hits. -/
def claimable (now : Time) (hash : String) (row : SecretRow) : Bool :=
  row.hash == hash && row.usedAt.isNone && decide (now < row.expiresAt)

def claim (store : Store) (now : Time) (hash : String) : Store :=
  { store with ssoCodes := store.ssoCodes.updateWhere (claimable now hash) (useSet now) }

/-- `db.get`, and the test of `is_active`. -/
def activeUser (store : Store) (userId : Nat) : Option UserRow :=
  (store.users.find? fun user => user.id == userId).bind fun user =>
    if user.isActive = some true then some user else none

def advance (store : Store) (moment : Moment) : Request → Phase → Outcome Store Phase Answer
  | .requestReset userId token, .arrived =>
    match store.resetTokens.insert
        (newSecret userId (digests.tokenHash token) (moment.now + minutes 30)) with
    | none => .answers store .raised
    | some resetTokens => .answers { store with resetTokens := resetTokens } .stored
  | .confirm token _, .arrived =>
    match store.resetTokens.rows.find? fun row => row.hash == digests.tokenHash token with
    | none => .answers store (.refused invalidResetToken)
    | some row =>
      if row.usedAt ≠ none ∨ row.expiresAt < moment.now then
        .answers store (.refused invalidResetToken)
      else .goesOn store (.checked row moment.now)
  | .confirm _ _, .checked row now =>
    match activeUser store row.userId with
    | none => .answers store (.refused invalidResetToken)
    | some user => .goesOn store (.loaded row now user)
  | .confirm _ newPassword, .loaded row now user =>
    .answers (commitReset digests store moment newPassword row now user) (.reset moment.now)
  | .ssoCallback userId code, .arrived =>
    match store.ssoCodes.insert
        (newSecret userId (digests.tokenHash code) (moment.now + seconds 60)) with
    | none => .answers store .raised
    | some ssoCodes => .answers { store with ssoCodes := ssoCodes } .stored
  | .exchange code, .arrived =>
    if (store.ssoCodes.rows.filter (claimable moment.now (digests.tokenHash code))).length = 1
    then .goesOn (claim store moment.now (digests.tokenHash code)) .claimed
    else .answers (claim store moment.now (digests.tokenHash code)) (.refused invalidSsoCode)
  | .exchange code, .claimed =>
    match store.ssoCodes.rows.find? fun row => row.hash == digests.tokenHash code with
    | none => .answers store .raised
    | some row =>
      match activeUser store row.userId with
      | none => .answers store (.refused invalidSsoCode)
      | some user => .answers store (.exchanged user.id)
  | .elsewhere users, .arrived => .answers { store with users := users } .stored
  -- A phase of another kind of request, which no request reaches.
  | _, _ => .answers store .raised

def protocol : Protocol Store Request Phase Answer Moment where
  begins := fun _ => .arrived
  advance := advance digests

abbrev State := System Store Request Phase Answer

abbrev step : State → Event Request Moment → State := (protocol digests).step

/-- A row of the table with this digest is used. -/
def Used (table : SerialTable secretSchema) (hash : String) : Prop :=
  ∃ row ∈ table.rows, row.hash = hash ∧ row.usedAt ≠ none

/-- Rows stay, with their digest and their expiry, and a used one stays used. -/
def RowsKept (before after : SerialTable secretSchema) : Prop :=
  ∀ old ∈ before.rows, ∃ row ∈ after.rows, row.id = old.id ∧ row.hash = old.hash ∧
    row.expiresAt = old.expiresAt ∧ (old.usedAt ≠ none → row.usedAt ≠ none)

variable (table : SerialTable secretSchema)

theorem rowsKept_refl : RowsKept table table :=
  fun old member => ⟨old, member, rfl, rfl, rfl, fun used => used⟩

theorem rowsKept_use (matched : SecretRow → Bool) (now : Time) :
    RowsKept table (table.updateWhere matched (useSet now)) := by
  intro old member
  refine ⟨_, (table.mem_updateWhere matched (useSet now) _).mpr ⟨old, member, rfl⟩, ?_⟩
  unfold SetClause.onRow
  split
  · exact ⟨rfl, rfl, rfl, fun _ => Option.some_ne_none now⟩
  · exact ⟨rfl, rfl, rfl, fun used => used⟩

variable {before after : SerialTable secretSchema} {added : SecretRow}

theorem rowsKept_insert (inserted : before.insert added = some after) : RowsKept before after := by
  obtain ⟨accepted, rfl⟩ := (before.insert_eq_some_iff after added).mp inserted
  intro old member
  exact ⟨old, (before.mem_append added old accepted).mpr (.inl member), rfl, rfl, rfl,
    fun used => used⟩

variable {hash : String}

theorem used_of_rowsKept (kept : RowsKept before after) (used : Used before hash) :
    Used after hash := by
  obtain ⟨old, member, same, spent⟩ := used
  obtain ⟨row, rowMember, _, rowHash, _, rowUsed⟩ := kept old member
  exact ⟨row, rowMember, rowHash.trans same, rowUsed spent⟩

theorem used_of_insert (inserted : before.insert added = some after)
    (fresh : added.usedAt = none) (used : Used after hash) : Used before hash := by
  obtain ⟨accepted, rfl⟩ := (before.insert_eq_some_iff after added).mp inserted
  obtain ⟨stored, member, same, spent⟩ := used
  rcases (before.mem_append added stored accepted).mp member with old | rfl
  · exact ⟨stored, old, same, spent⟩
  · exact absurd fresh spent

theorem eq_of_hash {first second : SecretRow} (firstMember : first ∈ table.rows)
    (secondMember : second ∈ table.rows) (same : first.hash = second.hash) : first = second :=
  table.eq_of_clash firstMember secondMember (by simpa [secretSchema] using same)

theorem resetTokens_advance_cases (store : Store) (moment : Moment) (request : Request)
    (phase : Phase) :
    (advance digests store moment request phase).store.resetTokens = store.resetTokens ∨
      (∃ row, row.usedAt = none ∧ store.resetTokens.insert row =
        some (advance digests store moment request phase).store.resetTokens) ∨
      ∃ token newPassword row now user, request = .confirm token newPassword ∧
        phase = .loaded row now user := by
  cases request with
  | requestReset userId token =>
    cases phase with
    | arrived =>
      simp only [advance]
      split
      · exact .inl rfl
      · rename_i resetTokens inserted
        exact .inr (.inl ⟨_, rfl, inserted⟩)
    | checked _ _ | loaded _ _ _ | claimed => exact .inl rfl
  | confirm token newPassword =>
    cases phase with
    | arrived =>
      simp only [advance]
      split
      · exact .inl rfl
      · split <;> exact .inl rfl
    | checked row now =>
      simp only [advance]
      split <;> exact .inl rfl
    | loaded row now user => exact .inr (.inr ⟨token, newPassword, row, now, user, rfl, rfl⟩)
    | claimed => exact .inl rfl
  | ssoCallback userId code =>
    cases phase with
    | arrived =>
      simp only [advance]
      split <;> exact .inl rfl
    | checked _ _ | loaded _ _ _ | claimed => exact .inl rfl
  | exchange code =>
    cases phase with
    | arrived =>
      simp only [advance]
      split <;> exact .inl rfl
    | claimed =>
      simp only [advance]
      split
      · exact .inl rfl
      · split <;> exact .inl rfl
    | checked _ _ | loaded _ _ _ => exact .inl rfl
  | elsewhere users =>
    cases phase with
    | arrived | checked _ _ | loaded _ _ _ | claimed => exact .inl rfl

theorem rowsKept_advance (store : Store) (moment : Moment) (request : Request) (phase : Phase) :
    RowsKept store.resetTokens (advance digests store moment request phase).store.resetTokens := by
  obtain same | ⟨row, _, inserted⟩ | ⟨token, newPassword, row, now, user, rfl, rfl⟩ :=
    resetTokens_advance_cases digests store moment request phase
  · rw [same]
    exact rowsKept_refl _
  · exact rowsKept_insert inserted
  · exact rowsKept_use store.resetTokens _ now

/-- The digest of the token with which the request of the slot has changed a password. -/
def spentToken : Slot Request Phase Answer → Option String
  | .answered (.confirm token _) (.reset _) => some (digests.tokenHash token)
  | _ => none

theorem spentToken_eq_some_iff (slot : Slot Request Phase Answer) (hash : String) :
    spentToken digests slot = some hash ↔
      ∃ token newPassword moment, slot = .answered (.confirm token newPassword) (.reset moment) ∧
        digests.tokenHash token = hash := by
  constructor
  · intro spent
    unfold spentToken at spent
    split at spent
    · exact ⟨_, _, _, rfl, Option.some.inj spent⟩
    · cases spent
  · rintro ⟨token, newPassword, moment, rfl, rfl⟩
    rfl

def Phase.row : Phase → Option SecretRow
  | .arrived => none
  | .checked row _ => some row
  | .loaded row _ _ => some row
  | .claimed => none

/-- The row that a confirmation has read is in the table, under the digest of its token. -/
def Held (table : SerialTable secretSchema) (slot : Slot Request Phase Answer) : Prop :=
  ∀ token newPassword phase row, slot = .active (.confirm token newPassword) phase →
    phase.row = some row → row.hash = digests.tokenHash token ∧
      ∃ stored ∈ table.rows, stored.id = row.id ∧ stored.hash = row.hash

theorem held_of_rowsKept {slot : Slot Request Phase Answer} (kept : RowsKept before after)
    (held : Held digests before slot) : Held digests after slot := by
  intro token newPassword phase row here read
  obtain ⟨hash, old, member, sameId, sameHash⟩ := held token newPassword phase row here read
  obtain ⟨stored, storedMember, storedId, storedHash, _⟩ := kept old member
  exact ⟨hash, stored, storedMember, storedId.trans sameId, storedHash.trans sameHash⟩

theorem held_advance (store : Store) (moment : Moment) (request : Request) (phase : Phase)
    (held : Held digests store.resetTokens (.active request phase)) :
    Held digests store.resetTokens
      ((advance digests store moment request phase).slot request) := by
  intro token newPassword next row here read
  obtain rfl := Outcome.request_of_active here
  cases phase with
  | arrived =>
    simp only [advance] at here
    split at here
    · cases here
    rename_i found looked
    split at here
    · cases here
    cases here
    cases read
    have hash := List.find?_some looked
    exact ⟨beq_iff_eq.mp hash, row, List.mem_of_find?_eq_some looked, rfl, rfl⟩
  | checked stored now =>
    simp only [advance] at here
    split at here
    · cases here
    cases here
    exact held token newPassword _ row rfl read
  | loaded stored now user => cases here
  | claimed => cases here

theorem spent_advance {store : Store} {moment : Moment} {request : Request} {phase : Phase}
    (spent : spentToken digests ((advance digests store moment request phase).slot request) =
      some hash) :
    ∃ token newPassword row now user, request = .confirm token newPassword ∧
      phase = .loaded row now user ∧ digests.tokenHash token = hash := by
  obtain ⟨token, newPassword, at', here, same⟩ := (spentToken_eq_some_iff digests _ hash).mp spent
  obtain rfl := Outcome.request_of_answered here
  cases phase with
  | arrived =>
    simp only [advance] at here
    split at here
    · cases here
    split at here <;> cases here
  | checked row now =>
    simp only [advance] at here
    split at here <;> cases here
  | loaded row now user => exact ⟨token, newPassword, row, now, user, rfl, rfl, same⟩
  | claimed => cases here

/-- What every run keeps, from a start with the tokens `origin`. -/
structure Ledger (origin : SerialTable secretSchema) (state : State) : Prop where
  held : ∀ key, Held digests state.store.resetTokens (state.slots key)
  set : ∀ key hash, spentToken digests (state.slots key) = some hash →
    Used state.store.resetTokens hash
  source : ∀ hash, Used state.store.resetTokens hash →
    Used origin hash ∨ ∃ key, spentToken digests (state.slots key) = some hash
  kept : RowsKept origin state.store.resetTokens

/-- One change of the password at most for a token, none after it expired and none where
it was used from the start. -/
structure SingleUse (origin : SerialTable secretSchema) (state : State) : Prop where
  once : ∀ first second hash, spentToken digests (state.slots first) = some hash →
    spentToken digests (state.slots second) = some hash → first = second
  inTime : ∀ key token newPassword moment,
    state.slots key = .answered (.confirm token newPassword) (.reset moment) →
      ∀ row ∈ state.store.resetTokens.rows, row.hash = digests.tokenHash token →
        moment ≤ row.expiresAt
  unspent : ∀ key hash, spentToken digests (state.slots key) = some hash → ¬ Used origin hash

/-- A confirmation that commits finds its token still unused, and not expired. -/
def FindsUnspent (state : State) : Event Request Moment → Prop
  | .arrive _ _ => True
  | .proceed key moment =>
    ∀ token newPassword row now user,
      state.slots key = .active (.confirm token newPassword) (.loaded row now user) →
        ∀ stored ∈ state.store.resetTokens.rows, stored.id = row.id →
          stored.usedAt = none ∧ moment.now ≤ stored.expiresAt

theorem rowsKept_trans {first second third : SerialTable secretSchema}
    (one : RowsKept first second) (other : RowsKept second third) : RowsKept first third := by
  intro old member
  obtain ⟨middle, middleMember, middleId, middleHash, middleExpires, middleUsed⟩ := one old member
  obtain ⟨row, rowMember, rowId, rowHash, rowExpires, rowUsed⟩ := other middle middleMember
  exact ⟨row, rowMember, rowId.trans middleId, rowHash.trans middleHash,
    rowExpires.trans middleExpires, fun used => rowUsed (middleUsed used)⟩

theorem held_idle : Held digests table .free := by
  intro token newPassword phase row here
  cases here

variable (state : State) (event : Event Request Moment)

theorem rowsKept_step :
    RowsKept state.store.resetTokens (step digests state event).store.resetTokens :=
  Protocol.step_related (fun before after => RowsKept before.resetTokens after.resetTokens)
    (fun store => rowsKept_refl store.resetTokens) (rowsKept_advance digests) state event

theorem held_step (before : ∀ key, Held digests state.store.resetTokens (state.slots key))
    (key : Nat) :
    Held digests (step digests state event).store.resetTokens ((step digests state event).slots key) := by
  have agrees : Protocol.Agrees (fun _ => True)
      (fun _ store slot => Held digests store.resetTokens slot) (step digests state event) := by
    refine Protocol.step_of_rely_guarantee
      (fun earlier later => RowsKept earlier.resetTokens later.resetTokens) (fun _ _ => True)
      ?_ ?_ ?_ state event ⟨trivial, before⟩ trivial
    · intro _ _ _ _ kept held
      exact held_of_rowsKept digests kept held
    · intro _ _ request _ _ _ token newPassword phase row here read
      cases here
      cases read
    · intro other moving moment request phase agrees active _
      have kept := rowsKept_advance digests other.store moment request phase
      have held : Held digests other.store.resetTokens (.active request phase) :=
        active ▸ agrees.2 moving
      exact ⟨trivial, kept, held_of_rowsKept digests kept
        (held_advance digests other.store moment request phase held)⟩
  exact agrees.2 key

variable {row : SecretRow} {token newPassword : String}

theorem used_of_commit {store : Store} (moment : Moment) (now : Time) (user : UserRow)
    (held : Held digests store.resetTokens
      (.active (.confirm token newPassword) (.loaded row now user))) :
    Used (commitReset digests store moment newPassword row now user).resetTokens
      (digests.tokenHash token) := by
  obtain ⟨hash, stored, member, sameId, sameHash⟩ := held token newPassword _ row rfl rfl
  have matched : (stored.id == row.id) = true := beq_iff_eq.mpr sameId
  refine ⟨(useSet now).onRow (fun other => other.id == row.id) stored,
    (store.resetTokens.mem_updateWhere _ _ _).mpr ⟨stored, member, rfl⟩, ?_, ?_⟩
  · rw [SetClause.onRow, if_pos matched]
    exact sameHash.trans hash
  · rw [SetClause.onRow, if_pos matched]
    exact Option.some_ne_none now

theorem used_before_commit {store : Store} (moment : Moment) (now : Time) (user : UserRow)
    (held : Held digests store.resetTokens
      (.active (.confirm token newPassword) (.loaded row now user)))
    (used : Used (commitReset digests store moment newPassword row now user).resetTokens hash) :
    Used store.resetTokens hash ∨ digests.tokenHash token = hash := by
  obtain ⟨_, member, same, spent⟩ := used
  obtain ⟨old, oldMember, rfl⟩ := (store.resetTokens.mem_updateWhere _ _ _).mp member
  obtain ⟨rowHash, stored, storedMember, sameId, sameHash⟩ := held token newPassword _ row rfl rfl
  by_cases hit : old.id = row.id
  · right
    have one : old = stored :=
      store.resetTokens.eq_of_key_eq oldMember storedMember (hit.trans sameId.symm)
    rw [SetClause.onRow, if_pos (beq_iff_eq.mpr hit)] at same
    rw [← same, ← rowHash, ← sameHash, ← one]
    rfl
  · left
    rw [SetClause.onRow, if_neg (by simpa using hit)] at same spent
    exact ⟨old, oldMember, same, spent⟩

/-- The event commits a confirmation, of the token with this digest. -/
def Commits (state : State) (event : Event Request Moment) (key : Nat) (moment : Moment)
    (hash : String) : Prop :=
  event = .proceed key moment ∧ ∃ token newPassword row now user,
    state.slots key = .active (.confirm token newPassword) (.loaded row now user) ∧
      digests.tokenHash token = hash

theorem spent_step_iff (key : Nat) (hash : String) :
    spentToken digests ((step digests state event).slots key) = some hash ↔
      spentToken digests (state.slots key) = some hash ∨
        ∃ moment, Commits digests state event key moment hash := by
  constructor
  · intro spent
    obtain ⟨same, _⟩ | ⟨other, request, rfl, free, moved⟩ | ⟨other, moment, request, phase, rfl, active, moved⟩ :=
      (protocol digests).step_cases state event
    · rw [show step digests state event = state from same] at spent
      exact .inl spent
    · rw [show step digests state _ = _ from moved] at spent
      by_cases own : key = other
      · subst own
        rw [System.slots_put_self] at spent
        cases request <;> cases spent
      · rw [System.slots_put_of_ne state _ _ own] at spent
        exact .inl spent
    · rw [show step digests state _ = _ from moved] at spent
      by_cases own : key = other
      · subst own
        rw [System.slots_put_self] at spent
        obtain ⟨token, newPassword, row, now, user, rfl, rfl, same⟩ := spent_advance digests spent
        exact .inr ⟨moment, rfl, token, newPassword, row, now, user, active, same⟩
      · rw [System.slots_put_of_ne state _ _ own] at spent
        exact .inl spent
  · rintro (spent | ⟨moment, rfl, token, newPassword, row, now, user, active, rfl⟩)
    · obtain ⟨token, newPassword, moment, answered, same⟩ :=
        (spentToken_eq_some_iff digests _ hash).mp spent
      rw [show (step digests state event).slots key = _ from
        Protocol.slots_of_answered answered event]
      exact congrArg some same
    · rw [show step digests state _ = _ from
        Protocol.step_proceed_of_active moment active,
        System.slots_put_self]
      rfl

theorem used_step_iff (held : ∀ key, Held digests state.store.resetTokens (state.slots key))
    (hash : String) :
    Used (step digests state event).store.resetTokens hash ↔
      Used state.store.resetTokens hash ∨
        ∃ key moment, Commits digests state event key moment hash := by
  constructor
  · intro used
    obtain ⟨same, _⟩ | ⟨key, request, rfl, free, moved⟩ | ⟨key, moment, request, phase, rfl, active, moved⟩ :=
      (protocol digests).step_cases state event
    · rw [show step digests state event = state from same] at used
      exact .inl used
    · rw [show step digests state _ = _ from moved] at used
      exact .inl used
    · rw [show step digests state _ = _ from moved, System.store_put] at used
      obtain same | ⟨row, fresh, inserted⟩ | ⟨token, newPassword, row, now, user, rfl, rfl⟩ :=
        resetTokens_advance_cases digests state.store moment request phase
      · rw [show ((protocol digests).advance state.store moment request phase).store.resetTokens =
          state.store.resetTokens from same] at used
        exact .inl used
      · exact .inl (used_of_insert inserted fresh used)
      · refine (used_before_commit digests moment now user (active ▸ held key) used).imp_right ?_
        intro same
        exact ⟨key, moment, rfl, token, newPassword, row, now, user, active, same⟩
  · rintro (used | ⟨key, moment, rfl, token, newPassword, row, now, user, active, rfl⟩)
    · exact used_of_rowsKept (rowsKept_step digests state event) used
    · rw [show step digests state _ = _ from
        Protocol.step_proceed_of_active moment active]
      exact used_of_commit digests moment now user (active ▸ held key)

variable (origin : SerialTable secretSchema)

theorem ledger_step (state : State) (event : Event Request Moment)
    (before : Ledger digests origin state) :
    Ledger digests origin (step digests state event) where
  held := held_step digests state event before.held
  set := by
    intro key hash spent
    rw [used_step_iff digests state event before.held]
    rcases (spent_step_iff digests state event key hash).mp spent with old | ⟨moment, commits⟩
    · exact .inl (before.set key hash old)
    · exact .inr ⟨key, moment, commits⟩
  source := by
    intro hash used
    rcases (used_step_iff digests state event before.held hash).mp used with
      old | ⟨key, moment, commits⟩
    · refine (before.source hash old).imp_right fun ⟨key, spent⟩ => ⟨key, ?_⟩
      exact (spent_step_iff digests state event key hash).mpr (.inl spent)
    · exact .inr ⟨key, (spent_step_iff digests state event key hash).mpr (.inr ⟨moment, commits⟩)⟩
  kept := rowsKept_trans before.kept (rowsKept_step digests state event)

theorem expires_iff_of_rowsKept (kept : RowsKept before after)
    (stored : ∃ row ∈ before.rows, row.hash = hash) (time : Time) :
    (∀ row ∈ after.rows, row.hash = hash → time ≤ row.expiresAt) ↔
      ∀ row ∈ before.rows, row.hash = hash → time ≤ row.expiresAt := by
  obtain ⟨old, member, same⟩ := stored
  obtain ⟨row, rowMember, _, rowHash, rowExpires, _⟩ := kept old member
  constructor
  · intro bound other otherMember otherSame
    rw [eq_of_hash before otherMember member (otherSame.trans same.symm), ← rowExpires]
    exact bound row rowMember (rowHash.trans same)
  · intro bound other otherMember otherSame
    rw [eq_of_hash after otherMember rowMember (otherSame.trans (rowHash.trans same).symm), rowExpires]
    exact bound old member same

theorem findsUnspent_iff (held : ∀ key, Held digests state.store.resetTokens (state.slots key)) :
    FindsUnspent state event ↔ ∀ key moment hash, Commits digests state event key moment hash →
      ¬ Used state.store.resetTokens hash ∧
        ∀ row ∈ state.store.resetTokens.rows, row.hash = hash → moment.now ≤ row.expiresAt := by
  constructor
  · rintro finds key moment hash ⟨rfl, token, newPassword, row, now, user, active, rfl⟩
    obtain ⟨rowHash, stored, member, sameId, sameHash⟩ :=
      held key token newPassword _ row active rfl
    obtain ⟨unused, inTime⟩ := finds token newPassword row now user active stored member sameId
    have only : ∀ other ∈ state.store.resetTokens.rows,
        other.hash = digests.tokenHash token → other = stored := fun other otherMember same =>
      eq_of_hash _ otherMember member (same.trans (sameHash.trans rowHash).symm)
    refine ⟨?_, fun other otherMember same => only other otherMember same ▸ inTime⟩
    rintro ⟨other, otherMember, same, used⟩
    rw [only other otherMember same] at used
    exact used unused
  · intro clear
    cases event with
    | arrive _ _ => trivial
    | proceed key moment =>
      intro token newPassword row now user active stored member sameId
      obtain ⟨rowHash, other, otherMember, otherId, otherHash⟩ :=
        held key token newPassword _ row active rfl
      obtain ⟨unused, inTime⟩ := clear key moment (digests.tokenHash token)
        ⟨rfl, token, newPassword, row, now, user, active, rfl⟩
      have one : stored = other :=
        state.store.resetTokens.eq_of_key_eq member otherMember (sameId.trans otherId.symm)
      have hash : stored.hash = digests.tokenHash token := by rw [one, otherHash, rowHash]
      refine ⟨?_, inTime stored member hash⟩
      refine Classical.byContradiction fun used => unused ⟨stored, member, hash, used⟩

theorem stored_of_commits {state : State} {event : Event Request Moment} {key : Nat}
    {moment : Moment} (held : ∀ key, Held digests state.store.resetTokens (state.slots key))
    (commits : Commits digests state event key moment hash) :
    ∃ row ∈ state.store.resetTokens.rows, row.hash = hash := by
  obtain ⟨rfl, token, newPassword, row, now, user, active, rfl⟩ := commits
  obtain ⟨rowHash, stored, member, _, sameHash⟩ := held key token newPassword _ row active rfl
  exact ⟨stored, member, sameHash.trans rowHash⟩

/-- A token is single-use after an event exactly when the event commits no confirmation of
a used or expired token. -/
theorem singleUse_step_iff (state : State) (event : Event Request Moment)
    (ledger : Ledger digests origin state) (before : SingleUse digests origin state) :
    SingleUse digests origin (step digests state event) ↔ FindsUnspent state event := by
  rw [findsUnspent_iff digests state event ledger.held]
  have rowsKept := rowsKept_step digests state event
  constructor
  · rintro after key moment hash ⟨rfl, commit⟩
    have commits : Commits digests state (.proceed key moment) key moment hash := ⟨rfl, commit⟩
    have spent := (spent_step_iff digests state _ key hash).mpr (.inr ⟨moment, commits⟩)
    constructor
    · intro used
      rcases ledger.source hash used with original | ⟨other, spentBefore⟩
      · exact after.unspent key hash spent original
      · -- The request that spent the token earlier has another key: this one is still active.
        have same := after.once other key hash
          ((spent_step_iff digests state _ other hash).mpr (.inl spentBefore)) spent
        obtain ⟨token, newPassword, row, now, user, active, _⟩ := commit
        rw [same, active] at spentBefore
        cases spentBefore
    · obtain ⟨token, newPassword, row, now, user, active, rfl⟩ := commit
      rw [← expires_iff_of_rowsKept rowsKept (stored_of_commits digests ledger.held commits)]
      refine after.inTime key token newPassword moment.now ?_
      rw [show step digests state _ = _ from Protocol.step_proceed_of_active moment active,
        System.slots_put_self]
      rfl
  · intro clear
    have spentOnce : Protocol.SpentOnce (spentToken digests) (fun store => Used store.resetTokens)
        (step digests state event) := by
      refine Protocol.spentOnce_step (fun request => by cases request <;> rfl) state event
        ⟨ledger.set, before.once⟩ (fun hash => used_of_rowsKept rowsKept) ?_
      intro key moment request phase hash proceeds active spent
      obtain ⟨token, newPassword, row, now, user, rfl, rfl, same⟩ := spent_advance digests spent
      have commits : Commits digests state event key moment hash :=
        ⟨proceeds, token, newPassword, row, now, user, active, same⟩
      refine .inr ⟨(clear key moment hash commits).1, ?_⟩
      rw [← same]
      exact used_of_commit digests moment now user (active ▸ ledger.held key)
    refine { once := spentOnce.once, inTime := ?_, unspent := ?_ }
    · intro key token newPassword time answered
      have spent : spentToken digests ((step digests state event).slots key) =
          some (digests.tokenHash token) := by rw [answered]; rfl
      rcases (spent_step_iff digests state event key _).mp spent with old | ⟨moment, commits⟩
      · obtain ⟨_, _, past, answeredBefore, _⟩ := (spentToken_eq_some_iff digests _ _).mp old
        have stays : (step digests state event).slots key = _ :=
          Protocol.slots_of_answered answeredBefore event
        rw [answered] at stays
        cases stays
        obtain ⟨row, member, same, _⟩ := ledger.set key _ old
        rw [expires_iff_of_rowsKept rowsKept ⟨row, member, same⟩]
        exact before.inTime key token newPassword time answeredBefore
      · have inTime := (clear key moment _ commits).2
        rw [← expires_iff_of_rowsKept rowsKept (stored_of_commits digests ledger.held commits)]
          at inTime
        obtain ⟨rfl, given, password, row, now, user, active, _⟩ := commits
        have moved : (step digests state (.proceed key moment)).slots key =
            .answered (.confirm given password) (.reset moment.now) := by
          rw [show step digests state _ = _ from Protocol.step_proceed_of_active moment active,
            System.slots_put_self]
          rfl
        rw [answered] at moved
        cases moved
        exact inTime
    · intro key hash spent original
      rcases (spent_step_iff digests state event key hash).mp spent with old | ⟨moment, commits⟩
      · exact before.unspent key hash old original
      · exact (clear key moment hash commits).1 (used_of_rowsKept ledger.kept original)

/-- In every run the reset tokens are single-use exactly when each confirmation that commits
finds its token unused and not expired. -/
theorem reset_single_use_iff (store : Store) (events : List (Event Request Moment)) :
    EveryState (step digests) (SingleUse digests store.resetTokens) (System.idle store) events ↔
      EveryStep (step digests) FindsUnspent (System.idle store) events := by
  refine everyState_iff_everyStep_within
    (ledger_step digests store.resetTokens)
    (fun state event ledger before =>
      singleUse_step_iff digests store.resetTokens state event ledger before)
    (System.idle store) events ?_ ?_
  · exact
      { held := fun _ => held_idle digests _
        set := nofun
        source := fun _ used => .inl used
        kept := rowsKept_refl _ }
  · exact
      { once := nofun
        inTime := nofun
        unspent := nofun }

def plainDigests : Digests where
  tokenHash := fun token => token
  hashPassword := fun _ password => password

def oneToken : Store where
  users := [⟨1, some true, "old", some 0, none⟩]
  resetTokens := (SerialTable.empty secretSchema).append (newSecret 1 "token" (minutes 30)) rfl
  ssoCodes := SerialTable.empty secretSchema

def overlappingConfirmations : List (Event Request Moment) :=
  [.arrive 0 (.confirm "token" "first"), .arrive 1 (.confirm "token" "second"),
    .proceed 0 ⟨0, ""⟩, .proceed 1 ⟨0, ""⟩, .proceed 0 ⟨0, ""⟩, .proceed 1 ⟨0, ""⟩,
    .proceed 0 ⟨0, ""⟩, .proceed 1 ⟨0, ""⟩]

example : (runEvents (step plainDigests) (System.idle oneToken) overlappingConfirmations).store.users =
    [⟨1, some true, "second", some 0, none⟩] := by decide

theorem token_used_twice :
    ¬ EveryState (step plainDigests) (SingleUse plainDigests oneToken.resetTokens)
      (System.idle oneToken) overlappingConfirmations := by
  intro every
  have last := (everyState_iff_front (System.idle oneToken) overlappingConfirmations).mp every
    overlappingConfirmations [] (List.append_nil _).symm
  exact absurd (last.once 0 1 "token" (by decide) (by decide)) (by decide)

end Ukip.Users.PasswordReset
