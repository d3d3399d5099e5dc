import Mathlib.Data.List.Nodup
import Ukip.Foundation.EventRun
import Ukip.Foundation.UnitOfWork
import Ukip.Tenancy.Access

/-!
# The last administrator

`update_user`, `delete_user` and `activate_user` of `routers/auth_users.py`.  A request
reads three times before it writes: its own user, the target, and the number of active
super admins.  Other requests may commit between any two of these.
-/

namespace Ukip.Users.Administrators

open Foundation.EventRun Foundation.UnitOfWork
open Tenancy.Access (Role HttpError)

/-- A field of a request body, as `exclude_unset` tells them apart. -/
inductive Field (Value : Type) where
  | unset
  | null
  | value (given : Value)
  deriving DecidableEq

structure UserUpdate where
  email : Field String
  password : Field String
  role : Field Role
  isActive : Field Bool

structure UserRow where
  id : Nat
  email : Option String
  role : Role
  isActive : Option Bool

structure UserTable where
  rows : List UserRow
  keys : (rows.map UserRow.id).Nodup

def UserRow.isAdministrator (row : UserRow) : Bool :=
  row.role == .superAdmin && row.isActive == some true

inductive Operation where
  | update (payload : UserUpdate)
  | delete
  | activate

structure Request where
  actorId : Nat
  targetId : Nat
  operation : Operation

def roleName : Role → String
  | .superAdmin => "super_admin"
  | .admin => "admin"
  | .editor => "editor"
  | .viewer => "viewer"

def invalidToken : HttpError where
  statusCode := 401
  detail := "Invalid or expired token"

def notAuthorized (role : Role) : HttpError where
  statusCode := 403
  detail := "Role '" ++ roleName role ++ "' is not authorized for this action"

def userNotFound : HttpError where
  statusCode := 404
  detail := "User not found"

def badRequest (detail : String) : HttpError where
  statusCode := 400
  detail := detail

/-- `get_current_user` and `require_role("super_admin")` -/
def authenticate (users : UserTable) (request : Request) : Except HttpError UserRow :=
  match users.rows.find? fun row => row.id == request.actorId && row.isActive == some true with
  | none => .error invalidToken
  | some actor => if actor.role = .superAdmin then .ok actor else .error (notAuthorized actor.role)

/-- The SELECT of the target.  The session knows the actor already and keeps the values
that it has of that row. -/
def loadTarget (users : UserTable) (actor : UserRow) (request : Request) : Except HttpError UserRow :=
  if request.targetId = actor.id then .ok actor
  else
    match users.rows.find? fun row => row.id == request.targetId with
    | none => .error userNotFound
    | some user => .ok user

def checkSelf (actor user : UserRow) : Operation → Except HttpError Unit
  | .update payload =>
    match payload.role with
    | .value role =>
      if user.id = actor.id ∧ role ≠ actor.role then
        .error (badRequest "Cannot change your own role")
      else checkOwnActivity payload
    | _ => checkOwnActivity payload
  | .delete =>
    if user.id = actor.id then .error (badRequest "Cannot deactivate your own account") else .ok ()
  | .activate => .ok ()
where
  checkOwnActivity (payload : UserUpdate) : Except HttpError Unit :=
    if user.id = actor.id ∧ payload.isActive = .value false then
      .error (badRequest "Cannot deactivate your own account")
    else .ok ()

def activeSuperAdmins (users : UserTable) : Nat :=
  (users.rows.filter UserRow.isAdministrator).length

/-- The refusals that count the active super admins; an update counts for its role only. -/
def checkLast (users : UserTable) (user : UserRow) : Operation → Except HttpError Unit
  | .update payload =>
    match payload.role with
    | .value role =>
      if user.role = .superAdmin ∧ role ≠ .superAdmin ∧ activeSuperAdmins users ≤ 1 then
        .error (badRequest "Cannot demote the last active super_admin")
      else .ok ()
    | _ => .ok ()
  | .delete =>
    if user.role = .superAdmin ∧ activeSuperAdmins users ≤ 1 then
      .error (badRequest "Cannot deactivate the last active super_admin")
    else .ok ()
  | .activate => .ok ()

/-- The object after its fields are set, none where that raises: a null password is not
hashed, and a null role is refused by the column. -/
def assigned (user : UserRow) : Operation → Option UserRow
  | .update payload =>
    if payload.password = .null ∨ payload.role = .null then none
    else some { user with
      email := match payload.email with
        | .unset => user.email
        | .null => none
        | .value email => some email
      role := match payload.role with
        | .value role => role
        | _ => user.role
      isActive := match payload.isActive with
        | .unset => user.isActive
        | .null => none
        | .value active => some active }
  | .delete => some { user with isActive := some false }
  | .activate => some { user with isActive := some true }

def written (loaded current stored : UserRow) : UserRow :=
  { stored with
    email := flushColumn loaded.email current.email stored.email
    role := flushColumn loaded.role current.role stored.role
    isActive := flushColumn loaded.isActive current.isActive stored.isActive }

def writeRow (loaded current : UserRow) (row : UserRow) : UserRow :=
  if row.id = loaded.id then written loaded current row else row

theorem id_writeRow (loaded current row : UserRow) : (writeRow loaded current row).id = row.id := by
  unfold writeRow
  split <;> rfl

def emailFree (users : UserTable) (loaded current : UserRow) : Bool :=
  current.email == loaded.email || current.email.isNone ||
    !users.rows.any fun row => row.id != loaded.id && row.email == current.email

def UserTable.write (users : UserTable) (loaded current : UserRow) : UserTable where
  rows := users.rows.map (writeRow loaded current)
  keys := by
    rw [List.map_map]
    have same : UserRow.id ∘ writeRow loaded current = UserRow.id :=
      funext (id_writeRow loaded current)
    rw [same]
    exact users.keys

inductive Phase where
  | arrived
  | authenticated (actor : UserRow)
  | loaded (user : UserRow)
  | counted (user : UserRow)

inductive Outcome where
  | goesOn (phase : Phase)
  | refused (error : HttpError)
  /-- An exception, which rolls back. -/
  | raised
  | committed (users : UserTable)

def advance (users : UserTable) (request : Request) : Phase → Outcome
  | .arrived =>
    match authenticate users request with
    | .error error => .refused error
    | .ok actor => .goesOn (.authenticated actor)
  | .authenticated actor =>
    match loadTarget users actor request with
    | .error error => .refused error
    | .ok user =>
      match checkSelf actor user request.operation with
      | .error error => .refused error
      | .ok () => .goesOn (.loaded user)
  | .loaded user =>
    match checkLast users user request.operation with
    | .error error => .refused error
    | .ok () => .goesOn (.counted user)
  | .counted user =>
    match assigned user request.operation with
    | none => .raised
    | some current =>
      if emailFree users user current then .committed (users.write user current) else .raised

structure System where
  users : UserTable
  inFlight : Nat → Option (Request × Phase)

inductive Event where
  | arrive (key : Nat) (request : Request)
  /-- The next read of the request, or its commit. -/
  | proceed (key : Nat)

def System.keep (system : System) (key : Nat) (entry : Option (Request × Phase)) : System :=
  { system with inFlight := fun other => if other = key then entry else system.inFlight other }

def step (system : System) : Event → System
  | .arrive key request =>
    match system.inFlight key with
    | some _ => system
    | none => system.keep key (some (request, .arrived))
  | .proceed key =>
    match system.inFlight key with
    | none => system
    | some (request, phase) =>
      match advance system.users request phase with
      | .goesOn next => system.keep key (some (request, next))
      | .refused _ => system.keep key none
      | .raised => system.keep key none
      | .committed users => { system.keep key none with users := users }

def HasAdministrator (system : System) : Prop :=
  ∃ row ∈ system.users.rows, row.isAdministrator = true

instance (system : System) : Decidable (HasAdministrator system) :=
  inferInstanceAs (Decidable (∃ row ∈ system.users.rows, row.isAdministrator = true))

def takesRights (loaded current : UserRow) : Bool :=
  (current.role != loaded.role && current.role != .superAdmin) ||
    (current.isActive != loaded.isActive && current.isActive != some true)

/-- A commit that takes the rights of an active super admin finds another one stored. -/
def Spares (system : System) : Event → Prop
  | .arrive _ _ => True
  | .proceed key =>
    ∀ request user current, system.inFlight key = some (request, .counted user) →
      assigned user request.operation = some current →
      emailFree system.users user current = true → takesRights user current = true →
      ∀ row ∈ system.users.rows, row.id = user.id → row.isAdministrator = true →
        ∃ other ∈ system.users.rows, other.id ≠ user.id ∧ other.isAdministrator = true

theorem isAdministrator_written (loaded current stored : UserRow)
    (administrator : stored.isAdministrator = true) :
    (written loaded current stored).isAdministrator = !takesRights loaded current := by
  unfold UserRow.isAdministrator at administrator ⊢
  rw [Bool.and_eq_true, beq_iff_eq, beq_iff_eq] at administrator
  unfold written takesRights flushColumn
  rw [administrator.1, administrator.2]
  by_cases role : current.role = loaded.role
  · by_cases active : current.isActive = loaded.isActive
    · simp [role, active]
    · simp [role, active, bne]
  · by_cases active : current.isActive = loaded.isActive
    · simp [role, active, bne]
    · simp [role, active, bne, beq_false_of_ne role, beq_false_of_ne active]

theorem hasAdministrator_write_iff (system : System) (loaded current : UserRow)
    (before : HasAdministrator system) :
    (∃ row ∈ (system.users.write loaded current).rows, row.isAdministrator = true) ↔
      (takesRights loaded current = true → ∀ row ∈ system.users.rows, row.id = loaded.id →
        row.isAdministrator = true →
          ∃ other ∈ system.users.rows, other.id ≠ loaded.id ∧ other.isAdministrator = true) := by
  constructor
  · rintro ⟨_, member, after⟩ takes row rowMember own administrator
    obtain ⟨old, oldMember, rfl⟩ := List.mem_map.mp member
    by_cases same : old.id = loaded.id
    · have one := List.inj_on_of_nodup_map system.users.keys oldMember rowMember
        (same.trans own.symm)
      rw [one, writeRow, if_pos own, isAdministrator_written loaded current row administrator,
        takes] at after
      cases after
    · rw [writeRow, if_neg same] at after
      exact ⟨old, oldMember, same, after⟩
  · intro spares
    have keptBy : ∀ other ∈ system.users.rows, other.id ≠ loaded.id →
        other.isAdministrator = true →
          ∃ row ∈ (system.users.write loaded current).rows, row.isAdministrator = true := by
      intro other member apart administrator
      refine ⟨other, List.mem_map.mpr ⟨other, member, ?_⟩, administrator⟩
      exact if_neg apart
    obtain ⟨row, member, administrator⟩ := before
    by_cases own : row.id = loaded.id
    · cases takes : takesRights loaded current with
      | true =>
        obtain ⟨other, otherMember, apart, otherAdministrator⟩ :=
          spares takes row member own administrator
        exact keptBy other otherMember apart otherAdministrator
      | false =>
        refine ⟨written loaded current row, List.mem_map.mpr ⟨row, member, if_pos own⟩, ?_⟩
        rw [isAdministrator_written loaded current row administrator, takes]
        rfl
    · exact keptBy row member own administrator

theorem committed_cases (users after : UserTable) (request : Request) (phase : Phase)
    (commits : advance users request phase = .committed after) :
    ∃ user current, phase = .counted user ∧ assigned user request.operation = some current ∧
      emailFree users user current = true ∧ after = users.write user current := by
  cases phase with
  | arrived =>
    simp only [advance] at commits
    split at commits <;> cases commits
  | authenticated actor =>
    simp only [advance] at commits
    split at commits
    · cases commits
    · split at commits <;> cases commits
  | loaded user =>
    simp only [advance] at commits
    split at commits <;> cases commits
  | counted user =>
    simp only [advance] at commits
    split at commits
    · cases commits
    · rename_i current set
      split at commits
      · rename_i free
        cases commits
        exact ⟨user, current, rfl, set, free, rfl⟩
      · cases commits

theorem hasAdministrator_step_iff (system : System) (event : Event)
    (before : HasAdministrator system) :
    HasAdministrator (step system event) ↔ Spares system event := by
  cases event with
  | arrive key request =>
    refine ⟨fun _ => trivial, fun _ => ?_⟩
    simp only [step]
    split
    · exact before
    · exact before
  | proceed key =>
    simp only [step]
    cases entry : system.inFlight key with
    | none =>
      refine ⟨fun _ request user current here => ?_, fun _ => before⟩
      rw [entry] at here
      cases here
    | some flight =>
      obtain ⟨request, phase⟩ := flight
      dsimp only
      cases next : advance system.users request phase with
      | committed users =>
        obtain ⟨user, current, rfl, set, free, rfl⟩ := committed_cases _ _ _ _ next
        refine (hasAdministrator_write_iff system user current before).trans
          ⟨fun spares other otherUser otherCurrent here otherSet _ => ?_,
            fun spares takes => spares request user current entry set free takes⟩
        rw [entry] at here
        cases here
        rw [set] at otherSet
        cases otherSet
        exact spares
      | goesOn _ | refused _ | raised =>
        refine ⟨fun _ other user current here set free takes => ?_, fun _ => before⟩
        rw [entry] at here
        cases here
        simp [advance, set, free] at next

/-- A run always has an active super admin exactly when every commit that takes the
rights of one finds another. -/
theorem hasAdministrator_everyState_iff (start : System) (events : List Event)
    (initial : HasAdministrator start) :
    EveryState step HasAdministrator start events ↔ EveryStep step Spares start events :=
  everyState_iff_everyStep hasAdministrator_step_iff start events initial

def administrator (id : Nat) : UserRow := ⟨id, none, .superAdmin, some true⟩

def withAdministrators (ids : List Nat) (distinct : ids.Nodup) : System where
  users := ⟨ids.map administrator, by
    rw [List.map_map]
    exact (List.map_id ids).symm ▸ distinct⟩
  inFlight := fun _ => none

def mutualDeletion : List Event :=
  [.arrive 0 ⟨1, 2, .delete⟩, .arrive 1 ⟨2, 1, .delete⟩, .proceed 0, .proceed 0, .proceed 0,
    .proceed 1, .proceed 1, .proceed 1, .proceed 0, .proceed 1]

def ownActivityNull : List Event :=
  [.arrive 0 ⟨1, 1, .update ⟨.unset, .unset, .unset, .null⟩⟩, .proceed 0, .proceed 0, .proceed 0,
    .proceed 0]

/-- Two requests remove the last two administrators, and one request the last one. -/
theorem administrators_all_lost :
    (¬ EveryState step HasAdministrator (withAdministrators [1, 2] (by decide)) mutualDeletion) ∧
      ¬ EveryState step HasAdministrator (withAdministrators [1] (by decide)) ownActivityNull := by
  decide

theorem two_administrators_run :
    EveryState step HasAdministrator (withAdministrators [1, 2] (by decide)) mutualDeletion ↔
      EveryStep step Spares (withAdministrators [1, 2] (by decide)) mutualDeletion :=
  hasAdministrator_everyState_iff _ mutualDeletion (by decide)

end Ukip.Users.Administrators
