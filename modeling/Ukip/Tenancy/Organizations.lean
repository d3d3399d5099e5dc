import Ukip.Foundation.EventRun
import Ukip.Foundation.SerialTable
import Ukip.Tenancy.Access

/-!
# Organizations and their members

`routers/organizations.py`.  The current organization of a user is a column of the user
row, its members are rows of their own, and five requests change one or the other.
-/

namespace Ukip.Tenancy.Organizations

open Foundation.EventRun Foundation.Relational
open Tenancy.Access (Role HttpError Directory requestScope resolveRequestOrgId)

inductive MemberRole where
  | owner
  | admin
  | member
  deriving DecidableEq

def MemberRole.name : MemberRole → String
  | .owner => "owner"
  | .admin => "admin"
  | .member => "member"

/-- `role_rank` -/
def MemberRole.rank : MemberRole → Nat
  | .owner => 3
  | .admin => 2
  | .member => 1

inductive Plan where
  | free
  | pro
  | enterprise
  deriving DecidableEq

def Plan.name : Plan → String
  | .free => "free"
  | .pro => "pro"
  | .enterprise => "enterprise"

/-- `PLAN_LIMITS[plan]["members"]` -/
def Plan.memberLimit : Plan → Option Nat
  | .free => some 3
  | .pro => some 15
  | .enterprise => none

structure UserRow where
  id : Nat
  username : String
  role : Role
  isActive : Option Bool
  orgId : Option Nat
  deriving DecidableEq

structure OrganizationRow where
  id : Nat
  slug : String
  plan : Plan
  ownerId : Nat
  isActive : Bool
  deriving DecidableEq

structure MemberRow where
  id : Nat
  orgId : Nat
  userId : Nat
  role : MemberRole

def userSchema : Schema UserRow where
  key := UserRow.id
  withKey := fun value row => { row with id := value }
  key_withKey := fun _ _ => rfl
  clash := fun first second => first.username == second.username
  clash_comm := fun _ _ => Bool.beq_comm
  clash_withKey := fun _ _ _ => rfl

def organizationSchema : Schema OrganizationRow where
  key := OrganizationRow.id
  withKey := fun value row => { row with id := value }
  key_withKey := fun _ _ => rfl
  clash := fun first second => first.slug == second.slug
  clash_comm := fun _ _ => Bool.beq_comm
  clash_withKey := fun _ _ _ => rfl

def memberSchema : Schema MemberRow where
  key := MemberRow.id
  withKey := fun value row => { row with id := value }
  key_withKey := fun _ _ => rfl
  clash := fun _ _ => false
  clash_comm := fun _ _ => rfl
  clash_withKey := fun _ _ _ => rfl

structure Store where
  users : SerialTable userSchema
  organizations : SerialTable organizationSchema
  members : SerialTable memberSchema

/-- `InviteRequest.role` -/
inductive InviteRole where
  | admin
  | member

def InviteRole.memberRole : InviteRole → MemberRole
  | .admin => .admin
  | .member => .member

inductive Operation where
  | createOrganization (slug : String) (plan : Plan)
  | inviteMember (orgId : Nat) (username : String) (role : InviteRole)
  | removeMember (orgId memberUserId : Nat)
  | switchOrganization (orgId : Nat)
  | deleteOrganization (orgId : Nat)

structure Request where
  actorId : Nat
  operation : Operation

def invalidToken : HttpError where
  statusCode := 401
  detail := "Invalid or expired token"

def slugTaken : HttpError where
  statusCode := 409
  detail := "Slug already taken"

def notFound (what : String) : HttpError where
  statusCode := 404
  detail := what ++ " not found"

def notAMember : HttpError where
  statusCode := 403
  detail := "You are not a member of this organization"

def insufficientRole (role needed : MemberRole) : HttpError where
  statusCode := 403
  detail := "Role '" ++ role.name ++ "' is insufficient (need '" ++ needed.name ++ "')"

def alreadyMember : HttpError where
  statusCode := 409
  detail := "User is already a member"

def planLimitReached (plan : Plan) (usage limit : Nat) : HttpError where
  statusCode := 403
  detail := "Plan limit reached for organization members on plan '" ++ plan.name ++ "' (" ++
    toString usage ++ "/" ++ toString limit ++ ")"

def cannotRemoveOthers : HttpError where
  statusCode := 403
  detail := "Insufficient role to remove others"

def cannotRemoveOwner : HttpError where
  statusCode := 403
  detail := "Cannot remove the organization owner"

/-- `get_current_user` -/
def currentUser (store : Store) (actorId : Nat) : Except HttpError UserRow :=
  match store.users.rows.find? fun user => user.id == actorId && user.isActive == some true with
  | none => .error invalidToken
  | some actor => .ok actor

/-- `_get_org_or_404` -/
def getOrganization (store : Store) (orgId : Nat) : Except HttpError OrganizationRow :=
  match store.organizations.rows.find? fun org => org.id == orgId && org.isActive with
  | none => .error (notFound "Organization")
  | some org => .ok org

def getMembership (store : Store) (orgId userId : Nat) : Option MemberRow :=
  store.members.rows.find? fun row => row.orgId == orgId && row.userId == userId

/-- `_require_membership`: the role of the caller.  A super admin that is no member counts
as an owner, under a row that is never added to the session. -/
def requireMembership (store : Store) (orgId : Nat) (user : UserRow) (minRole : MemberRole) :
    Except HttpError MemberRole :=
  match getMembership store orgId user.id with
  | some row =>
    if user.role = .superAdmin ∨ minRole.rank ≤ row.role.rank then .ok row.role
    else .error (insufficientRole row.role minRole)
  | none => if user.role = .superAdmin then .ok .owner else .error notAMember

/-- `assert_org_quota_available(db, org_id, "members")` -/
def assertMemberQuota (store : Store) (org : OrganizationRow) : Except HttpError Unit :=
  match org.plan.memberLimit with
  | none => .ok ()
  | some limit =>
    let usage := (store.members.rows.filter fun row => row.orgId == org.id).length
    if limit ≤ usage then .error (planLimitReached org.plan usage limit) else .ok ()

def setOrg (orgId : Nat) : SetClause userSchema where
  apply := fun row => { row with orgId := some orgId }
  key_apply := fun _ => rfl
  clash_apply := fun _ _ => rfl

def setInactive : SetClause organizationSchema where
  apply := fun row => { row with isActive := false }
  key_apply := fun _ => rfl
  clash_apply := fun _ _ => rfl

variable (members : SerialTable memberSchema)

theorem accepts_member (row : MemberRow) :
    members.rejects row = false :=
  List.any_eq_false.mpr fun _ _ clashes => Bool.noConfusion clashes

def addMember (members : SerialTable memberSchema) (orgId userId : Nat) (role : MemberRole) :
    SerialTable memberSchema :=
  let row : MemberRow := { id := 0, orgId := orgId, userId := userId, role := role }
  members.append row (accepts_member members row)

/-- `not org_id` in Python. -/
def hasNoOrg (user : UserRow) : Bool := user.orgId == none || user.orgId == some 0

def newOrganization (slug : String) (plan : Plan) (ownerId : Nat) : OrganizationRow where
  id := 0
  slug := slug
  plan := plan
  ownerId := ownerId
  isActive := true

def withOrg (users : SerialTable userSchema) (userId orgId : Nat) : SerialTable userSchema :=
  users.updateWhere (fun row => row.id == userId) (setOrg orgId)

def createOrganization (store : Store) (actor : UserRow) (slug : String) (plan : Plan) :
    Except HttpError Store :=
  let orgId := store.organizations.nextKey
  match store.organizations.insert (newOrganization slug plan actor.id) with
  | none => .error slugTaken
  | some organizations =>
    .ok
      { users := if hasNoOrg actor then withOrg store.users actor.id orgId else store.users
        organizations := organizations
        members := addMember store.members orgId actor.id .owner }

def inviteMember (store : Store) (actor : UserRow) (orgId : Nat) (username : String)
    (role : InviteRole) : Except HttpError Store := do
  let org ← getOrganization store orgId
  let _ ← requireMembership store orgId actor .admin
  match store.users.rows.find? fun user => user.username == username with
  | none => .error (notFound "User")
  | some target =>
    if (getMembership store orgId target.id).isSome then .error alreadyMember
    else
      match assertMemberQuota store org with
      | .error error => .error error
      | .ok () =>
        .ok { store with members := addMember store.members orgId target.id role.memberRole }

/-- The row that `remove_member` deletes. -/
def removable (store : Store) (actor : UserRow) (orgId memberUserId : Nat) :
    Except HttpError MemberRow := do
  let _ ← getOrganization store orgId
  let callerRole ← requireMembership store orgId actor .admin
  if memberUserId ≠ actor.id ∧ callerRole = .member then .error cannotRemoveOthers
  else
    match getMembership store orgId memberUserId with
    | none => .error (notFound "Member")
    | some target =>
      if target.role = .owner ∧ memberUserId ≠ actor.id then .error cannotRemoveOwner
      else .ok target

def withoutMember (members : SerialTable memberSchema) (id : Nat) : SerialTable memberSchema :=
  members.deleteWhere fun row => row.id == id

def removeMember (store : Store) (actor : UserRow) (orgId memberUserId : Nat) :
    Except HttpError Store := do
  let target ← removable store actor orgId memberUserId
  .ok { store with members := withoutMember store.members target.id }

def switchOrganization (store : Store) (actor : UserRow) (orgId : Nat) : Except HttpError Store := do
  let _ ← getOrganization store orgId
  let _ ← requireMembership store orgId actor .member
  .ok { store with users := withOrg store.users actor.id orgId }

/-- The organization that `delete_organization` deactivates. -/
def deletable (store : Store) (actor : UserRow) (orgId : Nat) : Except HttpError OrganizationRow := do
  let org ← getOrganization store orgId
  let _ ← requireMembership store orgId actor .owner
  .ok org

def deactivated (organizations : SerialTable organizationSchema) (id : Nat) :
    SerialTable organizationSchema :=
  organizations.updateWhere (fun row => row.id == id) setInactive

def deleteOrganization (store : Store) (actor : UserRow) (orgId : Nat) : Except HttpError Store := do
  let org ← deletable store actor orgId
  .ok { store with organizations := deactivated store.organizations org.id }

def serve (store : Store) (request : Request) : Except HttpError Store := do
  let actor ← currentUser store request.actorId
  match request.operation with
  | .createOrganization slug plan => createOrganization store actor slug plan
  | .inviteMember orgId username role => inviteMember store actor orgId username role
  | .removeMember orgId memberUserId => removeMember store actor orgId memberUserId
  | .switchOrganization orgId => switchOrganization store actor orgId
  | .deleteOrganization orgId => deleteOrganization store actor orgId

def step (store : Store) (request : Request) : Store :=
  match serve store request with
  | .ok after => after
  | .error _ => store

/-- An active organization has the id. -/
def IsActive (organizations : SerialTable organizationSchema) (orgId : Nat) : Prop :=
  ∃ org ∈ organizations.rows, org.id = orgId ∧ org.isActive = true

def IsMember (members : SerialTable memberSchema) (orgId userId : Nat) : Prop :=
  ∃ row ∈ members.rows, row.orgId = orgId ∧ row.userId = userId

def HasOwner (members : SerialTable memberSchema) (orgId : Nat) : Prop :=
  ∃ row ∈ members.rows, row.orgId = orgId ∧ row.role = .owner

inductive Effect (store : Store) (request : Request) : Store → Prop where
  | created (actor : UserRow) (slug : String) (plan : Plan)
      (organizations : SerialTable organizationSchema)
      (known : currentUser store request.actorId = .ok actor)
      (operation : request.operation = .createOrganization slug plan)
      (inserted : store.organizations.insert (newOrganization slug plan actor.id) =
        some organizations) :
      Effect store request
        { users :=
            if hasNoOrg actor then withOrg store.users actor.id store.organizations.nextKey
            else store.users
          organizations := organizations
          members := addMember store.members store.organizations.nextKey actor.id .owner }
  | invited (orgId userId : Nat) (username : String) (role : InviteRole)
      (operation : request.operation = .inviteMember orgId username role) :
      Effect store request
        { store with members := addMember store.members orgId userId role.memberRole }
  | removed (actor : UserRow) (orgId memberUserId : Nat) (target : MemberRow)
      (known : currentUser store request.actorId = .ok actor)
      (operation : request.operation = .removeMember orgId memberUserId)
      (removes : removable store actor orgId memberUserId = .ok target) :
      Effect store request { store with members := withoutMember store.members target.id }
  | switched (actor : UserRow) (orgId : Nat)
      (known : currentUser store request.actorId = .ok actor)
      (operation : request.operation = .switchOrganization orgId)
      (active : IsActive store.organizations orgId)
      (belongs : actor.role = .superAdmin ∨ IsMember store.members orgId actor.id) :
      Effect store request { store with users := withOrg store.users actor.id orgId }
  | deleted (actor : UserRow) (orgId : Nat) (org : OrganizationRow)
      (known : currentUser store request.actorId = .ok actor)
      (operation : request.operation = .deleteOrganization orgId)
      (deletes : deletable store actor orgId = .ok org) :
      Effect store request { store with organizations := deactivated store.organizations org.id }

theorem bind_ok {First Second : Type} {first : Except HttpError First}
    {rest : First → Except HttpError Second} {value : Second}
    (done : first >>= rest = .ok value) : ∃ middle, first = .ok middle ∧ rest middle = .ok value := by
  cases first with
  | error error => cases done
  | ok middle => exact ⟨middle, rfl, done⟩

variable {store : Store} {orgId : Nat} {org : OrganizationRow}

theorem isActive_of_getOrganization (found : getOrganization store orgId = .ok org) :
    org ∈ store.organizations.rows ∧ org.id = orgId ∧ org.isActive = true := by
  unfold getOrganization at found
  split at found
  · cases found
  rename_i row looked
  cases found
  have passes := List.find?_some looked
  rw [Bool.and_eq_true, beq_iff_eq] at passes
  exact ⟨List.mem_of_find?_eq_some looked, passes⟩

theorem mem_of_getMembership {orgId userId : Nat} {row : MemberRow}
    (found : getMembership store orgId userId = some row) :
    row ∈ store.members.rows ∧ row.orgId = orgId ∧ row.userId = userId := by
  have passes := List.find?_some found
  rw [Bool.and_eq_true, beq_iff_eq, beq_iff_eq] at passes
  exact ⟨List.mem_of_find?_eq_some found, passes⟩

theorem member_of_requireMembership {user : UserRow} {minRole role : MemberRole}
    (passed : requireMembership store orgId user minRole = .ok role) :
    user.role = .superAdmin ∨ IsMember store.members orgId user.id := by
  unfold requireMembership at passed
  split at passed
  · rename_i row found
    exact .inr ⟨row, mem_of_getMembership found⟩
  · split at passed
    · rename_i isSuper
      exact .inl isSuper
    · cases passed

theorem effect_of_serve {store after : Store} {request : Request}
    (served : serve store request = .ok after) : Effect store request after := by
  obtain ⟨actor, known, served⟩ := bind_ok served
  obtain ⟨actorId, operation⟩ := request
  cases operation with
  | createOrganization slug plan =>
    simp only [createOrganization] at served
    split at served
    · cases served
    rename_i organizations inserted
    cases served
    exact .created actor slug plan organizations known rfl inserted
  | inviteMember orgId username role =>
    obtain ⟨org, _, served⟩ := bind_ok served
    obtain ⟨_, _, served⟩ := bind_ok served
    split at served
    · cases served
    rename_i target _
    split at served
    · cases served
    split at served
    · cases served
    cases served
    exact .invited orgId target.id username role rfl
  | removeMember orgId memberUserId =>
    obtain ⟨target, removes, served⟩ := bind_ok served
    cases served
    exact .removed actor orgId memberUserId target known rfl removes
  | switchOrganization orgId =>
    obtain ⟨org, found, served⟩ := bind_ok served
    obtain ⟨role, passed, served⟩ := bind_ok served
    cases served
    exact .switched actor orgId known rfl ⟨org, isActive_of_getOrganization found⟩
      (member_of_requireMembership passed)
  | deleteOrganization orgId =>
    obtain ⟨org, deletes, served⟩ := bind_ok served
    cases served
    exact .deleted actor orgId org known rfl deletes

theorem step_cases (store : Store) (request : Request) :
    (step store request = store ∧ ∃ error, serve store request = .error error) ∨
      Effect store request (step store request) := by
  unfold step
  cases served : serve store request with
  | error error => exact .inl ⟨rfl, error, rfl⟩
  | ok after => exact .inr (effect_of_serve served)

structure Consistent (store : Store) : Prop where
  owners : ∀ org ∈ store.organizations.rows, org.isActive = true → HasOwner store.members org.id
  contexts : ∀ user ∈ store.users.rows, user.role ≠ .superAdmin → ∀ orgId, user.orgId = some orgId →
    IsActive store.organizations orgId ∧ IsMember store.members orgId user.id

/-- The request deletes neither the last owner row of an organization nor the last
membership of a user in the current organization, and no organization that is the current
one of somebody. -/
def Keeps (store : Store) (request : Request) : Prop :=
  ∀ actor, currentUser store request.actorId = .ok actor →
    match request.operation with
    | .removeMember orgId memberUserId =>
      ∀ target, removable store actor orgId memberUserId = .ok target →
        (target.role = .owner → ∃ other ∈ store.members.rows, other.id ≠ target.id ∧
          other.orgId = orgId ∧ other.role = .owner) ∧
        ∀ user ∈ store.users.rows, user.id = memberUserId → user.role ≠ .superAdmin →
          user.orgId = some orgId → ∃ other ∈ store.members.rows, other.id ≠ target.id ∧
            other.orgId = orgId ∧ other.userId = memberUserId
    | .deleteOrganization orgId =>
      ∀ org, deletable store actor orgId = .ok org →
        ∀ user ∈ store.users.rows, user.role ≠ .superAdmin → user.orgId ≠ some orgId
    | _ => True

theorem mem_addMember (orgId userId : Nat) (role : MemberRole) (row : MemberRow) :
    row ∈ (addMember members orgId userId role).rows ↔
      row ∈ members.rows ∨ row = ⟨members.nextKey, orgId, userId, role⟩ :=
  members.mem_append _ row (accepts_member members _)

variable {members : SerialTable memberSchema}

theorem HasOwner.addMember (owned : HasOwner members orgId) (newOrgId userId : Nat)
    (role : MemberRole) : HasOwner (addMember members newOrgId userId role) orgId := by
  obtain ⟨row, member, here⟩ := owned
  exact ⟨row, (mem_addMember members newOrgId userId role row).mpr (.inl member), here⟩

theorem IsMember.addMember {orgId userId : Nat} (belongs : IsMember members orgId userId)
    (newOrgId newUserId : Nat) (role : MemberRole) :
    IsMember (addMember members newOrgId newUserId role) orgId userId := by
  obtain ⟨row, member, here⟩ := belongs
  exact ⟨row, (mem_addMember members newOrgId newUserId role row).mpr (.inl member), here⟩

theorem mem_withoutMember (members : SerialTable memberSchema) (id : Nat) (row : MemberRow) :
    row ∈ (withoutMember members id).rows ↔ row ∈ members.rows ∧ row.id ≠ id := by
  unfold withoutMember
  rw [SerialTable.mem_deleteWhere, beq_eq_false_iff_ne]

theorem mem_withOrg {users : SerialTable userSchema} {userId orgId : Nat} {row : UserRow}
    (member : row ∈ (withOrg users userId orgId).rows) :
    ∃ old ∈ users.rows, row.id = old.id ∧ row.role = old.role ∧
      (old.id = userId ∧ row.orgId = some orgId ∨ row.orgId = old.orgId) := by
  obtain ⟨old, oldMember, rfl⟩ := (users.mem_updateWhere _ _ row).mp member
  refine ⟨old, oldMember, ?_⟩
  unfold SetClause.onRow
  split
  · rename_i hit
    exact ⟨rfl, rfl, .inl ⟨beq_iff_eq.mp hit, rfl⟩⟩
  · exact ⟨rfl, rfl, .inr rfl⟩

variable {actor : UserRow}

theorem mem_of_currentUser {actorId : Nat} (known : currentUser store actorId = .ok actor) :
    actor ∈ store.users.rows := by
  unfold currentUser at known
  split at known
  · cases known
  rename_i row looked
  cases known
  exact List.mem_of_find?_eq_some looked

variable {organizations : SerialTable organizationSchema}

theorem contexts_withOrg {users : SerialTable userSchema} (present : actor ∈ users.rows)
    (contexts : ∀ user ∈ users.rows, user.role ≠ .superAdmin → ∀ id, user.orgId = some id →
      IsActive organizations id ∧ IsMember members id user.id)
    (active : IsActive organizations orgId)
    (belongs : actor.role = .superAdmin ∨ IsMember members orgId actor.id) :
    ∀ user ∈ (withOrg users actor.id orgId).rows, user.role ≠ .superAdmin → ∀ id,
      user.orgId = some id → IsActive organizations id ∧ IsMember members id user.id := by
  intro user member notSuper id here
  obtain ⟨old, oldMember, sameId, sameRole, ⟨own, set⟩ | kept⟩ := mem_withOrg member
  · rw [set] at here
    cases here
    have one : old = actor := users.eq_of_key_eq oldMember present own
    rcases belongs with isSuper | belongs
    · rw [sameRole, one] at notSuper
      exact absurd isSuper notSuper
    · rw [sameId, own]
      exact ⟨active, belongs⟩
  · rw [sameId]
    exact contexts old oldMember (sameRole ▸ notSuper) id (kept ▸ here)

theorem consistent_created {slug : String} {plan : Plan} (before : Consistent store)
    (present : actor ∈ store.users.rows)
    (inserted : store.organizations.insert (newOrganization slug plan actor.id) =
      some organizations) :
    Consistent
      { users :=
          if hasNoOrg actor then withOrg store.users actor.id store.organizations.nextKey
          else store.users
        organizations := organizations
        members := addMember store.members store.organizations.nextKey actor.id .owner } := by
  obtain ⟨accepted, rfl⟩ := (store.organizations.insert_eq_some_iff organizations _).mp inserted
  have isNew : ∀ org, org ∈ (store.organizations.append (newOrganization slug plan actor.id)
      accepted).rows ↔ org ∈ store.organizations.rows ∨
        org = store.organizations.keyed (newOrganization slug plan actor.id) :=
    fun org => store.organizations.mem_append _ org accepted
  have added : (⟨store.members.nextKey, store.organizations.nextKey, actor.id, .owner⟩ : MemberRow) ∈
      (addMember store.members store.organizations.nextKey actor.id .owner).rows :=
    (mem_addMember store.members _ _ _ _).mpr (.inr rfl)
  have contexts : ∀ user ∈ store.users.rows, user.role ≠ .superAdmin → ∀ id, user.orgId = some id →
      IsActive (store.organizations.append (newOrganization slug plan actor.id) accepted) id ∧
        IsMember (addMember store.members store.organizations.nextKey actor.id .owner) id user.id := by
    intro user member notSuper id here
    obtain ⟨⟨org, orgMember, active⟩, belongs⟩ := before.contexts user member notSuper id here
    exact ⟨⟨org, (isNew org).mpr (.inl orgMember), active⟩, belongs.addMember _ _ _⟩
  refine { owners := fun org member active => ?_, contexts := ?_ }
  · rcases (isNew org).mp member with old | rfl
    · exact (before.owners org old active).addMember _ _ _
    · exact ⟨_, added, rfl, rfl⟩
  · dsimp only
    split
    · exact contexts_withOrg present contexts
        ⟨store.organizations.keyed _, (isNew _).mpr (.inr rfl), rfl, rfl⟩
        (.inr ⟨_, added, rfl, rfl⟩)
    · exact contexts

theorem consistent_invited (before : Consistent store) (orgId userId : Nat) (role : MemberRole) :
    Consistent { store with members := addMember store.members orgId userId role } where
  owners := fun org member active => (before.owners org member active).addMember _ _ _
  contexts := fun user member notSuper id here =>
    (before.contexts user member notSuper id here).imp_right fun belongs => belongs.addMember _ _ _

theorem removable_spec {orgId memberUserId : Nat} {target : MemberRow}
    (removes : removable store actor orgId memberUserId = .ok target) :
    IsActive store.organizations orgId ∧ target ∈ store.members.rows ∧ target.orgId = orgId ∧
      target.userId = memberUserId := by
  obtain ⟨org, found, removes⟩ := bind_ok removes
  obtain ⟨role, _, removes⟩ := bind_ok removes
  refine ⟨⟨org, isActive_of_getOrganization found⟩, ?_⟩
  split at removes
  · cases removes
  split at removes
  · cases removes
  rename_i row looked
  split at removes
  · cases removes
  cases removes
  exact mem_of_getMembership looked

theorem deletable_spec (deletes : deletable store actor orgId = .ok org) :
    org ∈ store.organizations.rows ∧ org.id = orgId ∧ org.isActive = true := by
  obtain ⟨found, here, deletes⟩ := bind_ok deletes
  obtain ⟨role, _, deletes⟩ := bind_ok deletes
  cases deletes
  exact isActive_of_getOrganization here

theorem consistent_removed_iff (before : Consistent store) {orgId memberUserId : Nat}
    {target : MemberRow} (active : IsActive store.organizations orgId)
    (present : target ∈ store.members.rows) (sameOrg : target.orgId = orgId)
    (sameUser : target.userId = memberUserId) :
    Consistent { store with members := withoutMember store.members target.id } ↔
      (target.role = .owner → ∃ other ∈ store.members.rows, other.id ≠ target.id ∧
          other.orgId = orgId ∧ other.role = .owner) ∧
        ∀ user ∈ store.users.rows, user.id = memberUserId → user.role ≠ .superAdmin →
          user.orgId = some orgId → ∃ other ∈ store.members.rows, other.id ≠ target.id ∧
            other.orgId = orgId ∧ other.userId = memberUserId := by
  constructor
  · intro after
    constructor
    · intro _
      obtain ⟨org, orgMember, sameId, orgActive⟩ := active
      obtain ⟨other, member, otherOrg, owner⟩ := after.owners org orgMember orgActive
      obtain ⟨member, apart⟩ := (mem_withoutMember store.members target.id other).mp member
      exact ⟨other, member, apart, otherOrg.trans sameId, owner⟩
    · intro user member own notSuper here
      obtain ⟨_, other, otherMember, otherOrg, otherUser⟩ :=
        after.contexts user member notSuper orgId here
      obtain ⟨otherMember, apart⟩ := (mem_withoutMember store.members target.id other).mp otherMember
      exact ⟨other, otherMember, apart, otherOrg, otherUser.trans own⟩
  · rintro ⟨ownerLeft, membershipLeft⟩
    have only : ∀ row ∈ store.members.rows, row.id = target.id → row = target :=
      fun row member same => store.members.eq_of_key_eq member present same
    refine { owners := fun org member orgActive => ?_, contexts := fun user member notSuper id here => ?_ }
    · obtain ⟨row, rowMember, rowOrg, owner⟩ := before.owners org member orgActive
      by_cases gone : row.id = target.id
      · have one := only row rowMember gone
        subst one
        obtain ⟨other, otherMember, apart, otherOrg, otherOwner⟩ := ownerLeft owner
        exact ⟨other, (mem_withoutMember _ _ _).mpr ⟨otherMember, apart⟩,
          otherOrg.trans (sameOrg.symm.trans rowOrg), otherOwner⟩
      · exact ⟨row, (mem_withoutMember _ _ _).mpr ⟨rowMember, gone⟩, rowOrg, owner⟩
    · obtain ⟨orgActive, row, rowMember, rowOrg, rowUser⟩ :=
        before.contexts user member notSuper id here
      refine ⟨orgActive, ?_⟩
      by_cases gone : row.id = target.id
      · have one := only row rowMember gone
        subst one
        have sameId : id = orgId := rowOrg.symm.trans sameOrg
        have own : user.id = memberUserId := rowUser.symm.trans sameUser
        obtain ⟨other, otherMember, apart, otherOrg, otherUser⟩ :=
          membershipLeft user member own notSuper (sameId ▸ here)
        exact ⟨other, (mem_withoutMember _ _ _).mpr ⟨otherMember, apart⟩,
          otherOrg.trans sameId.symm, otherUser.trans own.symm⟩
      · exact ⟨row, (mem_withoutMember _ _ _).mpr ⟨rowMember, gone⟩, rowOrg, rowUser⟩

theorem isActive_deactivated_iff (organizations : SerialTable organizationSchema) (id orgId : Nat) :
    IsActive (deactivated organizations id) orgId ↔ IsActive organizations orgId ∧ orgId ≠ id := by
  constructor
  · rintro ⟨_, member, same, active⟩
    obtain ⟨old, oldMember, rfl⟩ := (organizations.mem_updateWhere _ _ _).mp member
    unfold SetClause.onRow at same active
    split at same
    · rename_i hit
      rw [if_pos hit] at active
      cases active
    · rename_i missed
      rw [if_neg missed] at active
      refine ⟨⟨old, oldMember, same, active⟩, ?_⟩
      rintro rfl
      exact missed (beq_iff_eq.mpr same)
  · rintro ⟨⟨org, member, same, active⟩, apart⟩
    have missed : ¬ (org.id == id) = true := by
      rw [beq_iff_eq, same]
      exact apart
    refine ⟨setInactive.onRow (fun row => row.id == id) org,
      (organizations.mem_updateWhere _ _ _).mpr ⟨org, member, rfl⟩, ?_⟩
    rw [SetClause.onRow, if_neg missed]
    exact ⟨same, active⟩

theorem consistent_deleted_iff (before : Consistent store) (orgId : Nat) :
    Consistent { store with organizations := deactivated store.organizations orgId } ↔
      ∀ user ∈ store.users.rows, user.role ≠ .superAdmin → user.orgId ≠ some orgId := by
  constructor
  · intro after user member notSuper here
    have active := (after.contexts user member notSuper orgId here).1
    exact ((isActive_deactivated_iff store.organizations orgId orgId).mp active).2 rfl
  · intro nobody
    refine { owners := fun org member active => ?_, contexts := fun user member notSuper id here => ?_ }
    · obtain ⟨old, oldMember, rfl⟩ := (store.organizations.mem_updateWhere _ _ org).mp member
      unfold SetClause.onRow at active ⊢
      split at active
      · cases active
      rename_i missed
      rw [if_neg missed]
      exact before.owners old oldMember active
    · obtain ⟨active, belongs⟩ := before.contexts user member notSuper id here
      refine ⟨(isActive_deactivated_iff store.organizations orgId id).mpr ⟨active, ?_⟩, belongs⟩
      rintro rfl
      exact nobody user member notSuper here

theorem consistent_step_iff (store : Store) (request : Request) (before : Consistent store) :
    Consistent (step store request) ↔ Keeps store request := by
  obtain ⟨same, error, refused⟩ | effect := step_cases store request
  · rw [same]
    refine ⟨fun _ actor known => ?_, fun _ => before⟩
    split
    · rename_i orgId memberUserId operation
      intro target removes
      have served : serve store request = .ok { store with members := withoutMember store.members target.id } := by
        simp only [serve, known, operation, removeMember, removes, bind, Except.bind]
      rw [served] at refused
      cases refused
    · rename_i orgId operation
      intro org deletes
      have served : serve store request =
          .ok { store with organizations := deactivated store.organizations org.id } := by
        simp only [serve, known, operation, deleteOrganization, deletes, bind, Except.bind]
      rw [served] at refused
      cases refused
    · trivial
  · generalize step store request = after at effect
    cases effect with
    | created actor slug plan organizations known operation inserted =>
      refine ⟨fun _ other _ => ?_, fun _ =>
        consistent_created before (mem_of_currentUser known) inserted⟩
      rw [operation]
      trivial
    | invited orgId userId username role operation =>
      refine ⟨fun _ other _ => ?_, fun _ => consistent_invited before orgId userId _⟩
      rw [operation]
      trivial
    | switched actor orgId known operation active belongs =>
      refine ⟨fun _ other _ => ?_, fun _ => ?_⟩
      · rw [operation]
        trivial
      · exact
          { owners := before.owners
            contexts := contexts_withOrg (mem_of_currentUser known) before.contexts active belongs }
    | removed actor orgId memberUserId target known operation removes =>
      obtain ⟨active, present, sameOrg, sameUser⟩ := removable_spec removes
      rw [consistent_removed_iff before active present sameOrg sameUser]
      constructor
      · intro left other otherKnown
        rw [known] at otherKnown
        cases otherKnown
        rw [operation]
        intro other otherRemoves
        rw [removes] at otherRemoves
        cases otherRemoves
        exact left
      · intro keeps
        have left := keeps actor known
        rw [operation] at left
        exact left target removes
    | deleted actor orgId org known operation deletes =>
      obtain ⟨_, sameId, _⟩ := deletable_spec deletes
      subst sameId
      rw [consistent_deleted_iff before org.id]
      constructor
      · intro nobody other otherKnown
        rw [operation]
        intro _ _
        exact nobody
      · intro keeps
        have nobody := keeps actor known
        rw [operation] at nobody
        exact nobody org deletes

/-- Over every run, each active organization keeps an owner and each context its
organization and membership exactly when every request keeps them. -/
theorem consistent_everyState_iff (start : Store) (requests : List Request)
    (initial : Consistent start) :
    EveryState step Consistent start requests ↔ EveryStep step Keeps start requests :=
  everyState_iff_everyStep consistent_step_iff start requests initial

def twoUsers : Store where
  users := ((SerialTable.empty userSchema).append ⟨0, "ana", .editor, some true, none⟩ rfl).append
    ⟨0, "ben", .editor, some true, none⟩ (by decide)
  organizations := SerialTable.empty organizationSchema
  members := SerialTable.empty memberSchema

theorem twoUsers_consistent : Consistent twoUsers where
  owners := by
    intro org member
    cases member
  contexts := by
    intro user member _ orgId here
    have unset : twoUsers.users.rows.all (fun row => row.orgId == none) = true := by decide
    rw [beq_iff_eq.mp (List.all_eq_true.mp unset user member)] at here
    cases here

/-- Ana founds an organization, Ben joins it and makes it his current one, and Ana removes
him. -/
def removedMember : List Request :=
  [⟨1, .createOrganization "lab" .free⟩, ⟨1, .inviteMember 1 "ben" .member⟩,
    ⟨2, .switchOrganization 1⟩, ⟨1, .removeMember 1 2⟩]

theorem consistent_removedMember :
    EveryState step Consistent twoUsers removedMember ↔ EveryStep step Keeps twoUsers removedMember :=
  consistent_everyState_iff twoUsers removedMember twoUsers_consistent

/-- The removed member keeps the organization as current; an owner who removes herself
leaves it without one; a deletion leaves its users with an inactive one. -/
theorem membership_lost :
    ¬ EveryState step Consistent twoUsers removedMember ∧
      ¬ EveryState step Consistent twoUsers
        [⟨1, .createOrganization "lab" .free⟩, ⟨1, .removeMember 1 1⟩] ∧
      ¬ EveryState step Consistent twoUsers
        [⟨1, .createOrganization "lab" .free⟩, ⟨1, .deleteOrganization 1⟩] := by
  refine ⟨fun every => ?_, fun every => ?_, fun every => ?_⟩
  · have last := (everyState_iff_front twoUsers removedMember).mp every removedMember []
      (List.append_nil _).symm
    have left := last.contexts ⟨2, "ben", .editor, some true, some 1⟩ (by decide)
      (by decide) 1 rfl
    exact absurd left.2 (by unfold IsMember; decide)
  · have last := every.2.2
    have left := last.owners ⟨1, "lab", .free, 1, true⟩ (by decide) rfl
    exact absurd left (by unfold HasOwner; decide)
  · have last := every.2.2
    have left := last.contexts ⟨1, "ana", .editor, some true, some 1⟩ (by decide)
      (by decide) 1 rfl
    exact absurd left.1 (by unfold IsActive; decide)

end Ukip.Tenancy.Organizations
