import Ukip.Foundation.SqlTruth

/-!
# Tenant scope of a request

`tenant_access.py`.  The scope of a request is the organization of its user.  A super
admin without one reads every row, and any other user without one reads the rows of
no organization, under the sentinel -1.  Organization ids are serial, so none is -1.
-/

namespace Ukip.Tenancy.Access

open Foundation.SqlTruth

inductive Role where
  | superAdmin
  | admin
  | editor
  | viewer
  deriving DecidableEq

structure User where
  id : Nat
  role : Role
  orgId : Option Nat

structure Organization where
  id : Nat
  isActive : Bool

structure OrganizationMember where
  orgId : Nat
  userId : Nat

structure Directory where
  organizations : List Organization
  members : List OrganizationMember

structure HttpError where
  statusCode : Nat
  detail : String
  deriving DecidableEq

def legacyGlobalOrgId : Int := -1

def activeOrgRequired : HttpError where
  statusCode := 409
  detail := "Active organization required for tenant-scoped resource"

def organizationNotFound : HttpError where
  statusCode := 404
  detail := "Active organization not found"

def notAMember : HttpError where
  statusCode := 403
  detail := "You are not a member of the active organization"

def resolveRequestOrgId (directory : Directory) (user : User)
    (allowSuperAdminGlobal allowLegacyGlobal : Bool) : Except HttpError (Option Int) :=
  match user.orgId with
  | none =>
    if user.role = .superAdmin ∧ allowSuperAdminGlobal = true then .ok none
    else if allowLegacyGlobal = true then .ok (some legacyGlobalOrgId)
    else .error activeOrgRequired
  | some orgId =>
    if directory.organizations.any fun org => org.id == orgId && org.isActive then
      if user.role = .superAdmin ∨
          directory.members.any (fun member =>
            member.orgId == orgId && member.userId == user.id) = true then
        .ok (some (orgId : Int))
      else .error notAMember
    else .error organizationNotFound

/-- `resolve_request_org_id(db, current_user)` -/
def requestScope (directory : Directory) (user : User) : Except HttpError (Option Int) :=
  resolveRequestOrgId directory user true true

def isLegacyGlobalScope (scope : Option Int) : Bool := scope == some legacyGlobalOrgId

/-- `org_scope_filter`: the rows that pass, by their `org_id`. -/
def inScope (scope column : Option Int) : Bool :=
  if scope = none then true
  else if isLegacyGlobalScope scope then column.isNone
  else selects (compare (fun stored wanted => stored == wanted) column scope)

def persistedOrgId (scope : Option Int) : Option Int :=
  if isLegacyGlobalScope scope then none else scope

def scopeTag : Option Int → String
  | none => "global"
  | some orgId =>
    if isLegacyGlobalScope (some orgId) then "legacy_global" else "org_" ++ toString orgId

theorem organization_ne_legacy (orgId : Nat) : (orgId : Int) ≠ legacyGlobalOrgId := by
  unfold legacyGlobalOrgId
  omega

theorem requestScope_cases (directory : Directory) (user : User) (scope : Option Int)
    (resolved : requestScope directory user = .ok scope) :
    (user.orgId = none ∧ user.role = .superAdmin ∧ scope = none) ∨
      (user.orgId = none ∧ user.role ≠ .superAdmin ∧ scope = some legacyGlobalOrgId) ∨
      ∃ orgId : Nat, user.orgId = some orgId ∧ scope = some (orgId : Int) ∧
        ∃ org ∈ directory.organizations, org.id = orgId := by
  unfold requestScope resolveRequestOrgId at resolved
  cases belongs : user.orgId with
  | none =>
    simp only [belongs, and_true, if_true] at resolved
    split at resolved
    · rename_i isSuper
      exact .inl ⟨rfl, isSuper, (Except.ok.inj resolved).symm⟩
    · rename_i notSuper
      exact .inr (.inl ⟨rfl, notSuper, (Except.ok.inj resolved).symm⟩)
  | some orgId =>
    simp only [belongs] at resolved
    split at resolved
    · rename_i found
      split at resolved
      · obtain ⟨org, member, here⟩ := List.any_eq_true.mp found
        simp only [Bool.and_eq_true, beq_iff_eq] at here
        exact .inr (.inr ⟨orgId, rfl, (Except.ok.inj resolved).symm, org, member, here.1⟩)
      · cases resolved
    · cases resolved

theorem inScope_organization (orgId : Nat) (column : Option Int) :
    inScope (some (orgId : Int)) column = (column == some (orgId : Int)) := by
  have real : isLegacyGlobalScope (some (orgId : Int)) = false := by
    simp [isLegacyGlobalScope, organization_ne_legacy]
  unfold inScope
  rw [if_neg (by simp), if_neg (by simp [real])]
  cases column with
  | none => simp [selects_compare_null]
  | some stored => simp

theorem scopeTag_organization (orgId : Nat) :
    scopeTag (some (orgId : Int)) = "org_" ++ Nat.repr orgId := by
  have real : isLegacyGlobalScope (some (orgId : Int)) = false := by
    simp [isLegacyGlobalScope, organization_ne_legacy]
  change (if isLegacyGlobalScope (some (orgId : Int)) = true then "legacy_global"
    else "org_" ++ toString (orgId : Int)) = _
  rw [real]
  rfl

theorem inScope_persistedOrgId (scope : Option Int) : inScope scope (persistedOrgId scope) = true := by
  unfold inScope persistedOrgId
  cases scope with
  | none => rfl
  | some orgId =>
    rw [if_neg (by simp)]
    cases isLegacyGlobalScope (some orgId) with
    | true => rfl
    | false => simp

end Ukip.Tenancy.Access
