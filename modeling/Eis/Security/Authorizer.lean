import Mathlib.Data.List.Basic
import Eis.Foundation.Fnmatch
import Eis.Security.Models

/-!
# The role authorizer

`RoleAuthorizer.authorize` as the source computes it, for any way to match a
resource against a pattern, and what an `ALLOWED` decision says about the
configuration.
-/

set_option autoImplicit false

namespace Eis.Security

structure RoleAuthorizer where
  roles : String → Option Role := fun _ => none
  principals : String → Option Principal := fun _ => none
  restrictions : List ResourceRestriction := []

/-- The permissions of the named roles, or the first name that is unknown. -/
def rolePermissions (roles : String → Option Role) :
    List String → Except String (List Permission)
  | [] => .ok []
  | roleName :: rest =>
      match roles roleName with
      | none => .error roleName
      | some role => (rolePermissions roles rest).map (role.permissions ++ ·)

namespace AuthorizationRequest

def agentPermissions (request : AuthorizationRequest) : List Permission :=
  match request.agent with
  | some agent => agent.permissions
  | none => []

end AuthorizationRequest

namespace RoleAuthorizer

/-- `self.principals.get(request.principal.id, request.principal)` -/
def identity (authorizer : RoleAuthorizer) (principal : Principal) : Principal :=
  (authorizer.principals principal.id).getD principal

section Matcher
variable (matched : String → String → Bool)

def grants (request : AuthorizationRequest) (permission : Permission) : Bool :=
  permission.action = request.action && matched request.resource permission.resource

def denies (request : AuthorizationRequest) (restriction : ResourceRestriction) : Bool :=
  matched request.resource restriction.resource &&
    !restriction.allowedActions.contains request.action

def authorizeWith (authorizer : RoleAuthorizer) (request : AuthorizationRequest) :
    AuthorizationDecision :=
  if request.principal.authenticated = false then
    { status := .denied, reason := "principal is not authenticated" }
  else
    match rolePermissions authorizer.roles (authorizer.identity request.principal).roles with
    | .error roleName => { status := .denied, reason := "unknown role: " ++ roleName }
    | .ok permissions =>
        if (permissions ++ request.agentPermissions).any (grants matched request) = false then
          { status := .denied, reason := "permission not granted" }
        else if authorizer.restrictions.any (denies matched request) then
          { status := .denied, reason := "resource restriction denied" }
        else { status := .allowed, reason := "authorized" }

end Matcher

def authorize (authorizer : RoleAuthorizer) (request : AuthorizationRequest) :
    AuthorizationDecision :=
  authorizer.authorizeWith fnmatch request

def allowed (authorizer : RoleAuthorizer) (principal action resource : String) : Bool :=
  match authorizer.principals principal with
  | none => false
  | some identity =>
      (authorizer.authorize
        { principal := identity, action := action, resource := resource }).status = .allowed

/-! ## What a decision says -/

/-- The request is inside the rights of its roles and agent and outside of
every restriction. -/
structure Permitted (matched : String → String → Bool) (authorizer : RoleAuthorizer)
    (request : AuthorizationRequest) : Prop where
  authenticated : request.principal.authenticated = true
  rolesKnown : ∀ roleName ∈ (authorizer.identity request.principal).roles,
    ∃ role, authorizer.roles roleName = some role
  granted : ∃ permission, grants matched request permission = true ∧
    (permission ∈ request.agentPermissions ∨
      ∃ roleName ∈ (authorizer.identity request.principal).roles,
        ∃ role, authorizer.roles roleName = some role ∧ permission ∈ role.permissions)
  unrestricted : ∀ restriction ∈ authorizer.restrictions,
    denies matched request restriction = false

theorem rolePermissions_eq_ok_iff (roles : String → Option Role) (names : List String) :
    (∃ permissions, rolePermissions roles names = .ok permissions) ↔
      ∀ roleName ∈ names, ∃ role, roles roleName = some role := by
  induction names with
  | nil => simp [rolePermissions]
  | cons roleName rest ih =>
      cases known : roles roleName with
      | none => simp [rolePermissions, known]
      | some role =>
          cases others : rolePermissions roles rest with
          | error unknown =>
              rw [others] at ih
              simpa [rolePermissions, known, others, Except.map] using ih
          | ok permissions =>
              rw [others] at ih
              simpa [rolePermissions, known, others, Except.map] using ih

theorem mem_rolePermissions {roles : String → Option Role} {names : List String}
    {permissions : List Permission} (collected : rolePermissions roles names = .ok permissions)
    (permission : Permission) :
    permission ∈ permissions ↔ ∃ roleName ∈ names, ∃ role,
      roles roleName = some role ∧ permission ∈ role.permissions := by
  induction names generalizing permissions with
  | nil =>
      obtain rfl : [] = permissions := Except.ok.inj collected
      simp
  | cons roleName rest ih =>
      cases known : roles roleName with
      | none => simp [rolePermissions, known] at collected
      | some role =>
          cases others : rolePermissions roles rest with
          | error unknown => simp [rolePermissions, known, others, Except.map] at collected
          | ok tail =>
              obtain rfl : role.permissions ++ tail = permissions := by
                simpa [rolePermissions, known, others, Except.map] using collected
              simp [known, ih others]

theorem authorizeWith_allowed_iff (matched : String → String → Bool)
    (authorizer : RoleAuthorizer) (request : AuthorizationRequest) :
    (authorizer.authorizeWith matched request).status = .allowed ↔
      Permitted matched authorizer request := by
  have roles := rolePermissions_eq_ok_iff authorizer.roles
    (authorizer.identity request.principal).roles
  unfold authorizeWith
  split
  · rename_i anonymous
    simp only [reduceCtorEq, false_iff]
    intro permitted
    simp [permitted.authenticated] at anonymous
  rename_i authenticated
  split
  · rename_i roleName unknown
    simp only [reduceCtorEq, false_iff]
    intro permitted
    obtain ⟨permissions, known⟩ := roles.mpr permitted.rolesKnown
    rw [unknown] at known
    cases known
  rename_i permissions collected
  have member := mem_rolePermissions collected
  split
  · rename_i ungranted
    simp only [reduceCtorEq, false_iff]
    intro permitted
    obtain ⟨permission, grant, source⟩ := permitted.granted
    have held : permission ∈ permissions ++ request.agentPermissions :=
      List.mem_append.mpr (source.symm.imp (member permission).mpr id)
    exact absurd grant (by simpa using List.any_eq_false.mp ungranted permission held)
  rename_i granted
  obtain ⟨permission, held, grant⟩ := List.any_eq_true.mp (Bool.of_not_eq_false granted)
  split
  · rename_i restricted
    simp only [reduceCtorEq, false_iff]
    intro permitted
    obtain ⟨restriction, listed, denied⟩ := List.any_eq_true.mp restricted
    simp [permitted.unrestricted restriction listed] at denied
  · rename_i unrestricted
    simp only [true_iff]
    exact
      { authenticated := by simpa using authenticated
        rolesKnown := roles.mp ⟨permissions, collected⟩
        granted := ⟨permission, grant,
          ((List.mem_append.mp held).imp (member permission).mp id).symm⟩
        unrestricted := by simpa using unrestricted }

theorem authorizeWith_status (matched : String → String → Bool) (authorizer : RoleAuthorizer)
    (request : AuthorizationRequest) :
    (authorizer.authorizeWith matched request).status = .allowed ∨
      (authorizer.authorizeWith matched request).status = .denied := by
  unfold authorizeWith
  repeat' split
  all_goals simp

end RoleAuthorizer

end Eis.Security
