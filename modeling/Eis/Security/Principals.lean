import Eis.Security.Authorizer

/-!
# Principals that nobody registered

`allowed` answers `False` for an unknown principal.  `authorize` takes the
principal of the request in its place, with the roles that it claims.
-/

set_option autoImplicit false

namespace Eis.Security

namespace RoleAuthorizer

def FailsClosed (authorizer : RoleAuthorizer) (request : AuthorizationRequest) : Prop :=
  authorizer.principals request.principal.id = none →
    (authorizer.authorize request).status = .denied

/-- What the request says of its own principal and agent does not reach. -/
inductive Unentitled (matched : String → String → Bool) (authorizer : RoleAuthorizer)
    (request : AuthorizationRequest) : Prop where
  | anonymous (unauthenticated : request.principal.authenticated = false)
  | unknownRole (roleName : String) (claimed : roleName ∈ request.principal.roles)
      (unknown : authorizer.roles roleName = none)
  | ungranted
      (agent : ∀ permission ∈ request.agentPermissions,
        grants matched request permission = false)
      (roles : ∀ roleName ∈ request.principal.roles, ∀ role,
        authorizer.roles roleName = some role →
          ∀ permission ∈ role.permissions, grants matched request permission = false)
  | restricted (restriction : ResourceRestriction)
      (listed : restriction ∈ authorizer.restrictions)
      (denied : denies matched request restriction = true)

theorem identity_unregistered {authorizer : RoleAuthorizer} {principal : Principal}
    (unregistered : authorizer.principals principal.id = none) :
    authorizer.identity principal = principal := by
  unfold identity
  rw [unregistered]
  rfl

theorem Unentitled.not_permitted {matched : String → String → Bool}
    {authorizer : RoleAuthorizer} {request : AuthorizationRequest}
    (unentitled : Unentitled matched authorizer request)
    (self : authorizer.identity request.principal = request.principal) :
    ¬ Permitted matched authorizer request := by
  intro permitted
  have known := permitted.rolesKnown
  have granted := permitted.granted
  rw [self] at known granted
  cases unentitled with
  | anonymous unauthenticated =>
      rw [permitted.authenticated] at unauthenticated
      cases unauthenticated
  | unknownRole roleName claimed unknown =>
      obtain ⟨role, found⟩ := known roleName claimed
      rw [unknown] at found
      cases found
  | ungranted agent roles =>
      obtain ⟨permission, grant, source⟩ := granted
      cases source with
      | inl held =>
          rw [agent permission held] at grant
          cases grant
      | inr held =>
          obtain ⟨roleName, claimed, role, found, member⟩ := held
          rw [roles roleName claimed role found permission member] at grant
          cases grant
  | restricted restriction listed denied =>
      rw [permitted.unrestricted restriction listed] at denied
      cases denied

theorem unentitled_of_not_permitted {matched : String → String → Bool}
    {authorizer : RoleAuthorizer} {request : AuthorizationRequest}
    (self : authorizer.identity request.principal = request.principal)
    (refused : ¬ Permitted matched authorizer request) :
    Unentitled matched authorizer request := by
  by_contra entitled
  apply refused
  refine
    { authenticated := ?authenticated
      rolesKnown := ?rolesKnown
      granted := ?granted
      unrestricted := ?unrestricted }
  case authenticated =>
    apply Bool.of_not_eq_false
    intro unauthenticated
    exact entitled (Unentitled.anonymous unauthenticated)
  case rolesKnown =>
    rw [self]
    intro roleName claimed
    apply Option.ne_none_iff_exists'.mp
    intro unknown
    exact entitled (Unentitled.unknownRole roleName claimed unknown)
  case granted =>
    rw [self]
    by_contra nothing
    apply entitled
    apply Unentitled.ungranted
    · intro permission held
      apply Bool.of_not_eq_true
      intro grant
      exact nothing ⟨permission, grant, Or.inl held⟩
    · intro roleName claimed role found permission member
      apply Bool.of_not_eq_true
      intro grant
      exact nothing ⟨permission, grant, Or.inr ⟨roleName, claimed, role, found, member⟩⟩
  case unrestricted =>
    intro restriction listed
    apply Bool.of_not_eq_true
    intro denied
    exact entitled (Unentitled.restricted restriction listed denied)

/-- An unknown principal is denied just when what it claims of itself would not do. -/
theorem fails_closed_iff (authorizer : RoleAuthorizer) (request : AuthorizationRequest) :
    authorizer.FailsClosed request ↔
      (∃ principal, authorizer.principals request.principal.id = some principal) ∨
        Unentitled fnmatch authorizer request := by
  have decided := authorizeWith_allowed_iff fnmatch authorizer request
  constructor
  · intro closed
    cases registered : authorizer.principals request.principal.id with
    | some principal => exact Or.inl ⟨principal, rfl⟩
    | none =>
        have denied : (authorizer.authorize request).status = .denied := closed registered
        apply Or.inr
        apply unentitled_of_not_permitted (identity_unregistered registered)
        intro permitted
        have allowed : (authorizer.authorize request).status = .allowed := decided.mpr permitted
        rw [denied] at allowed
        cases allowed
  · intro condition unregistered
    cases condition with
    | inl registered =>
        obtain ⟨principal, found⟩ := registered
        rw [unregistered] at found
        cases found
    | inr unentitled =>
        have refused := unentitled.not_permitted (identity_unregistered unregistered)
        have either := authorizeWith_status fnmatch authorizer request
        exact either.resolve_left fun allowed => refused (decided.mp allowed)

def emptyRegistry : RoleAuthorizer where
  roles := fun roleName =>
    if roleName = "admin" then
      some { name := "admin", permissions := [{ action := "write", resource := "*" }] }
    else none

def selfDeclared : AuthorizationRequest where
  principal := { id := "mallory", roles := ["admin"] }
  action := "write"
  resource := "ledger"

theorem self_declared_admin : ¬ emptyRegistry.FailsClosed selfDeclared := by
  intro closed
  have allowed : (emptyRegistry.authorize selfDeclared).status = .allowed := by decide +kernel
  rw [closed rfl] at allowed
  cases allowed

end RoleAuthorizer

end Eis.Security
