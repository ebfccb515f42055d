import Mathlib.Data.List.Perm.Basic
import Eis.Security.Authorizer

/-!
# How a decision depends on the rights

More permissions never cost a right, more restrictions and unknown roles never give
one, and the sets and the restrictions may be gone through in any order.
-/

set_option autoImplicit false

namespace Eis.Security

/-! ## Changes of the configuration and of the request -/

/-- One role or the agent of the request has more permissions. -/
inductive Wider (authorizer : RoleAuthorizer) (request : AuthorizationRequest) :
    RoleAuthorizer → AuthorizationRequest → Prop
  | role {roleName : String} {role : Role} {permissions : List Permission}
      (known : authorizer.roles roleName = some role)
      (more : role.permissions ⊆ permissions) :
      Wider authorizer request
        { authorizer with
          roles := Function.update authorizer.roles roleName
            (some { role with permissions := permissions }) }
        request
  | agent {agent : AgentIdentity} {permissions : List Permission}
      (acting : request.agent = some agent) (more : agent.permissions ⊆ permissions) :
      Wider authorizer request authorizer
        { request with agent := some { agent with permissions := permissions } }

/-- One more restriction, or a role more that nobody knows, for the principal as the
request has it or as it is registered. -/
inductive Stricter (authorizer : RoleAuthorizer) (request : AuthorizationRequest) :
    RoleAuthorizer → AuthorizationRequest → Prop
  | restriction {before after : List ResourceRestriction} (restriction : ResourceRestriction)
      (split : authorizer.restrictions = before ++ after) :
      Stricter authorizer request
        { authorizer with restrictions := before ++ restriction :: after } request
  | requested {before after : List String} {roleName : String}
      (unknown : authorizer.roles roleName = none)
      (split : request.principal.roles = before ++ after) :
      Stricter authorizer request authorizer
        { request with
          principal := { request.principal with roles := before ++ roleName :: after } }
  | registered {id : String} {identity : Principal} {before after : List String}
      {roleName : String} (unknown : authorizer.roles roleName = none)
      (known : authorizer.principals id = some identity)
      (split : identity.roles = before ++ after) :
      Stricter authorizer request
        { authorizer with
          principals := Function.update authorizer.principals id
            (some { identity with roles := before ++ roleName :: after }) }
        request

structure Principal.Reordered (principal other : Principal) : Prop where
  id : other.id = principal.id
  roles : other.roles.Perm principal.roles
  authenticated : other.authenticated = principal.authenticated

structure Reordered (authorizer : RoleAuthorizer) (request : AuthorizationRequest)
    (other : RoleAuthorizer) (otherRequest : AuthorizationRequest) : Prop where
  roles : ∀ roleName, Option.Rel
    (fun role role' : Role => role'.permissions.Perm role.permissions)
    (authorizer.roles roleName) (other.roles roleName)
  principals : ∀ id, Option.Rel Principal.Reordered
    (authorizer.principals id) (other.principals id)
  restrictions : other.restrictions.Perm authorizer.restrictions
  principal : request.principal.Reordered otherRequest.principal
  agent : otherRequest.agentPermissions.Perm request.agentPermissions
  action : otherRequest.action = request.action
  resource : otherRequest.resource = request.resource

/-! ## Requests that have no less rights -/

/-- Whatever permits the first request is there for the second one. -/
structure NoLess (authorizer : RoleAuthorizer) (request : AuthorizationRequest)
    (other : RoleAuthorizer) (otherRequest : AuthorizationRequest) : Prop where
  authenticated : request.principal.authenticated = true →
    otherRequest.principal.authenticated = true
  claimed : ∀ roleName, roleName ∈ (other.identity otherRequest.principal).roles ↔
    roleName ∈ (authorizer.identity request.principal).roles
  roles : ∀ roleName role, authorizer.roles roleName = some role →
    ∃ role', other.roles roleName = some role' ∧ role.permissions ⊆ role'.permissions
  agent : request.agentPermissions ⊆ otherRequest.agentPermissions
  restrictions : other.restrictions ⊆ authorizer.restrictions
  action : otherRequest.action = request.action
  resource : otherRequest.resource = request.resource

/-! ## Orders -/

theorem Principal.Reordered.symm {principal other : Principal}
    (same : principal.Reordered other) : other.Reordered principal :=
  ⟨same.id.symm, same.roles.symm, same.authenticated.symm⟩

theorem Principal.Reordered.getD {principal other : Principal}
    (same : principal.Reordered other) {registered registered' : Option Principal}
    (both : Option.Rel Principal.Reordered registered registered') :
    (registered.getD principal).Reordered (registered'.getD other) := by
  cases both with
  | none => exact same
  | some own => exact own

theorem rel_converse {α : Type} {r r' : α → α → Prop} (converse : ∀ a b, r a b → r' b a)
    {first second : Option α} (related : Option.Rel r first second) :
    Option.Rel r' second first := by
  cases related with
  | none => exact Option.Rel.none
  | some own => exact Option.Rel.some (converse _ _ own)

namespace Reordered

variable {authorizer other : RoleAuthorizer} {request otherRequest : AuthorizationRequest}

theorem symm (same : Reordered authorizer request other otherRequest) :
    Reordered other otherRequest authorizer request where
  roles := fun roleName => rel_converse (fun _ _ permuted => permuted.symm) (same.roles roleName)
  principals := fun id => rel_converse (fun _ _ own => own.symm) (same.principals id)
  restrictions := same.restrictions.symm
  principal := same.principal.symm
  agent := same.agent.symm
  action := same.action.symm
  resource := same.resource.symm

theorem identity_roles (same : Reordered authorizer request other otherRequest) :
    (other.identity otherRequest.principal).roles.Perm
      (authorizer.identity request.principal).roles := by
  unfold RoleAuthorizer.identity
  rw [same.principal.id]
  exact (same.principal.getD (same.principals request.principal.id)).roles

theorem noLess (same : Reordered authorizer request other otherRequest) :
    NoLess authorizer request other otherRequest where
  authenticated := fun shown => same.principal.authenticated.trans shown
  claimed := fun _ => same.identity_roles.mem_iff
  roles := fun roleName role known => by
    have own := same.roles roleName
    rw [known] at own
    generalize other.roles roleName = others at own
    cases own with
    | some permuted => exact ⟨_, rfl, permuted.symm.subset⟩
  agent := same.agent.symm.subset
  restrictions := same.restrictions.subset
  action := same.action
  resource := same.resource

end Reordered

namespace RoleAuthorizer

variable {matched : String → String → Bool} {authorizer other : RoleAuthorizer}
variable {request otherRequest : AuthorizationRequest}

theorem Permitted.of_noLess (permitted : Permitted matched authorizer request)
    (noLess : NoLess authorizer request other otherRequest) :
    Permitted matched other otherRequest := by
  have grants_eq : grants matched otherRequest = grants matched request := by
    funext permission
    simp only [grants, noLess.action, noLess.resource]
  have denies_eq : denies matched otherRequest = denies matched request := by
    funext restriction
    simp only [denies, noLess.action, noLess.resource]
  refine
    { authenticated := noLess.authenticated permitted.authenticated
      rolesKnown := ?rolesKnown
      granted := ?granted
      unrestricted := ?unrestricted }
  case rolesKnown =>
    intro roleName claimed
    obtain ⟨role, known⟩ := permitted.rolesKnown roleName ((noLess.claimed roleName).mp claimed)
    obtain ⟨role', known', _⟩ := noLess.roles roleName role known
    exact ⟨role', known'⟩
  case granted =>
    obtain ⟨permission, grant, held⟩ := permitted.granted
    refine ⟨permission, grants_eq ▸ grant, ?_⟩
    rcases held with acting | ⟨roleName, claimed, role, known, listed⟩
    · exact Or.inl (noLess.agent acting)
    · obtain ⟨role', known', more⟩ := noLess.roles roleName role known
      exact Or.inr ⟨roleName, (noLess.claimed roleName).mpr claimed, role', known', more listed⟩
  case unrestricted =>
    intro restriction listed
    rw [denies_eq]
    exact permitted.unrestricted restriction (noLess.restrictions listed)

theorem NoLess.of_wider (wider : Wider authorizer request other otherRequest) :
    NoLess authorizer request other otherRequest := by
  cases wider with
  | @role roleName role permissions known more =>
      refine
        { authenticated := id
          claimed := fun _ => Iff.rfl
          roles := ?roles
          agent := List.Subset.refl _
          restrictions := List.Subset.refl _
          action := rfl
          resource := rfl }
      case roles =>
        intro name own found
        by_cases same : name = roleName
        · subst same
          obtain rfl : role = own := Option.some.inj (known.symm.trans found)
          exact ⟨_, Function.update_self .., more⟩
        · exact ⟨own, (Function.update_of_ne same ..).trans found, List.Subset.refl _⟩
  | @agent agent permissions acting more =>
      refine
        { authenticated := id
          claimed := fun _ => Iff.rfl
          roles := fun _ own found => ⟨own, found, List.Subset.refl _⟩
          agent := ?more
          restrictions := List.Subset.refl _
          action := rfl
          resource := rfl }
      case more =>
        have before : request.agentPermissions = agent.permissions := by
          simp [AuthorizationRequest.agentPermissions, acting]
        rw [before]
        exact more

theorem Permitted.not_unknown (permitted : Permitted matched authorizer request)
    {roleName : String} (unknown : authorizer.roles roleName = none) :
    roleName ∉ (authorizer.identity request.principal).roles := by
  intro claimed
  obtain ⟨role, known⟩ := permitted.rolesKnown roleName claimed
  exact nomatch unknown.symm.trans known

theorem NoLess.of_identity (claimed : (other.identity otherRequest.principal).roles =
      (authorizer.identity request.principal).roles)
    (authenticated : request.principal.authenticated = true →
      otherRequest.principal.authenticated = true)
    (roles : other.roles = authorizer.roles) (agent : otherRequest.agent = request.agent)
    (restrictions : other.restrictions ⊆ authorizer.restrictions)
    (action : otherRequest.action = request.action)
    (resource : otherRequest.resource = request.resource) :
    NoLess authorizer request other otherRequest where
  authenticated := authenticated
  claimed := fun _ => by rw [claimed]
  roles := fun _ own found => ⟨own, roles ▸ found, List.Subset.refl _⟩
  agent := by
    unfold AuthorizationRequest.agentPermissions
    rw [agent]
    exact List.Subset.refl _
  restrictions := restrictions
  action := action
  resource := resource

theorem Permitted.of_stricter (stricter : Stricter authorizer request other otherRequest)
    (permitted : Permitted matched other otherRequest) :
    Permitted matched authorizer request := by
  cases stricter with
  | @restriction before after restriction split =>
      have fewer : authorizer.restrictions ⊆ before ++ restriction :: after := by
        rw [split]
        exact ((List.sublist_cons_self restriction after).append_left before).subset
      exact permitted.of_noLess (NoLess.of_identity rfl id rfl rfl fewer rfl rfl)
  | @requested before after roleName unknown split =>
      have absent := permitted.not_unknown unknown
      cases registered : authorizer.principals request.principal.id with
      | none =>
          exact absurd (by simp [identity, registered]) absent
      | some own =>
          refine permitted.of_noLess
            (NoLess.of_identity ?_ id rfl rfl (List.Subset.refl _) rfl rfl)
          simp [identity, registered]
  | @registered id own before after roleName unknown known split =>
      have absent := permitted.not_unknown unknown
      by_cases same : request.principal.id = id
      · subst same
        exact absurd (by simp [identity]) absent
      · refine permitted.of_noLess
          (NoLess.of_identity ?_ (fun shown => shown) rfl rfl (List.Subset.refl _) rfl rfl)
        simp [identity, Function.update_of_ne same]

/-- What an authorizer decides about a request only grows with the permissions, only
shrinks with restrictions and unknown roles, and does not depend on any order. -/
structure MonotoneAt (matched : String → String → Bool) (authorizer : RoleAuthorizer)
    (request : AuthorizationRequest) : Prop where
  wider : ∀ other otherRequest, Wider authorizer request other otherRequest →
    (authorizer.authorizeWith matched request).status = .allowed →
      (other.authorizeWith matched otherRequest).status = .allowed
  stricter : ∀ other otherRequest, Stricter authorizer request other otherRequest →
    (authorizer.authorizeWith matched request).status = .denied →
      (other.authorizeWith matched otherRequest).status = .denied
  reordered : ∀ other otherRequest, Reordered authorizer request other otherRequest →
    (other.authorizeWith matched otherRequest).status =
      (authorizer.authorizeWith matched request).status

theorem denied_iff_not_permitted (matched : String → String → Bool)
    (authorizer : RoleAuthorizer) (request : AuthorizationRequest) :
    (authorizer.authorizeWith matched request).status = .denied ↔
      ¬ Permitted matched authorizer request := by
  rw [← authorizeWith_allowed_iff]
  rcases authorizer.authorizeWith_status matched request with status | status
  · simp [status]
  · simp [status]

theorem authorization_monotone (matched : String → String → Bool)
    (authorizer : RoleAuthorizer) (request : AuthorizationRequest) :
    MonotoneAt matched authorizer request := by
  refine { wider := ?wider, stricter := ?stricter, reordered := ?reordered }
  case wider =>
    intro other otherRequest wider allowed
    have permitted := (authorizeWith_allowed_iff matched authorizer request).mp allowed
    exact (authorizeWith_allowed_iff matched other otherRequest).mpr
      (permitted.of_noLess (NoLess.of_wider wider))
  case stricter =>
    intro other otherRequest stricter denied
    have refused := (denied_iff_not_permitted matched authorizer request).mp denied
    exact (denied_iff_not_permitted matched other otherRequest).mpr
      (mt (Permitted.of_stricter stricter) refused)
  case reordered =>
    intro other otherRequest same
    have permitted : Permitted matched other otherRequest ↔
        Permitted matched authorizer request :=
      ⟨fun own => own.of_noLess same.symm.noLess, fun own => own.of_noLess same.noLess⟩
    rcases authorizer.authorizeWith_status matched request with status | status
    · rw [status, authorizeWith_allowed_iff, permitted]
      exact (authorizeWith_allowed_iff matched authorizer request).mp status
    · rw [status, denied_iff_not_permitted, permitted]
      exact (denied_iff_not_permitted matched authorizer request).mp status

end RoleAuthorizer

end Eis.Security
