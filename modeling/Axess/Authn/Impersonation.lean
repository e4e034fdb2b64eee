import Axess.Authn.Service

/-!
# Impersonation

An administrator takes the identity of another user (`authn/service/account/impersonation.rs`):
the checks that come before the session is touched, the change of identity, and the move of the
registry entry the service makes itself.
-/

namespace Axess

variable {V : Type}

namespace AuthnService

variable (service : AuthnService)

def refuseImpersonation (admin : UserId) (target : Option (UserId × TenantId))
    (reason : AuthFailureReason) (error : AuthnError) : Async V AuthnError := do
  match ← emitAudit ⟨.impersonation, target.map (·.1), target.map (·.2), none, some admin,
    some reason⟩ with
  | .ok () => pure error
  | .error e => pure e

def admitImpersonation (admin : UserId) (expectedTenant : Option TenantId) (target : UserId)
    (s : SessionInner V) : Async V (Except AuthnError (Instant × TenantId)) := do
  match s.data.authState.impersonation with
  | some holder =>
    return .error (← refuseImpersonation holder.admin none .nestedImpersonation .impersonated)
  | none =>
    match s.data.authState with
    | .authenticated userId tenantId authnTime _ _ _ =>
      if userId ≠ admin then
        return .error (← refuseImpersonation admin none .sessionIsNotAdmin .noFlow)
      else
        match ← Idn.getUserTenant target with
        | .error _ =>
          return .error (← refuseImpersonation admin none .targetLookupFailed .store)
        | .ok none =>
          let error := if expectedTenant.isNone then .noFlow else .crossTenant
          return .error (← refuseImpersonation admin none .unknownTarget error)
        | .ok (some targetTenant) =>
          if expectedTenant.any fun expected =>
              targetTenant != expected || tenantId != expected then
            return .error (← refuseImpersonation admin (some (target, targetTenant))
              .crossTenantImpersonation .crossTenant)
          else pure (.ok (authnTime, targetTenant))
    | _ => return .error (← refuseImpersonation admin none .adminNotAuthenticated .noFlow)

def requireTenantStanding (admin target : UserId) (targetTenant tenant : TenantId) :
    Async V (Except AuthnError Unit) := do
  match ← service.requireActiveTenant tenant with
  | .ok () => pure (.ok ())
  | .error .store => pure (.error .store)
  | .error refusal =>
    match ← emitAudit ⟨.impersonation, some target, some targetTenant, none, some admin,
      some .notActive⟩ with
    | .ok () => pure (.error refusal)
    | .error e => pure (.error e)

def requireImpersonationStanding (admin target : UserId) (targetTenant : TenantId) :
    Async V (Except AuthnError Unit) := do
  match ← service.currentAccountStatus admin with
  | .error e => pure (.error e)
  | .ok adminStatus =>
    if !adminStatus.allowsLogin then
      return .error (← refuseImpersonation admin (some (target, targetTenant)) .adminNotActive
        (.notActive adminStatus))
    else
      match ← service.currentAccountStatus target with
      | .error e => pure (.error e)
      | .ok status =>
        if !status.allowsLogin then
          match ← emitAudit ⟨.impersonation, some target, some targetTenant, none, some admin,
            some .notActive⟩ with
          | .ok () => pure (.error (.notActive status))
          | .error e => pure (.error e)
        else
          match ← Idn.getUserTenant admin with
          | .error _ => pure (.error .store)
          | .ok adminTenant =>
            match ← service.requireTenantStanding admin target targetTenant targetTenant with
            | .error e => pure (.error e)
            | .ok () =>
              match adminTenant with
              | none => pure (.ok ())
              | some tenant => service.requireTenantStanding admin target targetTenant tenant

def assumeIdentity (admin target : UserId) (targetTenant : TenantId) (authnTime : Instant)
    (s : SessionInner V) : SessionInner V :=
  let s := AuthSession.clearCustom s
  let s := AuthSession.setAuthenticatedKeeping target targetTenant authnTime [] s
  let s := (AuthSession.setImpersonator admin service.now s).1
  AuthSession.regenerate s

def recordImpersonation (admin target : UserId) (targetTenant : TenantId) (sid : SessionId) :
    SessionAction V Unit := fun s => do
  match ← emitAudit ⟨.impersonation, some target, some targetTenant, some sid, some admin,
    none⟩ with
  | .ok () => pure (.ok (), s)
  | .error e =>
    let s ← service.endSessionAfterAuditFailure target s
    pure (.error e, s)

def takeOver (admin target : UserId) (targetTenant : TenantId) (authnTime : Instant) :
    SessionAction V Unit := fun s => do
  let (adminSid, s) := AuthSession.sessionId s
  let s := service.assumeIdentity admin target targetTenant authnTime s
  let (sid, s) := AuthSession.sessionId s
  if service.registry then
    let _ ← Reg.invalidateSession admin adminSid
    if ← Reg.register target sid then
      service.recordImpersonation admin target targetTenant sid s
    else
      let error ← refuseImpersonation admin (some (target, targetTenant)) .sessionNotRegistered
        .noFlow
      pure (.error error, AuthSession.clear s)
  else service.recordImpersonation admin target targetTenant sid s

def impersonate (admin : UserId) (expectedTenant : Option TenantId) (target : UserId) :
    SessionAction V Unit := fun s => do
  match ← admitImpersonation admin expectedTenant target s with
  | .error e => pure (.error e, s)
  | .ok (authnTime, targetTenant) =>
    match ← service.requireImpersonationStanding admin target targetTenant with
    | .error e => pure (.error e, s)
    | .ok () => service.takeOver admin target targetTenant authnTime s

def beginImpersonationAcrossTenants (admin target : UserId) : SessionAction V Unit :=
  service.impersonate admin none target

/-- The administrator's tenant, as stored, is the rail. -/
def beginImpersonation (admin target : UserId) : SessionAction V Unit := fun s => do
  match ← Idn.getUserTenant admin with
  | .error _ => pure (.error .store, s)
  | .ok none =>
    return (.error (← refuseImpersonation admin none .unknownAdmin .noFlow), s)
  | .ok (some adminTenant) => service.impersonate admin (some adminTenant) target s

end AuthnService

end Axess
