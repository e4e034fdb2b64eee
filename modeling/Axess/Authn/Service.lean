import Axess.Session.Service

/-!
# The authentication service

What the service's operations share (`authn/service.rs`, `authn/service/account.rs`), and
`rotate_session` (`authn/service/login.rs`). An operation works on the session of the request it
is called in: it takes the session and answers with the session as it leaves it.
-/

namespace Axess

variable {V : Type}

structure AuthnService where
  registry : Bool
  now : Instant

inductive AuthnError where
  | store
  | noFlow
  | impersonated
  | notActive (status : EntityState)
  | crossTenant
  | unknownTenant
  | internal
  | externalService
  deriving DecidableEq, Repr

abbrev SessionAction (V α : Type) := SessionInner V → Async V (Except AuthnError α × SessionInner V)

namespace AuthnService

variable (service : AuthnService)

def emitAudit (event : AuditEvent) : Async V (Except AuthnError Unit) := do
  match ← Idn.recordEvent event with
  | .ok () => pure (.ok ())
  | .error _ => pure (.error .store)

def currentAccountStatus (u : UserId) : Async V (Except AuthnError EntityState) := do
  match ← Idn.accountStatus u with
  | .ok status => pure (.ok (status.effectiveAt service.now))
  | .error _ => pure (.error .store)

def requireActiveTenant (t : TenantId) : Async V (Except AuthnError Unit) := do
  match ← Idn.getTenant t with
  | .error _ => pure (.error .store)
  | .ok none => pure (.error .unknownTenant)
  | .ok (some status) =>
    if (status.effectiveAt service.now).allowsLogin then pure (.ok ())
    else pure (.error (.notActive (status.effectiveAt service.now)))

def endSessionAfterAuditFailure (u : UserId) (s : SessionInner V) : Async V (SessionInner V) := do
  let (sid, s) := AuthSession.sessionId s
  if service.registry then
    let _ ← Reg.invalidateSession u sid
  pure (AuthSession.clear s)

def rotateSession : SessionAction V Unit := fun s => do
  let user := s.data.authState.authenticatedUserId
  let (old, s) := AuthSession.sessionId s
  let s := AuthSession.regenerate s
  match user with
  | some userId =>
    if service.registry then
      let (new, s) := AuthSession.sessionId s
      if ← Reg.register userId new then
        let _ ← Reg.invalidateSession userId old
        pure (.ok (), s)
      else
        let _ ← Reg.invalidateSession userId old
        pure (.error .noFlow, AuthSession.clear s)
    else pure (.ok (), s)
  | none => pure (.ok (), s)

end AuthnService

end Axess
