import Axess.Authn.Account

/-!
# Ending a user's sessions

Sessions ended on purpose (`authn/service/revocation.rs`), and the suspension of an account that
does so (`authn/service/account/admin.rs`): the status is written first, then every session of the
user leaves the registry, then the refresh tokens go. What failed on the way is reported after the
audit row.
-/

namespace Axess

variable {V : Type}

inductive Actor where
  | admin (userId : UserId)
  | system
  deriving DecidableEq, Repr

def Actor.id : Actor → Option UserId
  | admin userId => some userId
  | system => none

inductive RevokeFailure where
  | noRegistry | registry | notHeld
  deriving DecidableEq, Repr

def RevokeFailure.intoAuthn : RevokeFailure → AuthnError
  | noRegistry => .internal
  | registry => .externalService
  | notHeld => .noFlow

def deleteRows : List SessionId → Async V Unit
  | [] => pure ()
  | id :: rest => do
    let _ ← Store.delete id
    deleteRows rest

namespace LoginService

variable (service : LoginService)

def deleteSessionRows (ids : List SessionId) : Async V Unit :=
  if service.sessionRows then deleteRows ids else pure ()

def revokeUserSessions (u : UserId) : Async V (Except RevokeFailure Unit) :=
  if service.registry then do
    let live ← Reg.heldSessions u
    let revoked ← Reg.invalidateUser u
    service.deleteSessionRows (live.toOption.getD [])
    match revoked with
    | .ok () => pure (.ok ())
    | .error _ => pure (.error .registry)
  else pure (.error .noRegistry)

/-- Without a registry there is nothing to end. -/
def endUserSessions (u : UserId) : Async V (Except AuthnError Unit) := do
  match ← service.revokeUserSessions u with
  | .ok () => pure (.ok ())
  | .error .noRegistry => pure (.ok ())
  | .error failure => pure (.error failure.intoAuthn)

def verifyAdminTargetInTenant (u : UserId) (actor : Actor) (expectedTenant : Option TenantId)
    (eventType : AuthEventType) : Async V (Except AuthnError TenantId) := do
  match ← Idn.getUserTenant u with
  | .error _ => pure (.error .store)
  | .ok tenant =>
    match expectedTenant with
    | some expected =>
      if tenant = some expected then pure (.ok expected)
      else
        match ← AuthnService.emitAudit
          ⟨eventType, none, some expected, none, actor.id, some .crossTenantAdminAction⟩ with
        | .error e => pure (.error e)
        | .ok () => pure (.error .crossTenant)
    | none =>
      match tenant with
      | some tenant => pure (.ok tenant)
      | none => pure (.error .noFlow)

def endSuspended (u : UserId) (tenant : TenantId) (actor : Actor) :
    Async V (Except AuthnError Unit) := do
  let sessionsEnded ← service.endUserSessions u
  let revoked ← Idn.note (.revokeRefreshTokens u)
  match ← AuthnService.emitAudit
    ⟨.accountSuspended, some u, some tenant, none, actor.id, none⟩ with
  | .error e => pure (.error e)
  | .ok () =>
    match sessionsEnded, revoked with
    | .error e, _ => pure (.error e)
    | .ok (), .error _ => pure (.error .externalService)
    | .ok (), .ok () => pure (.ok ())

def suspendUserInner (actor : Actor) (expectedTenant : Option TenantId) (u : UserId)
    (detail : StatusDetail) : Async V (Except AuthnError Unit) := do
  match ← verifyAdminTargetInTenant u actor expectedTenant .accountSuspended with
  | .error e => pure (.error e)
  | .ok tenant =>
    match ← Idn.suspendUser u detail with
    | .error _ => pure (.error .store)
    | .ok () => service.endSuspended u tenant actor

end LoginService

end Axess
