import Axess.Authn.Flow

/-!
# Completing a login

What happens once the last factor of a flow is verified (`authn/service/account.rs`): the session
is registered under the cap on the user's sessions, the flow and the account are looked at once
more, and the login is recorded. The session is authenticated already while this runs, so every
refusal revokes and clears it.
-/

namespace Axess

variable {V : Type}

inductive FactorOutcome where
  | authenticated
  | factorRequired (kind : FactorKind)
  | invalidCredential
  | locked (untilTime : Option Instant)
  | throttled (retryAfter : Duration)
  deriving DecidableEq, Repr

def victimsBeforeRegister (active : List SessionId) (sid : SessionId) (max : Nat) :
    List SessionId :=
  let others := active.filter (· != sid)
  others.take (min (others.length + 1 - max) others.length)

def victimsAfterRegister (active : List SessionId) (max : Nat) : List SessionId :=
  active.take (active.length - max)

def evictSessions (u : UserId) : List SessionId → Async V Unit
  | [] => pure ()
  | victim :: rest => do
    let _ ← Reg.invalidateSession u victim
    evictSessions u rest

namespace LoginService

variable (service : LoginService)

def makeRoom (u : UserId) (sid : SessionId) : Async V Bool :=
  match service.maxSessionsPerUser with
  | none => pure true
  | some max => do
    match ← Reg.heldSessions u with
    | .error _ => pure false
    | .ok active =>
      evictSessions u (victimsBeforeRegister active sid max)
      pure true

def trimSessions (u : UserId) (sid : SessionId) : Async V Bool :=
  match service.maxSessionsPerUser with
  | none => pure true
  | some max => do
    match ← Reg.heldSessions u with
    | .error _ =>
      let _ ← Reg.invalidateSession u sid
      pure false
    | .ok active =>
      let victims := victimsAfterRegister active max
      evictSessions u victims
      pure (!victims.contains sid)

def refuseRegistered {α : Type} (u : UserId) (sid : SessionId) (answer : Except AuthnError α)
    (s : SessionInner V) : Async V (Except AuthnError α × SessionInner V) := do
  let _ ← Reg.invalidateSession u sid
  pure (answer, AuthSession.clear s)

def suspendedUntil : EntityState → Option Instant
  | .suspended detail => detail.untilTime
  | _ => none

def recheckStatusAfterRegister (u : UserId) (sid : SessionId) :
    SessionAction V (Option FactorOutcome) := fun s => do
  match ← service.currentAccountStatus u with
  | .error e => refuseRegistered u sid (.error e) s
  | .ok status =>
    if !status.allowsLogin then
      refuseRegistered u sid (.ok (some (.locked (suspendedUntil status)))) s
    else pure (.ok none, s)

section Session

variable [JsonValue V FlowStamp] [BEq V] [JsonSize V]

def checkRegistered (scope : UserScope) (sid : SessionId) :
    SessionAction V (Option FactorOutcome) := fun s => do
  let (current, s) ← service.flowStillCurrent scope s
  match current with
  | .ok true => service.recheckStatusAfterRegister scope.userId sid s
  | .ok false => refuseRegistered scope.userId sid (.error .noFlow) s
  | .error e => refuseRegistered scope.userId sid (.error e) s

def registerTracked (scope : UserScope) (sid : SessionId) :
    SessionAction V (Option FactorOutcome) := fun s => do
  if ← service.makeRoom scope.userId sid then
    if ← Reg.register scope.userId sid then
      if ← service.trimSessions scope.userId sid then service.checkRegistered scope sid s
      else pure (.error .noFlow, AuthSession.clear s)
    else pure (.error .noFlow, AuthSession.clear s)
  else pure (.error .noFlow, AuthSession.clear s)

def checkUntracked (scope : UserScope) : SessionAction V (Option FactorOutcome) := fun s => do
  let (current, s) ← service.flowStillCurrent scope s
  match current with
  | .ok true => pure (.ok none, s)
  | .ok false => pure (.error .noFlow, AuthSession.clear s)
  | .error e => pure (.error e, AuthSession.clear s)

def registerAuthenticatedSession (scope : UserScope) (sid : SessionId) :
    SessionAction V (Option FactorOutcome) :=
  if service.registry then service.registerTracked scope sid else service.checkUntracked scope

def recordLogin (scope : UserScope) (sid : SessionId) : SessionAction V FactorOutcome :=
  fun s => do
    let _ ← Idn.note (.resetFailedAttempts scope.userId)
    match ← AuthnService.emitAudit
      ⟨.authenticated, some scope.userId, some scope.tenantId, some sid, none, none⟩ with
    | .error e =>
      let s ← service.endSessionAfterAuditFailure scope.userId s
      pure (.error e, s)
    | .ok () =>
      let _ ← Idn.note (.recordLastLogin scope.userId)
      pure (.ok .authenticated, s)

def nextKind : AuthState → Option FactorKind
  | .authenticating _ _ _ remaining .. => remaining.head?.bind FactorStep.primary
  | _ => none

def completeFactorStep (scope : UserScope) : SessionAction V FactorOutcome := fun s => do
  if s.data.authState.isAuthenticated then
    let (sid, s) := AuthSession.sessionId s
    let (registered, s) ← service.registerAuthenticatedSession scope sid s
    match registered with
    | .error e => pure (.error e, s)
    | .ok (some outcome) => pure (.ok outcome, s)
    | .ok none => service.recordLogin scope sid s
  else
    match nextKind s.data.authState with
    | some kind => pure (.ok (.factorRequired kind), s)
    | none => pure (.ok .authenticated, s)

end Session

end LoginService

end Axess
