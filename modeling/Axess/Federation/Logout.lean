import Axess.Bytes.Base64
import Axess.Bytes.Json
import Axess.Calls.Prog
import Axess.Federation.JtiLog
import Axess.Federation.SidMap

/-!
# Logout by the identity provider

The endpoint that an identity provider sends a logout token to
(`federation/backchannel_logout.rs`, `federation/backchannel_logout/ending.rs`,
`oidc/logout_token.rs`). The token is verified and its claims are checked; its `(issuer, jti)` pair
is recorded; the sessions it names are ended; and the pair is settled or forgotten.
-/

namespace Axess

open Calls

def backchannelLogoutEvent : String := "http://schemas.openid.net/event/backchannel-logout"

def maxIatAgeSecs : Int := 300

def maxIatFutureSecs : Int := 60

def jtiRetentionSecs : Int := maxIatAgeSecs + maxIatFutureSecs

def maxLogoutTokenBytes : Nat := 8 * 1024

def decodeJwtPayload (parseJson : List UInt8 → Option Json) (token : List Char) : Option Json :=
  if maxLogoutTokenBytes < (token.map Char.utf8Size).sum then none
  else match token.splitOn '.' with
    | [_, payload, _] => (Bytes.Base64.decode payload).bind parseJson
    | _ => none

namespace LogoutToken

def audContains (payload : Json) (clientId : String) : Bool :=
  match payload.get "aud" with
  | some (.str aud) => aud == clientId
  | some (.arr auds) => auds.any fun aud => aud.asStr == some clientId
  | _ => false

def azpSatisfied (payload : Json) (clientId : String) : Bool :=
  if (payload.get "azp").any fun azp => azp.asStr != some clientId then false
  else match payload.get "aud" with
    | some (.arr auds) => if 1 < auds.length then (payload.get "azp").isSome else true
    | _ => true

def addressedTo (unverified : Json) (clientId : String) : Bool :=
  audContains unverified clientId && azpSatisfied unverified clientId

def iatWithin (iat now maxFuture maxAge : Int) : Bool :=
  -(2 ^ 63) ≤ now - iat ∧ now - iat < 2 ^ 63 ∧ -maxFuture ≤ now - iat ∧ now - iat ≤ maxAge

def iat (payload : Json) : Option Int := (payload.get "iat").bind Json.asI64

def checkIat (payload : Json) (now : Int) : Bool :=
  (iat payload).any fun iat => iatWithin iat now maxIatFutureSecs maxIatAgeSecs

def eventsContainsLogout (payload : Json) : Bool :=
  ((payload.get "events").bind Json.asObject).any fun events =>
    events.any (·.1 == backchannelLogoutEvent)

def jti (payload : Json) : Option String := (payload.getStr "jti").filter fun jti => !jti.isEmpty

end LogoutToken

structure LogoutTokenClaims where
  sub : Option String
  sid : Option String
  iss : String
  jti : String
  deriving DecidableEq

def LogoutTokenClaims.pair (claims : LogoutTokenClaims) : String × String := (claims.iss, claims.jti)

structure ProviderEntry (P : Type) where
  clientId : String
  name : String
  provider : P
  tenant : Option TenantId

structure TenantProvider (P : Type) where
  tenant : TenantId
  name : String
  clientId : Option String
  provider : P

structure BrokenProvider where
  tenant : TenantId
  name : String
  clientId : String

structure IssuerProviders (P : Type) where
  providers : List (TenantProvider P)
  broken : List BrokenProvider

inductive LogoutProviderError where
  | ambiguous (global : Bool) (tenants : List TenantId)
  | source
  | unavailable (tenant : TenantId) (name : String)

inductive Status where
  | ok
  | badRequest
  | serviceUnavailable
  deriving DecidableEq, Repr

def LogoutProviderError.status : LogoutProviderError → Status
  | ambiguous .. => .badRequest
  | source => .serviceUnavailable
  | unavailable .. => .serviceUnavailable

inductive VerifyError where
  | unknownKid
  | jwksExpired
  | other
  deriving DecidableEq

structure LogoutHandler (P : Type) where
  parseJson : List UInt8 → Option Json
  providersByIssuer : String → List (ProviderEntry P)
  tenants : Bool
  audit : Bool
  jtiCacheMax : Nat

def chooseProvider {P : Type} (global : Option (ProviderEntry P)) (found : IssuerProviders P)
    (unverified : Json) : Except LogoutProviderError (Option (ProviderEntry P)) :=
  let tenantMatches : List (ProviderEntry P) := found.providers.filterMap fun built =>
    built.clientId.bind fun clientId =>
      if LogoutToken.addressedTo unverified clientId then
        some ⟨clientId, built.name, built.provider, some built.tenant⟩
      else none
  let broken := found.broken.filter fun b => LogoutToken.addressedTo unverified b.clientId
  if 1 < global.toList.length + tenantMatches.length + broken.length then
    .error (.ambiguous global.isSome (tenantMatches.filterMap (·.tenant) ++ broken.map (·.tenant)))
  else match broken with
    | b :: _ => .error (.unavailable b.tenant b.name)
    | [] => .ok (global <|> tenantMatches.getLast?)

inductive LogoutCall (P : Type) where
  | providersForIssuer (iss : String)
  | verifyLogoutJwt (provider : P) (token : List Char)
  | refreshJwks (provider : P)
  | clock
  | record (pair : String × String) (now cutoff : Instant)
  | settle (pair : String × String)
  | forget (pair : String × String)
  | sidGet (key : SidKey)
  | sidRemoveIf (key : SidKey) (session : SessionId)
  | subjectSessions (iss sub : String)
  | removeSession (session : SessionId)
  | invalidateSession (user : UserId) (session : SessionId)
  | reportEnded (iss : String) (user : UserId) (session : SessionId)

/-- A call that waits answers nothing if the request is dropped there. -/
def LogoutCall.Answer {P : Type} : LogoutCall P → Type
  | providersForIssuer _ => Option (Except Unit (IssuerProviders P))
  | verifyLogoutJwt .. => Except VerifyError Json
  | refreshJwks _ => Option (Except Unit Unit)
  | clock => Instant
  | record .. => Recorded
  | settle _ => Unit
  | forget _ => Unit
  | sidGet _ => Option StoredSid
  | sidRemoveIf .. => Unit
  | subjectSessions .. => List (UserId × SessionId)
  | removeSession _ => Unit
  | invalidateSession .. => Option (Except Unit Unit)
  | reportEnded .. => Option Unit

abbrev LogoutProg (P α : Type) := Prog (LogoutCall P) LogoutCall.Answer α

inductive SidOutcome where
  | unmapped
  | ended
  | failed
  deriving DecidableEq

namespace LogoutHandler

variable {P : Type} (handler : LogoutHandler P)

def call (e : LogoutCall P) : LogoutProg P e.Answer := Prog.perform e

def entryFor (iss : String) (unverified : Json) :
    LogoutProg P (Option (Except LogoutProviderError (Option (ProviderEntry P)))) := do
  let global := (handler.providersByIssuer iss).find? fun e =>
    LogoutToken.addressedTo unverified e.clientId
  if !handler.tenants then pure (some (.ok global))
  else match ← call (.providersForIssuer iss) with
    | none => pure none
    | some (.error _) => pure (some (.error .source))
    | some (.ok found) => pure (some (chooseProvider global found unverified))

/-- The verified payload; after a refresh of the keys if the first try asks for it. -/
def verify (provider : P) (token : List Char) : LogoutProg P (Option (Except Status Json)) := do
  match ← call (.verifyLogoutJwt provider token) with
  | .ok payload => pure (some (.ok payload))
  | .error .other => pure (some (.error .badRequest))
  | .error _ =>
    match ← call (.refreshJwks provider) with
    | none => pure none
    | some _ =>
      match ← call (.verifyLogoutJwt provider token) with
      | .ok payload => pure (some (.ok payload))
      | .error _ => pure (some (.error .badRequest))

def checkPayload (iss clientId : String) (payload : Json) (now : Int) :
    Except Status LogoutTokenClaims :=
  if !LogoutToken.audContains payload clientId then .error .badRequest
  else if !LogoutToken.azpSatisfied payload clientId then .error .badRequest
  else if !LogoutToken.checkIat payload now then .error .badRequest
  else if !LogoutToken.eventsContainsLogout payload then .error .badRequest
  else if (payload.getStr "sub").isNone && (payload.getStr "sid").isNone then .error .badRequest
  else if (payload.get "nonce").isSome then .error .badRequest
  else match LogoutToken.jti payload with
    | none => .error .badRequest
    | some jti => .ok ⟨payload.getStr "sub", payload.getStr "sid", iss, jti⟩

def validateLogoutToken (token : List Char) :
    LogoutProg P (Option (Except Status LogoutTokenClaims)) :=
  match decodeJwtPayload handler.parseJson token with
  | none => pure (some (.error .badRequest))
  | some unverified =>
    match unverified.getStr "iss" with
    | none => pure (some (.error .badRequest))
    | some iss => do
      match ← handler.entryFor iss unverified with
      | none => pure none
      | some (.error e) => pure (some (.error e.status))
      | some (.ok none) => pure (some (.error .badRequest))
      | some (.ok (some entry)) =>
        match ← verify entry.provider token with
        | none => pure none
        | some (.error status) => pure (some (.error status))
        | some (.ok payload) => do
          let instant : Instant ← call .clock
          pure (some (checkPayload iss entry.clientId payload (timestamp instant)))

/-- End a session in the registry, and once that is confirmed drop its mappings and report it.
`none` if the request was dropped. -/
def endOne (iss : String) (user : UserId) (session : SessionId)
    (dropMapping : LogoutProg P Unit) : LogoutProg P (Option Bool) := do
  match ← call (.invalidateSession user session) with
  | none => pure none
  | some (.error _) => pure (some false)
  | some (.ok ()) => do
    dropMapping
    if handler.audit then
      match ← call (.reportEnded iss user session) with
      | none => pure none
      | some () => pure (some true)
    else pure (some true)

def endBySid (claims : LogoutTokenClaims) : LogoutProg P (Option SidOutcome) :=
  match claims.sid with
  | none => pure (some .unmapped)
  | some sid => do
    match ← call (.sidGet (claims.iss, sid)) with
    | none => pure (some .unmapped)
    | some stored => do
      let ended ← handler.endOne claims.iss stored.user stored.session
        (call (.sidRemoveIf (claims.iss, sid) stored.session))
      pure (ended.map fun ended => if ended then .ended else .failed)

def endAll (iss : String) : List (UserId × SessionId) → LogoutProg P (Option Bool)
  | [] => pure (some false)
  | (user, session) :: owned => do
    match ← handler.endOne iss user session (call (.removeSession session)) with
    | none => pure none
    | some ended => do
      let failed ← endAll iss owned
      pure (failed.map (!ended || ·))

def endBySub (claims : LogoutTokenClaims) : LogoutProg P (Option Bool) :=
  match claims.sub with
  | none => pure (some false)
  | some sub => do
    let owned ← call (.subjectSessions claims.iss sub)
    handler.endAll claims.iss owned

def actOn (claims : LogoutTokenClaims) : LogoutProg P (Option Bool) := do
  match ← handler.endBySid claims with
  | none => pure none
  | some .ended => pure (some false)
  | some .failed => pure (some true)
  | some .unmapped => handler.endBySub claims

def admitJti (pair : String × String) : LogoutProg P (Except Status Unit) := do
  let now : Instant ← call .clock
  match ← call (.record pair now (now - jtiRetentionSecs * second)) with
  | .new => pure (.ok ())
  | .inFlight => pure (.error .serviceUnavailable)
  | .replay => pure (.error .badRequest)
  | .full => pure (.error .serviceUnavailable)

/-- Act on a token whose pair was admitted. The pair is settled if everything was done, and
forgotten if not or if the request is dropped. -/
def acting (claims : LogoutTokenClaims) : LogoutProg P (Option (Except Status Status)) := do
  match ← handler.actOn claims with
  | some false => do
    call (.settle claims.pair)
    pure (some (.ok .ok))
  | some true => do
    call (.forget claims.pair)
    pure (some (.error .serviceUnavailable))
  | none => do
    call (.forget claims.pair)
    pure none

/-- Validate a token and admit its pair, and `act` then. -/
def handleWith (act : LogoutTokenClaims → LogoutProg P (Option (Except Status Status)))
    (token : List Char) : LogoutProg P (Option (Except Status Status)) := do
  match ← handler.validateLogoutToken token with
  | none => pure none
  | some (.error status) => pure (some (.error status))
  | some (.ok claims) =>
    match ← admitJti claims.pair with
    | .error status => pure (some (.error status))
    | .ok () => act claims

def handleOutcome (token : List Char) : LogoutProg P (Option (Except Status Status)) :=
  handler.handleWith handler.acting token

end LogoutHandler

end Axess
