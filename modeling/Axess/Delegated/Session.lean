import Axess.Refresh.Token

/-!
# Delegated credentials

A user's grant at an identity provider is kept as an access token with the refresh token that
renews it (`delegated/stored/credential.rs`). `StoredDelegationSession`
(`delegated/stored/session.rs`) hands out the access token and renews it when it is stale: under a
lock that every caller in the process shares, in a task of its own that runs to the end whether or
not its caller still waits.
-/

namespace Axess

open Calls

variable {ι : Type}

structure StoredDelegation where
  provider : String
  accessToken : String
  refreshToken : Option String
  expiresAt : Option Instant
  scopes : List String
  tokenType : String
  deriving DecidableEq, Repr

inductive DelegatedError where
  | transport (message : String)
  | tokenEndpoint (status : Nat) (body : String)
  | malformedResponse (message : String)
  | store (message : String)
  | notConnected
  | unsupportedTokenType (tokenType : String)
  | refreshRejected
  deriving DecidableEq, Repr

namespace StoredDelegation

variable (cred : StoredDelegation)

/-- A credential without an expiry is fresh; a skew that leaves the calendar has no deadline. -/
def isFresh (now : Instant) (skew : TimeDelta) : Bool :=
  match cred.expiresAt with
  | some exp => (checkedAddSigned exp (-max skew 0)).any (now < ·)
  | none => true

def bearer : Except DelegatedError String :=
  if cred.tokenType.toLower == "bearer" then .ok cred.accessToken
  else .error (.unsupportedTokenType cred.tokenType)

end StoredDelegation

structure TokenResponse where
  accessToken : String
  refreshToken : Option String
  expiresIn : Option Nat
  tokenType : Option String
  scope : Option (List String)
  deriving DecidableEq, Repr

inductive EndpointAnswer where
  | failed (message : String)
  | refused (status : Nat) (body : String) (errorCode : Option String)
  | unreadable (message : String)
  | granted (response : TokenResponse)
  deriving DecidableEq, Repr

structure TokenGrant where
  credential : StoredDelegation
  scope : Option (List String)
  deriving DecidableEq, Repr

def nanosPerSecond : Int := 1000000000

def maxI64 : Nat := 9223372036854775807

def maxTimeDeltaSecs : Nat := 9223372036854775

def expiryAfter (now : Instant) (secs : Nat) : Option Instant :=
  if secs ≤ maxI64 ∧ secs ≤ maxTimeDeltaSecs then checkedAddSigned now (secs * nanosPerSecond) else none

/-- The credential a refresh is answered with; `invalid_grant` is the refusal of the refresh
token itself. -/
def parseTokenResponse (provider : String) (now : Instant) :
    EndpointAnswer → Except DelegatedError TokenGrant
  | .failed message => .error (.transport message)
  | .refused status body errorCode =>
    if status = 400 ∧ errorCode = some "invalid_grant" then .error .refreshRejected
    else .error (.tokenEndpoint status body)
  | .unreadable message => .error (.malformedResponse message)
  | .granted r =>
    if r.accessToken.isEmpty then .error (.malformedResponse "access_token field is empty")
    else
      match r.expiresIn with
      | none => .ok (grant r none)
      | some secs =>
        match expiryAfter now secs with
        | none => .error (.malformedResponse s!"expires_in {secs} is out of range")
        | some exp => .ok (grant r (some exp))
where
  grant (r : TokenResponse) (expiresAt : Option Instant) : TokenGrant :=
    { credential :=
        { provider
          accessToken := r.accessToken
          refreshToken := r.refreshToken
          expiresAt
          scopes := []
          tokenType := r.tokenType.getD "Bearer" }
      scope := r.scope }

theorem parseTokenResponse_provider {provider : String} {now : Instant} {answer : EndpointAnswer}
    {g : TokenGrant} (h : parseTokenResponse provider now answer = .ok g) :
    g.credential.provider = provider := by
  unfold parseTokenResponse at h
  split at h
  · cases h
  · split at h <;> cases h
  · cases h
  · split at h
    · cases h
    · split at h
      · cases h
        rfl
      · split at h <;> cases h
        rfl

def refreshed (cred : StoredDelegation) (g : TokenGrant) : StoredDelegation :=
  { g.credential with
    refreshToken := g.credential.refreshToken.or cred.refreshToken
    scopes := g.scope.getD cred.scopes }

structure CredentialKey where
  tenant : TenantId
  user : UserId
  provider : String
  deriving DecidableEq, Repr

/-- What a credential is saved for: the store does not see it. -/
inductive SavedFor where
  | grant
  | refreshOf (cred : StoredDelegation)
  deriving DecidableEq, Repr

inductive DelegationCall where
  | load (key : CredentialKey)
  | save (tenant : TenantId) (user : UserId) (cred : StoredDelegation) (reason : SavedFor)
  | revoke (key : CredentialKey)
  | now
  | redeem (provider : String) (refreshToken : String)
  | lock (node : Nat) (key : CredentialKey)
  | unlock (node : Nat) (key : CredentialKey)
  | dropped
  deriving DecidableEq, Repr

abbrev DelegationCall.Answer : DelegationCall → Type
  | load _ => Except String (Option StoredDelegation)
  | save .. => Except String Unit
  | revoke _ => Except String Unit
  | now => Instant
  | redeem .. => EndpointAnswer
  | lock .. => Unit
  | unlock .. => Unit
  | dropped => Bool

abbrev DelegationProg := Prog DelegationCall DelegationCall.Answer

def DelegationCall.make (c : DelegationCall) : DelegationProg c.Answer := Prog.perform c

structure DelegationSession where
  node : Nat
  key : CredentialKey
  refreshSkewSecs : Int

namespace DelegationSession

variable (session : DelegationSession)

def skew : TimeDelta := session.refreshSkewSecs * nanosPerSecond

def loadCredential : DelegationProg (Except DelegatedError StoredDelegation) := do
  match ← (DelegationCall.load session.key).make with
  | .error message => pure (.error (.store message))
  | .ok none => pure (.error .notConnected)
  | .ok (some cred) => pure (.ok cred)

def refreshTokenGrant (refreshToken : String) : DelegationProg (Except DelegatedError TokenGrant) := do
  let answer ← (DelegationCall.redeem session.key.provider refreshToken).make
  let now ← DelegationCall.now.make
  pure (parseTokenResponse session.key.provider now answer)

def refresh (cred : StoredDelegation) : DelegationProg (Except DelegatedError String) :=
  match cred.refreshToken with
  | none => pure (.error .refreshRejected)
  | some refreshToken => do
    match ← session.refreshTokenGrant refreshToken with
    | .error e => pure (.error e)
    | .ok g =>
      match ← (DelegationCall.save session.key.tenant session.key.user (refreshed cred g)
        (.refreshOf cred)).make with
      | .error message => pure (.error (.store message))
      | .ok () => pure (refreshed cred g).bearer

/-- A refusal may mean that another node has rotated the refresh token: read it again, once. -/
def redeemAndSave (cred : StoredDelegation) : DelegationProg (Except DelegatedError String) := do
  match ← session.refresh cred with
  | .error .refreshRejected =>
    match ← session.loadCredential with
    | .error e => pure (.error e)
    | .ok latest =>
      let now ← DelegationCall.now.make
      if latest.isFresh now session.skew then pure latest.bearer
      else if latest.refreshToken != cred.refreshToken then session.refresh latest
      else pure (.error .refreshRejected)
  | other => pure other

def refreshTask (cred : StoredDelegation) : DelegationProg (Option (Except DelegatedError String)) := do
  let result ← session.redeemAndSave cred
  (DelegationCall.unlock session.node session.key).make
  if ← DelegationCall.dropped.make then pure none
  else pure (some result)

/-- What is done under the lock. A future that is dropped here lets go of the lock. -/
def underLock : DelegationProg (Option (Except DelegatedError String)) := do
  if ← DelegationCall.dropped.make then
    (DelegationCall.unlock session.node session.key).make
    pure none
  else
    match ← session.loadCredential with
    | .error e => do
      (DelegationCall.unlock session.node session.key).make
      pure (some (.error e))
    | .ok cred => do
      let now ← DelegationCall.now.make
      if cred.isFresh now session.skew then
        (DelegationCall.unlock session.node session.key).make
        pure (some cred.bearer)
      else session.refreshTask cred

def getAccessToken : DelegationProg (Option (Except DelegatedError String)) := do
  if ← DelegationCall.dropped.make then pure none
  else
    match ← session.loadCredential with
    | .error e => pure (some (.error e))
    | .ok cred => do
      let now ← DelegationCall.now.make
      if cred.isFresh now session.skew then pure (some cred.bearer)
      else if ← DelegationCall.dropped.make then pure none
      else do
        (DelegationCall.lock session.node session.key).make
        session.underLock

def revoke : DelegationProg (Except DelegatedError Unit) := do
  match ← (DelegationCall.revoke session.key).make with
  | .error message => pure (.error (.store message))
  | .ok () => pure (.ok ())

end DelegationSession

end Axess
