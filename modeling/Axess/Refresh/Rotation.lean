import Axess.Refresh.Store

/-!
# Issuing and rotating refresh tokens

The refresh functions as programs over the store (`session/refresh/rotation.rs` and
`session/refresh/rotation/pipeline.rs`). What the generator draws for a new record is a parameter
of each function that makes one.
-/

namespace Axess

open Calls

variable {V : Type}

structure TokenDraw where
  plaintext : String
  id : RefreshTokenId

structure IssueRequest where
  userId : UserId
  tenantId : TenantId
  deviceInfo : Option String
  familyId : Option TokenFamilyId
  deviceId : Option DeviceId

def buildRefreshTokenFor (digest : TokenDigest) (plaintext : String) (req : IssueRequest)
    (config : RefreshTokenConfig) (id : RefreshTokenId) (now : Instant)
    (authnTime : Option Instant) : Option RefreshToken :=
  (checkedAddSigned now config.ttl).map fun slidingEnd =>
    { id
      userId := req.userId
      tenantId := req.tenantId
      tokenHash := digest.hashToken plaintext config.pepper
      issuedAt := now
      expiresAt :=
        match config.lifetimeEnd (authnTime.getD now) with
        | some stop => min slidingEnd stop
        | none => slidingEnd
      revoked := false
      deviceInfo := req.deviceInfo
      familyId := some (req.familyId.getD ⟨id.uuid⟩)
      deviceId := req.deviceId
      authnTime
      revokedReason := none
      revokedAt := none }

def childOf (record : RefreshToken) (deviceInfo : Option String) : IssueRequest where
  userId := record.userId
  tenantId := record.tenantId
  deviceInfo
  familyId := some record.family
  deviceId := record.deviceId

def tokenExpired (record : RefreshToken) (config : RefreshTokenConfig) (now : Instant) : Bool :=
  record.expiresAt ≤ now || (config.lifetimeEnd record.authenticatedAt).any (· ≤ now)

def sessionFor (record : RefreshToken) : SessionData V where
  version := sessionDataVersion
  authState := .authenticated record.userId record.tenantId record.authenticatedAt [] none none
  fingerprint := none
  deviceId := record.deviceId
  custom := .null
  revision := 0
  touchedAt := none

structure Located where
  record : RefreshToken
  underPreviousPepper : Bool

def Located.storedUnder (found : Located) (config : RefreshTokenConfig) : Option Pepper :=
  if found.underPreviousPepper then config.previousPepper.join else config.pepper

def locate (digest : TokenDigest) (plaintext : String) (config : RefreshTokenConfig) :
    RefreshProg (Except StoreError (Option Located)) := do
  match ← (RefreshCall.findToken (digest.hashToken plaintext config.pepper)).make with
  | .error e => pure (.error e)
  | .ok (some record) => pure (.ok (some ⟨record, false⟩))
  | .ok none =>
    match config.previousPepper with
    | none => pure (.ok none)
    | some previous =>
      match ← (RefreshCall.findToken (digest.hashToken plaintext previous)).make with
      | .error e => pure (.error e)
      | .ok found => pure (.ok (found.map (⟨·, true⟩)))

def familyDevices (family : TokenFamilyId) (seen : RefreshToken) (active : List RefreshToken) :
    List (TenantId × DeviceId) :=
  active.foldl
    (fun targets token =>
      match token.deviceId with
      | some device =>
        if token.familyId = some family ∧ (token.tenantId, device) ∉ targets then
          targets ++ [(token.tenantId, device)]
        else targets
      | none => targets)
    (seen.deviceId.toList.map (seen.tenantId, ·))

def collectFamilyDeviceTargets (family : TokenFamilyId) (seen : RefreshToken) :
    RefreshProg (List (TenantId × DeviceId)) := do
  match ← (RefreshCall.activeTokens seen.userId).make with
  | .ok active => pure (familyDevices family seen active)
  | .error _ => pure (familyDevices family seen [])

/-- Only a token that was rotated out is evidence of theft. -/
def handleRevokedReuse (record : RefreshToken) (config : RefreshTokenConfig) (now : Instant) :
    RefreshProg RefreshError := do
  match record.revokedReason with
  | some .explicit => pure .revoked
  | some .evicted => pure .revoked
  | some .compromise => pure .revoked
  | some .device => pure .revoked
  | _ =>
    -- the clock of the node that rotated the token may be ahead of this one's
    if record.revokedAt.any fun at_ => (now - at_).natAbs < config.reuseGrace then
      pure .concurrentRefresh
    else
      let devices ← collectFamilyDeviceTargets record.family record
      let _ ← (RefreshCall.revokeFamily record.userId record.family).make
      (RefreshCall.onTokenCompromise record.userId record.family devices).make
      pure .revoked

def issueRefreshToken (digest : TokenDigest) (req : IssueRequest) (config : RefreshTokenConfig)
    (draw : TokenDraw) (now : Instant) :
    RefreshProg (Except RefreshError (String × RefreshToken)) :=
  match config.checkFor req.deviceInfo.isSome with
  | .error e => pure (.error e)
  | .ok () =>
    let req := { req with
      deviceInfo := req.deviceInfo.map fun raw => digest.bind raw req.deviceId config.pepper }
    match buildRefreshTokenFor digest draw.plaintext req config draw.id now none with
    | none => pure (.error .panicked)
    | some record => do
      match ← (RefreshCall.issueCapped record config.maxPerUser).make with
      | .error _ => pure (.error .store)
      | .ok () => pure (.ok (draw.plaintext, record))

def revokeScoped (digest : TokenDigest) (plaintext : String) (tenant : Option TenantId)
    (config : RefreshTokenConfig) : RefreshProg (Except RefreshError Unit) :=
  match config.check with
  | .error e => pure (.error e)
  | .ok () => do
    match ← locate digest plaintext config with
    | .error _ => pure (.error .store)
    | .ok none => pure (.error .notFound)
    | .ok (some found) =>
      if tenant.any (found.record.tenantId != ·) then pure (.error .notFound)
      else
        match ← (RefreshCall.revokeToken found.record.id).make with
        | .error _ => pure (.error .store)
        | .ok () => pure (.ok ())

structure Refresh where
  plaintext : String
  tenant : Option TenantId
  deviceInfo : Option String
  deviceGate : Bool

/-- What a refresh answers: the session, and the replacement of the token if it was rotated. -/
abbrev RefreshResult (V : Type) :=
  Except RefreshError (SessionData V × Option (String × RefreshToken))

def checkDevice (refresh : Refresh) (record : RefreshToken) :
    RefreshProg (Except RefreshError Unit) :=
  match if refresh.deviceGate then record.deviceId else none with
  | none => pure (.ok ())
  | some device => do
    match ← (RefreshCall.loadDevice record.tenantId device).make with
    | .error message => pure (.error (.deviceStore message))
    | .ok none => pure (.error .deviceRevoked)
    | .ok (some loaded) =>
      if loaded.revoked then pure (.error .deviceRevoked)
      else if loaded.userId.any (· != record.userId) then pure (.error .deviceMismatch)
      else pure (.ok ())

inductive Replacement where
  | keep
  | panicked
  | token (plaintext : String) (record : RefreshToken)

/-- With rotation a fresh token; without it the same token, moved to the current pepper when it
was found under the previous one. A move keeps the expiry. -/
def replacementFor (digest : TokenDigest) (plaintext : String) (config : RefreshTokenConfig)
    (draw : TokenDraw) (now : Instant) (found : Located) (childDeviceInfo : Option String) :
    Replacement :=
  let record := found.record
  let request := childOf record childDeviceInfo
  let authnTime := some record.authenticatedAt
  if config.rotation then
    match buildRefreshTokenFor digest draw.plaintext request config draw.id now authnTime with
    | none => .panicked
    | some fresh => .token draw.plaintext fresh
  else if found.underPreviousPepper then
    match buildRefreshTokenFor digest plaintext request config draw.id now authnTime with
    | none => .panicked
    | some moved => .token plaintext { moved with expiresAt := record.expiresAt }
  else .keep

def lostRotation (config : RefreshTokenConfig) (now : Instant) (record : RefreshToken) :
    RefreshProg (Except RefreshError Unit) := do
  match ← (RefreshCall.findToken record.tokenHash).make with
  | .error _ => pure (.error .store)
  | .ok none => pure (.error .notFound)
  | .ok (some current) =>
    if !current.revoked then pure (.error .concurrentRefresh)
    else
      let e ← handleRevokedReuse current config now
      pure (.error e)

/-- Without rotation, a parallel refresh that moved the token first serves this client too. -/
def rotate (config : RefreshTokenConfig) (now : Instant) (record fresh : RefreshToken) :
    RefreshProg (Except RefreshError Unit) := do
  match ← (RefreshCall.rotateToken record.id fresh).make with
  | .error _ => pure (.error .store)
  | .ok .rotated => pure (.ok ())
  | .ok .parentAlreadyRevoked =>
    if config.rotation then lostRotation config now record
    else
      match ← (RefreshCall.findToken fresh.tokenHash).make with
      | .error _ => pure (.error .store)
      | .ok (some current) =>
        if !current.revoked then pure (.ok ()) else lostRotation config now record
      | .ok none => lostRotation config now record

namespace Refresh

variable (digest : TokenDigest) (config : RefreshTokenConfig) (draw : TokenDraw) (now : Instant)
  (refresh : Refresh)

def replace (found : Located) (childDeviceInfo : Option String) : RefreshProg (RefreshResult V) :=
  match replacementFor digest refresh.plaintext config draw now found childDeviceInfo with
  | .keep => pure (.ok (sessionFor found.record, none))
  | .panicked => pure (.error .panicked)
  | .token plaintext fresh => do
    match ← rotate config now found.record fresh with
    | .error e => pure (.error e)
    | .ok () =>
      pure (.ok (sessionFor found.record, if config.rotation then some (plaintext, fresh) else none))

def proceedLive (found : Located) : RefreshProg (RefreshResult V) := do
  if tokenExpired found.record config now then pure (.error .expired)
  else if !(← (RefreshCall.statusCheck found.record.userId).make) then
    pure (.error .accountInactive)
  else
    match ← checkDevice refresh found.record with
    | .error e => pure (.error e)
    | .ok () =>
      match digest.verifyBinding found.record refresh.deviceInfo (found.storedUnder config)
        config.pepper with
      | .error e => pure (.error e)
      | .ok childDeviceInfo => refresh.replace digest config draw now found childDeviceInfo

def proceed (found : Located) : RefreshProg (RefreshResult V) := do
  if refresh.tenant.any (found.record.tenantId != ·) then pure (.error .notFound)
  else if found.record.revoked then
    let e ← handleRevokedReuse found.record config now
    pure (.error e)
  else refresh.proceedLive digest config draw now found

def find : RefreshProg (Except RefreshError Located) :=
  match config.checkFor refresh.deviceInfo.isSome with
  | .error e => pure (.error e)
  | .ok () => do
    match ← locate digest refresh.plaintext config with
    | .error _ => pure (.error .store)
    | .ok none => pure (.error .notFound)
    | .ok (some found) => pure (.ok found)

def run : RefreshProg (RefreshResult V) := do
  match ← refresh.find digest config with
  | .error e => pure (.error e)
  | .ok found => refresh.proceed digest config draw now found

/-- The same refresh, answering also which record the token was found as. -/
def runFound : RefreshProg (Option RefreshToken × RefreshResult V) := do
  match ← refresh.find digest config with
  | .error e => pure (none, .error e)
  | .ok found =>
    let result ← refresh.proceed digest config draw now found
    pure (some found.record, result)

theorem snd_runFound : Prod.snd <$> refresh.runFound (V := V) digest config draw now =
    refresh.run digest config draw now := by
  rw [runFound, run, map_bind]
  refine bind_congr fun found => ?_
  cases found with
  | error e => rfl
  | ok found => simp only [map_bind, map_pure, bind_pure]

end Refresh

end Axess
