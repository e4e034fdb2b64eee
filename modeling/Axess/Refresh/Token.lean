import Axess.Authn.Flow

/-!
# Refresh tokens

The stored record of a refresh token, the configuration the refresh functions run under and their
errors (`session/refresh/types.rs`); how a token and the device it is bound to are digested
(`session/refresh/rotation.rs`, `session/refresh/device_binding.rs`).

The digests are not part of the repository: they are parameters, in the text form the store keeps.
-/

namespace Axess

structure RefreshTokenId where
  uuid : Nat
  deriving DecidableEq, Repr

structure TokenFamilyId where
  uuid : Nat
  deriving DecidableEq, Repr

inductive RevocationReason where
  | rotated | explicit | evicted | compromise | device
  deriving DecidableEq, Repr

structure RefreshToken where
  id : RefreshTokenId
  userId : UserId
  tenantId : TenantId
  tokenHash : String
  issuedAt : Instant
  expiresAt : Instant
  revoked : Bool
  deviceInfo : Option String
  familyId : Option TokenFamilyId
  deviceId : Option DeviceId
  authnTime : Option Instant
  revokedReason : Option RevocationReason
  revokedAt : Option Instant
  deriving DecidableEq, Repr

namespace RefreshToken

variable (t : RefreshToken)

def authenticatedAt : Instant := t.authnTime.getD t.issuedAt

def family : TokenFamilyId := t.familyId.getD ⟨t.id.uuid⟩

/-- A token that is revoked already keeps its reason and its time. -/
def revoke (reason : RevocationReason) (at_ : Instant) : RefreshToken :=
  if t.revoked then t
  else { t with revoked := true, revokedReason := some reason, revokedAt := some at_ }

end RefreshToken

abbrev Pepper := List UInt8

inductive PreviousPepper where
  | keyed (pepper : Pepper)
  | unkeyed
  deriving DecidableEq, Repr

def PreviousPepper.keyedBytes : PreviousPepper → Option Pepper
  | keyed pepper => some pepper
  | unkeyed => none

structure RefreshTokenConfig where
  ttl : TimeDelta
  maxPerUser : Nat
  rotation : Bool
  hashPepper : Option Pepper
  previousHashPepper : Option PreviousPepper
  maxLifetime : Option TimeDelta
  allowUnkeyedHashes : Bool
  reuseGrace : TimeDelta
  deriving DecidableEq, Repr

inductive RefreshError where
  | notFound
  | expired
  | revoked
  | concurrentRefresh
  | deviceMismatch
  | accountInactive
  | invalidConfig (reason : String)
  | deviceRevoked
  | deviceStore (message : String)
  | store
  | panicked
  deriving DecidableEq, Repr

namespace RefreshTokenConfig

variable (config : RefreshTokenConfig)

def validate : Except String Unit :=
  if config.ttl ≤ 0 then .error "ttl must be positive"
  else if config.maxPerUser = 0 then .error "max_per_user must be at least 1"
  else if config.hashPepper.any (·.isEmpty) then
    .error "hash_pepper must not be empty; use None for the unkeyed hash"
  else if (config.previousHashPepper.bind PreviousPepper.keyedBytes).any (·.isEmpty) then
    .error "previous_hash_pepper must not be empty; use None to stop accepting it"
  else if config.previousHashPepper = some .unkeyed ∧ config.hashPepper = none then
    .error "previous_hash_pepper Unkeyed needs a hash_pepper: without one the current hash is unkeyed too"
  else if config.reuseGrace < 0 then .error "reuse_grace must not be negative"
  else
    match config.maxLifetime with
    | none => .ok ()
    | some max =>
      if max ≤ 0 then .error "max_lifetime must be positive"
      else if max < config.ttl then .error "max_lifetime must be at least ttl"
      else .ok ()

def check : Except RefreshError Unit := config.validate.mapError .invalidConfig

def validateDeviceInfo (hasDeviceInfo : Bool) : Except String Unit :=
  if hasDeviceInfo ∧ config.hashPepper = none ∧ !config.allowUnkeyedHashes then
    .error "device_info needs a hash_pepper: without one its digest is unkeyed (set hash_pepper, or allow_unkeyed_hashes)"
  else .ok ()

def checkFor (hasDeviceInfo : Bool) : Except RefreshError Unit := do
  config.check
  (config.validateDeviceInfo hasDeviceInfo).mapError .invalidConfig

/-- When a family that was authenticated at this time ends: never, if the sum is out of range. -/
def lifetimeEnd (authenticatedAt : Instant) : Option Instant :=
  config.maxLifetime.bind (checkedAddSigned authenticatedAt)

def pepper : Option Pepper := config.hashPepper

def previousPepper : Option (Option Pepper) :=
  config.previousHashPepper.map PreviousPepper.keyedBytes

end RefreshTokenConfig

/-- What the refresh functions compute with and do not define. -/
structure TokenDigest where
  hmacSha256 : Pepper → List UInt8 → String
  sha256 : List UInt8 → String
  deviceText : DeviceId → String

namespace TokenDigest

variable (digest : TokenDigest)

def hashToken (plaintext : String) : Option Pepper → String
  | some pepper => digest.hmacSha256 pepper (utf8 plaintext)
  | none => digest.sha256 (utf8 plaintext)

def bindingPrefix : String := "hb1:"

def bindingDomain : String := "axess.refresh-device.v1"

def bind (info : String) (device : Option DeviceId) (pepper : Option Pepper) : String :=
  bindingPrefix ++ digest.hmacSha256 (pepper.getD (utf8 bindingDomain))
    (utf8 bindingDomain ++ [0] ++ (device.map fun d => utf8 (digest.deviceText d)).getD [] ++ [0] ++
      utf8 info)

def same (a b : String) : Bool := digest.sha256 (utf8 a) == digest.sha256 (utf8 b)

/-- A row of an earlier release stores the device string itself. -/
def matchesBinding (stored presented : String) (device : Option DeviceId)
    (storedUnder : Option Pepper) : Bool :=
  if stored.startsWith bindingPrefix then
    digest.same stored (digest.bind presented device storedUnder)
  else digest.same stored presented

def verifyBinding (record : RefreshToken) (presented : Option String)
    (storedUnder current : Option Pepper) : Except RefreshError (Option String) :=
  match record.deviceInfo, presented with
  | none, _ => .ok none
  | some _, none => .error .deviceMismatch
  | some stored, some info =>
    if digest.matchesBinding stored info record.deviceId storedUnder then
      .ok (some (digest.bind info record.deviceId current))
    else .error .deviceMismatch

end TokenDigest

/-- Every text is its own digest, behind the key. -/
def TokenDigest.literal : TokenDigest where
  hmacSha256 pepper bytes := latin1 (pepper ++ [0] ++ bytes)
  sha256 := latin1
  deviceText device := toString device.uuid

def RefreshTokenConfig.default : RefreshTokenConfig where
  ttl := 2592000000000000
  maxPerUser := 10
  rotation := true
  hashPepper := none
  previousHashPepper := none
  maxLifetime := some 7776000000000000
  allowUnkeyedHashes := false
  reuseGrace := 0

theorem RefreshTokenConfig.validate_default : RefreshTokenConfig.default.validate = .ok () := rfl

end Axess
