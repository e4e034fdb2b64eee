import Axess.Session.Store

/-!
# Accounts and factors

What the authentication service reads and writes about an account: its status, its factor
configurations, its login methods, and the failure counter behind the lockout
(`authn/types.rs`, `authn/factor.rs`, `authn/store.rs`).
-/

namespace Axess

inductive StatusCause where
  | administrative | lockout | verification | closure | unspecified
  deriving DecidableEq, Repr

structure StatusDetail where
  cause : StatusCause
  untilTime : Option Instant
  deriving DecidableEq, Repr

inductive EntityState where
  | guest | candidate
  | pending (detail : StatusDetail)
  | active
  | suspended (detail : StatusDetail)
  | terminated (detail : StatusDetail)
  | archived (detail : StatusDetail)
  deriving DecidableEq, Repr

namespace EntityState

def allowsLogin : EntityState → Bool
  | active => true
  | _ => false

/-- A timed suspension that has run out counts as active. -/
def effectiveAt (now : Instant) : EntityState → EntityState
  | suspended ⟨cause, some stop⟩ => if stop ≤ now then active else suspended ⟨cause, some stop⟩
  | state => state

end EntityState

structure PasswordConfig where
  hash : String
  /-- The identity a rehash carried over; a password that was set anew has none. -/
  passwordId : Option String
  deriving DecidableEq, Repr

inductive FactorConfig where
  | password (cfg : PasswordConfig)
  | other (kind : FactorKind) (row : String)
  deriving DecidableEq, Repr

def FactorConfig.kind : FactorConfig → FactorKind
  | password _ => .password
  | other kind _ => kind

structure UserScope where
  tenantId : TenantId
  userId : UserId
  deriving DecidableEq, Repr

structure ResolvedFactor where
  own : Bool
  config : FactorConfig
  deriving DecidableEq, Repr

inductive FactorCredential where
  | password (secret : String)
  | otpCode (code : String)
  | recoveryCode (code : String)
  | fido2Assertion (json : String)
  deriving DecidableEq, Repr

def FactorCredential.fits : FactorCredential → FactorKind → Bool
  | password _, .password => true
  | password _, .ldapBind => true
  | otpCode _, .totp => true
  | otpCode _, .hotp => true
  | otpCode _, .emailOtp => true
  | recoveryCode _, .recoveryCode => true
  | fido2Assertion _, .fido2 => true
  | _, _ => false

def FactorStep.kindFor (credential : FactorCredential) : FactorStep → Option FactorKind
  | required k => some k
  | anyOf choices => choices.find? credential.fits

structure AuthMethod where
  name : String
  steps : List FactorStep
  deriving DecidableEq, Repr

structure TenantRow where
  id : TenantId
  status : EntityState
  valid : Bool
  deriving DecidableEq, Repr

/-! ## Calls -/

inductive AuthEventType where
  | authenticated | factorVerified | impersonation | passwordReset | logoutAttempt
  | accountSuspended | loginAttempt
  deriving DecidableEq, Repr

inductive AuthFailureReason where
  | nestedImpersonation | adminNotAuthenticated | sessionIsNotAdmin | targetLookupFailed
  | unknownTarget | unknownAdmin | crossTenantImpersonation | adminNotActive | notActive
  | sessionNotRegistered | invalidCredential | locked | throttled
  | crossTenantAdminAction | unknownTenant | invalidTenantRow | ipPolicy | unknownIdentifier
  | noFactorsConfigured
  deriving DecidableEq, Repr

structure AuditEvent where
  eventType : AuthEventType
  userId : Option UserId
  tenantId : Option TenantId
  sessionId : Option SessionId
  actor : Option UserId
  failure : Option AuthFailureReason
  deriving DecidableEq, Repr

inductive Note where
  | releaseAttempt (userId : UserId)
  | resetFailedAttempts (userId : UserId)
  | recordThrottleFailure (userId : UserId)
  | clearThrottle (userId : UserId)
  | recordLastLogin (userId : UserId)
  | recordPasswordHash (userId : UserId) (hash : String)
  | revokeRefreshTokens (userId : UserId)
  deriving DecidableEq, Repr

inductive IdentityCall where
  | accountStatus (userId : UserId)
  | suspendUser (userId : UserId) (detail : StatusDetail)
  | getUserTenant (userId : UserId)
  | getTenant (tenantId : TenantId)
  | findTenant (identifier : String)
  | ipAdmits (tenantId : TenantId)
  | findUser (identifier : String) (tenantId : TenantId)
  | failedAttempts (userId : UserId)
  | onKnownDevice (userId : UserId)
  | retryAfter (userId : UserId)
  | reserveAttempt (userId : UserId)
  | recordFailedAttempt (userId : UserId)
  | note (n : Note)
  | resolveFactor (scope : UserScope) (kind : FactorKind)
  | loadFactor (scope : UserScope) (kind : FactorKind)
  | insertFactorIfAbsent (scope : UserScope) (config : FactorConfig)
  | compareAndSaveFactor (scope : UserScope) (expected next : FactorConfig)
  | saveFactor (scope : UserScope) (config : FactorConfig)
  | availableMethods (scope : UserScope)
  | recordEvent (event : AuditEvent)
  deriving DecidableEq, Repr

namespace IdentityCall

abbrev Answer : IdentityCall → Type
  | accountStatus _ => Except StoreError EntityState
  | suspendUser .. => Except StoreError Unit
  | getUserTenant _ => Except StoreError (Option TenantId)
  | getTenant _ => Except StoreError (Option EntityState)
  | findTenant _ => Except StoreError (Option TenantRow)
  | ipAdmits _ => Except StoreError Bool
  | findUser .. => Except StoreError (Option UserId)
  | failedAttempts _ => Except StoreError (Nat × Option Instant)
  | onKnownDevice _ => Bool
  | retryAfter _ => Option Duration
  | reserveAttempt _ => Except StoreError (Option Nat)
  | recordFailedAttempt _ => Except StoreError Nat
  | note _ => Except StoreError Unit
  | resolveFactor .. => Except StoreError (Option ResolvedFactor)
  | loadFactor .. => Except StoreError (Option FactorConfig)
  | insertFactorIfAbsent .. => Except StoreError Bool
  | compareAndSaveFactor .. => Except StoreError Bool
  | saveFactor .. => Except StoreError Unit
  | availableMethods _ => Except StoreError (List AuthMethod)
  | recordEvent _ => Except StoreError Unit

end IdentityCall

/-- The accounts: status and tenant, the factors each user has and those the tenant or the system
gives them, login methods; the status of each tenant; and who is known by which identifier. -/
structure Identity where
  status : UserId → EntityState
  userTenant : UserId → Option TenantId
  tenant : TenantId → Option EntityState
  own : UserScope → FactorKind → Option FactorConfig
  inherited : UserScope → FactorKind → Option FactorConfig
  methods : UserScope → List AuthMethod
  tenantNamed : String → Option TenantRow
  userNamed : String → TenantId → Option UserId

namespace Identity

def resolve (s : Identity) (scope : UserScope) (kind : FactorKind) : Option ResolvedFactor :=
  match s.own scope kind with
  | some config => some ⟨true, config⟩
  | none => (s.inherited scope kind).map fun config => ⟨false, config⟩

def setOwn (s : Identity) (scope : UserScope) (config : FactorConfig) : Identity :=
  { s with
    own := Function.update s.own scope
      (Function.update (s.own scope) config.kind (some config)) }

/-- Every call answered, no guess ever counted. -/
def perform : (c : IdentityCall) → Identity → c.Answer × Identity
  | .accountStatus u, s => (.ok (s.status u), s)
  | .suspendUser u detail, s =>
    (.ok (), { s with status := Function.update s.status u (.suspended detail) })
  | .getUserTenant u, s => (.ok (s.userTenant u), s)
  | .getTenant t, s => (.ok (s.tenant t), s)
  | .findTenant identifier, s => (.ok (s.tenantNamed identifier), s)
  | .ipAdmits _, s => (.ok true, s)
  | .findUser identifier t, s => (.ok (s.userNamed identifier t), s)
  | .failedAttempts _, s => (.ok (0, none), s)
  | .onKnownDevice _, s => (false, s)
  | .retryAfter _, s => (none, s)
  | .reserveAttempt _, s => (.ok (some 1), s)
  | .recordFailedAttempt _, s => (.ok 1, s)
  | .note _, s => (.ok (), s)
  | .resolveFactor scope kind, s => (.ok (s.resolve scope kind), s)
  | .loadFactor scope kind, s => (.ok (s.own scope kind), s)
  | .insertFactorIfAbsent scope config, s =>
    if s.own scope config.kind = none then (.ok true, s.setOwn scope config) else (.ok false, s)
  | .compareAndSaveFactor scope expected next, s =>
    if s.own scope next.kind = some expected then (.ok true, s.setOwn scope next)
    else (.ok false, s)
  | .saveFactor scope config, s => (.ok (), s.setOwn scope config)
  | .availableMethods scope, s => (.ok (s.methods scope), s)
  | .recordEvent _, s => (.ok (), s)

/-- What a call may answer when the store is up: the counters behind the lockout and the
throttle, and the policy on addresses, may say anything. -/
def Allows : (c : IdentityCall) → Identity → c.Answer → Identity → Prop
  | .ipAdmits _, s, _, s' => s' = s
  | .failedAttempts _, s, _, s' => s' = s
  | .onKnownDevice _, s, _, s' => s' = s
  | .retryAfter _, s, _, s' => s' = s
  | .reserveAttempt _, s, _, s' => s' = s
  | .recordFailedAttempt _, s, _, s' => s' = s
  | c, s, a, s' => (a, s') = perform c s

theorem allows_perform (c : IdentityCall) (s : Identity) :
    Allows c s (perform c s).1 (perform c s).2 := by
  cases c <;> rfl

end Identity

end Axess
