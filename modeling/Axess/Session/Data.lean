import Mathlib

/-!
# Session data

The typed payload of one session row: the authentication state machine, the custom bag, the
fingerprint the session is bound to, and the revision every conditional write compares
(`session/data.rs`).
-/

namespace Axess

structure SessionId where
  uuid : Nat
  deriving DecidableEq, Repr

structure UserId where
  uuid : Nat
  deriving DecidableEq, Repr

structure TenantId where
  uuid : Nat
  deriving DecidableEq, Repr

structure DeviceId where
  uuid : Nat
  deriving DecidableEq, Repr

instance lawfulDeviceKey : LawfulBEq (TenantId × DeviceId) := Prod.instLawfulBEq

abbrev Instant := Int

def second : Int := 1000000000

def timestamp (instant : Instant) : Int := instant / second

abbrev Duration := Nat

def maxU32 : Nat := 2 ^ 32 - 1

def maxU64 : Nat := 2 ^ 64 - 1

inductive FederatedProvider where
  | github | google | microsoft
  | custom (tag : String)
  deriving DecidableEq, Repr

inductive FactorKind where
  | password | totp | hotp | emailOtp | fido2 | ldapBind | recoveryCode
  | federated (provider : FederatedProvider)
  deriving DecidableEq, Repr

inductive FactorStep where
  | required (kind : FactorKind)
  | anyOf (choices : List FactorKind)
  deriving DecidableEq, Repr

namespace FactorStep

def accepts : FactorStep → FactorKind → Bool
  | required k, kind => k == kind
  | anyOf choices, kind => choices.contains kind

def primary : FactorStep → Option FactorKind
  | required k => some k
  | anyOf choices => choices.head?

end FactorStep

structure Impersonation where
  admin : UserId
  since : Instant
  deriving DecidableEq, Repr

inductive WorkflowKind where
  | signup | passwordReset | emailVerification
  | custom (name : String)
  deriving DecidableEq, Repr

structure WorkflowState where
  kind : WorkflowKind
  currentStep : UInt32
  totalSteps : UInt32
  initiatedAt : Instant
  verificationDigest : Option String
  verificationExpiresAt : Option Instant
  deriving DecidableEq

inductive AuthState where
  | guest
  | identifying (userId : UserId) (tenantId : TenantId)
  | authenticating (userId : UserId) (tenantId : TenantId) (methodName : String)
      (remaining : List FactorStep) (completed : List (FactorKind × Instant))
      (attemptCount : UInt32) (lastAttempt : Option Instant)
      (ldapGroups : Option (List String)) (impersonator : Option Impersonation)
  | authenticated (userId : UserId) (tenantId : TenantId) (authnTime : Instant)
      (factorsCompleted : List (FactorKind × Instant)) (impersonator : Option Impersonation)
      (ldapGroups : Option (List String))
  | pendingWorkflow (userId : UserId) (tenantId : TenantId) (workflow : WorkflowState)
  deriving DecidableEq

inductive AdvanceOutcome where
  | notApplicable | stillAuthenticating | completed
  deriving DecidableEq, Repr

inductive AuthStateKind where
  | guest | identifying | authenticating | authenticated | pendingWorkflow
  deriving DecidableEq, Repr

namespace AuthState

def kind : AuthState → AuthStateKind
  | guest => .guest
  | identifying .. => .identifying
  | authenticating .. => .authenticating
  | authenticated .. => .authenticated
  | pendingWorkflow .. => .pendingWorkflow

def pendingUserId : AuthState → Option UserId
  | guest => none
  | identifying u _ => some u
  | authenticating u .. => some u
  | authenticated u .. => some u
  | pendingWorkflow u .. => some u

def authenticatedUserId : AuthState → Option UserId
  | authenticated u .. => some u
  | _ => none

def isAuthenticated : AuthState → Bool
  | authenticated .. => true
  | _ => false

def isGuest : AuthState → Bool
  | guest => true
  | _ => false

def impersonation : AuthState → Option Impersonation
  | authenticated _ _ _ _ impersonator _ => impersonator
  | _ => none

def beginAuthenticating (userId : UserId) (tenantId : TenantId) (methodName : String)
    (steps : List FactorStep) : AuthState :=
  authenticating userId tenantId methodName steps [] 0 none none none

/-- Only an authenticated session can step up; what it completed, its directory groups and
its impersonator stay with it. -/
def beginStepUp (steps : List FactorStep) : AuthState → Option AuthState
  | authenticated u t _ completed impersonator groups =>
    some (authenticating u t "step-up" steps completed 0 none groups impersonator)
  | _ => none

def setAuthenticated (userId : UserId) (tenantId : TenantId) (authnTime : Instant) : AuthState :=
  authenticated userId tenantId authnTime [] none none

def setImpersonator (admin : UserId) (since : Instant) : AuthState → Option AuthState
  | authenticated u t at_ completed _ groups =>
    some (authenticated u t at_ completed (some ⟨admin, since⟩) groups)
  | _ => none

def advanceFactor (kind : FactorKind) (authnTime : Instant) :
    AuthState → AuthState × AdvanceOutcome
  | authenticating u t method remaining completed attempts last groups impersonator =>
    let satisfied := remaining.any (·.accepts kind)
    let remaining := remaining.eraseP (·.accepts kind)
    let completed := if satisfied then completed ++ [(kind, authnTime)] else completed
    if remaining.isEmpty then
      (authenticated u t authnTime completed impersonator groups, .completed)
    else
      (authenticating u t method remaining completed attempts last groups impersonator,
        .stillAuthenticating)
  | state => (state, .notApplicable)

def recordAttemptAt (now : Instant) : AuthState → AuthState
  | authenticating u t method remaining completed attempts _ groups impersonator =>
    authenticating u t method remaining completed (attempts + 1) (some now) groups impersonator
  | state => state

end AuthState

abbrev Bag (V : Type) := AList fun _ : String => V

namespace Bag

variable {V : Type}

def retain (keep : String → Bool) (bag : Bag V) : Bag V :=
  ⟨bag.entries.filter fun entry => keep entry.1, bag.nodupKeys.sublist List.filter_sublist⟩

/-- Two objects are equal when they hold equal values under the same keys. -/
instance [BEq V] : BEq (Bag V) where
  beq a b := (a.keys ++ b.keys).all fun key => a.lookup key == b.lookup key

instance [BEq V] [ReflBEq V] : ReflBEq (Bag V) where
  rfl := by
    intro a
    change ((a.keys ++ a.keys).all fun key => a.lookup key == a.lookup key) = true
    simp

end Bag

/-- The custom value of a session: `null` until something is stored, then an object. -/
inductive Custom (V : Type) where
  | null
  | object (bag : Bag V)
  | other (value : V)

/-- The length of a value as the JSON library writes it. -/
class JsonSize (V : Type) where
  jsonByteLen : Custom V → Nat

export JsonSize (jsonByteLen)

def loginFlowKey : String := "axess.login.flow"

namespace Custom

variable {V : Type}

instance : Inhabited (Custom V) := ⟨null⟩

instance [BEq V] : BEq (Custom V) where
  beq
    | null, null => true
    | object a, object b => a == b
    | other a, other b => a == b
    | _, _ => false

instance [BEq V] [ReflBEq V] : ReflBEq (Custom V) where
  rfl := by
    intro c
    cases c with
    | null => rfl
    | object bag => exact (BEq.rfl : (bag == bag) = true)
    | other v => exact (BEq.rfl : (v == v) = true)

def asObject : Custom V → Option (Bag V)
  | object bag => some bag
  | _ => none

def isObject (c : Custom V) : Bool := c.asObject.isSome

def bag (c : Custom V) : Bag V := c.asObject.getD ∅

def get (c : Custom V) (key : String) : Option V := c.bag.lookup key

def retainAcrossLogin (preserved : List String) : Custom V → Custom V
  | object bag => object (bag.retain fun key => key == loginFlowKey || preserved.contains key)
  | _ => null

def capCustom [JsonSize V] (maxBytes : Nat) (c : Custom V) : Custom V :=
  if maxBytes = 0 then c
  else if jsonByteLen c > maxBytes then null
  else c

def take (c : Custom V) (key : String) : Option (V × Custom V) :=
  match c with
  | object bag => (bag.lookup key).map fun value => (value, object (bag.erase key))
  | _ => none

end Custom

def sessionDataVersion : Nat := 2

structure SessionData (V : Type) where
  version : Nat
  authState : AuthState
  fingerprint : Option String
  deviceId : Option DeviceId
  custom : Custom V
  revision : UInt64
  touchedAt : Option Instant

namespace SessionData

variable {V : Type}

def default : SessionData V where
  version := sessionDataVersion
  authState := .guest
  fingerprint := none
  deviceId := none
  custom := .null
  revision := 0
  touchedAt := none

instance : Inhabited (SessionData V) := ⟨default⟩

def migrate (data : SessionData V) : SessionData V × Bool :=
  if data.version ≥ sessionDataVersion then (data, false)
  else if data.version = 1 then ({ data with version := 2 }, true)
  else (data, true)

end SessionData

end Axess
