import Axess.Authn.Service

/-!
# The flow stamp

A login and a step-up are stamped with the moment they began and a digest of the credentials they
began against (`authn/service/login/flow.rs`). The stamp is read at every step, and taken out of
the session when the last step has registered it: a password that was replaced in between gives
another digest.
-/

namespace Axess

variable {V : Type}

structure FlowStamp where
  startedAt : Instant
  method : String
  epoch : String
  steps : Option (List FactorStep)
  deriving DecidableEq, Repr

class JsonValue (V α : Type) where
  toValue : α → V
  fromValue : V → Option α
  fromValue_toValue : ∀ a, fromValue (toValue a) = some a

export JsonValue (toValue fromValue)

structure Codec where
  sha256 : List UInt8 → String
  serialiseSteps : List FactorStep → String

def utf8 (s : String) : List UInt8 := s.toUTF8.toList

def latin1 (bytes : List UInt8) : String := String.ofList (bytes.map fun b => Char.ofNat b.toNat)

theorem toNat_charOfNat {n : Nat} (h : n < 256) : (Char.ofNat n).toNat = n := by
  have hvalid : n.isValidChar := .inl (by omega)
  rw [Char.ofNat, dif_pos hvalid]
  rfl

theorem latin1_injective : Function.Injective latin1 := by
  intro a b h
  refine List.map_injective_iff.mpr (fun x y hxy => ?_) (String.ofList_injective h)
  have hnat := congrArg Char.toNat hxy
  rw [toNat_charOfNat x.toNat_lt, toNat_charOfNat y.toNat_lt] at hnat
  exact UInt8.toNat_inj.mp hnat

def toBeBytes (n : Nat) : List UInt8 :=
  (List.range 8).reverse.map fun i => UInt8.ofNat (n / 256 ^ i)

namespace Codec

variable (codec : Codec)

def passwordIdentity : Option PasswordConfig → String
  | some ⟨_, some id⟩ => id
  | some ⟨hash, none⟩ => codec.sha256 (utf8 hash)
  | none => codec.sha256 (utf8 "")

def epochDigest (password method steps : String) : String :=
  codec.sha256 ([password, method, steps].flatMap fun part =>
    toBeBytes part.utf8ByteSize ++ utf8 part)

end Codec

inductive CounterUnavailable where
  | lock | allow
  deriving DecidableEq, Repr

structure LockoutPolicy where
  maxAttempts : Nat
  duration : Option Duration
  onCounterUnavailable : CounterUnavailable

/-- What checking another factor than a password came to, with the row to store if it changed. -/
inductive RowOutcome where
  | fail
  | failWithUpdate (row : String)
  | pass
  | passWithUpdate (row : String)

/-- The factor library: a check that cannot run gives no outcome, a row whose secret cannot be
opened or sealed no row. -/
structure Verifier where
  openRow : FactorKind → String → Option String
  sealRow : FactorKind → String → Option String
  password : String → String → Option Bool
  row : FactorCredential → FactorKind → String → Instant → Option RowOutcome
  recountRow : FactorKind → String → Instant → String
  rehash : String → String → Option String

structure LoginService extends AuthnService where
  codec : Codec
  verifier : Verifier
  flowTtl : Duration
  maxSessionsPerUser : Option Nat
  preservedCustomKeys : List String
  lockout : TenantId → LockoutPolicy
  sessionRows : Bool
  revealLockoutOnBegin : Bool

def LoginService.literal (now : Instant) (maxSessionsPerUser : Option Nat) : LoginService where
  registry := true
  now := now
  codec := ⟨latin1, fun steps => toString (repr steps)⟩
  verifier :=
    { openRow := fun _ row => some row
      sealRow := fun _ row => some row
      password := fun secret hash => some (secret == hash)
      row := fun credential _ row _ => some (if credential = .otpCode row then .pass else .fail)
      recountRow := fun _ row _ => row
      rehash := fun _ _ => none }
  flowTtl := 600
  maxSessionsPerUser := maxSessionsPerUser
  preservedCustomKeys := []
  lockout := fun _ => ⟨5, some 900, .lock⟩
  sessionRows := false
  revealLockoutOnBegin := false

namespace LoginService

variable (service : LoginService)

def storedPasswordIdentity (scope : UserScope) : Async V (Except AuthnError String) := do
  match ← Idn.resolveFactor scope .password with
  | .error _ => pure (.error .store)
  | .ok (some ⟨_, .password cfg⟩) => pure (.ok (service.codec.passwordIdentity (some cfg)))
  | .ok _ => pure (.ok (service.codec.passwordIdentity none))

def storedMethodSteps (scope : UserScope) (method : String) :
    Async V (Except AuthnError String) := do
  match ← Idn.availableMethods scope with
  | .error _ => pure (.error .store)
  | .ok methods =>
    match methods.find? (·.name == method) with
    | some m => pure (.ok (service.codec.serialiseSteps m.steps))
    | none => pure (.ok "<method gone>")

def stampSteps (scope : UserScope) (stamp : FlowStamp) : Async V (Except AuthnError String) :=
  match stamp.steps with
  | some steps => pure (.ok (service.codec.serialiseSteps steps))
  | none => service.storedMethodSteps scope stamp.method

def stampIsCurrent (scope : UserScope) (stamp : FlowStamp) :
    Async V (Except AuthnError Bool) := do
  match ← service.storedPasswordIdentity scope with
  | .error e => pure (.error e)
  | .ok password =>
    match ← service.stampSteps scope stamp with
    | .error e => pure (.error e)
    | .ok steps =>
      pure (.ok (service.codec.epochDigest password stamp.method steps == stamp.epoch))

section Session

variable [JsonValue V FlowStamp]

def readFlowStamp (s : SessionInner V) : Option FlowStamp :=
  (s.data.custom.get loginFlowKey).bind fromValue

/-- A start in the future counts as expired. -/
def flowExpired (stamp : FlowStamp) : Bool :=
  let age := service.now - stamp.startedAt
  age < 0 || age > service.flowTtl

def requireCurrentFlow (scope : UserScope) : SessionAction V Unit := fun s =>
  match readFlowStamp s with
  | none => pure (.error .noFlow, AuthSession.clear s)
  | some stamp =>
    if service.flowExpired stamp then pure (.error .noFlow, AuthSession.clear s)
    else do
      match ← service.stampIsCurrent scope stamp with
      | .error e => pure (.error e, s)
      | .ok false => pure (.error .noFlow, AuthSession.clear s)
      | .ok true => pure (.ok (), s)

/-- Take the stamp and judge it. A session without one is taken for a login that never had one. -/
def flowStillCurrent [BEq V] [JsonSize V] (scope : UserScope) : SessionAction V Bool := fun s => do
  let (taken, s) ← AuthSession.takeCustom loginFlowKey s
  match taken with
  | none => pure (.ok true, s)
  | some value =>
    match (fromValue value : Option FlowStamp) with
    | none => pure (.ok false, s)
    | some stamp =>
      let current ← service.stampIsCurrent scope stamp
      pure (current, s)

end Session

end LoginService

end Axess
