import Axess.Session.Handle
import Axess.Session.MoveRegistry

/-!
# Loading a session

What the layer does before a handler runs (`session/layer/lifecycle.rs`): load the row the
cookie names, end or distrust it when it is too old or the registry does not vouch for it, check
the binding, mint an id when no session is trusted, and set up the request's session
(`session/layer/service.rs`).
-/

namespace Axess

variable {V : Type}

structure SessionConfig where
  ttl : Duration
  ttl_pos : 0 < ttl
  maxCustomBytes : Nat
  maxAuthenticatedAge : Option Duration
  maxImpersonationAge : Option Duration

def maxChronoDuration : Nat := (2 ^ 63 - 1) * 10 ^ 6

def fromStd (d : Duration) : Option Int := if d ≤ maxChronoDuration then some d else none

abbrev TimeDelta := Int

def minUtc : Int := -8334601228800000000000

def maxUtc : Int := 8210266876799999999999

def checkedAddSigned (t : Int) (d : TimeDelta) : Option Int :=
  if minUtc ≤ t + d ∧ t + d ≤ maxUtc then some (t + d) else none

theorem checkedAddSigned_eq_some {t r : Int} {d : TimeDelta} :
    checkedAddSigned t d = some r ↔ (minUtc ≤ t + d ∧ t + d ≤ maxUtc) ∧ t + d = r := by
  rw [checkedAddSigned, Option.ite_none_right_eq_some, Option.some.injEq]

structure Fingerprints where
  current : Option String
  previous : Option String

structure SessionBinding where
  fingerprint : String → String
  previous : Option (String → String)

def noBindingMaterial : String := "axess:no-binding-material"

def SessionBinding.current (binding : SessionBinding) (material : Option String) : String :=
  binding.fingerprint (material.getD noBindingMaterial)

def requestFingerprints (binding : Option SessionBinding) (material : Option String) :
    Fingerprints :=
  match binding with
  | some binding =>
    ⟨some (binding.current material),
      binding.previous.map fun previous => previous (material.getD noBindingMaterial)⟩
  | none => ⟨none, none⟩

structure LoadPolicy where
  registry : Bool
  unknown : UnknownLiveness
  now : Instant

structure VerifiedCookie where
  id : SessionId
  verifiedByPrevious : Bool

structure LoadOutcome (V : Type) where
  id : SessionId
  data : SessionData V
  existingId : Option SessionId
  bindingInvalidated : Bool
  rotationFallbackUsed : Bool
  sessionEnded : Bool
  loadedRow : Option (SessionData V)

inductive SessionVerdict where
  | keep | ended | distrust
  deriving DecidableEq, Repr

def outlived (policy : LoadPolicy) (cap : Option Duration) (since : Instant) : Bool :=
  (cap.bind fromStd).any fun cap => policy.now - since > cap

def authenticatedSessionVerdict (data : SessionData V) (config : SessionConfig)
    (policy : LoadPolicy) (id : SessionId) : Async V SessionVerdict :=
  match data.authState with
  | .authenticated userId _ authnTime _ impersonator _ =>
    if outlived policy config.maxAuthenticatedAge authnTime then pure .ended
    else if impersonator.any fun i => outlived policy config.maxImpersonationAge i.since then
      pure .ended
    else if !policy.registry then pure .keep
    else do
      match ← Reg.liveness userId id with
      | .valid => pure .keep
      | .gone => pure .ended
      | .unknown =>
        match policy.unknown with
        | .reject => pure .distrust
        | .accept => pure .keep
  | _ => pure .keep

structure StoredSession (V : Type) where
  existingId : Option SessionId
  data : SessionData V
  loadedRow : Option (SessionData V)
  sessionEnded : Bool

def StoredSession.fresh : StoredSession V := ⟨none, .default, none, false⟩

def loadStoredSession (id : SessionId) (config : SessionConfig) (policy : LoadPolicy) :
    Async V (StoredSession V) := do
  match ← Store.load id with
  | .ok (some row) =>
    let data := row.migrate.1
    match ← authenticatedSessionVerdict data config policy id with
    | .keep => pure ⟨some id, data, some row, false⟩
    | .ended =>
      let _ ← Store.delete id
      pure { StoredSession.fresh with sessionEnded := true }
    | .distrust => pure .fresh
  | .ok none => pure .fresh
  | .error _ => pure .fresh

structure BindingCheck (V : Type) where
  data : SessionData V
  invalidated : Bool
  fingerprintRewritten : Bool

/-- Compare the fingerprint the session is bound to with the request's; bind a session past guest
that is bound to none. -/
def checkBinding (data : SessionData V) (fingerprints : Fingerprints) : BindingCheck V :=
  match data.fingerprint with
  | some stored =>
    if fingerprints.current == some stored then ⟨data, false, false⟩
    else
      match fingerprints.previous, fingerprints.current with
      | some previous, some current =>
        if stored == previous then
          ⟨{ data with fingerprint := some current }, false, true⟩
        else ⟨.default, true, false⟩
      | _, _ => ⟨.default, true, false⟩
  | none =>
    match fingerprints.current with
    | some current =>
      if !data.authState.isGuest then
        ⟨{ data with fingerprint := some current }, false, true⟩
      else ⟨data, false, false⟩
    | none => ⟨data, false, false⟩

def loadOutcome (cookie : Option VerifiedCookie) (fingerprints : Fingerprints)
    (rng : Stream' SessionId) (stored : StoredSession V) : LoadOutcome V × Stream' SessionId :=
  let binding := checkBinding stored.data fingerprints
  let existingId := if binding.invalidated then none else stored.existingId
  (⟨existingId.getD rng.head, binding.data, existingId, binding.invalidated,
    cookie.any (·.verifiedByPrevious) || binding.fingerprintRewritten, stored.sessionEnded,
    existingId.bind fun _ => stored.loadedRow⟩,
   if existingId.isSome then rng else rng.tail)

def loadSession (config : SessionConfig) (cookie : Option VerifiedCookie)
    (fingerprints : Fingerprints) (rng : Stream' SessionId) (policy : LoadPolicy) :
    Async V (LoadOutcome V × Stream' SessionId) := do
  let stored ← match cookie with
    | some verified => loadStoredSession verified.id config policy
    | none => pure .fresh
  pure (loadOutcome cookie fingerprints rng stored)

def resolveDevice (load : LoadOutcome V) (device : Option (Option DeviceId)) :
    LoadOutcome V × Bool :=
  match device with
  | some resolved =>
    if resolved != load.data.deviceId then
      ({ load with data := { load.data with deviceId := resolved } }, true)
    else (load, false)
  | none => (load, false)

def pendingFingerprint (bindingConfigured : Bool) (load : LoadOutcome V)
    (fingerprints : Fingerprints) : Option String :=
  if bindingConfigured && load.data.fingerprint.isNone then fingerprints.current else none

def seedSessionState (load : LoadOutcome V) (deviceChanged : Bool) (pending : Option String)
    (config : SessionConfig) (rng : Stream' SessionId) : SessionInner V where
  id := load.id
  data := load.data
  modified := load.bindingInvalidated || (deviceChanged && load.existingId.isSome) ||
    load.rotationFallbackUsed || load.sessionEnded
  needsPersist := false
  regenerate := load.bindingInvalidated
  preCycleId := none
  pendingFingerprint := pending
  maxCustomBytes := config.maxCustomBytes
  rng := rng
  consume := some ⟨config.ttl, load.loadedRow⟩

end Axess
