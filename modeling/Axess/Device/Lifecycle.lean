import Axess.Device.Store

/-!
# The device lifecycle

What a request does to find its device (`device/lifecycle.rs`, `device/lifecycle/proof.rs`): by the
fingerprint, or by the token its cookie presents. Each store operation is one call, so that other
requests may come between any two of them.
-/

namespace Axess

open Calls DeviceTable

def isUsableBy (device : DeviceRow) (user : Option UserId) : Bool :=
  if device.trustLevel = .revoked then false
  else
    match device.userId, user with
    | some owner, some user => owner = user
    | _, _ => true

theorem isUsableBy_iff {device : DeviceRow} {user : Option UserId} :
    isUsableBy device user = true ↔
      device.Live ∧ ∀ owner u, device.userId = some owner → user = some u → owner = u := by
  unfold isUsableBy DeviceRow.Live
  by_cases hrevoked : device.trustLevel = .revoked
  · simp [hrevoked]
  · cases device.userId <;> cases user <;> simp [hrevoked]

namespace DeviceLifecycle

def call (e : DeviceCall) : DeviceProg e.Answer := Prog.perform e

def noteSighting (granularity : Int) (tenant : TenantId) (device : DeviceRow) (now : Instant) :
    DeviceProg (Except NotFound DeviceTrustLevel) :=
  if now ≤ device.lastSeenAt ∨ now - device.lastSeenAt < granularity then
    pure (.ok device.trustLevel)
  else call (.recordSighting tenant device.id now)

def serve {α : Type} (granularity : Int) (tenant : TenantId) (device : DeviceRow) (now : Instant)
    (found : α) (otherwise : DeviceProg (Except NotFound α)) : DeviceProg (Except NotFound α) := do
  match ← noteSighting granularity tenant device now with
  | .error e => pure (.error e)
  | .ok level => if level ≠ .revoked then pure (.ok found) else otherwise

def newDevice (tenant : TenantId) (user : Option UserId) (fingerprint : FingerprintHash)
    (bindings : List DeviceBinding) (now : Instant) (id : DeviceId) : DeviceRow :=
  { id, tenantId := tenant, userId := user, trustLevel := .unknown, fingerprintHash := fingerprint,
    firstSeenAt := now, lastSeenAt := now, revokedAt := none, demotedAt := none, bindings }

def createDevice (tenant : TenantId) (user : Option UserId) (fingerprint : FingerprintHash)
    (now : Instant) (id : DeviceId) : DeviceProg (Except NotFound DeviceId) := do
  let created : DeviceRow ← call (.createOrFind (newDevice tenant user fingerprint [] now id) now)
  if created.id ≠ id then pure (.ok created.id)
  else
    let _ ← call (.emit ⟨user, tenant, id, now⟩)
    pure (.ok id)

/-- The newest device with the fingerprint, if the user may use it. An unowned one is claimed. -/
def reuseExisting (granularity : Int) (tenant : TenantId) (user : Option UserId)
    (fingerprint : FingerprintHash) (now : Instant) (newId : DeviceId) :
    DeviceProg (Except NotFound DeviceId) := do
  let create := createDevice tenant user fingerprint now newId
  match ← call (.findByFingerprint tenant fingerprint) with
  | none => create
  | some existing =>
    if isUsableBy existing user then
      match existing.userId, user with
      | none, some user =>
        match ← call (.claimOwner tenant existing.id user) with
        | .claimed => serve granularity tenant existing now existing.id create
        | _ => create
      | _, _ => serve granularity tenant existing now existing.id create
    else create

def ensureDevice (granularity : Int) (tenant : TenantId) (user : Option UserId)
    (fingerprint : FingerprintHash) (now : Instant) (newId : DeviceId) :
    DeviceProg (Except NotFound DeviceId) := do
  let reuse := reuseExisting granularity tenant user fingerprint now newId
  match user with
  | none => reuse
  | some owner =>
    match ← call (.findByFingerprintForUser tenant owner fingerprint) with
    | none => reuse
    | some own =>
      if isUsableBy own (some owner) then serve granularity tenant own now own.id reuse else reuse

structure DeviceToken where
  bytes : Nat
  deriving DecidableEq

structure PresentedDevice where
  id : DeviceId
  token : DeviceToken

structure DeviceRequest where
  tenant : TenantId
  user : Option UserId
  fingerprint : FingerprintHash
  presented : Option PresentedDevice
  sessionDevice : Option DeviceId

structure ResolvedDevice where
  id : DeviceId
  issued : Option DeviceToken

def isListedIn (digest : DeviceToken → FingerprintHash) (token : DeviceToken)
    (bindings : List DeviceBinding) : Bool :=
  bindings.any fun
    | .cookie tokenHash _ _ => tokenHash = digest token
    | _ => false

section Proven

variable (digest : DeviceToken → FingerprintHash) (granularity : Int) (request : DeviceRequest)
  (now : Instant) (minted : DeviceToken) (newId : DeviceId)

def createProven (user : UserId) : DeviceProg (Except NotFound (Option ResolvedDevice)) := do
  let device := newDevice request.tenant (some user) request.fingerprint
    [.cookie (digest minted) now now] now newId
  let _ ← call (.save device now)
  let _ ← call (.emit ⟨some user, request.tenant, newId, now⟩)
  pure (.ok (some ⟨newId, some minted⟩))

def keepSessionDevice (user : UserId) : DeviceProg (Except NotFound (Option ResolvedDevice)) := do
  let create := createProven digest request now minted newId user
  match request.sessionDevice with
  | none => create
  | some id =>
    match ← call (.load request.tenant id) with
    | none => create
    | some device =>
      if device.trustLevel ≠ .revoked ∧ device.userId = some user then
        serve granularity request.tenant device now (some ⟨device.id, none⟩) create
      else create

def resolveUnproven : DeviceProg (Except NotFound (Option ResolvedDevice)) :=
  match request.user with
  | none => pure (.ok none)
  | some user => keepSessionDevice digest granularity request now minted newId user

def serveProven (device : DeviceRow) : DeviceProg (Except NotFound (Option ResolvedDevice)) := do
  let otherwise := resolveUnproven digest granularity request now minted newId
  match request.user with
  | none => pure (.ok (some ⟨device.id, none⟩))
  | some user =>
    if device.userId = none then
      match ← call (.claimOwner request.tenant device.id user) with
      | .claimed => serve granularity request.tenant device now (some ⟨device.id, none⟩) otherwise
      | _ => otherwise
    else serve granularity request.tenant device now (some ⟨device.id, none⟩) otherwise

def resolveProven : DeviceProg (Except NotFound (Option ResolvedDevice)) := do
  let otherwise := resolveUnproven digest granularity request now minted newId
  match request.presented with
  | none => otherwise
  | some presented =>
    match ← call (.load request.tenant presented.id) with
    | none => otherwise
    | some device =>
      if device.trustLevel ≠ .revoked ∧ isListedIn digest presented.token device.bindings ∧
          isUsableBy device request.user then
        serveProven digest granularity request now minted newId device
      else otherwise

end Proven

def promoteOnAuthn (tenant : TenantId) (id : DeviceId) (now : Instant) :
    DeviceProg (Except NotFound (Option DeviceTrustLevel)) := do
  let sighted : DeviceProg (Except NotFound (Option DeviceTrustLevel)) := do
    let level : Except NotFound DeviceTrustLevel ← call (.recordSighting tenant id now)
    pure (level.map some)
  match ← call (.load tenant id) with
  | none => pure (.ok none)
  | some device =>
    match device.trustLevel with
    | .unknown =>
      match ← call (.setTrustLevelIf tenant id .unknown .seen now) with
      | .applied => sighted
      | .refused .revoked => pure (.ok (some .revoked))
      | .refused _ => sighted
      | .missing => pure (.ok none)
    | .seen => sighted
    | .trusted => sighted
    | .revoked => pure (.ok (some .revoked))

def revoke (tenant : TenantId) (id : DeviceId) (now : Instant) : DeviceProg (Except NotFound Unit) :=
  call (.setTrustLevel tenant id .revoked now)

def sweepRows (now : Instant) : List DeviceKey → SweepCounts → DeviceProg SweepCounts
  | [], counts => pure counts
  | key :: keys, counts => do
    let row : SweepCounts ← call (.sweepRow key now)
    sweepRows now keys (counts.add row)

def sweep (tenant : TenantId) (now : Instant) : DeviceProg SweepCounts := do
  let candidates : List DeviceKey ← call (.sweepKeys tenant)
  sweepRows now candidates ⟨0, 0, 0⟩

end DeviceLifecycle

structure EnsureRequest where
  tenant : TenantId
  user : Option UserId
  fingerprint : FingerprintHash
  now : Instant
  newId : DeviceId

def EnsureRequest.run (granularity : Int) (r : EnsureRequest) :
    DeviceProg (Except NotFound DeviceId) :=
  DeviceLifecycle.ensureDevice granularity r.tenant r.user r.fingerprint r.now r.newId

end Axess
