import Axess.Session.Finalize

/-!
# One request through the session layer

Load, run the handler, finish, settle the registry (`session/layer/service.rs`). The handler is
any program over the request's session; `Op` lists what it can do to the session itself.
-/

namespace Axess

variable {V : Type}

structure SessionLayer where
  config : SessionConfig
  registry : Bool
  unknown : UnknownLiveness
  binding : Option SessionBinding

/-- What a request brings (a cookie, the material of its binding, a device), what the clock says when it is loaded and when it is finished, and the
ids the generator will give it. -/
structure Request where
  cookie : Option VerifiedCookie
  material : Option String
  device : Option (Option DeviceId)
  rng : Stream' SessionId
  loadedAt : Instant
  finishedAt : Instant

def SessionLayer.fingerprints (layer : SessionLayer) (req : Request) : Fingerprints :=
  requestFingerprints layer.binding req.material

def SessionLayer.policy (layer : SessionLayer) (now : Instant) : LoadPolicy :=
  ⟨layer.registry, layer.unknown, now⟩

inductive Op (V : Type) where
  | transition (t : Transition)
  | custom (c : CustomOp V)
  | takeCustom (key : String)
  | beginStepUp (steps : List FactorStep) (stamp : V)
  | setImpersonator (admin : UserId) (since : Instant)
  | recordAttemptAt (now : Instant)
  | sessionId

def AuthSession.beginStepUp [JsonSize V] (steps : List FactorStep) (stamp : V)
    (s : SessionInner V) : SessionInner V × Bool :=
  match s.data.authState.beginStepUp steps with
  | some state => (((s.setState state).setCustomValue loginFlowKey stamp).1.touch, true)
  | none => (s, false)

theorem beginStepUp_keepsId [JsonSize V] (steps : List FactorStep) (stamp : V)
    (s : SessionInner V) : s.KeepsId (AuthSession.beginStepUp steps stamp s).1 := by
  unfold AuthSession.beginStepUp
  split
  · exact ((SessionInner.keepsId_setState s _).trans
      (SessionInner.keepsId_setCustomValue _ _ _)).trans (SessionInner.keepsId_touch _)
  · exact .refl s

section

variable [BEq V] [JsonSize V]

/-- Take a one-shot value and hand it to the handler. -/
def AuthSession.takeCustom (key : String) (s : SessionInner V) :
    Async V (Option V × SessionInner V) := do
  let (taken, s) ← s.consumeCustom key
  match taken with
  | some value =>
    await (.deliver key value)
    pure (some value, s)
  | none => pure (none, s)

def Op.run : Op V → SessionInner V → Async V (SessionInner V)
  | .transition t, s => pure (t.apply s)
  | .custom c, s => pure (c.apply s)
  | .takeCustom key, s => do
    let (_, s) ← AuthSession.takeCustom key s
    pure s
  | .beginStepUp steps stamp, s => pure (AuthSession.beginStepUp steps stamp s).1
  | .setImpersonator admin since, s => pure (AuthSession.setImpersonator admin since s).1
  | .recordAttemptAt now, s => pure (AuthSession.recordAttemptAt now s)
  | .sessionId, s => pure (AuthSession.sessionId s).2

def runOps : List (Op V) → SessionInner V → Async V (SessionInner V)
  | [], s => pure s
  | op :: ops, s => do
    let s ← op.run s
    runOps ops s

def seedRequest (layer : SessionLayer) (req : Request) (load : LoadOutcome V)
    (rng : Stream' SessionId) : SessionInner V :=
  let (load, deviceChanged) := resolveDevice load req.device
  let pending := pendingFingerprint layer.binding.isSome load (layer.fingerprints req)
  seedSessionState load deviceChanged pending layer.config rng

/-- The session a handler starts with, and the id it was stored under if it was. -/
def beginRequest (layer : SessionLayer) (req : Request) :
    Async V (SessionInner V × Option SessionId) := do
  let (load, rng) ← loadSession layer.config req.cookie (layer.fingerprints req) req.rng
    (layer.policy req.loadedAt)
  pure (seedRequest layer req load rng, load.existingId)

/-- What is left to do once the handler is done: the cookie the response sets, if any. -/
def finishRequest (layer : SessionLayer) (req : Request) (s : SessionInner V)
    (existingId : Option SessionId) : Async V (Option SessionId) := do
  let (outcome, _) ← finalizeSession layer.config req.finishedAt s existingId
  let registered ← settleRegistry (layer.policy req.finishedAt) outcome
  pure (if outcome.sessionChanged && registered then some outcome.finalId else none)

/-- A request with any handler: what the handler answers, and the cookie. -/
def serve {β : Type} (layer : SessionLayer) (req : Request)
    (handler : SessionInner V → Async V (β × SessionInner V)) :
    Async V (β × Option SessionId) := do
  let (s, existingId) ← beginRequest layer req
  let (answer, s) ← handler s
  let cookie ← finishRequest layer req s existingId
  pure (answer, cookie)

/-- A request whose handler makes these operations: the id its session was stored under, and the
cookie of the response. -/
def respond (layer : SessionLayer) (req : Request) (ops : List (Op V)) :
    Async V (Option SessionId × Option SessionId) := do
  let (s, existingId) ← beginRequest layer req
  let s ← runOps ops s
  let cookie ← finishRequest layer req s existingId
  pure (existingId, cookie)

end

end Axess
