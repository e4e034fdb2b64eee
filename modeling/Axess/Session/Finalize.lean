import Axess.Session.Load

/-!
# Finishing a request

What the layer does after a handler ran (`session/layer/lifecycle/finalize.rs`): store the
session under its id, move it to a new id, refresh it, or leave it alone, and decide whether the
response carries a cookie.
-/

namespace Axess

variable {V : Type}

structure FinalizeOutcome where
  finalId : SessionId
  sessionChanged : Bool
  rotation : Option Rotation

def touchIsDue (touchedAt : Option Instant) (now : Instant) (ttl : Duration) : Bool :=
  match touchedAt with
  | none => true
  | some touchedAt => (fromStd (ttl / 2)).any fun half => now - touchedAt ≥ half

def cycleAttempts : Nat := 4

structure Cycled where
  id : SessionId
  rotation : Option Rotation
  cookie : Bool

variable [BEq V] [JsonSize V]

def SessionInner.base (s : SessionInner V) : Option (SessionData V) :=
  s.consume.bind (·.loaded)

def SessionInner.rebaseOn (s : SessionInner V) (row : SessionData V) : SessionInner V :=
  { s with consume := s.consume.map fun target => { target with loaded := some row } }

def writeChanges (config : SessionConfig) (s : SessionInner V) (loadedRevision : UInt64) :
    Async V (Except StoreError ConditionalUpdate × SessionInner V) := do
  let swap := ⟨s.id, s.base, s.data, loadedRevision, config.ttl, config.maxCustomBytes⟩
  match ← swapMerging swap () fun fresh => some (fresh, ()) with
  | .ok (.written data _) => pure (.ok .written, { s.rebaseOn data with data })
  | .ok .gone => pure (.ok .gone, s)
  | .ok .conflict => pure (.ok .conflict, s)
  | .ok .declined => pure (.ok .conflict, s)
  | .error e => pure (.error e, s)

/-- Merge what other requests wrote to the old row onto this request's data; the answer is the
revision the removal of the old row has to find. -/
def mergeConcurrentWrites (config : SessionConfig) (s : SessionInner V) (oldId : SessionId) :
    Async V (Except StoreError (Option UInt64) × SessionInner V) :=
  match s.base with
  | none => pure (.ok none, s)
  | some base => do
    match ← Store.load oldId with
    | .error e => pure (.error e, s)
    | .ok none => pure (.ok (some base.revision), s)
    | .ok (some fresh) =>
      if fresh.revision != base.revision then
        let merged := mergeRotating base s.data fresh
        let merged :=
          { merged with
            revision := fresh.revision + 1
            touchedAt := laterStamp s.data.touchedAt fresh.touchedAt
            custom := merged.custom.capCustom config.maxCustomBytes }
        pure (.ok (some fresh.revision), { s.rebaseOn fresh with data := merged })
      else pure (.ok (some base.revision), s)

def mergeExisting (config : SessionConfig) (existing : Bool) (s : SessionInner V)
    (oldId : SessionId) : Async V (Except StoreError (Option UInt64) × SessionInner V) :=
  if existing then mergeConcurrentWrites config s oldId else pure (.ok none, s)

def cycleAt (config : SessionConfig) (existing : Bool) (oldId newId : SessionId)
    (data : SessionData V) :
    Except StoreError (Option UInt64) → Async V (Except StoreError CycleOutcome)
  | .ok (some revision) => Store.cycleIfRevision oldId newId data config.ttl existing revision
  | .ok none => Store.cycle oldId newId data config.ttl existing
  | .error e => pure (.error e)

def cycleOnce (config : SessionConfig) (existing : Bool) (oldId newId : SessionId)
    (s : SessionInner V) : Async V (Except StoreError CycleOutcome × SessionInner V) := do
  let (merged, s) ← mergeExisting config existing s oldId
  let cycled ← cycleAt config existing oldId newId s.data merged
  pure (cycled, s)

def cycleLoop (config : SessionConfig) (existing : Bool) (oldId newId : SessionId) :
    Nat → SessionInner V → Async V (Except StoreError CycleOutcome × SessionInner V)
  | 0, s => pure (.ok .conflict, s)
  | attempts + 1, s => do
    let (cycled, s) ← cycleOnce config existing oldId newId s
    match cycled with
    | .ok .conflict => cycleLoop config existing oldId newId attempts s
    | _ => pure (cycled, s)

def rotationOf (wasAuthenticated : Bool) (state : AuthState) (oldId newId : SessionId) :
    Option Rotation :=
  match state.authenticatedUserId with
  | some userId =>
    if h : oldId ≠ newId then some ⟨wasAuthenticated, userId, oldId, newId, h⟩ else none
  | none => none

/-- A rotation that cannot be carried out fails closed: the old row goes, and the cookie names an
id that no row backs. -/
def failClosed (s : SessionInner V) (oldId newId : SessionId) :
    Async V (Cycled × SessionInner V) := do
  let _ ← Store.delete oldId
  pure (⟨newId, none, true⟩, { s with data := .default })

def SessionInner.moved (s : SessionInner V) : SessionInner V :=
  match s.preCycleId with
  | some _ => { s with preCycleId := none }
  | none => { s with id := s.rng.head, rng := s.rng.tail }

def cycleSession (config : SessionConfig) (s : SessionInner V) (existingId : Option SessionId) :
    Async V (Cycled × SessionInner V) := do
  let oldId := s.preCycleId.getD s.id
  let s := s.moved
  let newId := s.id
  let wasAuthenticated := s.base.any (·.authState.isAuthenticated)
  let (cycled, s) ← cycleLoop config existingId.isSome oldId newId cycleAttempts s
  match cycled with
  | .ok .rotated =>
    pure (⟨newId, rotationOf wasAuthenticated s.data.authState oldId newId, true⟩, s)
  | .ok .conflict => failClosed s oldId newId
  | .ok .sessionGone => pure (⟨newId, none, false⟩, { s with data := .default })
  | .error _ => failClosed s oldId newId

def SessionInner.stamped (s : SessionInner V) (config : SessionConfig) (now : Instant) :
    SessionInner V :=
  { s with
    data :=
      { s.data with
        custom := s.data.custom.capCustom config.maxCustomBytes
        revision := s.data.revision + 1
        touchedAt := some now } }

def storeUnderId (config : SessionConfig) (s : SessionInner V) (touchDue : Bool)
    (loadedRevision : UInt64) : Async V (Except StoreError ConditionalUpdate × SessionInner V) :=
  if touchDue then do
    let written ← Store.updateIfRevision s.id loadedRevision s.data config.ttl
    pure (written, s)
  else writeChanges config s loadedRevision

/-- A refresh that lost to a concurrent write still keeps the cookie; a row that is gone is not
brought back. -/
def storedOutcome (touchDue : Bool) (s : SessionInner V) :
    Except StoreError ConditionalUpdate → FinalizeOutcome × SessionInner V
  | .ok .written => (⟨s.id, true, none⟩, s)
  | .ok .conflict => (⟨s.id, touchDue, none⟩, s)
  | .ok .gone => (⟨s.id, false, none⟩, { s with data := .default })
  | .error _ => (⟨s.id, false, none⟩, s)

def saveFresh (config : SessionConfig) (s : SessionInner V) :
    Async V (FinalizeOutcome × SessionInner V) := do
  match ← Store.save s.id s.data config.ttl with
  | .ok () => pure (⟨s.id, true, none⟩, s)
  | .error _ => pure (⟨s.id, false, none⟩, s)

def persist (config : SessionConfig) (s : SessionInner V) (existingId : Option SessionId)
    (touchDue : Bool) (loadedRevision : UInt64) : Async V (FinalizeOutcome × SessionInner V) :=
  if s.regenerate then do
    let (cycled, s) ← cycleSession config s existingId
    pure (⟨cycled.id, cycled.cookie, cycled.rotation⟩, s)
  else if existingId.isSome then do
    let (written, s) ← storeUnderId config s touchDue loadedRevision
    pure (storedOutcome touchDue s written)
  else saveFresh config s

def finalizeSession (config : SessionConfig) (now : Instant) (s : SessionInner V)
    (existingId : Option SessionId) : Async V (FinalizeOutcome × SessionInner V) :=
  let freshNeeded := existingId.isNone && (s.modified || s.needsPersist)
  let touchDue := existingId.isSome && !s.modified && !s.regenerate &&
    touchIsDue s.data.touchedAt now config.ttl
  if s.modified || s.regenerate || freshNeeded || touchDue then
    persist config (s.stamped config now) existingId touchDue s.data.revision
  else
    pure (⟨s.id, false, none⟩, s)

def settleRegistry (policy : LoadPolicy) (outcome : FinalizeOutcome) : Async V Bool :=
  match outcome.rotation with
  | some rotation =>
    if policy.registry then moveRegistryEntry rotation policy.unknown else pure true
  | none => pure true

end Axess
