import Axess.Calls.Pool
import Axess.Session.Registry
import Axess.Authn.Identity

/-!
# The calls of a request

Everything a request does to state it shares with other requests is a call: on the session
store, on the session registry, on the accounts. Handing a one-shot value to the handler is a
call of its own (`deliver`), so that a run records who was handed what.

`World.perform` answers every call; `World.fault` is the answer of a call that fails and leaves
no trace.
-/

namespace Axess

open Calls

variable {V : Type}

inductive Call (V : Type) where
  | store (c : StoreCall V)
  | registry (c : RegistryCall)
  | identity (c : IdentityCall)
  | deliver (key : String) (value : V)

namespace Call

abbrev Answer : Call V → Type
  | store c => Except StoreError c.Result
  | registry c => c.Answer
  | identity c => c.Answer
  | deliver .. => Unit

end Call

abbrev Async (V : Type) := Prog (Call V) Call.Answer

def await (e : Call V) : Async V e.Answer := Prog.perform e

structure World (V : Type) where
  rows : Rows V
  registry : Registry
  identity : Identity

namespace World

def empty : World V where
  rows := fun _ => none
  registry := fun _ => []
  identity := ⟨fun _ => .active, fun _ => some ⟨0⟩, fun _ => some .active, fun _ _ => none,
    fun _ _ => none, fun _ => [], fun _ => none, fun _ _ => none⟩

def perform : (e : Call V) → World V → e.Answer × World V
  | .store c, w => (.ok (Rows.perform c w.rows).1, { w with rows := (Rows.perform c w.rows).2 })
  | .registry c, w =>
    ((Registry.perform c w.registry).1, { w with registry := (Registry.perform c w.registry).2 })
  | .identity c, w =>
    ((Identity.perform c w.identity).1, { w with identity := (Identity.perform c w.identity).2 })
  | .deliver .., w => ((), w)

/-- Calls that look at the accounts, or write the audit trail. -/
def ReadsIdentity : Call V → Prop
  | .identity (.suspendUser ..) => False
  | .identity (.insertFactorIfAbsent ..) => False
  | .identity (.saveFactor ..) => False
  | .identity (.compareAndSaveFactor ..) => False
  | .identity _ => True
  | _ => False

theorem perform_readsIdentity (e : Call V) (w : World V) (h : ReadsIdentity e) :
    (perform e w).2 = w := by
  cases e with
  | store c => cases h
  | registry c => cases h
  | deliver => cases h
  | identity c => cases c <;> first | rfl | cases h

def fault : (e : Call V) → Option e.Answer
  | .store _ => some (.error ⟨⟩)
  | .registry c => some c.failed
  | .identity _ => none
  | .deliver .. => none

def Answers (e : Call V) (w : World V) (a : e.Answer) (w' : World V) : Prop :=
  a = (perform e w).1 ∧ w' = (perform e w).2

/-- A call is answered, or it fails; one that fails may have taken effect all the same. -/
def Reply (e : Call V) (w : World V) (a : e.Answer) (w' : World V) : Prop :=
  Answers e w a w' ∨ (fault e = some a ∧ (w' = w ∨ w' = (perform e w).2))

theorem Reply.registry {c : RegistryCall} {w w' : World V} {a : c.Answer}
    (h : Reply (.registry c) w a w') :
    (a = (Registry.perform c w.registry).1 ∨ a = c.failed) ∧
      (w'.registry = w.registry ∨ w'.registry = (Registry.perform c w.registry).2) := by
  rcases h with ⟨rfl, rfl⟩ | ⟨hf, h⟩
  · exact ⟨.inl rfl, .inr rfl⟩
  · refine ⟨.inr (Option.some.inj hf).symm, ?_⟩
    rcases h with rfl | rfl
    · exact .inl rfl
    · exact .inr rfl

end World

namespace Store

def load (id : SessionId) : Async V (Except StoreError (Option (SessionData V))) :=
  await (.store (.load id))

def save (id : SessionId) (data : SessionData V) (ttl : Duration) :
    Async V (Except StoreError Unit) :=
  await (.store (.save id data ttl))

def delete (id : SessionId) : Async V (Except StoreError Unit) :=
  await (.store (.delete id))

def updateIfRevision (id : SessionId) (expected : UInt64) (data : SessionData V)
    (ttl : Duration) : Async V (Except StoreError ConditionalUpdate) :=
  await (.store (.updateIfRevision id expected data ttl))

def cycle (oldId newId : SessionId) (data : SessionData V) (ttl : Duration)
    (requireOld : Bool) : Async V (Except StoreError CycleOutcome) :=
  await (.store (.cycle oldId newId data ttl requireOld))

def cycleIfRevision (oldId newId : SessionId) (data : SessionData V) (ttl : Duration)
    (requireOld : Bool) (expected : UInt64) : Async V (Except StoreError CycleOutcome) :=
  await (.store (.cycleIfRevision oldId newId data ttl requireOld expected))

end Store

namespace Reg

def liveness (u : UserId) (id : SessionId) : Async V SessionLiveness :=
  await (.registry (.liveness u id))

def register (u : UserId) (id : SessionId) : Async V Bool :=
  await (.registry (.register u id))

def invalidateSession (u : UserId) (id : SessionId) : Async V (Except RevocationError Unit) :=
  await (.registry (.invalidateSession u id))

def invalidateUser (u : UserId) : Async V (Except RevocationError Unit) :=
  await (.registry (.invalidateUser u))

def heldSessions (u : UserId) : Async V (Except RevocationError (List SessionId)) :=
  await (.registry (.heldSessions u))

end Reg

namespace Idn

def accountStatus (u : UserId) : Async V (Except StoreError EntityState) :=
  await (.identity (.accountStatus u))

def suspendUser (u : UserId) (detail : StatusDetail) : Async V (Except StoreError Unit) :=
  await (.identity (.suspendUser u detail))

def getUserTenant (u : UserId) : Async V (Except StoreError (Option TenantId)) :=
  await (.identity (.getUserTenant u))

def getTenant (t : TenantId) : Async V (Except StoreError (Option EntityState)) :=
  await (.identity (.getTenant t))

def recordEvent (event : AuditEvent) : Async V (Except StoreError Unit) :=
  await (.identity (.recordEvent event))

def failedAttempts (u : UserId) : Async V (Except StoreError (Nat × Option Instant)) :=
  await (.identity (.failedAttempts u))

def onKnownDevice (u : UserId) : Async V Bool := await (.identity (.onKnownDevice u))

def retryAfter (u : UserId) : Async V (Option Duration) := await (.identity (.retryAfter u))

def reserveAttempt (u : UserId) : Async V (Except StoreError (Option Nat)) :=
  await (.identity (.reserveAttempt u))

def recordFailedAttempt (u : UserId) : Async V (Except StoreError Nat) :=
  await (.identity (.recordFailedAttempt u))

def note (n : Note) : Async V (Except StoreError Unit) := await (.identity (.note n))

def resolveFactor (scope : UserScope) (kind : FactorKind) :
    Async V (Except StoreError (Option ResolvedFactor)) :=
  await (.identity (.resolveFactor scope kind))

def loadFactor (scope : UserScope) (kind : FactorKind) :
    Async V (Except StoreError (Option FactorConfig)) :=
  await (.identity (.loadFactor scope kind))

def insertFactorIfAbsent (scope : UserScope) (config : FactorConfig) :
    Async V (Except StoreError Bool) :=
  await (.identity (.insertFactorIfAbsent scope config))

def compareAndSaveFactor (scope : UserScope) (expected next : FactorConfig) :
    Async V (Except StoreError Bool) :=
  await (.identity (.compareAndSaveFactor scope expected next))

def saveFactor (scope : UserScope) (config : FactorConfig) : Async V (Except StoreError Unit) :=
  await (.identity (.saveFactor scope config))

def availableMethods (scope : UserScope) : Async V (Except StoreError (List AuthMethod)) :=
  await (.identity (.availableMethods scope))

end Idn

section Eval

variable (w : World V) (id oldId newId : SessionId) (data : SessionData V) (ttl : Duration)
  (requireOld : Bool) (expected : UInt64) (u : UserId)

@[simp] theorem Store.eval_load :
    (Store.load id).eval World.perform w = (.ok (w.rows id), w) := rfl

@[simp] theorem Store.eval_updateIfRevision :
    (Store.updateIfRevision id expected data ttl).eval World.perform w =
      (.ok (w.rows.updateIfRevision id expected data ttl).1,
        { w with rows := (w.rows.updateIfRevision id expected data ttl).2 }) := rfl

@[simp] theorem Store.eval_cycle :
    (Store.cycle oldId newId data ttl requireOld).eval World.perform w =
      (.ok (w.rows.cycle oldId newId data ttl requireOld).1,
        { w with rows := (w.rows.cycle oldId newId data ttl requireOld).2 }) := rfl

@[simp] theorem Store.eval_cycleIfRevision :
    (Store.cycleIfRevision oldId newId data ttl requireOld expected).eval World.perform w =
      (.ok (w.rows.cycleIfRevision oldId newId data ttl requireOld expected).1,
        { w with rows := (w.rows.cycleIfRevision oldId newId data ttl requireOld expected).2 }) :=
  rfl

@[simp] theorem Reg.eval_liveness :
    (Reg.liveness u id).eval World.perform w = (w.registry.liveness u id, w) := rfl

@[simp] theorem Reg.eval_register :
    (Reg.register u id).eval World.perform w =
      (true, { w with registry := w.registry.register u id }) := rfl

@[simp] theorem Reg.eval_invalidateSession :
    (Reg.invalidateSession u id).eval World.perform w =
      (.ok (), { w with registry := w.registry.invalidateSession u id }) := rfl

@[simp] theorem Idn.eval_getUserTenant :
    (Idn.getUserTenant u).eval World.perform w = (.ok (w.identity.userTenant u), w) := rfl

end Eval

end Axess
