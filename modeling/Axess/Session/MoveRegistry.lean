import Axess.System

/-!
# Moving a registry entry

When the layer rotates the id of an authenticated session, the registry entry has to follow
(`session/layer/lifecycle/registry.rs`). The registry offers no transaction: the move is up to
five separate calls, and a revocation may land between any two of them.
-/

namespace Axess

open Calls

variable {V : Type}

/-- What the layer does with a session the registry cannot vouch for. -/
inductive UnknownLiveness where
  | accept | reject
  deriving DecidableEq, Repr

structure Rotation where
  wasAuthenticated : Bool
  userId : UserId
  oldId : SessionId
  newId : SessionId
  distinct : oldId ≠ newId

def endUntracked (id : SessionId) : Async V Bool := do
  let _ ← Store.delete id
  pure false

def onUntracked (unknown : UnknownLiveness) (id : SessionId) : Async V Bool :=
  match unknown with
  | .accept => pure true
  | .reject => endUntracked id

def endRevokedRotation (rotation : Rotation) : Async V Bool := do
  let _ ← Reg.invalidateSession rotation.userId rotation.newId
  endUntracked rotation.newId

def rereadOldId (rotation : Rotation) (unknown : UnknownLiveness) : Async V (Option Bool) := do
  match ← Reg.liveness rotation.userId rotation.oldId with
  | .valid => pure none
  | .gone => return some (← endRevokedRotation rotation)
  | .unknown =>
    match unknown with
    | .accept => pure none
    | .reject => return some (← endRevokedRotation rotation)

def registerRotated (rotation : Rotation) (unknown : UnknownLiveness) : Async V Bool := do
  if ← Reg.register rotation.userId rotation.newId then
    match ← rereadOldId rotation unknown with
    | some end_ => pure end_
    | none =>
      let _ ← Reg.invalidateSession rotation.userId rotation.oldId
      pure true
  else
    onUntracked unknown rotation.newId

def moveRegistryEntry (rotation : Rotation) (unknown : UnknownLiveness) : Async V Bool := do
  match ← Reg.liveness rotation.userId rotation.oldId with
  | .valid => registerRotated rotation unknown
  | .gone =>
    match ← Reg.liveness rotation.userId rotation.newId with
    | .valid => if rotation.wasAuthenticated then endRevokedRotation rotation else pure true
    | .gone => endUntracked rotation.newId
    | .unknown => onUntracked unknown rotation.newId
  | .unknown => registerRotated rotation unknown

end Axess
