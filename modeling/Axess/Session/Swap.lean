import Axess.System
import Axess.Session.Merge

/-!
# The merging write

A write on the condition that the row is still as this request saw it; when a concurrent request
wrote it meanwhile, the row is read again, this request's changes are merged onto it, and the
write is tried again, three times in all (`session/layer/swap.rs`).
-/

namespace Axess

variable {V τ : Type}

def swapAttempts : Nat := 3

def laterStamp : Option Instant → Option Instant → Option Instant
  | none, b => b
  | some a, none => some a
  | some a, some b => some (max a b)

/-- What a merging write settled on. A row that was written comes with what `prepare` last took
out of the stored row (or with what the caller had before the first attempt). -/
inductive Swapped (V τ : Type) where
  | written (data : SessionData V) (taken : τ)
  | gone
  | conflict
  | declined

/-- The row a write starts from and the changes it carries. -/
structure Swap (V : Type) where
  row : SessionId
  base : Option (SessionData V)
  mine : SessionData V
  expected : UInt64
  ttl : Duration
  maxCustomBytes : Nat

variable [BEq V] [JsonSize V]

def Swap.rebase (swap : Swap V) (base fresh : SessionData V) : SessionData V :=
  { mergeConcurrent base swap.mine fresh with
    touchedAt := laterStamp swap.mine.touchedAt fresh.touchedAt }

def Swap.sealed (swap : Swap V) (expected : UInt64) (next : SessionData V) : SessionData V :=
  { next with
    revision := expected + 1
    custom := next.custom.capCustom swap.maxCustomBytes }

def swapLoop (swap : Swap V) (prepare : SessionData V → Option (SessionData V × τ)) :
    Nat → UInt64 → SessionData V → τ → Async V (Except StoreError (Swapped V τ))
  | 0, _, _, _ => pure (.ok .conflict)
  | attempts + 1, expected, next, taken => do
    let next := swap.sealed expected next
    match ← Store.updateIfRevision swap.row expected next swap.ttl with
    | .error e => pure (.error e)
    | .ok .written => pure (.ok (.written next taken))
    | .ok .gone => pure (.ok .gone)
    | .ok .conflict =>
      match swap.base with
      | none => pure (.ok .conflict)
      | some base =>
        match ← Store.load swap.row with
        | .error e => pure (.error e)
        | .ok none => pure (.ok .gone)
        | .ok (some fresh) =>
          match prepare fresh with
          | none => pure (.ok .declined)
          | some (fresh, taken) =>
            swapLoop swap prepare attempts fresh.revision (swap.rebase base fresh) taken

def swapMerging (swap : Swap V) (taken : τ)
    (prepare : SessionData V → Option (SessionData V × τ)) :
    Async V (Except StoreError (Swapped V τ)) :=
  swapLoop swap prepare swapAttempts swap.expected swap.mine taken

end Axess
