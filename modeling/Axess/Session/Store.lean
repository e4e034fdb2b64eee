import Axess.Session.Data

/-!
# The session store

The calls the session layer makes on its store (`session/store.rs`) and what each does to the
rows. Every call is atomic on the row here, as the trait promises; `cas_by_revision` and
`cycle_by_revision`, which the shipped stores build the two conditional calls from, are in
`Axess.Session.Cas`. A row that has expired counts as no row, so expiry is a delete.
-/

namespace Axess

variable {V : Type}

structure StoreError where
  deriving DecidableEq, Repr

inductive ConditionalUpdate where
  | written | conflict | gone
  deriving DecidableEq, Repr

inductive CycleOutcome where
  | rotated | sessionGone | conflict
  deriving DecidableEq, Repr

abbrev Rows (V : Type) := SessionId → Option (SessionData V)

namespace Rows

def put (rows : Rows V) (id : SessionId) (data : SessionData V) : Rows V :=
  Function.update rows id (some data)

def drop (rows : Rows V) (id : SessionId) : Rows V := Function.update rows id none

@[simp] theorem put_self (rows : Rows V) (id : SessionId) (data : SessionData V) :
    rows.put id data id = some data := by simp [put]

@[simp] theorem put_of_ne (rows : Rows V) {id i : SessionId} (data : SessionData V)
    (h : i ≠ id) : rows.put id data i = rows i := by simp [put, h]

@[simp] theorem drop_self (rows : Rows V) (id : SessionId) : rows.drop id id = none := by
  simp [drop]

@[simp] theorem drop_of_ne (rows : Rows V) {id i : SessionId} (h : i ≠ id) :
    rows.drop id i = rows i := by simp [drop, h]

theorem drop_apply (rows : Rows V) (id i : SessionId) :
    rows.drop id i = if i = id then none else rows i := by
  by_cases h : i = id <;> simp [h]

end Rows

inductive StoreCall (V : Type) where
  | load (id : SessionId)
  | save (id : SessionId) (data : SessionData V) (ttl : Duration)
  | delete (id : SessionId)
  | updateIfRevision (id : SessionId) (expected : UInt64) (data : SessionData V) (ttl : Duration)
  | cycle (oldId newId : SessionId) (data : SessionData V) (ttl : Duration) (requireOld : Bool)
  | cycleIfRevision (oldId newId : SessionId) (data : SessionData V) (ttl : Duration)
      (requireOld : Bool) (expected : UInt64)

namespace StoreCall

abbrev Result : StoreCall V → Type
  | load _ => Option (SessionData V)
  | save .. => Unit
  | delete _ => Unit
  | updateIfRevision .. => ConditionalUpdate
  | cycle .. => CycleOutcome
  | cycleIfRevision .. => CycleOutcome

end StoreCall

namespace Rows

def save (rows : Rows V) (id : SessionId) (data : SessionData V) (ttl : Duration) : Rows V :=
  if ttl = 0 then rows.drop id else rows.put id data

def updateIfRevision (rows : Rows V) (id : SessionId) (expected : UInt64)
    (data : SessionData V) (ttl : Duration) : ConditionalUpdate × Rows V :=
  match rows id with
  | none => (.gone, rows)
  | some row =>
    if row.revision ≠ expected then (.conflict, rows)
    else if ttl = 0 then (.gone, rows.drop id)
    else (.written, rows.put id data)

def cycle (rows : Rows V) (oldId newId : SessionId) (data : SessionData V) (ttl : Duration)
    (requireOld : Bool) : CycleOutcome × Rows V :=
  if ttl = 0 then (.sessionGone, (rows.drop oldId).drop newId)
  else if requireOld && (rows oldId).isNone then (.sessionGone, rows)
  else (.rotated, (rows.drop oldId).put newId data)

def cycleIfRevision (rows : Rows V) (oldId newId : SessionId) (data : SessionData V)
    (ttl : Duration) (requireOld : Bool) (expected : UInt64) : CycleOutcome × Rows V :=
  match rows oldId with
  | none => rows.cycle oldId newId data ttl requireOld
  | some row =>
    if row.revision ≠ expected then (.conflict, rows)
    else rows.cycle oldId newId data ttl requireOld

def perform : (c : StoreCall V) → Rows V → c.Result × Rows V
  | .load id, rows => (rows id, rows)
  | .save id data ttl, rows => ((), rows.save id data ttl)
  | .delete id, rows => ((), rows.drop id)
  | .updateIfRevision id expected data ttl, rows => rows.updateIfRevision id expected data ttl
  | .cycle oldId newId data ttl requireOld, rows => rows.cycle oldId newId data ttl requireOld
  | .cycleIfRevision oldId newId data ttl requireOld expected, rows =>
    rows.cycleIfRevision oldId newId data ttl requireOld expected

end Rows

end Axess
