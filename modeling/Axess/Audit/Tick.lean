import Axess.Calls.Pool
import Axess.Session.Data

/-!
# The audit retention loop

Rows of the audit table that have reached their age are offered to a cold sink, marked once the sink
has taken them, and purged some time later (`audit/archive.rs`, `audit/archive/skipped.rs`). The
table, the sink and the clock are outside the loop: each use of them is one call. The record of the
rows the sink refused is the loop's own and is passed along.
-/

namespace Axess

open Calls

def strikesBeforeSkip : Nat := 3

def skipFor : Duration := 3600 * 1000000000

def maxTrackedRows : Nat := 10000

structure RowRefusals where
  strikes : Nat
  heldUntil : Option Instant
  deriving DecidableEq

structure Skipped where
  rows : AList fun _ : String => RowRefusals

namespace Skipped

instance : EmptyCollection Skipped := ⟨⟨∅⟩⟩

def find (skipped : Skipped) (id : String) : Option RowRefusals := skipped.rows.lookup id

def expireRow (now : Instant) (row : RowRefusals) : RowRefusals :=
  match row.heldUntil with
  | some instant => if instant ≤ now then { row with heldUntil := none } else row
  | none => row

def mapRows (f : RowRefusals → RowRefusals) (skipped : Skipped) : Skipped where
  rows :=
    { entries := skipped.rows.entries.map fun entry => ⟨entry.1, f entry.2⟩
      nodupKeys := by
        have hkeys := skipped.rows.nodupKeys
        simpa [List.NodupKeys, List.keys, Function.comp_def] using hkeys }

def expire (skipped : Skipped) (now : Instant) : Skipped := skipped.mapRows (expireRow now)

def held (skipped : Skipped) : Nat :=
  (skipped.rows.entries.filter fun entry => entry.2.heldUntil.isSome).length

def isHeld (skipped : Skipped) (id : String) : Bool :=
  (skipped.find id).any fun row => row.heldUntil.isSome

def strike (certain : Bool) (now : Instant) (row : RowRefusals) : RowRefusals :=
  if certain ∨ strikesBeforeSkip ≤ row.strikes + 1 then
    { strikes := strikesBeforeSkip - 1, heldUntil := some (now + skipFor) }
  else { row with strikes := row.strikes + 1 }

def refused (skipped : Skipped) (id : String) (certain : Bool) (now : Instant) : Skipped :=
  if skipped.find id = none ∧ maxTrackedRows ≤ skipped.rows.keys.length then skipped
  else ⟨skipped.rows.insert id (strike certain now ((skipped.find id).getD ⟨0, none⟩))⟩

def taken (skipped : Skipped) (id : String) : Skipped := ⟨skipped.rows.erase id⟩

def noteRefusals (skipped : Skipped) (ids : List String) (certain : Bool) (now : Instant) :
    Skipped :=
  ids.foldl (fun skipped id => skipped.refused id certain now) skipped

def forgetRefusals (skipped : Skipped) (ids : List String) : Skipped := ids.foldl taken skipped

end Skipped

structure AuditRetentionPolicy where
  archiveAfter : Duration := 90 * 24 * 3600 * 1000000000
  purgeHotAfterArchive : Duration := 7 * 24 * 3600 * 1000000000

structure AuditRetentionLoop where
  policy : AuditRetentionPolicy := {}
  batchSize : Nat := 10000
  /-- The setter of the batch size raises it to one. -/
  batchSize_pos : 0 < batchSize := by decide

inductive RetentionCall (Id Event : Type) where
  | now
  | selectUnarchivedBefore (cutoff : Instant) (limit : Nat)
  | archiveBatch (rows : List (Id × Event))
  | markArchived (ids : List Id) (time : Instant)
  | purgeHotArchivedBefore (cutoff : Instant)

section Loop

variable (Id Event SourceError ArchiverError : Type)

abbrev RetentionCall.Answer : RetentionCall Id Event → Type
  | now => Instant
  | selectUnarchivedBefore _ _ => Except SourceError (List (Id × Event))
  | archiveBatch _ => Except ArchiverError Unit
  | markArchived _ _ => Except SourceError Unit
  | purgeHotArchivedBefore _ => Except SourceError Nat

abbrev RetentionProg := Prog (RetentionCall Id Event)
  (RetentionCall.Answer Id Event SourceError ArchiverError)

end Loop

inductive RetentionError (SourceError ArchiverError : Type) where
  | source (e : SourceError)
  | archiver (e : ArchiverError)
  deriving DecidableEq

structure RetentionTickReport where
  archived : Nat := 0
  purged : Nat := 0
  deriving DecidableEq

def cutoffBefore (minUtc now : Instant) (age : Duration) : Instant :=
  if now - age < minUtc then minUtc else now - age

namespace AuditRetentionLoop

variable {Id Event SourceError ArchiverError : Type}

section Calls

def clockNow : RetentionProg Id Event SourceError ArchiverError Instant := Prog.perform RetentionCall.now

def select (cutoff : Instant) (limit : Nat) :
    RetentionProg Id Event SourceError ArchiverError (Except SourceError (List (Id × Event))) :=
  Prog.perform (RetentionCall.selectUnarchivedBefore cutoff limit)

def offer (rows : List (Id × Event)) :
    RetentionProg Id Event SourceError ArchiverError (Except ArchiverError Unit) :=
  Prog.perform (RetentionCall.archiveBatch rows)

def markArchived (ids : List Id) (time : Instant) :
    RetentionProg Id Event SourceError ArchiverError (Except SourceError Unit) :=
  Prog.perform (RetentionCall.markArchived ids time)

def purge (cutoff : Instant) :
    RetentionProg Id Event SourceError ArchiverError (Except SourceError Nat) :=
  Prog.perform (RetentionCall.purgeHotArchivedBefore cutoff)

end Calls

structure Pass (Id ArchiverError : Type) where
  taken : List Id
  refused : List Id
  firstFailure : Option ArchiverError

def Pass.note (pass : Pass Id ArchiverError) (id : Id) :
    Except ArchiverError Unit → Pass Id ArchiverError
  | .ok () => { pass with taken := pass.taken ++ [id] }
  | .error e =>
    { pass with refused := pass.refused ++ [id]
                firstFailure := pass.firstFailure <|> some e }

def offerEach :
    List (Id × Event) → Pass Id ArchiverError →
      RetentionProg Id Event SourceError ArchiverError (Pass Id ArchiverError)
  | [], pass => pure pass
  | row :: rows, pass => do
    let answer ← offer [row]
    offerEach rows (pass.note row.1 answer)

/-- What the archive step comes to: the count it adds to the report, its error, and the record of
refused rows it leaves. -/
structure ArchiveStep (SourceError ArchiverError : Type) where
  archived : Nat
  result : Except (RetentionError SourceError ArchiverError) Unit
  skipped : Skipped

section Tick

variable [ToString Id] (minUtc : Instant) (loop : AuditRetentionLoop)

def batchOf (skipped : Skipped) (rows : List (Id × Event)) : List (Id × Event) :=
  (rows.filter fun row => !skipped.isHeld (toString row.1)).take loop.batchSize

def texts (ids : List Id) : List String := ids.map toString

def finishPass (now : Instant) (skipped : Skipped) (pass : Pass Id ArchiverError) :
    RetentionProg Id Event SourceError ArchiverError (ArchiveStep SourceError ArchiverError) := do
  let result := match pass.firstFailure with
    | some e => .error (.archiver e)
    | none => .ok ()
  if pass.taken.isEmpty then pure ⟨0, result, skipped⟩
  else
    match ← markArchived pass.taken now with
    | .error e => pure ⟨0, .error (.source e), skipped⟩
    | .ok () =>
      pure ⟨pass.taken.length, result,
        (skipped.forgetRefusals (texts pass.taken)).noteRefusals (texts pass.refused) true now⟩

/-- A batch of more than one row was refused. The oldest row and the newest are offered alone first:
when both are refused as well, the sink is taken to be down. -/
def offerRows (now : Instant) (skipped : Skipped) (first : Id × Event) (rest : List (Id × Event))
    (last : Id × Event) (refused : ArchiverError) :
    RetentionProg Id Event SourceError ArchiverError (ArchiveStep SourceError ArchiverError) := do
  match ← offer [first] with
  | .ok () => finishPass now skipped (← offerEach rest ⟨[first.1], [], none⟩)
  | .error e =>
    match ← offer [last] with
    | .ok () => finishPass now skipped (← offerEach rest.dropLast ⟨[last.1], [first.1], some e⟩)
    | .error _ =>
      pure ⟨0, .error (.archiver refused),
        skipped.noteRefusals (texts [first.1, last.1]) false now⟩

def offerBatch (now : Instant) (skipped : Skipped) :
    List (Id × Event) →
      RetentionProg Id Event SourceError ArchiverError (ArchiveStep SourceError ArchiverError)
  | [] => pure ⟨0, .ok (), skipped⟩
  | first :: rest => do
    match ← offer (first :: rest) with
    | .ok () =>
      let ids := (first :: rest).map Prod.fst
      match ← markArchived ids now with
      | .error e => pure ⟨0, .error (.source e), skipped⟩
      | .ok () => pure ⟨(first :: rest).length, .ok (), skipped.forgetRefusals (texts ids)⟩
    | .error refused =>
      match rest.getLast? with
      | none =>
        pure ⟨0, .error (.archiver refused), skipped.noteRefusals (texts [first.1]) false now⟩
      | some last => offerRows now skipped first rest last refused

def usizeMax : Nat := 2 ^ 64 - 1

/-- The archive step of a tick. The rows set aside are asked for on top of the batch size. -/
def archiveDue (skipped : Skipped) (now cutoff : Instant) :
    RetentionProg Id Event SourceError ArchiverError (ArchiveStep SourceError ArchiverError) := do
  let skipped := skipped.expire now
  match ← select cutoff (min (loop.batchSize + skipped.held) usizeMax) with
  | .error e => pure ⟨0, .error (.source e), skipped⟩
  | .ok rows => offerBatch now skipped (loop.batchOf skipped rows)

structure TickOutcome (SourceError ArchiverError : Type) where
  report : RetentionTickReport
  result : Except (RetentionError SourceError ArchiverError) Unit
  skipped : Skipped

def tickWithReport (skipped : Skipped) :
    RetentionProg Id Event SourceError ArchiverError (TickOutcome SourceError ArchiverError) := do
  let now ← clockNow
  let archiveCutoff := cutoffBefore minUtc now loop.policy.archiveAfter
  let purgeCutoff := cutoffBefore minUtc now loop.policy.purgeHotAfterArchive
  let step ← loop.archiveDue skipped now archiveCutoff
  match ← purge purgeCutoff with
  | .ok purged => pure ⟨⟨step.archived, purged⟩, step.result, step.skipped⟩
  | .error e =>
    -- `archived.and(Err(..))`: the archive step's error comes first
    let result := match step.result with
      | .ok () => .error (.source e)
      | .error e => .error e
    pure ⟨⟨step.archived, 0⟩, result, step.skipped⟩

end Tick

end AuditRetentionLoop

end Axess
