import Axess.Maps.MultiMap
import Axess.Session.Data

/-!
# Which local session a logout from the identity provider ends

The map from `(issuer, sid)` to a local session, its indexes, and the registry of every session a
subject's logins established (`federation/sid_map.rs`). Everything is under one lock, so each
operation is one step. The order in which a hash set is walked is not modelled: no result depends
on it.
-/

namespace Axess

open Maps

abbrev SidKey := String × String

structure StoredSid where
  subject : String
  user : UserId
  session : SessionId
  insertedAt : Instant
  deriving DecidableEq

structure SubjectOf where
  issuer : String
  subject : String
  user : UserId
  deriving DecidableEq

structure SidState where
  entries : AList fun _ : SidKey => StoredSid
  keysOfSession : MultiMap SessionId SidKey
  bySubject : MultiMap (String × String) String
  order : List (Instant × SidKey)
  subjects : MultiMap (String × String) (UserId × SessionId)
  subjectOf : AList fun _ : SessionId => SubjectOf
  subjectOrder : List (String × UserId × SessionId)

def orderLe (a b : Instant × SidKey) : Prop :=
  a.1 < b.1 ∨ a.1 = b.1 ∧ (a.2.1 < b.2.1 ∨ a.2.1 = b.2.1 ∧ a.2.2 ≤ b.2.2)

instance : DecidableRel orderLe := fun _ _ => inferInstanceAs (Decidable (_ ∨ _))

def queueSlack : Nat := 64

namespace SidState

def empty : SidState := ⟨∅, ∅, ∅, [], ∅, ∅, []⟩

variable (s : SidState)

def unlinkSession (session : SessionId) (key : SidKey) : SidState :=
  { s with keysOfSession := s.keysOfSession.drop session key }

def unindex (issuer subject sid : String) : SidState :=
  { s with bySubject := s.bySubject.drop (issuer, subject) sid }

def unorder (insertedAt : Instant) (key : SidKey) : SidState :=
  { s with order := s.order.filter (· ≠ (insertedAt, key)) }

def insert (key : SidKey) (stored : StoredSid) : Option StoredSid × SidState :=
  let displaced := s.entries.lookup key
  let s := { s with entries := s.entries.insert key stored }
  let s := match displaced with
    | none => s
    | some old =>
      let s := if old.subject ≠ stored.subject then s.unindex key.1 old.subject key.2 else s
      (s.unlinkSession old.session key).unorder old.insertedAt key
  (displaced, { s with
    keysOfSession := s.keysOfSession.add stored.session key
    bySubject := s.bySubject.add (key.1, stored.subject) key.2
    order := (s.order.filter (· ≠ (stored.insertedAt, key))).orderedInsert orderLe
      (stored.insertedAt, key) })

def forgetSubject (issuer : String) (user : UserId) (session : SessionId) : Bool × SidState :=
  match s.subjectOf.lookup session with
  | none => (false, s)
  | some held =>
    if held.issuer = issuer ∧ held.user = user then
      (true, { s with
        subjectOf := s.subjectOf.erase session
        subjects := s.subjects.drop (held.issuer, held.subject) (held.user, session) })
    else (false, s)

def recorded (item : String × UserId × SessionId) : Bool :=
  (s.subjectOf.lookup item.2.2).any fun held => held.issuer = item.1 ∧ held.user = item.2.1

/-- Drop what has been forgotten from the sweep's queue once it has grown too long. -/
def compact : SidState :=
  if 2 * s.subjectOf.keys.length + queueSlack < s.subjectOrder.length then
    { s with subjectOrder := s.subjectOrder.filter s.recorded }
  else s

def record (issuer subject : String) (user : UserId) (session : SessionId) : SidState :=
  { s with
    subjects := s.subjects.add (issuer, subject) (user, session)
    subjectOf := s.subjectOf.insert session ⟨issuer, subject, user⟩
    subjectOrder := s.subjectOrder ++ [(issuer, user, session)] }

def registerSubject (issuer subject : String) (user : UserId) (session : SessionId) : SidState :=
  match s.subjectOf.lookup session with
  | none => (s.record issuer subject user session).compact
  | some held =>
    if held = ⟨issuer, subject, user⟩ then s
    else ((s.forgetSubject held.issuer held.user session).2.record issuer subject user
      session).compact

def remove (key : SidKey) : Option StoredSid × SidState :=
  match s.entries.lookup key with
  | none => (none, s)
  | some stored =>
    let s := { s with entries := s.entries.erase key }
    (some stored, ((s.unorder stored.insertedAt key).unindex key.1 stored.subject key.2).unlinkSession
      stored.session key)

/-- At most `n` items are taken from the order, of which those without a mapping count for nothing. -/
def evictFrom (due : Instant → Bool) : Nat → Nat → SidState → List (SidKey × StoredSid) × SidState
  | n + 1, max + 1, s =>
    match s.order with
    | [] => ([], s)
    | (insertedAt, key) :: order =>
      if due insertedAt then
        match { s with order := order }.remove key with
        | (none, s) => evictFrom due n (max + 1) s
        | (some stored, s) =>
          let (evicted, s) := evictFrom due n max s
          ((key, stored) :: evicted, s)
      else ([], s)
  | _, _, s => ([], s)

def evictFront (due : Instant → Bool) (max : Nat) : List (SidKey × StoredSid) × SidState :=
  evictFrom due s.order.length max s

def insertDisplacing (key : SidKey) (subject : String) (user : UserId) (session : SessionId)
    (insertedAt : Instant) : Option StoredSid × SidState :=
  s.insert key ⟨subject, user, session, insertedAt⟩

/-- Put a displaced mapping back, unless the key has been mapped again or its session has left the
subject registry. -/
def restoreIfVacant (key : SidKey) (displaced : StoredSid) : Bool × SidState :=
  if (s.entries.lookup key).isSome ∨ (s.subjectOf.lookup displaced.session).isNone then (false, s)
  else (true, (s.insert key displaced).2)

def removeIf (key : SidKey) (expected : StoredSid → Bool) : Option StoredSid × SidState :=
  if (s.entries.lookup key).any expected then
    match s.remove key with
    | (none, s) => (none, s)
    | (some stored, s) => (some stored, (s.forgetSubject key.1 stored.user stored.session).2)
  else (none, s)

def subjectSessions (issuer subject : String) : List (UserId × SessionId) :=
  let registered := s.subjects.values (issuer, subject)
  let mapped := (s.bySubject.values (issuer, subject)).filterMap fun sid =>
    (s.entries.lookup (issuer, sid)).map fun stored => (stored.user, stored.session)
  (mapped.foldl (fun out pair => if pair ∈ out then out else out ++ [pair]) registered).insertionSort
    fun a b => a.1.uuid < b.1.uuid ∨ a.1.uuid = b.1.uuid ∧ a.2.uuid ≤ b.2.uuid

/-- The next sessions to check, each moved to the back of the queue. -/
def sweepFrom : Nat → List SessionId → SidState → List (String × UserId × SessionId) × SidState
  | 0, _, s => ([], s)
  | n + 1, named, s =>
    match s.subjectOrder with
    | [] => ([], s)
    | item :: queue =>
      let s := { s with subjectOrder := queue }
      if s.recorded item ∧ item.2.2 ∉ named then
        let (out, s) := sweepFrom n (item.2.2 :: named)
          { s with subjectOrder := s.subjectOrder ++ [item] }
        (item :: out, s)
      else sweepFrom n named s

def sweepSubjectCandidates (max : Nat) : List (String × UserId × SessionId) × SidState :=
  sweepFrom (min max s.subjectOrder.length) [] s

def removeKeys : List SidKey → SidState → Nat × SidState
  | [], s => (0, s)
  | key :: keys, s =>
    ((removeKeys keys (s.remove key).2).1 + (s.remove key).1.toList.length,
      (removeKeys keys (s.remove key).2).2)

def removeSession (session : SessionId) : Nat × SidState :=
  let (count, s) := removeKeys (s.keysOfSession.values session) s
  match s.subjectOf.lookup session with
  | none => (count, s)
  | some held => (count, (s.forgetSubject held.issuer held.user session).2)

def evictInsertedBefore (cutoff : Instant) (max : Nat) : List (SidKey × StoredSid) × SidState :=
  s.evictFront (· < cutoff) max

def evictOldest (max : Nat) : List (SidKey × StoredSid) × SidState :=
  s.evictFront (fun _ => true) max

def len : Nat := s.entries.keys.length

end SidState

end Axess
