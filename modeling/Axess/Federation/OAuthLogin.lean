import Axess.Calls.Prog
import Axess.Federation.SidMap
import Axess.Session.Registry

/-!
# What a login through an identity provider does to the sid map

`complete_oauth_login` from the registration of the new session on
(`oauth_service/login/complete.rs`, `oauth_service/login/complete/pending_ends.rs`): the login enters
the subject registry, mappings that are too old or too many go, its own mapping replaces the one
under its key, and once the audit row is written, or cannot be, what it took out of the map is
settled.
-/

namespace Axess

open Calls

abbrev SubjectSession := String × UserId × SessionId

structure OAuthLogin where
  user : UserId
  provider : String
  subject : String
  oidcSid : Option String
  iss : Option String
  tenantProvider : Bool
  globalIssuer : Option String

namespace OAuthLogin

def maxOidcSidBytes : Nat := 256

def issuer (login : OAuthLogin) : String :=
  let global := if login.tenantProvider then none else login.globalIssuer
  (global <|> login.iss).getD login.provider

def sidKey (login : OAuthLogin) : Option SidKey :=
  (login.oidcSid.filter fun sid => sid.utf8ByteSize ≤ maxOidcSidBytes).map (login.issuer, ·)

end OAuthLogin

inductive OAuthCall where
  | clock
  | register (user : UserId)
  | registerSubject (issuer subject : String) (user : UserId) (session : SessionId)
  | sweepSubjectCandidates (max : Nat)
  | liveness (user : UserId) (session : SessionId)
  | forgetSubject (item : SubjectSession)
  | evictInsertedBefore (cutoff : Instant) (max : Nat)
  | len
  | evictOldest (max : Nat)
  | insertDisplacing (key : SidKey) (subject : String) (user : UserId) (session : SessionId)
      (insertedAt : Instant)
  | emitAudit
  | removeSession (session : SessionId)
  | restoreIfVacant (key : SidKey) (displaced : StoredSid)
  | invalidateSession (user : UserId) (session : SessionId)
  | awaitEnds

namespace OAuthCall

abbrev Answer : OAuthCall → Type
  | clock => Instant
  | register _ => SessionId
  | registerSubject .. => Unit
  | sweepSubjectCandidates _ => List SubjectSession
  | liveness .. => Option SessionLiveness
  | forgetSubject _ => Unit
  | evictInsertedBefore .. => List (SidKey × StoredSid)
  | len => Nat
  | evictOldest _ => List (SidKey × StoredSid)
  | insertDisplacing .. => Option StoredSid
  | emitAudit => Option (Except Unit Unit)
  | removeSession _ => Unit
  | restoreIfVacant .. => Bool
  | invalidateSession .. => Except RevocationError Unit
  | awaitEnds => Option Unit

end OAuthCall

abbrev OAuthProg := Prog OAuthCall OAuthCall.Answer

open Prog OAuthCall

def sidMapTtl : Int := 24 * 3600 * second

def evictBatch : Nat := 128

def pruneBatch : Nat := 128

def sweepBatch : Nat := 64

def forgetWhere {β : Type} (ended : β → Bool) : List (SubjectSession × β) → OAuthProg Unit
  | [] => pure ()
  | (item, answer) :: answers =>
    if ended answer then do
      let () ← perform (forgetSubject item)
      forgetWhere ended answers
    else forgetWhere ended answers

def livenessOf : List SubjectSession → OAuthProg (Option (List (SubjectSession × SessionLiveness)))
  | [] => pure (some [])
  | item :: items => do
    match ← perform (liveness item.2.1 item.2.2) with
    | none => pure none
    | some answer =>
      match ← livenessOf items with
      | none => pure none
      | some answers => pure (some ((item, answer) :: answers))

def forgetGoneSubjectSessions (candidates : List SubjectSession) : OAuthProg (Option Unit) := do
  match ← livenessOf candidates with
  | none => pure none
  | some answers => do
    let () ← forgetWhere (· == .gone) answers
    pure (some ())

def sweepSubjectRegistry : OAuthProg (Option Unit) := do
  let candidates ← perform (sweepSubjectCandidates sweepBatch)
  forgetGoneSubjectSessions candidates

structure PendingEnds where
  aged : List SubjectSession
  displaced : Option (SidKey × StoredSid)

def sessionsOf (mappings : List (SidKey × StoredSid)) : List SubjectSession :=
  mappings.map fun p => (p.1.1, p.2.user, p.2.session)

namespace PendingEnds

def owed (pending : PendingEnds) : List SubjectSession :=
  pending.aged ++ sessionsOf pending.displaced.toList

end PendingEnds

def invalidateAll : List SubjectSession → OAuthProg (List (SubjectSession × Bool))
  | [] => pure []
  | item :: items => do
    let outcome ← perform (invalidateSession item.2.1 item.2.2)
    let outcomes ← invalidateAll items
    pure ((item, outcome.toBool) :: outcomes)

def endSessions (sessions : List SubjectSession) : OAuthProg Unit := do
  let outcomes ← invalidateAll sessions
  forgetWhere id outcomes

def evictForCapacity (capacity : Nat) : OAuthProg (Option Unit) := do
  let size ← perform len
  if capacity ≤ size then do
    let evicted ← perform (evictOldest evictBatch)
    forgetGoneSubjectSessions (sessionsOf evicted)
  else pure (some ())

/-- What the login then owes; an error when the caller went away meanwhile. -/
def maintainOidcSidMap (capacity : Nat) (login : OAuthLogin) (session : SessionId)
    (now : Instant) : OAuthProg (Except PendingEnds PendingEnds) := do
  let () ← perform (registerSubject login.issuer login.subject login.user session)
  match ← sweepSubjectRegistry with
  | none => pure (.error ⟨[], none⟩)
  | some () =>
    match login.sidKey with
    | none => pure (.ok ⟨[], none⟩)
    | some key => do
      let aged ← perform (evictInsertedBefore (now - sidMapTtl) pruneBatch)
      match ← evictForCapacity capacity with
      | none => pure (.error ⟨sessionsOf aged, none⟩)
      | some () => do
        let displaced ← perform (insertDisplacing key login.subject login.user session now)
        pure (.ok ⟨sessionsOf aged, displaced.map (key, ·)⟩)

def PendingEnds.refuse (pending : PendingEnds) : OAuthProg Unit :=
  match pending.displaced with
  | none => endSessions pending.aged
  | some (key, displaced) => do
    let _ ← perform (restoreIfVacant key displaced)
    endSessions pending.aged

def refuseOauthLogin (login : OAuthLogin) (session : SessionId) (pending : PendingEnds) :
    OAuthProg (Option (Except Unit Unit)) := do
  let () ← perform (removeSession session)
  let () ← pending.refuse
  match ← perform awaitEnds with
  | none => pure none
  | some () => do
    let _ ← perform (invalidateSession login.user session)
    pure (some (.error ()))

def completeOauthLogin (capacity : Nat) (login : OAuthLogin) :
    OAuthProg (Option (Except Unit Unit)) := do
  let now ← perform clock
  let session ← perform (register login.user)
  match ← maintainOidcSidMap capacity login session now with
  | .error pending => do
    let () ← endSessions pending.owed
    pure none
  | .ok pending =>
    match ← perform emitAudit with
    | none => do
      let () ← endSessions pending.owed
      pure none
    | some (.ok ()) => do
      let () ← endSessions pending.owed
      pure (some (.ok ()))
    | some (.error ()) => refuseOauthLogin login session pending

end Axess
