import Axess.Refresh.Ledger

/-!
# The refresh tokens in memory

`MemoryRefreshTokenStore` (`testing/mock_refresh_store.rs`) keeps its rows in a `MemoryStore`
(`store/memory.rs`): a map under one lock, each entry with a deadline. Taking a snapshot, updating
one row and putting one row are each done under the lock; the methods of the store are made of
several such steps, and other callers get in between them.
-/

namespace Axess

open Calls

variable {ι : Type}

structure MemoryEntry where
  value : RefreshToken
  expiresAt : Instant
  deriving DecidableEq, Repr

/-- The entries, each under the id of its token; what the clock shows; and whether `issue_lock` is
taken. -/
structure MemoryMap where
  entries : List MemoryEntry
  clock : Instant
  issuing : Bool
  deriving DecidableEq, Repr

inductive MemoryCall where
  | now
  | snapshot
  | update (id : RefreshTokenId) (reason : RevocationReason) (at_ : Instant)
  | put (token : RefreshToken) (ttl : TimeDelta)
  | lockIssue
  | unlockIssue
  deriving DecidableEq, Repr

abbrev MemoryCall.Answer : MemoryCall → Type
  | now => Instant
  | snapshot => List RefreshToken
  | update .. => Option Bool
  | put .. => Unit
  | lockIssue => Unit
  | unlockIssue => Unit

abbrev MemoryProg := Prog MemoryCall MemoryCall.Answer

def MemoryCall.make (c : MemoryCall) : MemoryProg c.Answer := Prog.perform c

namespace MemoryMap

variable (s : MemoryMap)

def visible (e : MemoryEntry) : Bool := s.clock < e.expiresAt

def deadline (ttl : TimeDelta) : Instant := (checkedAddSigned s.clock ttl).getD maxUtc

def rows : List RefreshToken := (s.entries.filter s.visible).map (·.value)

def touches (id : RefreshTokenId) (e : MemoryEntry) : Bool := e.value.id == id && s.visible e

def revokeEntry (id : RefreshTokenId) (reason : RevocationReason) (at_ : Instant)
    (e : MemoryEntry) : MemoryEntry :=
  if s.touches id e then { e with value := e.value.revoke reason at_ } else e

def perform : (c : MemoryCall) → MemoryMap → c.Answer × MemoryMap
  | .now, s => (s.clock, s)
  | .snapshot, s => (s.rows, s)
  | .update id reason at_, s =>
    ((s.entries.find? (s.touches id)).map fun e => !e.value.revoked,
      { s with entries := s.entries.map (s.revokeEntry id reason at_) })
  | .put token ttl, s =>
    ((), { s with entries := s.entries.filter (·.value.id != token.id) ++ [⟨token, s.deadline ttl⟩] })
  | .lockIssue, s => ((), { s with issuing := true })
  | .unlockIssue, s => ((), { s with issuing := false })

/-- The clock may have moved on before the step; a snapshot lists the rows in any order; the issue
lock is waited for. -/
def Answers (c : MemoryCall) (s : MemoryMap) (a : c.Answer) (s' : MemoryMap) : Prop :=
  ∃ now, s.clock ≤ now ∧
    match c, a with
    | .snapshot, a => a.Perm { s with clock := now }.rows ∧ s' = { s with clock := now }
    | .lockIssue, _ => s.issuing = false ∧ s' = { s with clock := now, issuing := true }
    | c, a => (a, s') = perform c { s with clock := now }

end MemoryMap

namespace MemoryRefreshTokenStore

def storeToken (token : RefreshToken) : MemoryProg Unit := do
  let now ← MemoryCall.now.make
  (MemoryCall.put token (max 0 (token.expiresAt - now))).make

def revokeAs (id : RefreshTokenId) (reason : RevocationReason) : MemoryProg Unit := do
  let now ← MemoryCall.now.make
  let _ ← (MemoryCall.update id reason now).make
  pure ()

def revokeEach (reason : RevocationReason) : List RefreshToken → MemoryProg Unit
  | [] => pure ()
  | token :: rest => do
    revokeAs token.id reason
    revokeEach reason rest

def findToken (tokenHash : String) : MemoryProg (Option RefreshToken) := do
  let rows ← MemoryCall.snapshot.make
  pure (rows.find? (·.tokenHash == tokenHash))

def revokeToken (id : RefreshTokenId) : MemoryProg Unit := revokeAs id .explicit

def revokeListed (reason : RevocationReason) (p : RefreshToken → Bool) : MemoryProg Nat := do
  let rows ← MemoryCall.snapshot.make
  revokeEach reason (rows.filter p)
  pure (rows.filter p).length

def ofUser (u : UserId) (t : RefreshToken) : Bool := t.userId == u

def ofFamily (u : UserId) (f : TokenFamilyId) (t : RefreshToken) : Bool :=
  t.userId == u && t.familyId == some f

def ofDevice (tenant : TenantId) (device : DeviceId) (t : RefreshToken) : Bool :=
  t.tenantId == tenant && t.deviceId == some device

def revokeUserTokens (u : UserId) : MemoryProg Unit := do
  let _ ← revokeListed .explicit (ofUser u)
  pure ()

def revokeFamily (u : UserId) (f : TokenFamilyId) : MemoryProg Unit := do
  let _ ← revokeListed .compromise (ofFamily u f)
  pure ()

def revokeDeviceTokens (tenant : TenantId) (device : DeviceId) :
    MemoryProg DeviceTokenRevocation := do
  let tokens ← revokeListed .device fun t => ofDevice tenant device t && !t.revoked
  pure (.revoked tokens)

def activeTokens (u : UserId) : MemoryProg (List RefreshToken) := do
  let rows ← MemoryCall.snapshot.make
  pure ((rows.filter fun t => t.userId == u && !t.revoked).insertionSort
    fun a b => a.issuedAt ≤ b.issuedAt)

def issueCapped (token : RefreshToken) (maxPerUser : Nat) : MemoryProg Unit := do
  MemoryCall.lockIssue.make
  let active ← activeTokens token.userId
  revokeEach .evicted (active.take (active.length + 1 - maxPerUser))
  storeToken token
  MemoryCall.unlockIssue.make

def rotateToken (parentId : RefreshTokenId) (token : RefreshToken) :
    MemoryProg RotationOutcome := do
  match ← (MemoryCall.update parentId .rotated token.issuedAt).make with
  | some true => do
    storeToken token
    pure .rotated
  | _ => pure .parentAlreadyRevoked

end MemoryRefreshTokenStore

inductive MemoryEvent where
  | listed (rows : List RefreshToken)
  | updated (id : RefreshTokenId) (reason : RevocationReason) (won : Bool)
  | stored (token : RefreshToken)
  deriving DecidableEq

structure MemoryLedger (ι : Type) where
  map : MemoryMap
  history : List (ι × MemoryEvent)

namespace MemoryLedger

def events : (c : MemoryCall) → c.Answer → List MemoryEvent
  | .snapshot, rows => [.listed rows]
  | .update id reason _, won => [.updated id reason (won == some true)]
  | .put token _, _ => [.stored token]
  | _, _ => []

def steps (i : ι) : Sem MemoryCall MemoryCall.Answer (MemoryLedger ι) := fun c s a s' =>
  MemoryMap.Answers c s.map a s'.map ∧ s'.history = s.history ++ (events c a).map (i, ·)

end MemoryLedger

inductive MemoryTask where
  | storeToken (token : RefreshToken)
  | findToken (tokenHash : String)
  | revokeToken (id : RefreshTokenId)
  | revokeUserTokens (userId : UserId)
  | revokeFamily (userId : UserId) (familyId : TokenFamilyId)
  | revokeDeviceTokens (tenantId : TenantId) (deviceId : DeviceId)
  | activeTokens (userId : UserId)
  | issueCapped (token : RefreshToken) (maxPerUser : Nat)
  | rotateToken (parentId : RefreshTokenId) (token : RefreshToken)

inductive MemoryResult where
  | done
  | found (token : Option RefreshToken)
  | device (revocation : DeviceTokenRevocation)
  | active (tokens : List RefreshToken)
  | rotation (outcome : RotationOutcome)
  deriving DecidableEq

namespace MemoryTask

open MemoryRefreshTokenStore

def prog : MemoryTask → MemoryProg MemoryResult
  | storeToken t => do
    MemoryRefreshTokenStore.storeToken t
    pure .done
  | findToken h => do
    let token ← MemoryRefreshTokenStore.findToken h
    pure (.found token)
  | revokeToken id => do
    MemoryRefreshTokenStore.revokeToken id
    pure .done
  | revokeUserTokens u => do
    MemoryRefreshTokenStore.revokeUserTokens u
    pure .done
  | revokeFamily u f => do
    MemoryRefreshTokenStore.revokeFamily u f
    pure .done
  | revokeDeviceTokens t d => do
    let revocation ← MemoryRefreshTokenStore.revokeDeviceTokens t d
    pure (.device revocation)
  | activeTokens u => do
    let tokens ← MemoryRefreshTokenStore.activeTokens u
    pure (.active tokens)
  | issueCapped t max => do
    MemoryRefreshTokenStore.issueCapped t max
    pure .done
  | rotateToken p t => do
    let outcome ← MemoryRefreshTokenStore.rotateToken p t
    pure (.rotation outcome)

def token : MemoryTask → Option RefreshToken
  | storeToken t => some t
  | issueCapped t _ => some t
  | rotateToken _ t => some t
  | _ => none

def covers : MemoryTask → Option (RefreshToken → Bool)
  | revokeUserTokens u => some (ofUser u)
  | revokeFamily u f => some (ofFamily u f)
  | revokeDeviceTokens t d => some (ofDevice t d)
  | _ => none

end MemoryTask

end Axess
