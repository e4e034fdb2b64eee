import Axess.Calls.Pool
import Axess.Session.Data

/-!
# The device store in memory

The table of devices with its fingerprint index (`device/store/memory.rs`), and the rules every
backend shares (`device/store.rs`). One lock covers the table and the index, so each operation is one
step; a sweep takes the lock once for each row.
-/

namespace Axess

open Calls

inductive DeviceTrustLevel where
  | unknown | seen | trusted | revoked
  deriving DecidableEq, Repr

structure FingerprintHash where
  bytes : Nat
  deriving DecidableEq, Repr

inductive AttestationClass where
  | none | self | basic | attCa | anonCa
  deriving DecidableEq, Repr

inductive DeviceBinding where
  | cookie (tokenHash : FingerprintHash) (issuedAt lastUsedAt : Instant)
  | webAuthn (credentialId : String) (attestation : AttestationClass) (boundAt lastUsedAt : Instant)
  | refresh (familyId : String) (issuedAt lastUsedAt : Instant)
  deriving DecidableEq, Repr

abbrev DeviceKey := TenantId × DeviceId

structure DeviceRow where
  id : DeviceId
  tenantId : TenantId
  userId : Option UserId
  trustLevel : DeviceTrustLevel
  fingerprintHash : FingerprintHash
  firstSeenAt : Instant
  lastSeenAt : Instant
  revokedAt : Option Instant
  demotedAt : Option Instant
  bindings : List DeviceBinding
  deriving DecidableEq, Repr

/-- Newest sighting first, in whole seconds, then the smaller id. -/
def DeviceRank := Int ×ₗ Nat

instance : LinearOrder DeviceRank := inferInstanceAs (LinearOrder (Int ×ₗ Nat))

namespace DeviceRow

def key (d : DeviceRow) : DeviceKey := (d.tenantId, d.id)

def rank (d : DeviceRow) : DeviceRank := toLex (-timestamp d.lastSeenAt, d.id.uuid)

def Live (d : DeviceRow) : Prop := d.trustLevel ≠ .revoked

instance (d : DeviceRow) : Decidable d.Live := inferInstanceAs (Decidable (_ ≠ _))

def Carries (tenant : TenantId) (hash : FingerprintHash) (d : DeviceRow) : Prop :=
  d.tenantId = tenant ∧ d.fingerprintHash = hash

instance (tenant : TenantId) (hash : FingerprintHash) (d : DeviceRow) :
    Decidable (d.Carries tenant hash) := inferInstanceAs (Decidable (_ ∧ _))

def SharesCreateKey (tenant : TenantId) (hash : FingerprintHash) (user : Option UserId)
    (other : DeviceRow) : Prop :=
  other.Live ∧ other.Carries tenant hash ∧ other.userId = user

instance (tenant : TenantId) (hash : FingerprintHash) (user : Option UserId) (other : DeviceRow) :
    Decidable (other.SharesCreateKey tenant hash user) := inferInstanceAs (Decidable (_ ∧ _ ∧ _))

end DeviceRow

def newestFirst (rows : List DeviceRow) : Option DeviceRow := rows.argmin DeviceRow.rank

def wholeSecond (t : Instant) : Instant := timestamp t * second

def forSave (device : DeviceRow) (now : Instant) : DeviceRow :=
  let revokedAt := if device.trustLevel = .revoked ∧ device.revokedAt = none then some now
    else device.revokedAt
  { device with
    firstSeenAt := wholeSecond device.firstSeenAt
    lastSeenAt := wholeSecond device.lastSeenAt
    revokedAt := revokedAt.map wholeSecond
    demotedAt := device.demotedAt.map wholeSecond }

/-- A save leaves a revoked row alone. -/
def blocksSave (stored : DeviceTrustLevel) : Bool := stored = .revoked

def demotionStamp (old new : DeviceTrustLevel) (current : Option Instant) (now : Instant) :
    Option Instant :=
  match old, new with
  | .trusted, .seen => some now
  | _, .seen => current
  | _, _ => none

def applyTrustLevel (row : DeviceRow) (level : DeviceTrustLevel) (now : Instant) : DeviceRow :=
  let now := wholeSecond now
  { row with
    demotedAt := demotionStamp row.trustLevel level row.demotedAt now
    trustLevel := level
    revokedAt := match level with
      | .revoked => if row.trustLevel = .revoked then row.revokedAt.or (some now) else some now
      | _ => none }

structure SweepConfig where
  trustedIdle : Int
  seenIdle : Int
  revokedGrace : Int

namespace SweepConfig

def numSeconds (length : Int) : Int := length.tdiv second

def levelAfter (cfg : SweepConfig) (level : DeviceTrustLevel) (lastSeenAt : Instant)
    (demotedAt : Option Instant) (now : Instant) : DeviceTrustLevel :=
  let idleSecs (since : Instant) : Int := timestamp now - timestamp since
  match level with
  | .trusted => if idleSecs lastSeenAt > numSeconds cfg.trustedIdle then .seen else .trusted
  | .seen =>
    if idleSecs (demotedAt.elim lastSeenAt (max · lastSeenAt)) > numSeconds cfg.seenIdle then
      .revoked
    else .seen
  | other => other

def purgeDue (cfg : SweepConfig) (revokedAt now : Instant) : Bool :=
  timestamp now - timestamp revokedAt > numSeconds cfg.revokedGrace

end SweepConfig

structure SweepCounts where
  trustedToSeen : Nat
  seenToRevoked : Nat
  revokedPurged : Nat

def SweepCounts.add (a b : SweepCounts) : SweepCounts :=
  ⟨a.trustedToSeen + b.trustedToSeen, a.seenToRevoked + b.seenToRevoked,
    a.revokedPurged + b.revokedPurged⟩

structure DeviceTable where
  devices : AList fun _ : DeviceKey => DeviceRow
  fingerprintIndex : AList fun _ : TenantId × FingerprintHash => DeviceId
  keyed : ∀ key d, devices.lookup key = some d → d.key = key

namespace DeviceTable

variable (t : DeviceTable)

def empty : DeviceTable := ⟨∅, ∅, fun _ _ h => nomatch h⟩

def values : List DeviceRow := t.devices.entries.map (·.2)

def get (key : DeviceKey) : Option DeviceRow := t.devices.lookup key

def put (d : DeviceRow) : DeviceTable where
  devices := t.devices.insert d.key d
  fingerprintIndex := t.fingerprintIndex
  keyed key other h := by
    by_cases hkey : key = d.key
    · subst hkey
      rw [AList.lookup_insert] at h
      rw [Option.some.inj h]
    · rw [AList.lookup_insert_ne hkey] at h
      exact t.keyed key other h

def remove (key : DeviceKey) : DeviceTable where
  devices := t.devices.erase key
  fingerprintIndex := t.fingerprintIndex
  keyed other d h := by
    by_cases hkey : other = key
    · subst hkey
      rw [AList.lookup_erase] at h
      cases h
    · rw [AList.lookup_erase_ne hkey] at h
      exact t.keyed other d h

def settleFingerprint (tenant : TenantId) (hash : FingerprintHash) : DeviceTable :=
  { t with
    fingerprintIndex :=
      match newestFirst (t.values.filter (·.Carries tenant hash)) with
      | some best => t.fingerprintIndex.insert (tenant, hash) best.id
      | none => t.fingerprintIndex.erase (tenant, hash) }

def write (device : DeviceRow) : DeviceTable :=
  match t.get device.key with
  | none => (t.put device).settleFingerprint device.tenantId device.fingerprintHash
  | some stored =>
    if blocksSave stored.trustLevel then t
    else if stored.fingerprintHash ≠ device.fingerprintHash then
      -- the device stops answering to its old fingerprint
      ((t.put device).settleFingerprint device.tenantId stored.fingerprintHash).settleFingerprint
        device.tenantId device.fingerprintHash
    else (t.put device).settleFingerprint device.tenantId device.fingerprintHash

structure NotFound where
  tenantId : TenantId
  deviceId : DeviceId
  deriving DecidableEq

inductive OwnerClaim where
  | claimed | ownedByOther | missing
  deriving DecidableEq

inductive TrustTransition where
  | applied
  | refused (current : DeviceTrustLevel)
  | missing
  deriving DecidableEq

def findByFingerprint (tenant : TenantId) (hash : FingerprintHash) : Option DeviceRow := do
  let id ← t.fingerprintIndex.lookup (tenant, hash)
  (t.get (tenant, id)).filter (·.fingerprintHash = hash)

def findByFingerprintForUser (tenant : TenantId) (user : UserId) (hash : FingerprintHash) :
    Option DeviceRow :=
  newestFirst (t.values.filter fun d => d.Carries tenant hash ∧ d.userId = some user)

def save (device : DeviceRow) (now : Instant) : DeviceTable := t.write (forSave device now)

def createOrFind (device : DeviceRow) (now : Instant) : DeviceRow × DeviceTable :=
  let device := forSave device now
  match newestFirst (t.values.filter
    (·.SharesCreateKey device.tenantId device.fingerprintHash device.userId)) with
  | some existing => (existing, t)
  | none => (device, t.write device)

def recordSighting (tenant : TenantId) (id : DeviceId) (now : Instant) :
    Except NotFound DeviceTrustLevel × DeviceTable :=
  let now := wholeSecond now
  match t.get (tenant, id) with
  | none => (.error ⟨tenant, id⟩, t)
  | some entry =>
    if entry.Live ∧ now > entry.lastSeenAt then
      (.ok entry.trustLevel,
        (t.put { entry with lastSeenAt := now }).settleFingerprint tenant entry.fingerprintHash)
    else (.ok entry.trustLevel, t)

def setTrustLevel (tenant : TenantId) (id : DeviceId) (level : DeviceTrustLevel) (now : Instant) :
    Except NotFound Unit × DeviceTable :=
  match t.get (tenant, id) with
  | none => (.error ⟨tenant, id⟩, t)
  | some entry => (.ok (), t.put (applyTrustLevel entry level now))

def setTrustLevelIf (tenant : TenantId) (id : DeviceId) (expected level : DeviceTrustLevel)
    (now : Instant) : TrustTransition × DeviceTable :=
  match t.get (tenant, id) with
  | none => (.missing, t)
  | some entry =>
    if entry.trustLevel ≠ expected then (.refused entry.trustLevel, t)
    else (.applied, t.put (applyTrustLevel entry level now))

def claimOwner (tenant : TenantId) (id : DeviceId) (user : UserId) : OwnerClaim × DeviceTable :=
  match t.get (tenant, id) with
  | none => (.missing, t)
  | some entry =>
    match entry.userId with
    | some owner => if owner = user then (.claimed, t) else (.ownedByOther, t)
    | none =>
      if entry.trustLevel = .revoked then (.ownedByOther, t)
      else (.claimed, t.put { entry with userId := some user })

def sweepKeys (tenant : TenantId) : List DeviceKey :=
  (t.values.filter (·.tenantId = tenant)).map DeviceRow.key

/-- The level a sweep leaves a row at, and what it counts. -/
def demote (cfg : SweepConfig) (entry : DeviceRow) (now : Instant) : DeviceRow × SweepCounts :=
  match entry.trustLevel, cfg.levelAfter entry.trustLevel entry.lastSeenAt entry.demotedAt now with
  | .trusted, .seen => ({ entry with trustLevel := .seen, demotedAt := some now }, ⟨1, 0, 0⟩)
  | .seen, .revoked =>
    ({ entry with trustLevel := .revoked, revokedAt := some now, demotedAt := none }, ⟨0, 1, 0⟩)
  | _, _ => (entry, ⟨0, 0, 0⟩)

/-- A revoked row without a revocation time starts its grace now. -/
def stampRevoked (entry : DeviceRow) (now : Instant) : DeviceRow :=
  if entry.trustLevel = .revoked ∧ entry.revokedAt = none then { entry with revokedAt := some now }
  else entry

def sweepRow (cfg : SweepConfig) (key : DeviceKey) (now : Instant) : SweepCounts × DeviceTable :=
  let now := wholeSecond now
  match t.get key with
  | none => (⟨0, 0, 0⟩, t)
  | some entry =>
    let (demoted, counts) := demote cfg entry now
    let stamped := stampRevoked demoted now
    if stamped.trustLevel = .revoked ∧ stamped.revokedAt.any (cfg.purgeDue · now) then
      (counts.add ⟨0, 0, 1⟩,
        ((t.put stamped).remove key).settleFingerprint stamped.tenantId stamped.fingerprintHash)
    else (counts, t.put stamped)

variable {t} {d x : DeviceRow} {key : DeviceKey}

theorem key_of_get (h : t.get key = some d) : d.key = key := t.keyed key d h

theorem mem_values : d ∈ t.values ↔ t.get d.key = some d := by
  unfold values get
  rw [List.mem_map]
  constructor
  · rintro ⟨⟨key, row⟩, hmem, rfl⟩
    have hget : t.devices.lookup key = some row := AList.mem_lookup_iff.mpr hmem
    rw [t.keyed key row hget]
    exact hget
  · intro h
    exact ⟨⟨d.key, d⟩, AList.mem_lookup_iff.mp h, rfl⟩

theorem mem_of_get (h : t.get key = some d) : d ∈ t.values := by
  rw [mem_values, key_of_get h]
  exact h

theorem eq_of_key (hd : d ∈ t.values) (hx : x ∈ t.values) (h : d.key = x.key) : d = x := by
  rw [mem_values] at hd hx
  rw [h, hx] at hd
  exact (Option.some.inj hd).symm

theorem get_put : (t.put x).get key = if key = x.key then some x else t.get key := by
  unfold put get
  by_cases h : key = x.key
  · subst h
    rw [if_pos rfl]
    exact AList.lookup_insert t.devices
  · rw [if_neg h]
    exact AList.lookup_insert_ne h

theorem get_remove {other : DeviceKey} :
    (t.remove key).get other = if other = key then none else t.get other := by
  unfold remove get
  by_cases h : other = key
  · subst h
    rw [if_pos rfl]
    exact AList.lookup_erase _ t.devices
  · rw [if_neg h]
    exact AList.lookup_erase_ne h

@[simp] theorem get_settleFingerprint (tenant : TenantId) (hash : FingerprintHash) :
    (t.settleFingerprint tenant hash).get key = t.get key := rfl

theorem mem_values_put : d ∈ (t.put x).values ↔ d = x ∨ d ∈ t.values ∧ d.key ≠ x.key := by
  rw [mem_values, mem_values, get_put]
  by_cases h : d.key = x.key
  · rw [if_pos h]
    constructor
    · intro hx
      exact .inl (Option.some.inj hx).symm
    · rintro (rfl | ⟨-, hne⟩)
      · rfl
      · exact absurd h hne
  · rw [if_neg h]
    constructor
    · intro hd
      exact .inr ⟨hd, h⟩
    · rintro (rfl | ⟨hd, -⟩)
      · exact absurd rfl h
      · exact hd

theorem get_write : (t.write x).get key =
    if (t.get x.key).any (blocksSave ·.trustLevel) then t.get key
    else if key = x.key then some x else t.get key := by
  unfold write
  cases hstored : t.get x.key with
  | none =>
    simp only [Option.any_none, Bool.false_eq_true, if_false, get_settleFingerprint]
    exact get_put
  | some stored =>
    simp only [Option.any_some]
    by_cases hblocks : blocksSave stored.trustLevel = true
    · rw [if_pos hblocks, if_pos hblocks]
    · rw [if_neg hblocks, if_neg hblocks]
      split <;> exact get_put

theorem mem_of_mem_write (h : d ∈ (t.write x).values) : d = x ∨ d ∈ t.values := by
  rw [mem_values, get_write] at h
  split at h
  · exact .inr (mem_values.mpr h)
  · split at h
    · exact .inl (Option.some.inj h).symm
    · exact .inr (mem_values.mpr h)

theorem mem_of_newestFirst {rows : List DeviceRow} (h : newestFirst rows = some d) : d ∈ rows :=
  List.argmin_mem h

theorem newestFirst_eq_none {rows : List DeviceRow} : newestFirst rows = none ↔ rows = [] :=
  List.argmin_eq_none

theorem findByFingerprint_some {tenant : TenantId} {hash : FingerprintHash}
    (h : t.findByFingerprint tenant hash = some d) :
    t.get d.key = some d ∧ d.Carries tenant hash := by
  obtain ⟨id, -, hfilter⟩ := Option.bind_eq_some_iff.mp h
  obtain ⟨hget, hhash⟩ := Option.filter_eq_some_iff.mp hfilter
  have hkey := key_of_get hget
  rw [hkey]
  exact ⟨hget, congrArg Prod.fst hkey, of_decide_eq_true hhash⟩

theorem findByFingerprintForUser_some {tenant : TenantId} {user : UserId} {hash : FingerprintHash}
    (h : t.findByFingerprintForUser tenant user hash = some d) :
    t.get d.key = some d ∧ d.Carries tenant hash ∧ d.userId = some user := by
  obtain ⟨hmem, hown⟩ := List.mem_filter.mp (mem_of_newestFirst h)
  exact ⟨mem_values.mp hmem, of_decide_eq_true hown⟩

theorem createOrFind_cases (t : DeviceTable) (device : DeviceRow) (now : Instant) :
    (∃ existing,
      newestFirst (t.values.filter
        (·.SharesCreateKey device.tenantId device.fingerprintHash device.userId)) = some existing ∧
      t.createOrFind device now = (existing, t)) ∨
    (∀ d ∈ t.values, ¬d.SharesCreateKey device.tenantId device.fingerprintHash device.userId) ∧
      t.createOrFind device now = (forSave device now, t.write (forSave device now)) := by
  have heq : t.createOrFind device now =
      match newestFirst (t.values.filter
        (·.SharesCreateKey device.tenantId device.fingerprintHash device.userId)) with
      | some existing => (existing, t)
      | none => (forSave device now, t.write (forSave device now)) := rfl
  rw [heq]
  cases hfound : newestFirst (t.values.filter
    (·.SharesCreateKey device.tenantId device.fingerprintHash device.userId)) with
  | some existing => exact .inl ⟨existing, rfl, rfl⟩
  | none =>
    rw [newestFirst_eq_none, List.filter_eq_nil_iff] at hfound
    exact .inr ⟨fun d hd => by simpa using hfound d hd, rfl⟩

theorem recordSighting_cases (t : DeviceTable) (tenant : TenantId) (id : DeviceId)
    (now : Instant) :
    t.get (tenant, id) = none ∧ t.recordSighting tenant id now = (.error ⟨tenant, id⟩, t) ∨
    ∃ entry, t.get (tenant, id) = some entry ∧
      ((entry.Live ∧ entry.lastSeenAt < wholeSecond now ∧ t.recordSighting tenant id now =
        (.ok entry.trustLevel, (t.put { entry with lastSeenAt := wholeSecond now }).settleFingerprint
          tenant entry.fingerprintHash)) ∨
      (¬(entry.Live ∧ entry.lastSeenAt < wholeSecond now) ∧
        t.recordSighting tenant id now = (.ok entry.trustLevel, t))) := by
  unfold recordSighting
  cases hentry : t.get (tenant, id) with
  | none => exact .inl ⟨rfl, rfl⟩
  | some entry =>
    refine .inr ⟨entry, rfl, ?_⟩
    by_cases hmoved : entry.Live ∧ entry.lastSeenAt < wholeSecond now
    · exact .inl ⟨hmoved.1, hmoved.2, if_pos hmoved⟩
    · exact .inr ⟨hmoved, if_neg hmoved⟩

theorem claimOwner_cases (t : DeviceTable) (tenant : TenantId) (id : DeviceId) (user : UserId) :
    t.get (tenant, id) = none ∧ t.claimOwner tenant id user = (.missing, t) ∨
    ∃ entry, t.get (tenant, id) = some entry ∧
      (t.claimOwner tenant id user = (.ownedByOther, t) ∨
      (entry.userId = some user ∧ t.claimOwner tenant id user = (.claimed, t)) ∨
      (entry.userId = none ∧ entry.Live ∧
        t.claimOwner tenant id user = (.claimed, t.put { entry with userId := some user }))) := by
  unfold claimOwner
  cases hentry : t.get (tenant, id) with
  | none => exact .inl ⟨rfl, rfl⟩
  | some entry =>
    refine .inr ⟨entry, rfl, ?_⟩
    dsimp only
    split
    · next owner howner =>
      by_cases hsame : owner = user
      · exact .inr (.inl ⟨by rw [howner, hsame], if_pos hsame⟩)
      · exact .inl (if_neg hsame)
    · next howner =>
      by_cases hrevoked : entry.trustLevel = .revoked
      · exact .inl (if_pos hrevoked)
      · exact .inr (.inr ⟨howner, hrevoked, if_neg hrevoked⟩)

end DeviceTable

structure DeviceFirstSeen where
  userId : Option UserId
  tenantId : TenantId
  deviceId : DeviceId
  occurredAt : Instant

inductive DeviceCall where
  | load (tenant : TenantId) (id : DeviceId)
  | findByFingerprint (tenant : TenantId) (hash : FingerprintHash)
  | findByFingerprintForUser (tenant : TenantId) (user : UserId) (hash : FingerprintHash)
  | save (device : DeviceRow) (now : Instant)
  | createOrFind (device : DeviceRow) (now : Instant)
  | recordSighting (tenant : TenantId) (id : DeviceId) (now : Instant)
  | setTrustLevel (tenant : TenantId) (id : DeviceId) (level : DeviceTrustLevel) (now : Instant)
  | setTrustLevelIf (tenant : TenantId) (id : DeviceId) (expected level : DeviceTrustLevel)
      (now : Instant)
  | claimOwner (tenant : TenantId) (id : DeviceId) (user : UserId)
  | sweepKeys (tenant : TenantId)
  | sweepRow (key : DeviceKey) (now : Instant)
  | emit (event : DeviceFirstSeen)

namespace DeviceCall

open DeviceTable in
abbrev Answer : DeviceCall → Type
  | load .. => Option DeviceRow
  | findByFingerprint .. => Option DeviceRow
  | findByFingerprintForUser .. => Option DeviceRow
  | save .. => Unit
  | createOrFind .. => DeviceRow
  | recordSighting .. => Except NotFound DeviceTrustLevel
  | setTrustLevel .. => Except NotFound Unit
  | setTrustLevelIf .. => TrustTransition
  | claimOwner .. => OwnerClaim
  | sweepKeys _ => List DeviceKey
  | sweepRow .. => SweepCounts
  | emit _ => Unit

def handle (cfg : SweepConfig) : (e : DeviceCall) → DeviceTable → e.Answer × DeviceTable
  | load tenant id, t => (t.get (tenant, id), t)
  | findByFingerprint tenant hash, t => (t.findByFingerprint tenant hash, t)
  | findByFingerprintForUser tenant user hash, t => (t.findByFingerprintForUser tenant user hash, t)
  | save device now, t => ((), t.save device now)
  | createOrFind device now, t => t.createOrFind device now
  | recordSighting tenant id now, t => t.recordSighting tenant id now
  | setTrustLevel tenant id level now, t => t.setTrustLevel tenant id level now
  | setTrustLevelIf tenant id expected level now, t => t.setTrustLevelIf tenant id expected level now
  | claimOwner tenant id user, t => t.claimOwner tenant id user
  | sweepKeys tenant, t => (t.sweepKeys tenant, t)
  | sweepRow key now, t => t.sweepRow cfg key now
  | emit _, t => ((), t)

def sem {ι : Type} (cfg : SweepConfig) (_ : ι) : Sem DeviceCall Answer DeviceTable :=
  fun e t a t' => (a, t') = handle cfg e t

end DeviceCall

abbrev DeviceProg := Prog DeviceCall DeviceCall.Answer

end Axess
