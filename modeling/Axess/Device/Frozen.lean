import Axess.Device.Sighting

/-!
# The index and the revoked rows of the device store

What every sequence of operations on `MemoryDeviceStore` leaves in place (`device/store/memory.rs`): the
fingerprint index names the newest device, a revoked row stays as it is, and a sweep moves a row by
one step. The last needs a grace that is not negative, which the builder of the configuration does
not ask for: a row whose grace is over before it begins is revoked and purged in one sweep.
-/

namespace Axess

namespace DeviceTable

inductive BindingsUpdate where
  | written | conflict | revoked | missing
  deriving DecidableEq

variable (t : DeviceTable)

def replaceBindings (tenant : TenantId) (id : DeviceId) (expected bindings : List DeviceBinding) :
    BindingsUpdate × DeviceTable :=
  match t.get (tenant, id) with
  | none => (.missing, t)
  | some entry =>
    if entry.trustLevel = .revoked then (.revoked, t)
    else if entry.bindings ≠ expected then (.conflict, t)
    else (.written, t.put { entry with bindings := bindings })

def delete (tenant : TenantId) (id : DeviceId) : DeviceTable :=
  match t.get (tenant, id) with
  | none => t
  | some d => (t.remove (tenant, id)).settleFingerprint d.tenantId d.fingerprintHash

def sweep (cfg : SweepConfig) (tenant : TenantId) (now : Instant) : DeviceTable :=
  (t.sweepKeys tenant).foldl (fun t key => (t.sweepRow cfg key now).2) t

end DeviceTable

inductive DeviceWrite where
  | call (e : DeviceCall)
  | replaceBindings (tenant : TenantId) (id : DeviceId) (expected bindings : List DeviceBinding)
  | delete (tenant : TenantId) (id : DeviceId)

namespace DeviceWrite

def apply (cfg : SweepConfig) (t : DeviceTable) : DeviceWrite → DeviceTable
  | call e => (e.handle cfg t).2
  | replaceBindings tenant id expected bindings =>
    (t.replaceBindings tenant id expected bindings).2
  | delete tenant id => t.delete tenant id

/-- The write takes the revoked row to another level, or takes it away. -/
def Releases (cfg : SweepConfig) (key : DeviceKey) (row : DeviceRow) : DeviceWrite → Prop
  | call (.setTrustLevel tenant id level _) => (tenant, id) = key ∧ level ≠ .revoked
  | call (.setTrustLevelIf tenant id expected level _) =>
    (tenant, id) = key ∧ expected = .revoked ∧ level ≠ .revoked
  | delete tenant id => (tenant, id) = key
  | call (.sweepRow swept now) => swept = key ∧
      cfg.purgeDue (row.revokedAt.getD (wholeSecond now)) (wholeSecond now)
  | _ => False

end DeviceWrite

inductive DeviceTable.Reached (cfg : SweepConfig) : DeviceTable → Prop where
  | empty : Reached cfg .empty
  | step {t : DeviceTable} (op : DeviceWrite) : Reached cfg t → Reached cfg (op.apply cfg t)

structure DeviceRow.Frozen (row row' : DeviceRow) : Prop where
  level : row'.trustLevel = .revoked
  userId : row'.userId = row.userId
  bindings : row'.bindings = row.bindings
  fingerprint : row'.fingerprintHash = row.fingerprintHash
  lastSeen : row'.lastSeenAt = row.lastSeenAt
  revokedAt : row.revokedAt.isSome → row'.revokedAt = row.revokedAt

def OneStep : Option DeviceTrustLevel → Option DeviceTrustLevel → Prop
  | some .trusted, some .seen => True
  | some .seen, some .revoked => True
  | some .revoked, none => True
  | before, after => after = before

namespace DeviceTable

variable {cfg : SweepConfig} {t : DeviceTable} {key : DeviceKey} {row : DeviceRow}

def level (t : DeviceTable) (key : DeviceKey) : Option DeviceTrustLevel :=
  (t.get key).map (·.trustLevel)

theorem Settled.apply (h : t.Settled) (op : DeviceWrite) : (op.apply cfg t).Settled := by
  cases op with
  | call e => exact h.handle cfg e
  | replaceBindings tenant id expected bindings =>
    show (t.replaceBindings tenant id expected bindings).2.Settled
    unfold DeviceTable.replaceBindings
    cases hentry : t.get (tenant, id) with
    | none => exact h
    | some entry =>
      dsimp only
      split
      · exact h
      · split
        · exact h
        · exact h.put_same (x := { entry with bindings := bindings }) (get_of_get hentry) rfl rfl rfl
  | delete tenant id =>
    show (t.delete tenant id).Settled
    unfold DeviceTable.delete
    cases hentry : t.get (tenant, id) with
    | none => exact h
    | some d =>
      dsimp only
      rw [← key_of_get hentry]
      exact h.remove (get_of_get hentry)

theorem Reached.settled (h : t.Reached cfg) : t.Settled := by
  induction h with
  | empty => exact settled_empty
  | step op _ ih => exact ih.apply op

/-! ## Revoked rows -/

variable {entry : DeviceRow} {other : DeviceKey}

theorem get_put_other {x : DeviceRow} (hrow : t.get key = some row)
    (hentry : t.get other = some entry) (hkey : other ≠ key) (hx : x.key = entry.key) :
    (t.put x).get key = some row := by
  rw [get_put, if_neg, hrow]
  rw [hx, key_of_get hentry]
  exact hkey.symm

section Survives
variable (hrow : t.get key = some row) (hrevoked : row.trustLevel = .revoked)
include hrow hrevoked

theorem get_put_of_live {x : DeviceRow} (hentry : t.get other = some entry) (hlive : entry.Live)
    (hx : x.key = entry.key) : (t.put x).get key = some row := by
  apply get_put_other hrow hentry _ hx
  rintro rfl
  rw [hentry] at hrow
  exact hlive (Option.some.inj hrow ▸ hrevoked)

theorem get_write_of_revoked (x : DeviceRow) : (t.write x).get key = some row := by
  rw [get_write]
  split
  · exact hrow
  · next hfree =>
    rw [if_neg, hrow]
    rintro rfl
    simp [hrow, blocksSave, hrevoked] at hfree

theorem get_createOrFind_of_revoked (device : DeviceRow) (now : Instant) :
    (t.createOrFind device now).2.get key = some row := by
  rcases createOrFind_cases t device now with ⟨existing, -, heq⟩ | ⟨-, heq⟩
  · rw [heq]
    exact hrow
  · rw [heq]
    exact get_write_of_revoked hrow hrevoked _

theorem get_recordSighting_of_revoked (tenant : TenantId) (id : DeviceId) (now : Instant) :
    (t.recordSighting tenant id now).2.get key = some row := by
  rcases recordSighting_cases t tenant id now with
    ⟨-, heq⟩ | ⟨entry, hentry, ⟨hlive, -, heq⟩ | ⟨-, heq⟩⟩
  · rw [heq]
    exact hrow
  · rw [heq, get_settleFingerprint]
    exact get_put_of_live hrow hrevoked hentry hlive rfl
  · rw [heq]
    exact hrow

theorem get_claimOwner_of_revoked (tenant : TenantId) (id : DeviceId) (user : UserId) :
    (t.claimOwner tenant id user).2.get key = some row := by
  rcases claimOwner_cases t tenant id user with
    ⟨-, heq⟩ | ⟨entry, hentry, heq | ⟨-, heq⟩ | ⟨-, hlive, heq⟩⟩
  · rw [heq]
    exact hrow
  · rw [heq]
    exact hrow
  · rw [heq]
    exact hrow
  · rw [heq]
    exact get_put_of_live hrow hrevoked hentry hlive rfl

theorem get_replaceBindings_of_revoked (tenant : TenantId) (id : DeviceId)
    (expected bindings : List DeviceBinding) :
    (t.replaceBindings tenant id expected bindings).2.get key = some row := by
  unfold replaceBindings
  cases hentry : t.get (tenant, id) with
  | none => exact hrow
  | some entry =>
    dsimp only
    split
    · exact hrow
    · next hlive =>
      split
      · exact hrow
      · exact get_put_of_live hrow hrevoked hentry hlive rfl

end Survives

def sweptRow (cfg : SweepConfig) (entry : DeviceRow) (now : Instant) : Option DeviceRow :=
  let stamped := stampRevoked (demote cfg entry now).1 now
  if stamped.trustLevel = .revoked ∧ stamped.revokedAt.any (cfg.purgeDue · now) then none
  else some stamped

theorem get_sweepRow (other : DeviceKey) (now : Instant) :
    (t.sweepRow cfg other now).2.get key =
      if key = other then (t.get key).bind (sweptRow cfg · (wholeSecond now)) else t.get key := by
  unfold sweepRow
  cases hentry : t.get other with
  | none =>
    dsimp only
    split
    · next hkey => rw [hkey, hentry, Option.bind_none]
    · rfl
  | some entry =>
    obtain ⟨hstamped, -⟩ := stampRevoked_demote cfg entry (wholeSecond now)
    rw [key_of_get hentry] at hstamped
    by_cases hkey : key = other
    · subst hkey
      rw [if_pos rfl, hentry, Option.bind_some, sweptRow]
      dsimp only
      split
      · rw [get_settleFingerprint, get_remove, if_pos rfl]
      · rw [get_put, if_pos hstamped.symm]
    · rw [if_neg hkey]
      dsimp only
      split
      · rw [get_settleFingerprint, get_remove, if_neg hkey, get_put, if_neg (hstamped ▸ hkey)]
      · rw [get_put, if_neg (hstamped ▸ hkey)]

theorem frozen_refl (hrevoked : row.trustLevel = .revoked) : row.Frozen row :=
  ⟨hrevoked, rfl, rfl, rfl, rfl, fun _ => rfl⟩

theorem sweptRow_of_revoked (hrevoked : row.trustLevel = .revoked) (now : Instant) :
    (∃ row', sweptRow cfg row now = some row' ∧ row.Frozen row') ∨
      cfg.purgeDue (row.revokedAt.getD now) now = true := by
  have hdemote : (demote cfg row now).1 = row := by simp [demote, hrevoked]
  by_cases hdue : cfg.purgeDue (row.revokedAt.getD now) now = true
  · exact .inr hdue
  · left
    unfold sweptRow stampRevoked
    rw [hdemote]
    cases hrevokedAt : row.revokedAt with
    | none =>
      rw [hrevokedAt, Option.getD_none] at hdue
      refine ⟨{ row with revokedAt := some now }, ?_, hrevoked, rfl, rfl, rfl, rfl, ?_⟩
      · simp [hrevoked, hdue]
      · simp [hrevokedAt]
    | some since =>
      rw [hrevokedAt, Option.getD_some] at hdue
      refine ⟨row, ?_, frozen_refl hrevoked⟩
      simp [hrevokedAt, hdue]

theorem frozen_or_moved (hrow : t.get key = some row) (hrevoked : row.trustLevel = .revoked)
    (hentry : t.get other = some entry) (level : DeviceTrustLevel) (now : Instant) :
    (∃ row', (t.put (applyTrustLevel entry level now)).get key = some row' ∧ row.Frozen row') ∨
      other = key ∧ level ≠ .revoked := by
  by_cases hkey : other = key
  · subst hkey
    obtain rfl := Option.some.inj (hrow.symm.trans hentry)
    by_cases hlevel : level = .revoked
    · subst hlevel
      refine .inl ⟨applyTrustLevel row .revoked now,
        get_put.trans (if_pos (key_of_get hrow).symm), rfl, rfl, rfl, rfl, rfl, fun hsome => ?_⟩
      obtain ⟨since, hsince⟩ := Option.isSome_iff_exists.mp hsome
      simp [applyTrustLevel, hrevoked, hsince]
    · exact .inr ⟨rfl, hlevel⟩
  · exact .inl ⟨row, get_put_other hrow hentry hkey rfl, frozen_refl hrevoked⟩

theorem frozen_or_released (hrow : t.get key = some row) (hrevoked : row.trustLevel = .revoked)
    (op : DeviceWrite) :
    (∃ row', (op.apply cfg t).get key = some row' ∧ row.Frozen row') ∨
      op.Releases cfg key row := by
  have hsame {t' : DeviceTable} (h : t'.get key = some row) :
      ∃ row', t'.get key = some row' ∧ row.Frozen row' := ⟨row, h, frozen_refl hrevoked⟩
  cases op with
  | call e =>
    cases e with
    | save device now => exact .inl (hsame (get_write_of_revoked hrow hrevoked _))
    | createOrFind device now => exact .inl (hsame (get_createOrFind_of_revoked hrow hrevoked ..))
    | recordSighting tenant id now =>
      exact .inl (hsame (get_recordSighting_of_revoked hrow hrevoked ..))
    | setTrustLevel tenant id level now =>
      show (∃ row', (t.setTrustLevel tenant id level now).2.get key = some row' ∧ _) ∨ _
      unfold setTrustLevel
      cases hentry : t.get (tenant, id) with
      | none => exact .inl (hsame hrow)
      | some entry => exact frozen_or_moved hrow hrevoked hentry level now
    | setTrustLevelIf tenant id expected level now =>
      show (∃ row', (t.setTrustLevelIf tenant id expected level now).2.get key = some row' ∧ _) ∨ _
      unfold setTrustLevelIf
      cases hentry : t.get (tenant, id) with
      | none => exact .inl (hsame hrow)
      | some entry =>
        dsimp only
        split
        · exact .inl (hsame hrow)
        · next hexpected =>
          refine (frozen_or_moved hrow hrevoked hentry level now).imp_right fun ⟨hkey, hlevel⟩ => ?_
          rw [hkey, hrow] at hentry
          obtain rfl := Option.some.inj hentry
          exact ⟨hkey, (not_not.mp hexpected).symm.trans hrevoked, hlevel⟩
    | claimOwner tenant id user => exact .inl (hsame (get_claimOwner_of_revoked hrow hrevoked ..))
    | sweepRow swept now =>
      show (∃ row', (t.sweepRow cfg swept now).2.get key = some row' ∧ _) ∨ _
      rw [get_sweepRow]
      split
      · next hkey =>
        rw [hrow]
        exact (sweptRow_of_revoked hrevoked _).imp_right fun hdue => ⟨hkey.symm, hdue⟩
      · exact .inl (hsame hrow)
    | _ => exact .inl (hsame hrow)
  | replaceBindings tenant id expected bindings =>
    exact .inl (hsame (get_replaceBindings_of_revoked hrow hrevoked ..))
  | delete tenant id =>
    by_cases hkey : (tenant, id) = key
    · exact .inr hkey
    · left
      apply hsame
      show (t.delete tenant id).get key = some row
      unfold delete
      cases hentry : t.get (tenant, id) with
      | none => exact hrow
      | some d =>
        dsimp only
        rw [get_settleFingerprint, get_remove, if_neg (Ne.symm hkey)]
        exact hrow

theorem oneStep_refl (level : Option DeviceTrustLevel) : OneStep level level := by
  rcases level with _ | _ | _ | _ | _ <;> rfl

theorem oneStep_sweptRow (hgrace : 0 ≤ SweepConfig.numSeconds cfg.revokedGrace) (entry : DeviceRow)
    (now : Instant) :
    OneStep (some entry.trustLevel) ((sweptRow cfg entry now).map (·.trustLevel)) := by
  have hnotdue : cfg.purgeDue now now = false := by
    simp [SweepConfig.purgeDue, hgrace]
  unfold sweptRow stampRevoked demote
  cases hlevel : entry.trustLevel with
  | unknown => simp [hlevel, OneStep]
  | seen =>
    have hafter : cfg.levelAfter .seen entry.lastSeenAt entry.demotedAt now = .revoked ∨
        cfg.levelAfter .seen entry.lastSeenAt entry.demotedAt now = .seen := by
      unfold SweepConfig.levelAfter
      dsimp only
      split <;> simp
    rcases hafter with hafter | hafter <;> simp [hafter, hlevel, hnotdue, OneStep]
  | trusted =>
    have hafter : cfg.levelAfter .trusted entry.lastSeenAt entry.demotedAt now = .seen ∨
        cfg.levelAfter .trusted entry.lastSeenAt entry.demotedAt now = .trusted := by
      unfold SweepConfig.levelAfter
      dsimp only
      split <;> simp
    rcases hafter with hafter | hafter <;> simp [hafter, hlevel, OneStep]
  | revoked =>
    dsimp only
    split <;> split <;> simp [hlevel, OneStep]

theorem nodup_sweepKeys (t : DeviceTable) (tenant : TenantId) : (t.sweepKeys tenant).Nodup := by
  have hkeys : t.values.map DeviceRow.key = t.devices.keys := by
    unfold values AList.keys List.keys
    rw [List.map_map]
    apply List.map_congr_left
    intro entry hmem
    exact t.keyed entry.1 entry.2 (AList.mem_lookup_iff.mpr hmem)
  have hnodup : (t.values.map DeviceRow.key).Nodup := by
    rw [hkeys]
    exact t.devices.nodupKeys
  exact hnodup.sublist (List.filter_sublist.map _)

theorem get_foldl_sweepRow {keys : List DeviceKey} (hnodup : keys.Nodup) (t : DeviceTable)
    (now : Instant) :
    (keys.foldl (fun t key => (t.sweepRow cfg key now).2) t).get key =
      if key ∈ keys then (t.get key).bind (sweptRow cfg · (wholeSecond now)) else t.get key := by
  induction keys generalizing t with
  | nil => rfl
  | cons first rest ih =>
    rw [List.nodup_cons] at hnodup
    rw [List.foldl_cons, ih hnodup.2, get_sweepRow]
    by_cases hfirst : key = first
    · subst hfirst
      simp [hnodup.1]
    · simp [hfirst]

theorem oneStep_sweep (hgrace : 0 ≤ SweepConfig.numSeconds cfg.revokedGrace) (t : DeviceTable)
    (tenant : TenantId) (now : Instant) (key : DeviceKey) :
    OneStep (t.level key) ((t.sweep cfg tenant now).level key) := by
  unfold level sweep
  rw [get_foldl_sweepRow (nodup_sweepKeys t tenant)]
  split
  · cases hrow : t.get key with
    | none => rfl
    | some row => exact oneStep_sweptRow hgrace row _
  · exact oneStep_refl _

def seenRow : DeviceRow := ⟨⟨0⟩, ⟨0⟩, none, .seen, ⟨0⟩, 0, 0, none, none, []⟩

def seenTable (cfg : SweepConfig) : DeviceTable := DeviceWrite.apply cfg .empty (.call (.save seenRow 0))

/-- When the device has been idle for long enough it is revoked, and with a negative grace purged in
the same sweep. -/
theorem two_steps_of_negative_grace (hgrace : SweepConfig.numSeconds cfg.revokedGrace < 0) :
    ∃ now, ¬OneStep ((seenTable cfg).level seenRow.key)
      (((seenTable cfg).sweep cfg seenRow.tenantId now).level seenRow.key) := by
  have hget : (seenTable cfg).get seenRow.key = some (forSave seenRow 0) := rfl
  have hmem : seenRow.key ∈ (seenTable cfg).sweepKeys seenRow.tenantId :=
    List.mem_map.mpr ⟨_, List.mem_filter.mpr ⟨mem_of_get hget, rfl⟩, rfl⟩
  refine ⟨(max (SweepConfig.numSeconds cfg.seenIdle) 0 + 1) * second, ?_⟩
  generalize hnow : (max (SweepConfig.numSeconds cfg.seenIdle) 0 + 1) * second = now
  have hlate : timestamp (wholeSecond now) > SweepConfig.numSeconds cfg.seenIdle := by
    rw [← hnow]
    unfold wholeSecond timestamp second
    omega
  have hafter : cfg.levelAfter .seen 0 none (wholeSecond now) = .revoked := by
    simpa [SweepConfig.levelAfter, timestamp] using hlate
  have hdue : cfg.purgeDue (wholeSecond now) (wholeSecond now) = true := by
    simpa [SweepConfig.purgeDue] using hgrace
  have hgone : sweptRow cfg (forSave seenRow 0) (wholeSecond now) = none := by
    have hsaved : forSave seenRow 0 = seenRow := rfl
    rw [hsaved]
    simp [sweptRow, stampRevoked, demote, seenRow, hafter, hdue]
  unfold level sweep
  rw [get_foldl_sweepRow (nodup_sweepKeys _ _), if_pos hmem, hget, Option.bind_some, hgone]
  show ¬(none = some DeviceTrustLevel.seen)
  exact Option.some_ne_none _ ∘ Eq.symm

theorem store_keeps_ladder_iff (cfg : SweepConfig) :
    (∀ t, Reached cfg t →
      (∀ tenant hash, t.findByFingerprint tenant hash =
        newestFirst (t.values.filter (·.Carries tenant hash))) ∧
      (∀ op key row, t.get key = some row → row.trustLevel = .revoked →
        (∃ row', (DeviceWrite.apply cfg t op).get key = some row' ∧ row.Frozen row') ∨
          op.Releases cfg key row) ∧
      ∀ tenant now key, OneStep (t.level key) ((t.sweep cfg tenant now).level key)) ↔
    0 ≤ SweepConfig.numSeconds cfg.revokedGrace := by
  constructor
  · intro hkeeps
    by_contra hgrace
    obtain ⟨now, htwo⟩ := two_steps_of_negative_grace (Int.not_le.mp hgrace)
    exact htwo ((hkeeps _ (.step _ .empty)).2.2 seenRow.tenantId now seenRow.key)
  · intro hgrace t hreached
    exact ⟨hreached.settled.findByFingerprint,
      fun op key row hrow hrevoked => frozen_or_released hrow hrevoked op,
      oneStep_sweep hgrace t⟩

def negativeGrace : SweepConfig := ⟨0, 0, -second⟩

theorem sweep_purges_what_it_revokes :
    ∃ now, ¬OneStep ((seenTable negativeGrace).level seenRow.key)
      (((seenTable negativeGrace).sweep negativeGrace seenRow.tenantId now).level seenRow.key) :=
  two_steps_of_negative_grace (by decide)

end DeviceTable

end Axess
