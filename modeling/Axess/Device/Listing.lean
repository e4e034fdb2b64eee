import Axess.Device.Store

/-!
# The default lookups of the device store

A store that only lists a user's devices, newest sighting first, gets two lookups from the trait
(`device/store.rs`). Each fetches the first rows of the list, and twice as many as long as these do not
settle the answer and the list may go on.
-/

namespace Axess

structure DeviceListing where
  rows : List DeviceRow
  fits : rows.length < 2 ^ 63

namespace DeviceStore

variable {β : Type}

def ownDeviceScanLimit : Nat := 100

def findForUser (devices : DeviceListing) (limit : Nat) : List DeviceRow := devices.rows.take limit

/-- The rounds of a lookup, at most `fuel` of them. `settle` is given the rows of a round and whether there
are no more. The number of fetches is returned with the answer. -/
def fetchDoubling (devices : DeviceListing) (settle : List DeviceRow → Bool → Option β) :
    (fuel fetch : Nat) → Option (β × Nat)
  | 0, _ => none
  | fuel + 1, fetch =>
    let rows := findForUser devices fetch
    match settle rows (rows.length < fetch) with
    | some answer => some (answer, 1)
    | none => (fetchDoubling devices settle fuel (min (fetch * 2) maxU64)).map fun (answer, fetches) =>
        (answer, fetches + 1)

def findByFingerprintForUser (devices : DeviceListing) (hash : FingerprintHash) (fuel : Nat) :
    Option (Option DeviceRow × Nat) :=
  fetchDoubling devices (fun rows exhausted =>
    match rows.find? (·.fingerprintHash = hash) with
    | some found => some (some found)
    | none => if exhausted then some none else none) fuel ownDeviceScanLimit

def findActiveForUser (devices : DeviceListing) (limit fuel : Nat) :
    Option (List DeviceRow × Nat) :=
  if limit = 0 then some ([], 0)
  else
    fetchDoubling devices (fun rows exhausted =>
      let active := rows.filter (·.trustLevel ≠ .revoked)
      if limit ≤ active.length ∨ exhausted then some (active.take limit) else none) fuel limit

/-- What is settled is settled rightly, and the whole list settles it. -/
structure Settles (devices : DeviceListing) (settle : List DeviceRow → Bool → Option β)
    (answer : β) : Prop where
  right : ∀ fetch found, settle (devices.rows.take fetch) false = some found → found = answer
  whole : settle devices.rows true = some answer

variable {devices : DeviceListing} {settle : List DeviceRow → Bool → Option β} {answer : β}

theorem fetchDoubling_spec (h : Settles devices settle answer) (rounds : Nat) {fetch : Nat}
    (hrounds : devices.rows.length < 2 ^ rounds * fetch) :
    ∃ fetches ≤ rounds + 1, ∀ fuel, rounds + 1 ≤ fuel →
      fetchDoubling devices settle fuel fetch = some (answer, fetches) := by
  by_cases hshort : devices.rows.length < fetch
  · refine ⟨1, by omega, fun fuel hfuel => ?_⟩
    obtain ⟨fuel, rfl⟩ : ∃ n, fuel = n + 1 := ⟨fuel - 1, by omega⟩
    rw [fetchDoubling, findForUser, List.take_of_length_le hshort.le, decide_eq_true hshort]
    simp only [h.whole]
  · have hexhausted : decide ((findForUser devices fetch).length < fetch) = false := by
      simp only [findForUser, List.length_take]
      simp
      omega
    cases rounds with
    | zero => exact absurd (by simpa using hrounds) hshort
    | succ rounds =>
      cases hsettle : settle (devices.rows.take fetch) false with
      | some found =>
        refine ⟨1, by omega, fun fuel hfuel => ?_⟩
        obtain ⟨fuel, rfl⟩ : ∃ n, fuel = n + 1 := ⟨fuel - 1, by omega⟩
        rw [fetchDoubling, hexhausted]
        simp only [findForUser, hsettle, h.right fetch found hsettle]
      | none =>
        -- the next round fetches twice as many, or as many as can be asked for
        have hnext : devices.rows.length < 2 ^ rounds * min (fetch * 2) maxU64 := by
          have hfits := devices.fits
          have hpos : 0 < 2 ^ rounds := by positivity
          rw [← Nat.mul_min_mul_left, lt_min_iff]
          constructor
          · rw [pow_succ] at hrounds
            linarith
          · exact lt_of_lt_of_le (by unfold maxU64; omega) (Nat.le_mul_of_pos_left maxU64 hpos)
        obtain ⟨fetches, hle, hrest⟩ := fetchDoubling_spec h rounds hnext
        refine ⟨fetches + 1, by omega, fun fuel hfuel => ?_⟩
        obtain ⟨fuel, rfl⟩ : ∃ n, fuel = n + 1 := ⟨fuel - 1, by omega⟩
        rw [fetchDoubling, hexhausted]
        simp only [findForUser, hsettle, hrest fuel (by omega), Option.map_some]

theorem settles_fingerprint (devices : DeviceListing) (hash : FingerprintHash) :
    Settles devices (fun rows exhausted =>
      match rows.find? (·.fingerprintHash = hash) with
      | some found => some (some found)
      | none => if exhausted then some none else none)
      (devices.rows.find? (·.fingerprintHash = hash)) where
  right fetch found h := by
    split at h
    · next row hrow =>
      rw [← Option.some.inj h, ← List.take_append_drop fetch devices.rows, List.find?_append, hrow]
      rfl
    · cases h
  whole := by
    cases devices.rows.find? (·.fingerprintHash = hash) <;> rfl

theorem settles_active (devices : DeviceListing) (limit : Nat) :
    Settles devices (fun rows exhausted =>
      let active := rows.filter (·.trustLevel ≠ .revoked)
      if limit ≤ active.length ∨ exhausted then some (active.take limit) else none)
      ((devices.rows.filter (·.trustLevel ≠ .revoked)).take limit) where
  right fetch found h := by
    dsimp only at h
    split at h
    · next hfull =>
      rw [← Option.some.inj h]
      conv_rhs => rw [← List.take_append_drop fetch devices.rows, List.filter_append]
      rw [List.take_append_of_le_length (hfull.resolve_right nofun)]
    · cases h
  whole := if_pos (.inr rfl)

/-- Whatever the list and the limit, enough rounds are a logarithm of the list's length: the default lookups
return the first active rows, and the first row with the fingerprint. -/
theorem default_lookups_see_every_device (devices : DeviceListing) (limit : Nat)
    (hash : FingerprintHash) :
    (∃ fetches ≤ Nat.log 2 devices.rows.length + 2, ∀ fuel,
      Nat.log 2 devices.rows.length + 2 ≤ fuel → findActiveForUser devices limit fuel =
        some ((devices.rows.filter (·.trustLevel ≠ .revoked)).take limit, fetches)) ∧
    ∃ fetches ≤ Nat.log 2 devices.rows.length + 2, ∀ fuel,
      Nat.log 2 devices.rows.length + 2 ≤ fuel → findByFingerprintForUser devices hash fuel =
        some (devices.rows.find? (·.fingerprintHash = hash), fetches) := by
  have hlog : devices.rows.length < 2 ^ (Nat.log 2 devices.rows.length + 1) :=
    Nat.lt_pow_succ_log_self (by decide) _
  have henough {fetch : Nat} (hfetch : 0 < fetch) :
      devices.rows.length < 2 ^ (Nat.log 2 devices.rows.length + 1) * fetch :=
    hlog.trans_le (Nat.le_mul_of_pos_right _ hfetch)
  constructor
  · by_cases hlimit : limit = 0
    · refine ⟨0, by omega, fun fuel _ => ?_⟩
      rw [findActiveForUser, if_pos hlimit, hlimit, List.take_zero]
    · obtain ⟨fetches, hle, hrest⟩ := fetchDoubling_spec (settles_active devices limit) _
        (henough (Nat.pos_of_ne_zero hlimit))
      refine ⟨fetches, hle, fun fuel hfuel => ?_⟩
      rw [findActiveForUser, if_neg hlimit]
      exact hrest fuel hfuel
  · exact fetchDoubling_spec (settles_fingerprint devices hash) _ (henough (by decide))

end DeviceStore

end Axess
