import Axess.Authn.Login
import Axess.Authn.Throttle

/-!
# When a lockout ends

The end of a lockout is computed from the policy's duration in the policy's own `derived_lockout`
(`authn/types.rs`), where the sum is checked, and as `clock.now() + d` wherever the service reports
a lockout that begins now (`factor_pipeline.rs`, `factor_pipeline/reserve.rs`). The calendar
library panics when that sum lies past its last point in time.
-/

namespace Axess

inductive Panic where
  | dateTimeOverflow
  deriving DecidableEq, Repr

namespace UtcTime

def add (t : UtcTime) (d : Int) : Except Panic Int :=
  match checkedAddSigned t.ns d with
  | some sum => .ok sum
  | none => .error .dateTimeOverflow

end UtcTime

namespace Lockout

variable (policy : LockoutPolicy)

def lockedUntil (now : UtcTime) : Except Panic (Option Instant) :=
  match policy.duration.bind fromStd with
  | none => .ok none
  | some d => (now.add d).map some

def storedLockout (now : UtcTime) :
    Except StoreError (Nat × Option UtcTime) → Except Panic (Option DerivedLockout)
  | .ok (count, last) => .ok (policy.derivedLockout count (last.map (·.ns)) now.ns)
  | .error _ =>
    match policy.onCounterUnavailable with
    | .lock => do
      let stop ← lockedUntil policy now
      pure (some ⟨stop⟩)
    | .allow => .ok none

structure ReserveAnswers where
  reserveAttempt : Except StoreError (Option Nat)
  onKnownDevice : Bool
  audited : Except AuthnError Unit
  failedAttempts : Except StoreError (Nat × Option UtcTime)

def reserveGuess (a : ReserveAnswers) (readAt now : UtcTime) :
    Except Panic (Except AuthnError GuessSlot) :=
  match a.reserveAttempt with
  | .ok (some count) => .ok (.ok (.reserved count))
  | .ok none =>
    if a.onKnownDevice then .ok (.ok .unmetered)
    else
      match a.audited with
      | .error e => .ok (.error e)
      | .ok () => do
        match ← storedLockout policy readAt a.failedAttempts with
        | some lock => pure (.ok (.refused (.locked lock.untilTime)))
        | none =>
          let stop ← lockedUntil policy now
          pure (.ok (.refused (.locked stop)))
  | .error _ =>
    match policy.onCounterUnavailable with
    | .lock => do
      let stop ← lockedUntil policy now
      pure (.ok (.refused (.locked stop)))
    | .allow => .ok (.ok .unmetered)

def recordFactorFailureAfter (counted : Except StoreError Nat) (now : UtcTime) :
    Except Panic FactorOutcome :=
  match counted with
  | .error _ =>
    match policy.onCounterUnavailable with
    | .lock => do
      let stop ← lockedUntil policy now
      pure (.locked stop)
    | .allow => .ok .invalidCredential
  | .ok count =>
    if policy.effectiveMaxAttempts ≤ count then do
      let stop ← lockedUntil policy now
      pure (.locked stop)
    else .ok .invalidCredential

/-- No time from `now` on is both within the calendar and the policy's duration later. -/
def Unrepresentable (now : UtcTime) : Prop :=
  ∃ d, policy.duration = some d ∧ maxUtc < now.ns + d

/-- The duration is longer than the calendar library counts, or its end is within the calendar. -/
def Fits (now : UtcTime) : Prop :=
  ∀ d, policy.duration = some d → maxChronoDuration < d ∨ now.ns + d ≤ maxUtc

variable {policy}

theorem checkedAdd_natCast (t : UtcTime) (d : Nat) :
    checkedAddSigned t.ns d = if t.ns + d ≤ maxUtc then some (t.ns + d) else none := by
  have hmin := t.ge_min
  unfold checkedAddSigned
  by_cases hend : t.ns + d ≤ maxUtc
  · rw [if_pos ⟨by omega, hend⟩, if_pos hend]
  · rw [if_neg (fun h => hend h.2), if_neg hend]

/-- A lockout that begins now is reported exactly where its end fits, as the login has it, and one
without an end where the duration is past what the calendar library counts. -/
theorem lockedUntil_cases (policy : LockoutPolicy) (now : UtcTime) :
    (Fits policy now ∧ lockedUntil policy now = .ok (policy.lockedUntil now.ns) ∧
      (Unrepresentable policy now → policy.lockedUntil now.ns = none)) ∨
    (¬ Fits policy now ∧ lockedUntil policy now = .error .dateTimeOverflow) := by
  have hmin := now.ge_min
  unfold lockedUntil LockoutPolicy.lockedUntil
  cases hduration : policy.duration with
  | none =>
    refine .inl ⟨fun d hd => ?_, rfl, fun _ => rfl⟩
    rw [hduration] at hd
    cases hd
  | some d =>
    dsimp only [Option.bind]
    unfold fromStd
    by_cases hlong : d ≤ maxChronoDuration
    · rw [if_pos hlong]
      dsimp only
      rw [UtcTime.add, checkedAdd_natCast]
      by_cases hend : now.ns + d ≤ maxUtc
      · rw [if_pos hend]
        refine .inl ⟨fun d' hd' => .inr ?_, rfl, ?_⟩
        · cases hduration.symm.trans hd'
          exact hend
        · rintro ⟨d', hd', hpast⟩
          cases hduration.symm.trans hd'
          omega
      · rw [if_neg hend]
        refine .inr ⟨fun hfits => ?_, rfl⟩
        rcases hfits d hduration with h | h
        · exact absurd hlong (Nat.not_le.mpr h)
        · exact hend h
    · rw [if_neg hlong]
      refine .inl ⟨fun d' hd' => .inl ?_, rfl, fun _ => rfl⟩
      cases hduration.symm.trans hd'
      exact Nat.not_le.mp hlong

theorem derivedLockout_of_long {failed : Nat} {last : Option Instant} {now : Instant}
    {lock : DerivedLockout} {d : Duration} (hd : policy.duration = some d)
    (hlong : maxChronoDuration < d) (h : policy.derivedLockout failed last now = some lock) :
    lock.untilTime = none := by
  have hstd : fromStd d = none := if_neg (Nat.not_le.mpr hlong)
  unfold LockoutPolicy.derivedLockout at h
  rw [hd] at h
  split at h
  · cases h
  · cases last with
    | none =>
      cases h
      rfl
    | some last =>
      dsimp only at h
      rw [hstd] at h
      cases h
      rfl

theorem lockedUntil_of_long {now : UtcTime} {d : Duration} (hd : policy.duration = some d)
    (hlong : maxChronoDuration < d) : lockedUntil policy now = .ok none := by
  have hstd : policy.duration.bind fromStd = none := by
    rw [hd]
    exact if_neg (Nat.not_le.mpr hlong)
  rw [lockedUntil, hstd]

theorem storedLockout_of_fits {readAt : UtcTime}
    (hfits : policy.onCounterUnavailable = .lock → Fits policy readAt)
    (answer : Except StoreError (Nat × Option UtcTime)) :
    ∃ locked, storedLockout policy readAt answer = .ok locked ∧ ∀ lock, locked = some lock →
      ∀ d, policy.duration = some d → maxChronoDuration < d → lock.untilTime = none := by
  unfold storedLockout
  cases answer with
  | ok counted => exact ⟨_, rfl, fun lock h d hd hlong => derivedLockout_of_long hd hlong h⟩
  | error e =>
    cases hpolicy : policy.onCounterUnavailable with
    | allow => exact ⟨_, rfl, nofun⟩
    | lock =>
      obtain ⟨-, hstop, -⟩ | ⟨hnot, -⟩ := lockedUntil_cases policy readAt
      · dsimp only
        rw [hstop]
        refine ⟨_, rfl, fun lock h d hd hlong => ?_⟩
        cases h
        exact Except.ok.inj (hstop.symm.trans (lockedUntil_of_long hd hlong))
      · exact absurd (hfits hpolicy) hnot

/-- The path returns, and what it reports has no end where now and the duration add up to no
time. -/
def ReservationReported (policy : LockoutPolicy) (readAt now : UtcTime) (a : ReserveAnswers) :
    Prop :=
  ∃ answer, reserveGuess policy a readAt now = .ok answer ∧
    ∀ stop, answer = .ok (.refused (.locked stop)) → Unrepresentable policy now → stop = none

def FailureReported (policy : LockoutPolicy) (now : UtcTime) (counted : Except StoreError Nat) :
    Prop :=
  ∃ outcome, recordFactorFailureAfter policy counted now = .ok outcome ∧
    ∀ stop, outcome = .locked stop → Unrepresentable policy now → stop = none

theorem failureReported_of_fits {now : UtcTime} (hfits : Fits policy now)
    (counted : Except StoreError Nat) : FailureReported policy now counted := by
  obtain ⟨-, hstop, hnone⟩ | ⟨hnot, -⟩ := lockedUntil_cases policy now
  · unfold FailureReported recordFactorFailureAfter
    rw [hstop]
    have hlocked : ∀ stop', FactorOutcome.locked (policy.lockedUntil now.ns) = .locked stop' →
        Unrepresentable policy now → stop' = none := by
      rintro _ ⟨⟩
      exact hnone
    cases counted with
    | error e =>
      dsimp only
      cases policy.onCounterUnavailable with
      | lock => exact ⟨_, rfl, hlocked⟩
      | allow => exact ⟨_, rfl, nofun⟩
    | ok count =>
      dsimp only
      split
      · exact ⟨_, rfl, hlocked⟩
      · exact ⟨_, rfl, nofun⟩
  · exact absurd hfits hnot

theorem reservationReported_of_fits {readAt now : UtcTime} (hfits : Fits policy now)
    (hread : policy.onCounterUnavailable = .lock → Fits policy readAt) (a : ReserveAnswers) :
    ReservationReported policy readAt now a := by
  obtain ⟨-, hstop, hnone⟩ | ⟨hnot, -⟩ := lockedUntil_cases policy now
  · unfold ReservationReported reserveGuess
    rw [hstop]
    have hlocked : ∀ stop', (.ok (.refused (.locked (policy.lockedUntil now.ns))) :
        Except AuthnError GuessSlot) = .ok (.refused (.locked stop')) → Unrepresentable policy now → stop' = none := by
      rintro _ ⟨⟩
      exact hnone
    cases a.reserveAttempt with
    | error e =>
      dsimp only
      cases policy.onCounterUnavailable with
      | lock => exact ⟨_, rfl, hlocked⟩
      | allow => exact ⟨_, rfl, nofun⟩
    | ok reserved =>
      cases reserved with
      | some count => exact ⟨_, rfl, nofun⟩
      | none =>
        dsimp only
        split
        · exact ⟨_, rfl, nofun⟩
        · cases a.audited with
          | error e => exact ⟨_, rfl, nofun⟩
          | ok u =>
            obtain ⟨locked, hlock, hderived⟩ := storedLockout_of_fits hread a.failedAttempts
            dsimp only
            rw [hlock]
            cases locked with
            | none => exact ⟨_, rfl, hlocked⟩
            | some lock =>
              refine ⟨_, rfl, ?_⟩
              -- the end fits and is past the calendar: the duration is too long to be counted
              rintro _ ⟨⟩ ⟨d, hd, hpast⟩
              rcases hfits d hd with hlong | hend
              · exact hderived lock rfl d hd hlong
              · omega
  · exact absurd hfits hnot

/-- Every path returns, without an end where there is none, exactly where `now` and the policy's
duration add up to a time of the calendar, or the duration is one the calendar library does not
count. -/
theorem lockout_reported_iff (policy : LockoutPolicy) (readAt now : UtcTime) :
    ((∀ a, ReservationReported policy readAt now a) ∧
      ∀ counted, FailureReported policy now counted) ↔
    Fits policy now ∧ (policy.onCounterUnavailable = .lock → Fits policy readAt) := by
  constructor
  · rintro ⟨hreserve, hfailure⟩
    constructor
    · -- the verdict that reaches the limit
      obtain ⟨hfits, -⟩ | ⟨-, hpanic⟩ := lockedUntil_cases policy now
      · exact hfits
      · obtain ⟨outcome, hout, -⟩ := hfailure (.ok policy.effectiveMaxAttempts)
        rw [recordFactorFailureAfter, hpanic] at hout
        rw [if_pos (Nat.le_refl _)] at hout
        cases hout
    · -- a reservation refused while the counter cannot be read
      intro hlock
      obtain ⟨hfits, -⟩ | ⟨-, hpanic⟩ := lockedUntil_cases policy readAt
      · exact hfits
      · obtain ⟨answer, hout, -⟩ := hreserve ⟨.ok none, false, .ok (), .error ⟨⟩⟩
        simp only [reserveGuess, storedLockout, hlock, hpanic] at hout
        cases hout
  · rintro ⟨hfits, hread⟩
    exact ⟨reservationReported_of_fits hfits hread, failureReported_of_fits hfits⟩

def millennium : UtcTime := ⟨946684800000000000, by decide, by decide⟩

def longLock : LockoutPolicy := ⟨5, some 9467280000000000000000, .lock⟩

/-- The fifth wrong guess, a refused guess and a guess the counter is down for all panic, where the
policy's own verdict is a lockout without an end. -/
theorem lockout_report_panics :
    recordFactorFailureAfter longLock (.ok 5) millennium = .error .dateTimeOverflow ∧
    recordFactorFailureAfter longLock (.error ⟨⟩) millennium = .error .dateTimeOverflow ∧
    reserveGuess longLock ⟨.error ⟨⟩, false, .ok (), .error ⟨⟩⟩ millennium millennium =
      .error .dateTimeOverflow ∧
    longLock.derivedLockout 5 (some millennium.ns) millennium.ns = some ⟨none⟩ := by
  exact ⟨rfl, rfl, rfl, rfl⟩

end Lockout

end Axess
