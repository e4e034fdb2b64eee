import Axess.Session.Load

/-!
# Progressive throttling

`Throttle` (`authn/types/throttle.rs`): after `n` consecutive failures a guess is refused before
`last_failure + min(first_delay * 2^(n-1), max_delay)`, unless the last failure is longer ago than
twice `max_delay`. The code stops doubling after thirty-two failures, whatever has been reached by
then, and refuses nothing where the calendar library cannot represent the end of the delay.
-/

namespace Axess

def maxStdDuration : Nat := 2 ^ 64 * 1000000000 - 1

structure UtcTime where
  ns : Int
  ge_min : minUtc ≤ ns
  le_max : ns ≤ maxUtc

structure Throttle where
  firstDelay : Nat
  maxDelay : Nat
  first_le : firstDelay ≤ maxStdDuration
  max_le : maxDelay ≤ maxStdDuration

structure ThrottleState where
  failures : Nat
  lastFailureAt : UtcTime

namespace Throttle

variable (throttle : Throttle) (state : ThrottleState) (now : UtcTime)

def checkedMul (d : Nat) (n : Nat) : Option Nat :=
  if d * n ≤ maxStdDuration then some (d * n) else none

def delayAfter (failures : Nat) : Nat :=
  if failures = 0 then 0
  else
    let doublings := failures - 1
    let delay :=
      if doublings ≥ 32 then throttle.maxDelay
      else (checkedMul throttle.firstDelay (2 ^ doublings)).getD throttle.maxDelay
    min delay throttle.maxDelay

def forgetAfter : Nat := min (throttle.maxDelay * 2) maxStdDuration

def isStale : Bool :=
  match fromStd throttle.forgetAfter with
  | some keep => now.ns - state.lastFailureAt.ns > keep
  -- a span too long to represent is never exceeded
  | none => false

def retryAfter : Option ThrottleState → Option Nat
  | none => none
  | some state =>
    if throttle.isStale state now then none
    else do
      let delay ← fromStd (throttle.delayAfter state.failures)
      let retryAt ← checkedAddSigned state.lastFailureAt.ns delay
      if now.ns ≥ retryAt then none else some (retryAt - now.ns).toNat

def publishedDelay (failures : Nat) : Nat :=
  if failures = 0 then 0 else min (throttle.firstDelay * 2 ^ (failures - 1)) throttle.maxDelay

def tooOld : Prop := now.ns - state.lastFailureAt.ns > 2 * throttle.maxDelay

instance : Decidable (throttle.tooOld state now) := inferInstanceAs (Decidable (_ > _))

def publishedRetryAfter : Option Nat :=
  let retryAt := state.lastFailureAt.ns + throttle.publishedDelay state.failures
  if ¬throttle.tooOld state now ∧ now.ns < retryAt then some (retryAt - now.ns).toNat else none

/-! ## Where they agree -/

variable {throttle state now}

theorem isStale_iff : throttle.isStale state now = true ↔ throttle.tooOld state now := by
  have hnow := now.le_max
  have hlast := state.lastFailureAt.ge_min
  unfold isStale tooOld forgetAfter fromStd
  unfold maxUtc minUtc at *
  by_cases hfits : min (throttle.maxDelay * 2) maxStdDuration ≤ maxChronoDuration
  · rw [if_pos hfits]
    have hmin : min (throttle.maxDelay * 2) maxStdDuration = throttle.maxDelay * 2 := by
      unfold maxStdDuration maxChronoDuration at *
      omega
    simp only [hmin, decide_eq_true_eq]
    omega
  · rw [if_neg hfits]
    -- no two points in time are that far apart
    unfold maxStdDuration maxChronoDuration at hfits
    simp only [Bool.false_eq_true, false_iff]
    omega

theorem delayAfter_of_le {n : Nat} (hn : n ≤ 32) :
    throttle.delayAfter n = throttle.publishedDelay n := by
  unfold delayAfter publishedDelay checkedMul
  split
  · rfl
  · dsimp only
    rw [if_neg (by omega)]
    split
    · rfl
    · next hoverflow =>
      have hmax := throttle.max_le
      rw [Option.getD_none, min_self, min_eq_right (by omega)]

theorem delayAfter_of_lt {n : Nat} (hn : 32 < n) : throttle.delayAfter n = throttle.maxDelay := by
  unfold delayAfter
  rw [if_neg (by omega)]
  dsimp only
  rw [if_pos (by omega), min_self]

theorem retryAfter_of_not_tooOld (hfresh : ¬throttle.tooOld state now) :
    throttle.retryAfter now (some state) =
      let retryAt := state.lastFailureAt.ns + throttle.delayAfter state.failures
      if retryAt ≤ maxUtc ∧ now.ns < retryAt then some (retryAt - now.ns).toNat else none := by
  have hlast := state.lastFailureAt.ge_min
  unfold retryAfter
  dsimp only
  rw [if_neg (mt isStale_iff.mp hfresh)]
  unfold fromStd checkedAddSigned
  by_cases hfits : throttle.delayAfter state.failures ≤ maxChronoDuration
  · rw [if_pos hfits]
    show (ite _ _ _ : Option Int).bind _ = _
    by_cases hend : state.lastFailureAt.ns + throttle.delayAfter state.failures ≤ maxUtc
    · rw [if_pos ⟨by omega, hend⟩]
      show (if _ then _ else _) = _
      by_cases hover : now.ns ≥ state.lastFailureAt.ns + throttle.delayAfter state.failures
      · rw [if_pos hover, if_neg (by omega)]
      · rw [if_neg hover, if_pos ⟨hend, by omega⟩]
    · rw [if_neg (fun hin => hend hin.2), if_neg (fun hin => hend hin.1)]
      rfl
  · -- such a delay ends after the last point in time
    rw [if_neg hfits, if_neg]
    · rfl
    · unfold maxUtc minUtc maxChronoDuration at *
      omega

/-- The doubling has reached the cap by the time the code stops it. -/
def doublingReachesCap (throttle : Throttle) (state : ThrottleState) : Prop :=
  state.failures ≤ 32 ∨ throttle.maxDelay ≤ throttle.firstDelay * 2 ^ (state.failures - 1)

/-- The state is too old to matter; or the doubling reaches the cap and the end of the delay can be
represented; or it does not, and the longer delay that the code then imposes is over (where its
end cannot be represented: the published one). -/
def followsRule (throttle : Throttle) (state : ThrottleState) (now : UtcTime) : Prop :=
  let published := state.lastFailureAt.ns + throttle.publishedDelay state.failures
  let longest := state.lastFailureAt.ns + throttle.maxDelay
  throttle.tooOld state now ∨
  doublingReachesCap throttle state ∧ published ≤ maxUtc ∨
  ¬doublingReachesCap throttle state ∧
    (longest ≤ maxUtc ∧ longest ≤ now.ns ∨ maxUtc < longest ∧ published ≤ now.ns)

theorem delayAfter_eq (h : doublingReachesCap throttle state) :
    throttle.delayAfter state.failures = throttle.publishedDelay state.failures := by
  by_cases hn : state.failures ≤ 32
  · exact delayAfter_of_le hn
  · rw [delayAfter_of_lt (by omega), publishedDelay, if_neg (by omega),
      min_eq_right (h.resolve_left hn)]

theorem publishedDelay_lt (h : ¬doublingReachesCap throttle state) :
    throttle.publishedDelay state.failures < throttle.maxDelay := by
  rw [doublingReachesCap, not_or] at h
  rw [publishedDelay, if_neg (by omega)]
  omega

/-- A stored state refuses as the published rule says, with the exact time left, exactly where
`followsRule` holds. -/
theorem throttling_follows_rule_iff (throttle : Throttle) (state : ThrottleState) (now : UtcTime) :
    throttle.retryAfter now (some state) = throttle.publishedRetryAfter state now ↔
      throttle.followsRule state now := by
  have hnow := now.le_max
  by_cases hold : throttle.tooOld state now
  · have hcode : throttle.retryAfter now (some state) = none := if_pos (isStale_iff.mpr hold)
    have hrule : throttle.publishedRetryAfter state now = none := if_neg fun h => h.1 hold
    rw [hcode, hrule]
    exact ⟨fun _ => .inl hold, fun _ => rfl⟩
  · unfold followsRule publishedRetryAfter
    rw [retryAfter_of_not_tooOld hold]
    dsimp only
    simp only [hold, not_false_eq_true, true_and, false_or]
    by_cases hcap : doublingReachesCap throttle state
    · rw [delayAfter_eq hcap]
      simp only [hcap, true_and, not_true_eq_false, false_and, or_false]
      by_cases hend : state.lastFailureAt.ns + throttle.publishedDelay state.failures ≤ maxUtc
      · simp only [hend, true_and]
      · -- the rule refuses at every time there is
        rw [if_neg (fun h => hend h.1), if_pos (by omega)]
        simp [hend]
    · have hlt := publishedDelay_lt hcap
      rw [delayAfter_of_lt (Nat.not_le.mp fun hn => hcap (.inl hn))]
      simp only [hcap, false_and, not_false_eq_true, true_and, false_or]
      by_cases hend : state.lastFailureAt.ns + throttle.maxDelay ≤ maxUtc
      · by_cases hover : state.lastFailureAt.ns + throttle.maxDelay ≤ now.ns
        · rw [if_neg (by omega), if_neg (by omega)]
          simp [hend, hover]
        · -- the code refuses for longer than the rule
          rw [if_pos ⟨hend, by omega⟩]
          constructor
          · intro hsame
            split at hsame
            · injection hsame with hleft
              omega
            · cases hsame
          · omega
      · rw [if_neg (fun h => hend h.1)]
        by_cases hover : state.lastFailureAt.ns + throttle.publishedDelay state.failures ≤ now.ns
        · rw [if_neg (by omega)]
          simp [hover]
          omega
        · rw [if_pos (by omega)]
          simp [hend, hover]

def nanosecondFirst : Throttle := ⟨1, 64000000000, by decide, by decide⟩

theorem thirty_third_failure_waits_for_cap :
    nanosecondFirst.publishedRetryAfter ⟨33, ⟨0, by decide, by decide⟩⟩
      ⟨5000000000, by decide, by decide⟩ = none ∧
    nanosecondFirst.retryAfter ⟨5000000000, by decide, by decide⟩
      (some ⟨33, ⟨0, by decide, by decide⟩⟩) = some 59000000000 := by
  decide

end Throttle

end Axess
