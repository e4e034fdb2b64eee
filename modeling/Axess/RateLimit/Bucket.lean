import Axess.Session.Data

/-!
# The sliding-window counter of one key

`TokenBucket` and its functions (`middleware/ratelimit/store.rs`). A bucket counts the requests
admitted in the current window and in the one before it, and a request is admitted while the
estimate for the trailing window is below the limit. The previous window's share of the estimate is
rounded down, so it is nothing before that window has left: twice the limit fits into a trailing
window that is longer than twice the limit in milliseconds.
-/

namespace Axess

def maxEpochMillis : Nat := 8210266876799999

structure TokenBucket where
  curr : Nat
  prev : Nat
  windowStartMs : Nat
  group : Option String
  deriving DecidableEq, Repr

def TokenBucket.new (nowMs : Nat) (group : Option String) : TokenBucket := ⟨0, 0, nowMs, group⟩

inductive Acquire where
  | allowed (remaining : Nat) (shared : Bool)
  | limited (retryAfterSecs : Nat)
  | saturated (retryAfterSecs : Nat)
  deriving DecidableEq, Repr

def Acquire.isAllowed : Acquire → Bool
  | .allowed .. => true
  | _ => false

structure RateLimit where
  maxRequests : Nat
  windowMs : Nat
  window_pos : 0 < windowMs
  window_le : windowMs ≤ maxU64

namespace RateLimit

/-- A window under a millisecond is a millisecond. -/
def new (maxRequests : Nat) (window : Duration) : RateLimit where
  maxRequests := maxRequests
  windowMs := max (min (window / 1000000) maxU64) 1
  window_pos := Nat.lt_of_lt_of_le Nat.one_pos (Nat.le_max_right ..)
  window_le := Nat.max_le.mpr ⟨Nat.min_le_right .., by decide⟩

variable (limit : RateLimit)

/-- The bucket in the window that contains `nowMs`; a clock that steps back takes the window along. -/
def roll (bucket : TokenBucket) (nowMs : Nat) : TokenBucket :=
  if nowMs < bucket.windowStartMs then { bucket with windowStartMs := nowMs }
  else
    match (nowMs - bucket.windowStartMs) / limit.windowMs with
    | 0 => bucket
    | 1 => { bucket with
        prev := bucket.curr
        curr := 0
        windowStartMs := bucket.windowStartMs + limit.windowMs }
    | _ => { bucket with
        prev := 0
        curr := 0
        windowStartMs := nowMs - (nowMs - bucket.windowStartMs) % limit.windowMs }

def estimate (bucket : TokenBucket) (nowMs : Nat) : Nat :=
  bucket.prev * (limit.windowMs - (nowMs - bucket.windowStartMs)) / limit.windowMs + bucket.curr

def waitMs (bucket : TokenBucket) (nowMs : Nat) : Nat :=
  let into := nowMs - bucket.windowStartMs
  let (prev, headroom, waitToWindowEnd) :=
    if bucket.curr + 1 ≤ limit.maxRequests then
      (bucket.prev, limit.maxRequests - (bucket.curr + 1), 0)
    -- the current window is full, and its count is the previous one's once it has ended
    else (bucket.curr, limit.maxRequests - 1, limit.windowMs - into)
  let neededInto :=
    if prev = 0 then 0
    else limit.windowMs - min (((headroom + 1) * limit.windowMs - 1) / prev) limit.windowMs
  let wait := if 0 < waitToWindowEnd then waitToWindowEnd + neededInto else neededInto - into
  min wait maxU64

def take (bucket : TokenBucket) (nowMs : Nat) : Acquire × TokenBucket :=
  let bucket := limit.roll bucket nowMs
  let estimate := limit.estimate bucket nowMs
  if estimate < limit.maxRequests then
    (.allowed (min (limit.maxRequests - estimate - 1) maxU32) false,
      { bucket with curr := bucket.curr + 1 })
  else (.limited (max ((limit.waitMs bucket nowMs + 999) / 1000) 1), bucket)

variable {limit} {bucket : TokenBucket} {nowMs : Nat}

theorem roll_of_lt (h : nowMs < bucket.windowStartMs) :
    limit.roll bucket nowMs = { bucket with windowStartMs := nowMs } := if_pos h

theorem roll_same (hle : bucket.windowStartMs ≤ nowMs)
    (hlt : nowMs < bucket.windowStartMs + limit.windowMs) : limit.roll bucket nowMs = bucket := by
  have hzero : (nowMs - bucket.windowStartMs) / limit.windowMs = 0 := Nat.div_eq_of_lt (by omega)
  rw [roll, if_neg (by omega), hzero]
  rfl

theorem roll_next (hle : bucket.windowStartMs + limit.windowMs ≤ nowMs)
    (hlt : nowMs < bucket.windowStartMs + 2 * limit.windowMs) :
    limit.roll bucket nowMs = { bucket with
      prev := bucket.curr
      curr := 0
      windowStartMs := bucket.windowStartMs + limit.windowMs } := by
  have hone : (nowMs - bucket.windowStartMs) / limit.windowMs = 1 :=
    Nat.div_eq_of_lt_le (by omega) (by omega)
  rw [roll, if_neg (by omega), hone]
  rfl

theorem roll_later (hle : bucket.windowStartMs + 2 * limit.windowMs ≤ nowMs) :
    limit.roll bucket nowMs = { bucket with
      prev := 0
      curr := 0
      windowStartMs := nowMs - (nowMs - bucket.windowStartMs) % limit.windowMs } := by
  have htwo : 2 ≤ (nowMs - bucket.windowStartMs) / limit.windowMs :=
    (Nat.le_div_iff_mul_le limit.window_pos).mpr (by omega)
  rw [roll, if_neg (by omega)]
  split
  · next hzero => omega
  · next hone => omega
  · rfl

theorem roll_contains (limit : RateLimit) (bucket : TokenBucket) (nowMs : Nat) :
    (limit.roll bucket nowMs).windowStartMs ≤ nowMs ∧
      nowMs < (limit.roll bucket nowMs).windowStartMs + limit.windowMs := by
  have hpos := limit.window_pos
  by_cases hback : nowMs < bucket.windowStartMs
  · rw [roll_of_lt hback]
    exact ⟨Nat.le_refl _, by show nowMs < nowMs + _; omega⟩
  · by_cases hsame : nowMs < bucket.windowStartMs + limit.windowMs
    · rw [roll_same (by omega) hsame]
      exact ⟨by omega, hsame⟩
    · by_cases hnext : nowMs < bucket.windowStartMs + 2 * limit.windowMs
      · rw [roll_next (by omega) hnext]
        exact ⟨by show _ + _ ≤ nowMs; omega, by show nowMs < _ + _ + _; omega⟩
      · rw [roll_later (by omega)]
        have hmod := Nat.mod_lt (nowMs - bucket.windowStartMs) hpos
        have hle := Nat.mod_le (nowMs - bucket.windowStartMs) limit.windowMs
        exact ⟨by show nowMs - _ ≤ nowMs; omega, by show nowMs < nowMs - _ + _; omega⟩

theorem isAllowed_take : (limit.take bucket nowMs).1.isAllowed = true ↔
    limit.estimate (limit.roll bucket nowMs) nowMs < limit.maxRequests := by
  unfold take
  dsimp only
  split
  · next h => exact ⟨fun _ => h, fun _ => rfl⟩
  · next h => exact ⟨fun hallowed => absurd hallowed Bool.false_ne_true, fun hlt => absurd hlt h⟩

theorem take_of_lt
    (h : limit.estimate (limit.roll bucket nowMs) nowMs < limit.maxRequests) :
    (limit.take bucket nowMs).2 =
      { limit.roll bucket nowMs with curr := (limit.roll bucket nowMs).curr + 1 } := by
  unfold take
  dsimp only
  rw [if_pos h]

theorem take_of_le
    (h : limit.maxRequests ≤ limit.estimate (limit.roll bucket nowMs) nowMs) :
    (limit.take bucket nowMs).2 = limit.roll bucket nowMs := by
  unfold take
  dsimp only
  rw [if_neg (Nat.not_lt.mpr h)]

/-! ## The least wait -/

/-- A sweep takes the window of a bucket along with a clock that stepped back, and drops a bucket
two windows after the start of its own. -/
def retain (limit : RateLimit) (bucket : TokenBucket) (nowMs : Nat) : Option TokenBucket :=
  let bucket := { bucket with windowStartMs := min bucket.windowStartMs nowMs }
  if nowMs - bucket.windowStartMs < min (limit.windowMs * 2) maxU64 then some bucket else none

inductive Reachable (limit : RateLimit) : TokenBucket → Prop where
  | new (nowMs : Nat) (group : Option String) : Reachable limit (.new nowMs group)
  | take {bucket : TokenBucket} (nowMs : Nat) :
      Reachable limit bucket → Reachable limit (limit.take bucket nowMs).2
  | sweep {bucket kept : TokenBucket} (nowMs : Nat) :
      Reachable limit bucket → limit.retain bucket nowMs = some kept → Reachable limit kept

structure Within (limit : RateLimit) (bucket : TokenBucket) : Prop where
  curr : bucket.curr ≤ limit.maxRequests
  prev : bucket.prev ≤ limit.maxRequests

theorem Within.roll (h : limit.Within bucket) (nowMs : Nat) :
    limit.Within (limit.roll bucket nowMs) := by
  unfold RateLimit.roll
  split
  · exact ⟨h.curr, h.prev⟩
  · split
    · exact h
    · exact ⟨Nat.zero_le _, h.curr⟩
    · exact ⟨Nat.zero_le _, Nat.zero_le _⟩

theorem Within.take (h : limit.Within bucket) (nowMs : Nat) :
    limit.Within (limit.take bucket nowMs).2 := by
  by_cases hlt : limit.estimate (limit.roll bucket nowMs) nowMs < limit.maxRequests
  · rw [take_of_lt hlt]
    have hcurr : (limit.roll bucket nowMs).curr < limit.maxRequests :=
      Nat.lt_of_le_of_lt (Nat.le_add_left ..) hlt
    exact ⟨hcurr, (h.roll nowMs).prev⟩
  · rw [take_of_le (Nat.not_lt.mp hlt)]
    exact h.roll nowMs

theorem Reachable.within (h : limit.Reachable bucket) : limit.Within bucket := by
  induction h with
  | new nowMs group => exact ⟨Nat.zero_le _, Nat.zero_le _⟩
  | take nowMs _ ih => exact ih.take nowMs
  | sweep nowMs _ hkept ih =>
    dsimp only [retain] at hkept
    split at hkept
    · cases hkept
      exact ⟨ih.curr, ih.prev⟩
    · cases hkept

theorem isAllowed_take_same (hle : bucket.windowStartMs ≤ nowMs)
    (hlt : nowMs < bucket.windowStartMs + limit.windowMs) :
    (limit.take bucket nowMs).1.isAllowed = true ↔
      limit.estimate bucket nowMs < limit.maxRequests := by
  rw [isAllowed_take, roll_same hle hlt]

theorem isAllowed_take_next (bucket : TokenBucket) :
    (limit.take bucket (bucket.windowStartMs + limit.windowMs)).1.isAllowed = true ↔
      bucket.curr < limit.maxRequests := by
  have hpos := limit.window_pos
  rw [isAllowed_take, roll_next (Nat.le_refl _) (by omega), estimate, Nat.sub_self, Nat.sub_zero,
    Nat.mul_div_cancel _ hpos, Nat.add_zero]

section Wait

variable (hle : bucket.windowStartMs ≤ nowMs)
  (hlt : nowMs < bucket.windowStartMs + limit.windowMs)

include hle hlt

theorem wait_of_lt (hcurr : bucket.curr < limit.maxRequests)
    (hrefused : limit.maxRequests ≤ limit.estimate bucket nowMs) :
    (limit.take bucket (nowMs + limit.waitMs bucket nowMs)).1.isAllowed = true ∧
      ∀ delay < limit.waitMs bucket nowMs,
        (limit.take bucket (nowMs + delay)).1.isAllowed = false := by
  obtain ⟨into, rfl⟩ := Nat.exists_eq_add_of_le hle
  have hpos := limit.window_pos
  have hwindow := limit.window_le
  -- the estimate refuses while the overlap weighs `room` windows or more
  obtain ⟨room, hroom⟩ := Nat.exists_eq_add_of_lt hcurr
  have hshare (overlap : Nat) : room + 1 ≤ bucket.prev * overlap / limit.windowMs ↔
      (room + 1) * limit.windowMs ≤ bucket.prev * overlap := Nat.le_div_iff_mul_le hpos
  have hover : (room + 1) * limit.windowMs ≤ bucket.prev * (limit.windowMs - into) := by
    rw [← hshare]
    unfold estimate at hrefused
    rw [Nat.add_sub_cancel_left] at hrefused
    omega
  have hprev : 0 < bucket.prev := by
    rcases Nat.eq_zero_or_pos bucket.prev with hzero | hprev
    · rw [hzero, Nat.zero_mul] at hover
      exact absurd hover (Nat.not_le.mpr (Nat.mul_pos (Nat.succ_pos _) hpos))
    · exact hprev
  obtain ⟨largest, hlargest⟩ : ∃ l, l = ((room + 1) * limit.windowMs - 1) / bucket.prev := ⟨_, rfl⟩
  have hmany : 0 < (room + 1) * limit.windowMs := Nat.mul_pos (Nat.succ_pos _) hpos
  have hlarger (overlap : Nat) : largest < overlap ↔
      (room + 1) * limit.windowMs ≤ bucket.prev * overlap := by
    rw [hlargest, Nat.div_lt_iff_lt_mul hprev, Nat.mul_comm overlap]
    omega
  have hless : largest < limit.windowMs - into := (hlarger _).mpr hover
  have hwait : limit.waitMs bucket (bucket.windowStartMs + into) =
      limit.windowMs - largest - into := by
    dsimp only [waitMs]
    have hheadroom : limit.maxRequests - (bucket.curr + 1) + 1 = room + 1 := by omega
    rw [if_pos (show bucket.curr + 1 ≤ limit.maxRequests by omega)]
    dsimp only
    rw [if_neg (show bucket.prev ≠ 0 by omega), if_neg (Nat.lt_irrefl 0), hheadroom, ← hlargest, Nat.add_sub_cancel_left,
      Nat.min_eq_left (by omega : largest ≤ limit.windowMs), Nat.min_eq_left (by omega)]
  have hallowed (d : Nat) (hd : into + d < limit.windowMs) :
      (limit.take bucket (bucket.windowStartMs + into + d)).1.isAllowed = true ↔
        limit.windowMs - (into + d) ≤ largest := by
    rw [isAllowed_take_same (by omega) (by omega), ← Nat.not_lt, hlarger, ← hshare]
    unfold estimate
    rw [Nat.add_assoc, Nat.add_sub_cancel_left]
    omega
  rw [hwait]
  constructor
  · rcases Nat.eq_zero_or_pos largest with hzero | hsome
    · have htime : bucket.windowStartMs + into + (limit.windowMs - largest - into) =
          bucket.windowStartMs + limit.windowMs := by omega
      rw [htime, isAllowed_take_next]
      exact hcurr
    · rw [hallowed (limit.windowMs - largest - into) (by omega)]
      omega
  · intro delay hdelay
    rw [← Bool.not_eq_true, hallowed delay (by omega)]
    omega

/-- A full window has to end, and a millisecond more. A wait that is cut at the largest number is for
no time of the clock. -/
theorem wait_of_full (hmax : 1 ≤ limit.maxRequests) (hcurr : bucket.curr = limit.maxRequests) :
    (nowMs + limit.waitMs bucket nowMs ≤ maxEpochMillis →
      (limit.take bucket (nowMs + limit.waitMs bucket nowMs)).1.isAllowed = true) ∧
      ∀ delay < limit.waitMs bucket nowMs,
        (limit.take bucket (nowMs + delay)).1.isAllowed = false := by
  obtain ⟨into, rfl⟩ := Nat.exists_eq_add_of_le hle
  have hpos := limit.window_pos
  have hfull : limit.maxRequests * (limit.windowMs - 1) + limit.maxRequests =
      limit.maxRequests * limit.windowMs := by
    rw [← Nat.mul_succ, Nat.succ_eq_add_one, Nat.sub_add_cancel hpos]
  have hlargest : (limit.maxRequests * limit.windowMs - 1) / limit.maxRequests =
      limit.windowMs - 1 := by
    apply Nat.div_eq_of_lt_le
    · rw [Nat.mul_comm (limit.windowMs - 1)]
      omega
    · have hprod : 0 < limit.maxRequests * limit.windowMs := Nat.mul_pos hmax hpos
      rw [Nat.sub_add_cancel hpos, Nat.mul_comm limit.windowMs]
      omega
  have hwait : limit.waitMs bucket (bucket.windowStartMs + into) =
      min (limit.windowMs - into + 1) maxU64 := by
    dsimp only [waitMs]
    rw [if_neg (show ¬bucket.curr + 1 ≤ limit.maxRequests by omega), Nat.add_sub_cancel_left]
    dsimp only
    rw [hcurr, if_neg (show limit.maxRequests ≠ 0 by omega),
      if_pos (show 0 < limit.windowMs - into by omega), Nat.sub_add_cancel hmax, hlargest,
      Nat.min_eq_left (Nat.sub_le ..), Nat.sub_sub_self hpos]
  have hrange : maxEpochMillis < maxU64 := by decide
  rw [hwait]
  clear hwait
  generalize maxU64 = most at hrange ⊢
  generalize maxEpochMillis = last at hrange ⊢
  constructor
  · intro htime
    have hend : bucket.windowStartMs + into + min (limit.windowMs - into + 1) most =
        bucket.windowStartMs + limit.windowMs + 1 := by omega
    rw [hend, isAllowed_take]
    by_cases hone : limit.windowMs = 1
    · rw [roll_later (by omega), estimate, Nat.zero_mul, Nat.zero_div]
      exact hmax
    · rw [roll_next (by omega) (by omega), estimate, Nat.add_sub_cancel_left, Nat.add_zero, hcurr,
        Nat.div_lt_iff_lt_mul hpos]
      show limit.maxRequests * (limit.windowMs - 1) < limit.maxRequests * limit.windowMs
      omega
  · intro delay hdelay
    rw [← Bool.not_eq_true]
    by_cases hsame : into + delay < limit.windowMs
    · rw [isAllowed_take_same (by omega) (by omega), estimate, hcurr]
      exact Nat.not_lt.mpr (Nat.le_add_left ..)
    · have hnext : bucket.windowStartMs + into + delay =
          bucket.windowStartMs + limit.windowMs := by omega
      rw [hnext, isAllowed_take_next]
      omega

end Wait

/-- For a bucket that requests and sweeps have led to, at any times: the wait that is reported with a
refusal is the least one after which a request is admitted. -/
theorem wait_ms_is_least (hmax : 1 ≤ limit.maxRequests) (hreach : limit.Reachable bucket)
    (hrefused : (limit.take bucket nowMs).1.isAllowed = false) :
    let refused := (limit.take bucket nowMs).2
    let wait := limit.waitMs refused nowMs
    (nowMs + wait ≤ maxEpochMillis → (limit.take refused (nowMs + wait)).1.isAllowed = true) ∧
      ∀ delay < wait, (limit.take refused (nowMs + delay)).1.isAllowed = false := by
  have hfull : limit.maxRequests ≤ limit.estimate (limit.roll bucket nowMs) nowMs := by
    rw [← Nat.not_lt, ← isAllowed_take, hrefused]
    exact Bool.false_ne_true
  obtain ⟨hle, hlt⟩ := roll_contains limit bucket nowMs
  rw [take_of_le hfull]
  rcases Nat.lt_or_eq_of_le (hreach.within.roll nowMs).curr with hcurr | hcurr
  · have hwait := wait_of_lt hle hlt hcurr hfull
    exact ⟨fun _ => hwait.1, hwait.2⟩
  · exact wait_of_full hle hlt hmax hcurr

def onePerSecond : RateLimit := .new 1 1000000000

/-- The second request comes after half a second. -/
theorem wait_ms_is_least_after_half :
    let refused := (onePerSecond.take (onePerSecond.take (.new 0 none) 0).2 500).2
    onePerSecond.waitMs refused 500 = 501 ∧
      (onePerSecond.take refused (500 + 501)).1.isAllowed = true ∧
      ∀ delay < 501, (onePerSecond.take refused (500 + delay)).1.isAllowed = false := by
  have hreach : onePerSecond.Reachable (onePerSecond.take (.new 0 none) 0).2 :=
    .take 0 (.new 0 none)
  have hrefused : (onePerSecond.take (onePerSecond.take (.new 0 none) 0).2 500).1.isAllowed =
      false := by decide
  have hleast := wait_ms_is_least (by decide) hreach hrefused
  have hwait : onePerSecond.waitMs
      (onePerSecond.take (onePerSecond.take (.new 0 none) 0).2 500).2 500 = 501 := by decide
  dsimp only at hleast ⊢
  rw [hwait] at hleast
  exact ⟨hwait, hleast.1 (by decide), hleast.2⟩

/-! ## Requests in a trailing window -/

structure KeyRun where
  bucket : Option TokenBucket
  admitted : List Nat
  nowMs : Nat

def KeyRun.serve (limit : RateLimit) (s : KeyRun) (group : Option String) (nowMs : Nat) : KeyRun :=
  let taken := limit.take (s.bucket.getD (.new nowMs group)) nowMs
  ⟨some taken.2, if taken.1.isAllowed then nowMs :: s.admitted else s.admitted, nowMs⟩

/-- Requests and evictions at times of the clock that do not decrease, none of a bucket whose two
windows have not passed. -/
inductive KeyStep (limit : RateLimit) (s : KeyRun) : KeyRun → Prop where
  | request (group : Option String) (nowMs : Nat) (hnow : s.nowMs ≤ nowMs)
      (hlast : nowMs ≤ maxEpochMillis) : KeyStep limit s (s.serve limit group nowMs)
  | evict {bucket : TokenBucket} (nowMs : Nat) (hnow : s.nowMs ≤ nowMs)
      (hlast : nowMs ≤ maxEpochMillis) (hbucket : s.bucket = some bucket) (hdropped : limit.retain bucket nowMs = none)
      (hpassed : bucket.windowStartMs + 2 * limit.windowMs ≤ nowMs) :
      KeyStep limit s { s with bucket := none, nowMs := nowMs }

def KeyRun.Reached (limit : RateLimit) : KeyRun → Prop :=
  Relation.ReflTransGen (KeyStep limit) ⟨none, [], 0⟩

def inTrailing (limit : RateLimit) (t a : Nat) : Bool := t < a + limit.windowMs && a ≤ t

/-- What a bucket knows of the requests admitted so far. -/
structure Counts (limit : RateLimit) (bucket : TokenBucket) (admitted : List Nat) : Prop where
  within : limit.Within bucket
  curr : admitted.countP (bucket.windowStartMs ≤ ·) ≤ bucket.curr
  prev : admitted.countP (fun a => bucket.windowStartMs ≤ a + limit.windowMs ∧
    a < bucket.windowStartMs) ≤ bucket.prev
  ended : ∀ a ∈ admitted, a < bucket.windowStartMs + limit.windowMs

structure KeyInv (limit : RateLimit) (s : KeyRun) : Prop where
  past : ∀ a ∈ s.admitted, a ≤ s.nowMs
  started : ∀ bucket, s.bucket = some bucket → bucket.windowStartMs ≤ s.nowMs
  counts : ∀ bucket, s.bucket = some bucket → limit.Counts bucket s.admitted
  unknown : s.bucket = none → ∀ a ∈ s.admitted, a + limit.windowMs < s.nowMs

variable {admitted : List Nat} {s s' : KeyRun}

theorem countP_eq_zero_of {p : Nat → Prop} [DecidablePred p] (h : ∀ a ∈ admitted, ¬p a) :
    admitted.countP (fun a => p a) = 0 :=
  List.countP_eq_zero.mpr fun a ha hp => h a ha (of_decide_eq_true hp)

theorem counts_new (group : Option String) (h : ∀ a ∈ admitted, a + limit.windowMs < nowMs) :
    limit.Counts (.new nowMs group) admitted where
  within := ⟨Nat.zero_le _, Nat.zero_le _⟩
  curr := Nat.le_of_eq (countP_eq_zero_of fun a ha hle => by
    have hlt := h a ha
    dsimp only [TokenBucket.new] at hle
    omega)
  prev := Nat.le_of_eq (countP_eq_zero_of fun a ha hle => by
    have hlt := h a ha
    dsimp only [TokenBucket.new] at hle
    omega)
  ended a ha := by
    have hlt := h a ha
    show a < nowMs + limit.windowMs
    omega

theorem Counts.roll (h : limit.Counts bucket admitted) (hle : bucket.windowStartMs ≤ nowMs) :
    limit.Counts (limit.roll bucket nowMs) admitted := by
  have hwithin := h.within.roll nowMs
  by_cases hsame : nowMs < bucket.windowStartMs + limit.windowMs
  · rw [roll_same hle hsame]
    exact h
  · by_cases hnext : nowMs < bucket.windowStartMs + 2 * limit.windowMs
    · rw [roll_next (by omega) hnext] at hwithin ⊢
      refine ⟨hwithin, Nat.le_of_eq (countP_eq_zero_of fun a ha => ?_), ?_, fun a ha => ?_⟩
      · exact Nat.not_le.mpr (h.ended a ha)
      · -- the window that has ended is the previous one
        refine Nat.le_trans (List.countP_mono_left fun a _ ha => ?_) h.curr
        have hstart := (of_decide_eq_true ha).1
        exact decide_eq_true (by dsimp only at hstart; omega)
      · exact Nat.lt_of_lt_of_le (h.ended a ha) (Nat.le_add_right ..)
    · rw [roll_later (by omega)] at hwithin ⊢
      have hdiv := Nat.div_add_mod (nowMs - bucket.windowStartMs) limit.windowMs
      have htwo : 2 ≤ (nowMs - bucket.windowStartMs) / limit.windowMs :=
        (Nat.le_div_iff_mul_le limit.window_pos).mpr (by omega)
      have hmul := Nat.mul_le_mul_left limit.windowMs htwo
      have hlater : bucket.windowStartMs + 2 * limit.windowMs ≤
          nowMs - (nowMs - bucket.windowStartMs) % limit.windowMs := by omega
      refine ⟨hwithin, Nat.le_of_eq (countP_eq_zero_of fun a ha hin => ?_),
        Nat.le_of_eq (countP_eq_zero_of fun a ha hin => ?_), fun a ha => ?_⟩ <;>
        have hended := h.ended a ha
      · dsimp only at hin
        omega
      · dsimp only at hin
        omega
      · show a < _ - _ + _
        omega

theorem Counts.trailing_lt (h : limit.Counts bucket admitted)
    (hwindow : limit.windowMs ≤ 2 * limit.maxRequests) (hle : bucket.windowStartMs ≤ nowMs)
    (hlt : nowMs < bucket.windowStartMs + limit.windowMs)
    (hadmits : limit.estimate bucket nowMs < limit.maxRequests) {t : Nat}
    (ht : nowMs ≤ t) :
    admitted.countP (limit.inTrailing t) + 1 < 2 * limit.maxRequests := by
  -- a request of the trailing window is one of the current window or of the previous one
  have hsplit : admitted.countP (limit.inTrailing t) ≤
      admitted.countP (bucket.windowStartMs ≤ ·) +
        admitted.countP (fun a => nowMs < a + limit.windowMs ∧ a < bucket.windowStartMs) := by
    rw [List.countP_eq_countP_filter_add _ _ (bucket.windowStartMs ≤ ·), List.countP_filter,
      List.countP_filter]
    refine Nat.add_le_add (List.countP_mono_left fun a _ ha => ?_)
      (List.countP_mono_left fun a _ ha => ?_)
    · exact (Bool.and_eq_true_iff.mp ha).2
    · simp only [inTrailing, Bool.and_eq_true, decide_eq_true_eq, Bool.not_eq_true',
        decide_eq_false_iff_not] at ha
      exact decide_eq_true (by omega)
  have hprev : admitted.countP (fun a => nowMs < a + limit.windowMs ∧
      a < bucket.windowStartMs) ≤ bucket.prev := by
    refine Nat.le_trans (List.countP_mono_left fun a _ ha => ?_) h.prev
    have hin := of_decide_eq_true ha
    exact decide_eq_true (by omega)
  have hcurr := h.curr
  have hmost := h.within.prev
  have hroom : bucket.curr < limit.maxRequests := Nat.lt_of_le_of_lt (Nat.le_add_left ..) hadmits
  unfold estimate at hadmits
  by_cases hfull : bucket.prev = limit.maxRequests ∧ bucket.curr + 1 = limit.maxRequests
  · -- then the previous window has left but for its first millisecond
    have hshare : bucket.prev * (limit.windowMs - (nowMs - bucket.windowStartMs)) /
        limit.windowMs < 1 := by omega
    rw [Nat.div_lt_iff_lt_mul limit.window_pos, hfull.1, Nat.one_mul] at hshare
    have hlast : limit.windowMs - (nowMs - bucket.windowStartMs) < 2 := by
      by_contra hmore
      have hmul := Nat.mul_le_mul_left limit.maxRequests (Nat.not_lt.mp hmore)
      omega
    have hnone : admitted.countP (fun a => nowMs < a + limit.windowMs ∧
        a < bucket.windowStartMs) = 0 := countP_eq_zero_of fun a _ hin => by omega
    omega
  · omega

theorem serve_of_lt {group : Option String}
    (hbucket : limit.roll (s.bucket.getD (.new nowMs group)) nowMs = bucket)
    (hadmits : limit.estimate bucket nowMs < limit.maxRequests) :
    s.serve limit group nowMs =
      ⟨some { bucket with curr := bucket.curr + 1 }, nowMs :: s.admitted, nowMs⟩ := by
  subst hbucket
  rw [KeyRun.serve, if_pos (isAllowed_take.mpr hadmits), take_of_lt hadmits]

theorem serve_of_le {group : Option String}
    (hbucket : limit.roll (s.bucket.getD (.new nowMs group)) nowMs = bucket)
    (hfull : limit.maxRequests ≤ limit.estimate bucket nowMs) :
    s.serve limit group nowMs = ⟨some bucket, s.admitted, nowMs⟩ := by
  subst hbucket
  rw [KeyRun.serve, if_neg fun hallowed => Nat.not_lt.mpr hfull (isAllowed_take.mp hallowed),
    take_of_le hfull]

theorem KeyInv.current (h : KeyInv limit s) (group : Option String) (hnow : s.nowMs ≤ nowMs) :
    (s.bucket.getD (.new nowMs group)).windowStartMs ≤ nowMs ∧
      limit.Counts (s.bucket.getD (.new nowMs group)) s.admitted := by
  cases hbucket : s.bucket with
  | none =>
    refine ⟨Nat.le_refl _, counts_new group fun a ha => ?_⟩
    exact Nat.lt_of_lt_of_le (h.unknown hbucket a ha) hnow
  | some bucket => exact ⟨Nat.le_trans (h.started _ hbucket) hnow, h.counts _ hbucket⟩

theorem Counts.admit (h : limit.Counts bucket admitted) (hle : bucket.windowStartMs ≤ nowMs)
    (hlt : nowMs < bucket.windowStartMs + limit.windowMs)
    (hadmits : limit.estimate bucket nowMs < limit.maxRequests) :
    limit.Counts { bucket with curr := bucket.curr + 1 } (nowMs :: admitted) where
  within := ⟨Nat.lt_of_le_of_lt (Nat.le_add_left ..) hadmits, h.within.prev⟩
  curr := by
    rw [List.countP_cons, if_pos (decide_eq_true hle)]
    exact Nat.succ_le_succ h.curr
  prev := by
    rw [List.countP_cons, if_neg (by simp [Nat.not_lt.mpr hle])]
    exact h.prev
  ended a ha := (List.mem_cons.mp ha).elim (fun heq => heq ▸ hlt) (h.ended a)

theorem KeyInv.step (h : KeyInv limit s) (hstep : KeyStep limit s s') : KeyInv limit s' := by
  cases hstep with
  | evict nowMs hnow _ hbucket hdropped hpassed =>
    refine ⟨fun a ha => Nat.le_trans (h.past a ha) hnow, nofun, nofun, fun _ a ha => ?_⟩
    have hended := (h.counts _ hbucket).ended a ha
    show a + limit.windowMs < nowMs
    omega
  | request group nowMs hnow =>
    obtain ⟨hle, hcounts⟩ := h.current group hnow
    obtain ⟨hstart, hend⟩ := roll_contains limit (s.bucket.getD (.new nowMs group)) nowMs
    have hrolled := hcounts.roll hle
    have hpast : ∀ a ∈ s.admitted, a ≤ nowMs := fun a ha => Nat.le_trans (h.past a ha) hnow
    by_cases hadmits : limit.estimate (limit.roll (s.bucket.getD (.new nowMs group)) nowMs) nowMs <
        limit.maxRequests
    · rw [serve_of_lt rfl hadmits]
      have hcount := hrolled.admit hstart hend hadmits
      refine ⟨fun a ha => ?_, fun b hb => ?_, fun b hb => ?_, nofun⟩
      · exact (List.mem_cons.mp ha).elim Nat.le_of_eq (hpast a)
      · cases hb
        exact hstart
      · cases hb
        exact hcount
    · rw [serve_of_le rfl (Nat.not_lt.mp hadmits)]
      refine ⟨hpast, fun b hb => ?_, fun b hb => ?_, nofun⟩
      · cases hb
        exact hstart
      · cases hb
        exact hrolled

theorem trailing_lt (hmax : 1 ≤ limit.maxRequests)
    (hwindow : limit.windowMs ≤ 2 * limit.maxRequests) (hreached : s.Reached limit) :
    KeyInv limit s ∧ ∀ t, s.admitted.countP (limit.inTrailing t) < 2 * limit.maxRequests := by
  induction hreached with
  | refl => exact ⟨⟨nofun, nofun, nofun, nofun⟩, fun t => by show 0 < _; omega⟩
  | tail _ hstep ih =>
    refine ⟨ih.1.step hstep, fun t => ?_⟩
    cases hstep with
    | evict => exact ih.2 t
    | request group nowMs hnow hlast =>
      rename_i s _
      obtain ⟨hle, hcounts⟩ := ih.1.current group hnow
      obtain ⟨hstart, hend⟩ := roll_contains limit (s.bucket.getD (.new nowMs group)) nowMs
      by_cases hadmits : limit.estimate (limit.roll (s.bucket.getD (.new nowMs group)) nowMs) nowMs <
          limit.maxRequests
      · rw [serve_of_lt rfl hadmits, List.countP_cons]
        by_cases ht : nowMs ≤ t
        · have hlt := (hcounts.roll hle).trailing_lt hwindow hstart hend hadmits ht
          split <;> omega
        · -- the request came after the trailing window
          have hout : limit.inTrailing t nowMs = false := by
            rw [inTrailing, decide_eq_false ht, Bool.and_false]
          rw [hout, if_neg Bool.false_ne_true]
          exact ih.2 t
      · rw [serve_of_le rfl (Nat.not_lt.mp hadmits)]
        exact ih.2 t

/-- Requests at one time are admitted while there is room, when the previous window weighs nothing. -/
theorem serve_many {into : Nat} (hnow : s.nowMs ≤ nowMs) (hlast : nowMs ≤ maxEpochMillis)
    (hbucket : limit.roll (s.bucket.getD (.new nowMs none)) nowMs = bucket)
    (htime : nowMs = bucket.windowStartMs + into)
    (hshare : bucket.prev * (limit.windowMs - into) < limit.windowMs)
    (n : Nat) (hroom : bucket.curr + n < limit.maxRequests) :
    Relation.ReflTransGen (KeyStep limit) s ⟨some { bucket with curr := bucket.curr + (n + 1) },
      List.replicate (n + 1) nowMs ++ s.admitted, nowMs⟩ := by
  obtain ⟨hle, hlt⟩ := roll_contains limit (s.bucket.getD (.new nowMs none)) nowMs
  rw [hbucket] at hle hlt
  have hadmits (k : Nat) (hk : bucket.curr + k < limit.maxRequests) :
      limit.estimate { bucket with curr := bucket.curr + k } nowMs < limit.maxRequests := by
    rw [estimate, htime, Nat.add_sub_cancel_left, Nat.div_eq_of_lt hshare, Nat.zero_add]
    exact hk
  induction n with
  | zero =>
    have hstep : KeyStep limit s _ := .request none nowMs hnow hlast
    rw [serve_of_lt hbucket (hadmits 0 hroom)] at hstep
    exact .single hstep
  | succ n ih =>
    have hreached := ih (by omega)
    generalize hs : KeyRun.mk _ _ _ = s₁ at hreached
    have hstep : KeyStep limit s₁ _ := .request none nowMs (by rw [← hs]) hlast
    have hsame : limit.roll (s₁.bucket.getD (.new nowMs none)) nowMs =
        { bucket with curr := bucket.curr + (n + 1) } := by
      rw [← hs]
      exact roll_same hle hlt
    rw [serve_of_lt hsame (hadmits (n + 1) hroom), ← hs] at hstep
    exact (hs ▸ hreached).tail hstep

/-- A limit of `n + 1` in longer windows: `n + 1` requests in the last millisecond of a window and
as many in the last but one of the next. -/
theorem exists_double {n : Nat} (hmax : limit.maxRequests = n + 1)
    (hwindow : 2 * limit.maxRequests < limit.windowMs)
    (hclock : 3 * limit.windowMs ≤ maxEpochMillis) : ∃ s, KeyRun.Reached limit s ∧ ∃ t, s.admitted.countP (limit.inTrailing t) =
      2 * limit.maxRequests := by
  obtain ⟨rest, hrest⟩ := Nat.exists_eq_add_of_lt hwindow
  have hfirst : limit.roll (.new 0 none) 0 = ⟨0, 0, 0, none⟩ :=
    roll_same (Nat.le_refl _) (by show 0 < 0 + _; omega)
  have hopen := serve_many (s := ⟨none, [], 0⟩) (Nat.le_refl 0) (Nat.zero_le _) hfirst
    (show 0 = 0 + 0 from rfl) (by show 0 * _ < _; omega) 0 (by show 0 + 0 < _; omega)
  have hsecond : limit.roll ⟨1, 0, 0, none⟩ (0 + limit.windowMs + (limit.windowMs - 1)) =
      ⟨0, 1, 0 + limit.windowMs, none⟩ :=
    roll_next (by show 0 + _ ≤ _; omega) (by show _ < 0 + _; omega)
  have hburst := serve_many (s := ⟨some ⟨1, 0, 0, none⟩, [0], 0⟩) (Nat.zero_le _) (by omega) hsecond
    rfl (by show 1 * _ < _; omega) n (by show 0 + n < _; omega)
  have hthird : limit.roll ⟨0 + (n + 1), 1, 0 + limit.windowMs, none⟩
      (0 + limit.windowMs + limit.windowMs + (limit.windowMs - 2)) =
      ⟨0, 0 + (n + 1), 0 + limit.windowMs + limit.windowMs, none⟩ :=
    roll_next (by show 0 + _ + _ ≤ _; omega) (by show _ < 0 + _ + _; omega)
  have hshare : (0 + (n + 1)) * (limit.windowMs - (limit.windowMs - 2)) < limit.windowMs := by
    rw [Nat.sub_sub_self (by omega)]
    omega
  have hagain := serve_many (s := ⟨some ⟨0 + (n + 1), 1, 0 + limit.windowMs, none⟩,
    List.replicate (n + 1) (0 + limit.windowMs + (limit.windowMs - 1)) ++ [0],
    0 + limit.windowMs + (limit.windowMs - 1)⟩)
    (by show 0 + _ + _ ≤ _; omega) (by omega) hthird rfl hshare n (by show 0 + n < _; omega)
  refine ⟨_, (hopen.trans hburst).trans hagain, 0 + limit.windowMs + limit.windowMs +
    (limit.windowMs - 2), ?_⟩
  have hin (a : Nat) (ha : 2 * limit.windowMs - 2 < a) (hle : a ≤ 3 * limit.windowMs - 2) :
      limit.inTrailing (0 + limit.windowMs + limit.windowMs + (limit.windowMs - 2)) a = true := by
    simp only [inTrailing, Bool.and_eq_true, decide_eq_true_eq]
    omega
  have hout : limit.inTrailing (0 + limit.windowMs + limit.windowMs + (limit.windowMs - 2)) 0 =
      false := by
    simp only [inTrailing, Bool.and_eq_false_iff, decide_eq_false_iff_not]
    omega
  rw [List.countP_append, List.countP_append, List.countP_replicate, List.countP_replicate,
    if_pos (hin _ (by omega) (by omega)), if_pos (hin _ (by omega) (by omega)),
    List.countP_singleton, hout, if_neg Bool.false_ne_true]
  omega

/-- No trailing window ever holds twice the limit exactly when the windows are no longer than twice
the limit in milliseconds. Of windows that are longer, the range of the clock holds three. -/
theorem burst_below_double_iff (limit : RateLimit) (hmax : 1 ≤ limit.maxRequests)
    (hclock : 2 * limit.maxRequests < limit.windowMs → 3 * limit.windowMs ≤ maxEpochMillis) :
    (∀ s, KeyRun.Reached limit s → ∀ t,
      s.admitted.countP (limit.inTrailing t) < 2 * limit.maxRequests) ↔
      limit.windowMs ≤ 2 * limit.maxRequests := by
  constructor
  · intro hbelow
    by_contra hwindow
    obtain ⟨s, hreached, t, hdouble⟩ := exists_double (n := limit.maxRequests - 1) (by omega)
      (Nat.not_le.mp hwindow) (hclock (Nat.not_le.mp hwindow))
    have hlt := hbelow s hreached t
    omega
  · intro hwindow s hreached
    exact (trailing_lt hmax hwindow hreached).2

/-- Five requests in ten milliseconds, two of them made on either side of a boundary. -/
theorem burst_below_double_of_five :
    let limit : RateLimit := ⟨5, 10, by decide, by decide⟩
    let s := (KeyRun.serve limit (KeyRun.serve limit ⟨none, [], 0⟩ none 9) none 10)
    s.admitted = [10, 9] ∧ ∀ t, s.admitted.countP (limit.inTrailing t) < 2 * 5 := by
  intro limit s
  have hreached : s.Reached limit :=
    (Relation.ReflTransGen.single (.request none 9 (by decide) (by decide))).tail
      (.request none 10 (by decide) (by decide))
  exact ⟨by decide, (burst_below_double_iff limit (by decide) (by decide)).mpr (by decide) s hreached⟩

/-- One request a second: those at 1999 and 2001 milliseconds are both admitted. -/
theorem burst_doubles_across_boundary :
    let s := KeyRun.serve onePerSecond (KeyRun.serve onePerSecond
      (KeyRun.serve onePerSecond ⟨none, [], 0⟩ none 0) none 1999) none 2001
    s.Reached onePerSecond ∧ s.admitted.countP (onePerSecond.inTrailing 2001) = 2 * 1 :=
  ⟨((Relation.ReflTransGen.single (.request none 0 (by decide) (by decide))).tail
    (.request none 1999 (by decide) (by decide))).tail
    (.request none 2001 (by decide) (by decide)), by decide⟩

end RateLimit

end Axess
