import Axess.Authn.Guess
import Axess.Authn.Suspension

/-!
# The lockout as a limit on wrong guesses

Verifications of one account race. Each reserves a guess before the credential is checked
(`factor_pipeline/reserve.rs`), a right credential gives its reservation back, and a completed login
resets the counter. The counter is that of the reference store (`testing/mock_authn/identity.rs`).

The events of a run are kept newest first. `guesses` are the reservations since the counter last
started over; those that were not given back are never more than the counter shows, as long as a
reservation is given back to the count it was made in.
-/

namespace Axess

open Calls Relation LoginService

variable {V ι : Type}

structure AttemptEntry where
  count : Nat
  last : Instant
  deriving DecidableEq, Repr

structure AttemptPolicy where
  lockout : LockoutPolicy
  attemptWindow : Duration

namespace AttemptPolicy

variable (policy : AttemptPolicy)

def window : Int := (fromStd policy.attemptWindow).getD 3600000000000

def lapsed (entry : AttemptEntry) (now : Instant) : Bool :=
  if policy.lockout.effectiveMaxAttempts ≤ entry.count then
    (policy.lockout.derivedLockout entry.count (some entry.last) now).isNone
  else policy.window < now - entry.last

def reserveAttempt (now : Instant) (stored : Option AttemptEntry) :
    Option Nat × Option AttemptEntry :=
  let entry := stored.getD ⟨0, now⟩
  if entry.count = 0 ∨ policy.lapsed entry now then (some 1, some ⟨1, now⟩)
  else if policy.lockout.effectiveMaxAttempts ≤ entry.count then (none, some entry)
  else (some (entry.count + 1), some ⟨entry.count + 1, now⟩)

def startsOver (now : Instant) (stored : Option AttemptEntry) : Bool :=
  stored.any fun entry => entry.count ≠ 0 && policy.lapsed entry now

end AttemptPolicy

def releaseAttempt (stored : Option AttemptEntry) : Option AttemptEntry :=
  stored.bind fun entry =>
    if entry.count - 1 = 0 then none else some { entry with count := entry.count - 1 }

def recordFailedAttempt (now : Instant) (stored : Option AttemptEntry) : Option AttemptEntry :=
  some ⟨(stored.getD ⟨0, now⟩).count + 1, now⟩

def attemptCount (stored : Option AttemptEntry) : Nat := (stored.map (·.count)).getD 0

theorem attemptCount_releaseAttempt (stored : Option AttemptEntry) :
    attemptCount (releaseAttempt stored) = attemptCount stored - 1 := by
  rcases stored with _ | ⟨count, last⟩
  · rfl
  · simp only [releaseAttempt, Option.bind_some]
    split
    · next h => exact h.symm
    · rfl

theorem releaseAttempt_last {stored : Option AttemptEntry} {entry : AttemptEntry}
    (h : releaseAttempt stored = some entry) : ∃ e, stored = some e ∧ e.last = entry.last := by
  rcases stored with _ | e
  · cases h
  · simp only [releaseAttempt, Option.bind_some] at h
    split at h
    · cases h
    · cases h
      exact ⟨e, rfl, rfl⟩

inductive GuessEvent (ι : Type) where
  | resolved (i : ι) (step : PreparedFactorStep)
  | reserved (i : ι) (time : Instant) (restarts : Bool)
  | released (i : ι)
  | reset

structure GuessState (ι : Type) where
  counter : Option AttemptEntry
  now : Instant
  log : List (GuessEvent ι)

namespace GuessLog

def guesses : List (GuessEvent ι) → List ι
  | [] => []
  | .reserved i _ true :: _ => [i]
  | .reserved i _ false :: log => i :: guesses log
  | .reset :: _ => []
  | .resolved .. :: log => guesses log
  | .released _ :: log => guesses log

variable [DecidableEq ι]

def reservedAt (i : ι) : List (GuessEvent ι) → Option Instant
  | [] => none
  | .reserved j time _ :: log => if j = i then some time else reservedAt i log
  | _ :: log => reservedAt i log

def released (i : ι) : List (GuessEvent ι) → Bool
  | [] => false
  | .released j :: log => j = i || released i log
  | _ :: log => released i log

def resetSince (i : ι) : List (GuessEvent ι) → Bool
  | [] => false
  | .reset :: _ => true
  | .reserved j _ _ :: log => j ≠ i && resetSince i log
  | _ :: log => resetSince i log

def resolvedBy (i : ι) : List (GuessEvent ι) → Option PreparedFactorStep
  | [] => none
  | .resolved j step :: log => if j = i then some step else resolvedBy i log
  | _ :: log => resolvedBy i log

def guessedAt (i : ι) : List (GuessEvent ι) → Option PreparedFactorStep
  | [] => none
  | .reserved j _ _ :: log => if j = i then resolvedBy i log else guessedAt i log
  | _ :: log => guessedAt i log

def held (log : List (GuessEvent ι)) : Nat := (guesses log).countP fun i => !released i log

def wrong (passes : ι → PreparedFactorStep → Bool) (log : List (GuessEvent ι)) : Nat :=
  (guesses log).countP fun i => !(guessedAt i log).any (passes i)

def who : GuessEvent ι → Option ι
  | .resolved i _ => some i
  | .reserved i .. => some i
  | .released i => some i
  | .reset => none

section Others

variable {i : ι} {e : GuessEvent ι} (log : List (GuessEvent ι))

theorem reservedAt_cons (h : who e ≠ some i) : reservedAt i (e :: log) = reservedAt i log := by
  cases e with
  | reserved j time restarts => exact if_neg fun hj => h (congrArg some hj)
  | resolved j step => rfl
  | released j => rfl
  | reset => rfl

theorem released_cons (h : who e ≠ some i) : released i (e :: log) = released i log := by
  cases e with
  | released j =>
    have hj : decide (j = i) = false := decide_eq_false fun hj => h (congrArg some hj)
    rw [released, hj, Bool.false_or]
  | resolved j step => rfl
  | reserved j time restarts => rfl
  | reset => rfl

theorem resolvedBy_cons (h : who e ≠ some i) : resolvedBy i (e :: log) = resolvedBy i log := by
  cases e with
  | resolved j step => exact if_neg fun hj => h (congrArg some hj)
  | reserved j time restarts => rfl
  | released j => rfl
  | reset => rfl

theorem guessedAt_cons (h : who e ≠ some i) : guessedAt i (e :: log) = guessedAt i log := by
  cases e with
  | reserved j time restarts => exact if_neg fun hj => h (congrArg some hj)
  | resolved j step => rfl
  | released j => rfl
  | reset => rfl

end Others

theorem countP_released {log : List (GuessEvent ι)} {i : ι} (hnot : released i log = false)
    (l : List ι) (hi : i ∈ l) :
    (l.countP fun j => !released j (.released i :: log)) + 1 ≤
      l.countP fun j => !released j log := by
  induction l with
  | nil => cases hi
  | cons j l ih =>
    have hle : (l.countP fun j => !released j (.released i :: log)) ≤
        l.countP fun j => !released j log := by
      refine List.countP_mono_left fun k _ hk => ?_
      simp only [released, Bool.not_or, Bool.and_eq_true] at hk
      exact hk.2
    rw [List.countP_cons, List.countP_cons]
    by_cases hj : i = j
    · subst hj
      have hgone : released i (.released i :: log) = true := by simp [released]
      rw [hgone, hnot]
      simp only [Bool.not_true, Bool.not_false, if_true, Bool.false_eq_true, if_false]
      omega
    · have htail := ih ((List.mem_cons.mp hi).resolve_left hj)
      have hsame : released j (.released i :: log) = released j log :=
        released_cons log fun h => hj (Option.some.inj h)
      rw [hsame]
      omega

theorem mem_of_reservedAt {i : ι} {log : List (GuessEvent ι)} {time : Instant}
    (h : reservedAt i log = some time) : ∃ restarts, .reserved i time restarts ∈ log := by
  induction log with
  | nil => cases h
  | cons e log ih =>
    cases e with
    | reserved j t restarts =>
      unfold reservedAt at h
      split at h
      · next hj =>
        cases h
        exact ⟨restarts, hj ▸ List.mem_cons_self⟩
      · obtain ⟨o, ho⟩ := ih h
        exact ⟨o, List.mem_cons_of_mem _ ho⟩
    | resolved j step =>
      obtain ⟨o, ho⟩ := ih h
      exact ⟨o, List.mem_cons_of_mem _ ho⟩
    | released j =>
      obtain ⟨o, ho⟩ := ih h
      exact ⟨o, List.mem_cons_of_mem _ ho⟩
    | reset =>
      obtain ⟨o, ho⟩ := ih h
      exact ⟨o, List.mem_cons_of_mem _ ho⟩

theorem reservedAt_of_guessedAt {i : ι} {log : List (GuessEvent ι)} {step : PreparedFactorStep}
    (h : guessedAt i log = some step) : ∃ time, reservedAt i log = some time := by
  induction log with
  | nil => cases h
  | cons e log ih =>
    cases e with
    | reserved j t restarts =>
      unfold guessedAt at h
      unfold reservedAt
      split
      · exact ⟨t, rfl⟩
      · next hj => exact ih (by rwa [if_neg hj] at h)
    | resolved j step => exact ih h
    | released j => exact ih h
    | reset => exact ih h

/-- The attempt window or the lockout that began with a reservation is over. -/
def Elapsed (policy : AttemptPolicy) (since now : Int) : Prop :=
  policy.window < now - since ∨
    ∃ d, policy.lockout.duration.bind fromStd = some d ∧ since + d ≤ now

theorem elapsed_of_lapsed {policy : AttemptPolicy} {entry : AttemptEntry} {now since : Int}
    (h : policy.lapsed entry now = true) (hsince : since ≤ entry.last) :
    Elapsed policy since now := by
  unfold AttemptPolicy.lapsed at h
  split at h
  · next hmax =>
    right
    rw [Option.isNone_iff_eq_none] at h
    unfold LockoutPolicy.derivedLockout at h
    rw [if_neg (Nat.not_lt.mpr hmax)] at h
    cases hduration : policy.lockout.duration with
    | none => rw [hduration] at h; cases h
    | some duration =>
      rw [hduration] at h
      cases hstd : fromStd duration with
      | none => simp only [hstd] at h; cases h
      | some d =>
        cases hsum : checkedAddSigned entry.last d with
        | none => simp only [hstd, Option.bind_some, hsum] at h; cases h
        | some stop =>
          simp only [hstd, Option.bind_some, hsum] at h
          split at h
          · next hstop =>
            rw [← (checkedAddSigned_eq_some.mp hsum).2] at hstop
            exact ⟨d, hstd, Int.le_trans (Int.add_le_add_right hsince d) hstop⟩
          · cases h
  · have hlt : policy.window < now - entry.last := of_decide_eq_true h
    exact .inl (by omega)

/-- A reservation that starts the count over comes when the earlier ones have elapsed. -/
def Spaced (policy : AttemptPolicy) : List (GuessEvent ι) → Prop
  | [] => True
  | .reserved _ time restarts :: log => (restarts = true → ∀ j t o, .reserved j t o ∈ log →
      Elapsed policy t time) ∧ Spaced policy log
  | _ :: log => Spaced policy log

/-- A guess of the present count: it was reserved, neither its window nor its lockout is over, and
the counter was not reset since. -/
theorem mem_guesses {policy : AttemptPolicy} {i : ι} {log : List (GuessEvent ι)}
    {time now : Int} (hreserved : reservedAt i log = some time)
    (hreset : resetSince i log = false) (hspaced : Spaced policy log)
    (hpast : ∀ j (t : Int) o, .reserved j t o ∈ log → t ≤ now) (htimely : ¬Elapsed policy time now) :
    i ∈ guesses log := by
  induction log with
  | nil => cases hreserved
  | cons e log ih =>
    have hpast' : ∀ j (t : Int) o, .reserved j t o ∈ log → t ≤ now := fun j t o h =>
      hpast j t o (List.mem_cons_of_mem _ h)
    cases e with
    | resolved j step => exact ih hreserved hreset hspaced hpast'
    | released j => exact ih hreserved hreset hspaced hpast'
    | reset => cases hreset
    | reserved j t restarts =>
      by_cases hj : j = i
      · subst hj
        cases restarts <;> simp [guesses]
      · rw [reservedAt, if_neg hj] at hreserved
        have hreset' : resetSince i log = false := by
          simpa [resetSince, hj] using hreset
        have hin := ih hreserved hreset' hspaced.2 hpast'
        cases restarts with
        | false => exact List.mem_cons_of_mem _ hin
        | true =>
          -- the count would have started over only once this guess had elapsed
          obtain ⟨o, ho⟩ := mem_of_reservedAt hreserved
          have helapsed := hspaced.1 rfl i time o ho
          have hle := hpast j t true List.mem_cons_self
          refine absurd ?_ htimely
          rcases helapsed with h | ⟨d, hd, h⟩
          · exact .inl (by omega)
          · exact .inr ⟨d, hd, by omega⟩

end GuessLog

/-! ## The counter in a run -/

open GuessLog

section Counting

variable [DecidableEq ι] (policy : AttemptPolicy) (passes : ι → PreparedFactorStep → Bool)

inductive GuessStep (i : ι) (s s' : GuessState ι) : Prop where
  | quiet : s.now ≤ s'.now → s'.counter = s.counter → s'.log = s.log → GuessStep i s s'
  | resolved (step : PreparedFactorStep) : s.now ≤ s'.now → s'.counter = s.counter →
      s'.log = .resolved i step :: s.log → GuessStep i s s'
  | reserved (count : Nat) : s.now ≤ s'.now → reservedAt i s.log = none →
      released i s.log = false →
      policy.reserveAttempt s'.now s.counter = (some count, s'.counter) →
      s'.log = .reserved i s'.now (policy.startsOver s'.now s.counter) :: s.log →
      GuessStep i s s'
  | released (time : Instant) : s.now ≤ s'.now → reservedAt i s.log = some time →
      released i s.log = false → (guessedAt i s.log).any (passes i) = true →
      resetSince i s.log = false → ¬Elapsed policy time s'.now →
      s'.counter = releaseAttempt s.counter → s'.log = .released i :: s.log → GuessStep i s s'
  | reset : s.now ≤ s'.now → s'.counter = none → s'.log = .reset :: s.log → GuessStep i s s'
  | counted : s.now ≤ s'.now → s'.counter = recordFailedAttempt s'.now s.counter →
      s'.log = s.log → GuessStep i s s'

/-- The guesses held are counted, and no more than the limit. -/
structure GuessInv (s : GuessState ι) : Prop where
  spaced : Spaced policy s.log
  past : ∀ j (t : Int) o, .reserved j t o ∈ s.log → t ≤ s.now
  last : ∀ entry, s.counter = some entry → ∀ j (t : Int) o, .reserved j t o ∈ s.log →
    t ≤ entry.last
  counted : held s.log ≤ attemptCount s.counter
  limit : held s.log ≤ policy.lockout.effectiveMaxAttempts
  right : ∀ i, released i s.log = true → (guessedAt i s.log).any (passes i) = true

variable {policy passes} {i : ι} {s s' : GuessState ι}

theorem GuessStep.log (h : GuessStep policy passes i s s') :
    s'.log = s.log ∨ ∃ e, s'.log = e :: s.log ∧ ∀ j, who e = some j → j = i := by
  cases h with
  | quiet _ _ hlog => exact .inl hlog
  | counted _ _ hlog => exact .inl hlog
  | resolved step _ _ hlog => exact .inr ⟨_, hlog, fun _ hj => (Option.some.inj hj).symm⟩
  | reserved count _ _ _ _ hlog => exact .inr ⟨_, hlog, fun _ hj => (Option.some.inj hj).symm⟩
  | released time _ _ _ _ _ _ _ hlog => exact .inr ⟨_, hlog, fun _ hj => (Option.some.inj hj).symm⟩
  | reset _ _ hlog => exact .inr ⟨_, hlog, nofun⟩

theorem GuessStep.reservedAt_ne_none {j : ι} (h : GuessStep policy passes j s s')
    (hs : reservedAt i s.log ≠ none) : reservedAt i s'.log ≠ none := by
  rcases h.log with hlog | ⟨e, hlog, -⟩
  · exact hlog ▸ hs
  · rw [hlog]
    cases e with
    | reserved k time restarts =>
      unfold reservedAt
      split
      · exact Option.some_ne_none _
      · exact hs
    | _ => exact hs

theorem effectiveMaxAttempts_pos (policy : LockoutPolicy) : 0 < policy.effectiveMaxAttempts := by
  unfold LockoutPolicy.effectiveMaxAttempts
  split <;> omega

theorem GuessInv.wrong_le (h : GuessInv policy passes s) :
    wrong passes s.log ≤ policy.lockout.effectiveMaxAttempts := by
  refine Nat.le_trans (List.countP_mono_left fun i _ hi => ?_) h.limit
  cases hreleased : released i s.log with
  | false => rfl
  | true => rw [h.right i hreleased] at hi; cases hi

theorem reserveAttempt_refused {now : Instant} {stored stored' : Option AttemptEntry}
    (h : policy.reserveAttempt now stored = (none, stored')) : stored' = stored := by
  unfold AttemptPolicy.reserveAttempt at h
  simp only at h
  split at h
  · cases h
  · next hfresh =>
    split at h
    · cases h
      rcases stored with _ | entry
      · exact absurd (.inl rfl) hfresh
      · rfl
    · cases h

theorem reserveAttempt_granted {now : Instant} {stored stored' : Option AttemptEntry} {count : Nat}
    (h : policy.reserveAttempt now stored = (some count, stored')) :
    stored' = some ⟨attemptCount stored', now⟩ ∧
      (policy.startsOver now stored = true ∧ attemptCount stored' = 1 ∧
          (∃ entry, stored = some entry ∧ policy.lapsed entry now = true) ∨
        policy.startsOver now stored = false ∧ attemptCount stored' = attemptCount stored + 1 ∧
          attemptCount stored < policy.lockout.effectiveMaxAttempts) := by
  have hpos := effectiveMaxAttempts_pos policy.lockout
  unfold AttemptPolicy.reserveAttempt at h
  simp only at h
  split at h
  · next hfresh =>
    cases h
    refine ⟨rfl, ?_⟩
    rcases stored with _ | entry
    · exact .inr ⟨rfl, rfl, hpos⟩
    · by_cases hzero : entry.count = 0
      · refine .inr ⟨?_, ?_, ?_⟩
        · simp [AttemptPolicy.startsOver, hzero]
        · simp [attemptCount, hzero]
        · simpa [attemptCount, hzero] using hpos
      · have hlapsed : policy.lapsed entry now = true := hfresh.resolve_left hzero
        refine .inl ⟨?_, rfl, entry, rfl, hlapsed⟩
        simp [AttemptPolicy.startsOver, hzero, hlapsed]
  · next hfresh =>
    split at h
    · cases h
    · next hmax =>
      cases h
      refine ⟨rfl, .inr ?_⟩
      rcases stored with _ | entry
      · exact absurd (.inl rfl) hfresh
      · refine ⟨?_, rfl, Nat.not_le.mp hmax⟩
        have hlapsed : policy.lapsed entry now = false := by
          simpa using fun hl => hfresh (.inr hl)
        simp [AttemptPolicy.startsOver, hlapsed]

theorem held_reserved (time : Instant) {log : List (GuessEvent ι)}
    (hnot : released i log = false) :
    held (.reserved i time false :: log) = held log + 1 ∧
      held (.reserved i time true :: log) = 1 := by
  have hnot' (restarts : Bool) : released i (.reserved i time restarts :: log) = false := hnot
  constructor
  · rw [held, guesses, List.countP_cons, hnot']
    rfl
  · rw [held, guesses, List.countP_cons, hnot']
    rfl

theorem GuessInv.same (h : GuessInv policy passes s) (hnow : s.now ≤ s'.now)
    (hcount : attemptCount s.counter ≤ attemptCount s'.counter)
    (hlast : ∀ entry, s'.counter = some entry → s'.now = entry.last ∨ s.counter = some entry)
    (hlog : s'.log = s.log) : GuessInv policy passes s' := by
  have hpast : ∀ j (t : Int) o, .reserved j t o ∈ s.log → t ≤ s'.now := fun j t o ht =>
    Int.le_trans (h.past j t o ht) hnow
  refine ⟨?_, ?_, ?_, ?_, ?_, ?_⟩ <;> rw [hlog]
  · exact h.spaced
  · exact hpast
  · intro entry hentry j t o ht
    rcases hlast entry hentry with heq | hsome
    · exact heq ▸ hpast j t o ht
    · exact h.last entry hsome j t o ht
  · exact Nat.le_trans h.counted hcount
  · exact h.limit
  · exact h.right

theorem GuessInv.reserve (h : GuessInv policy passes s) (hnow : s.now ≤ s'.now) {count : Nat}
    (hnot : released i s.log = false)
    (hgrant : policy.reserveAttempt s'.now s.counter = (some count, s'.counter))
    (hlog : s'.log = .reserved i s'.now (policy.startsOver s'.now s.counter) :: s.log) :
    GuessInv policy passes s' := by
  obtain ⟨hcounter, hcases⟩ := reserveAttempt_granted hgrant
  obtain ⟨hheld, hover⟩ := held_reserved s'.now hnot
  have hcounted := h.counted
  have hpast : ∀ j (t : Int) o, .reserved j t o ∈ s'.log → t ≤ s'.now := by
    intro j t o ht
    rw [hlog, List.mem_cons] at ht
    rcases ht with heq | ht
    · cases heq
      exact Int.le_refl _
    · exact Int.le_trans (h.past j t o ht) hnow
  refine ⟨?_, hpast, ?_, ?_, ?_, ?_⟩
  · rw [hlog]
    refine ⟨fun hstart j t o ht => ?_, h.spaced⟩
    rcases hcases with ⟨-, -, entry, hentry, hlapsed⟩ | ⟨hno, -⟩
    · exact elapsed_of_lapsed hlapsed (h.last entry hentry j t o ht)
    · rw [hno] at hstart
      cases hstart
  · intro entry hentry j t o ht
    rw [hcounter] at hentry
    cases hentry
    exact hpast j t o ht
  · rw [hlog]
    rcases hcases with ⟨hstart, hone, -⟩ | ⟨hno, hnext, -⟩
    · rw [hstart, hover, hone]
    · rw [hno, hheld, hnext]
      omega
  · rw [hlog]
    rcases hcases with ⟨hstart, -⟩ | ⟨hno, -, hlt⟩
    · rw [hstart, hover]
      exact effectiveMaxAttempts_pos policy.lockout
    · rw [hno, hheld]
      omega
  · intro j hj
    rw [hlog] at hj ⊢
    have hne : who (GuessEvent.reserved i s'.now (policy.startsOver s'.now s.counter)) ≠ some j := by
      intro hwho
      cases hwho
      have hgone : released i s.log = true := hj
      rw [hnot] at hgone
      cases hgone
    rw [guessedAt_cons _ hne]
    exact h.right j hj

omit [DecidableEq ι] in
theorem reserved_of_cons {e : GuessEvent ι} {j : ι} {t : Int} {o : Bool} (hlog : s'.log = e :: s.log)
    (he : .reserved j t o ≠ e) (ht : .reserved j t o ∈ s'.log) : .reserved j t o ∈ s.log := by
  rw [hlog, List.mem_cons] at ht
  exact ht.resolve_left he

theorem GuessInv.release (h : GuessInv policy passes s) (hnow : s.now ≤ s'.now) {time : Instant}
    (hreserved : reservedAt i s.log = some time) (hnot : released i s.log = false)
    (hright : (guessedAt i s.log).any (passes i) = true) (hreset : resetSince i s.log = false)
    (htimely : ¬Elapsed policy time s'.now) (hcounter : s'.counter = releaseAttempt s.counter)
    (hlog : s'.log = .released i :: s.log) : GuessInv policy passes s' := by
  have hpast : ∀ j (t : Int) o, .reserved j t o ∈ s.log → t ≤ s'.now := fun j t o ht =>
    Int.le_trans (h.past j t o ht) hnow
  have hin : i ∈ guesses s.log := mem_guesses hreserved hreset h.spaced hpast htimely
  have hheld : held s'.log + 1 ≤ held s.log := by
    rw [hlog]
    exact countP_released hnot (guesses s.log) hin
  have hcounted := h.counted
  have hlimit := h.limit
  refine ⟨?_, fun j t o ht => hpast j t o (reserved_of_cons hlog nofun ht), ?_, ?_, by omega, ?_⟩
  · rw [hlog]
    exact h.spaced
  · intro entry hentry j t o ht
    rw [hcounter] at hentry
    obtain ⟨entry', hentry', hlast⟩ := releaseAttempt_last hentry
    rw [← hlast]
    exact h.last entry' hentry' j t o (reserved_of_cons hlog nofun ht)
  · rw [hcounter, attemptCount_releaseAttempt]
    omega
  · intro j hj
    rw [hlog] at hj ⊢
    show (guessedAt j s.log).any (passes j) = true
    by_cases hij : i = j
    · exact hij ▸ hright
    · have hne : who (GuessEvent.released i) ≠ some j := fun hwho => hij (Option.some.inj hwho)
      rw [released_cons _ hne] at hj
      exact h.right j hj

theorem GuessStep.inv (hstep : GuessStep policy passes i s s') (h : GuessInv policy passes s) :
    GuessInv policy passes s' := by
  cases hstep with
  | quiet hnow hcounter hlog =>
    exact h.same hnow (by rw [hcounter]) (fun entry he => .inr (hcounter ▸ he)) hlog
  | counted hnow hcounter hlog =>
    refine h.same hnow ?_ (fun entry he => .inl ?_) hlog
    · rw [hcounter]
      rcases s.counter with _ | entry
      · exact Nat.zero_le _
      · exact Nat.le_succ _
    · rw [hcounter] at he
      cases he
      rfl
  | reserved count hnow _ hnot hgrant hlog =>
    exact h.reserve hnow hnot hgrant hlog
  | released time hnow hreserved hnot hright hreset htimely hcounter hlog =>
    exact h.release hnow hreserved hnot hright hreset htimely hcounter hlog
  | resolved step hnow hcounter hlog =>
    refine ⟨?_, fun j t o ht => Int.le_trans (h.past j t o (reserved_of_cons hlog nofun ht)) hnow,
      fun entry he j t o ht => h.last entry (hcounter ▸ he) j t o (reserved_of_cons hlog nofun ht), ?_, ?_, ?_⟩ <;>
      rw [hlog]
    · exact h.spaced
    · rw [hcounter]
      exact h.counted
    · exact h.limit
    · exact h.right
  | reset hnow hcounter hlog =>
    refine ⟨?_, fun j t o ht => Int.le_trans (h.past j t o (reserved_of_cons hlog nofun ht)) hnow,
      fun entry he => ?_, ?_, ?_, ?_⟩
    · rw [hlog]
      exact h.spaced
    · rw [hcounter] at he
      cases he
    · rw [hlog]
      exact Nat.zero_le _
    · rw [hlog]
      exact Nat.zero_le _
    · rw [hlog]
      exact h.right

end Counting

/-- One party of a race: a request that verifies a credential, at its clock reading, or another
login of the account that completes. -/
inductive GuessParty (V : Type) where
  | verify (now : Instant) (credential : FactorCredential) (session : SessionInner V)
  | login

def AuthState.flowScope : AuthState → Option UserScope
  | .authenticating u t .. => some ⟨t, u⟩
  | _ => none

namespace GuessParty

variable (service : LoginService) (account : UserScope)

abbrev serviceAt (now : Instant) : LoginService := { service with now := now }

def IsFor : GuessParty V → Prop
  | .verify _ _ session => ∀ scope, session.data.authState.flowScope = some scope → scope = account
  | .login => True

def passes : GuessParty V → PreparedFactorStep → Bool
  | .verify now credential _, step =>
    ((serviceAt service now).verdict credential step).any VerifyOutcome.passes
  | .login, _ => false

def run [JsonValue V ChosenFactor] [JsonValue V FlowStamp] [BEq V] [JsonSize V] :
    GuessParty V → Async V (Option (Except AuthnError FactorOutcome))
  | .verify now credential session => do
    let (outcome, _) ← (serviceAt service now).verifyFactor credential session
    pure (some outcome)
  | .login => do
    let _ ← Idn.note (.resetFailedAttempts account.userId)
    pure none

end GuessParty

namespace Guessing

variable (service : LoginService) (attemptWindow : Duration) (account : UserScope)

def policy : AttemptPolicy := ⟨service.lockout account.tenantId, attemptWindow⟩

/-- A call on the accounts at the store's clock: the counter of the account is counted, no device
is known, and everything else is answered anyhow. -/
def Counted (i : ι) : (c : IdentityCall) → GuessState ι → c.Answer → GuessState ι → Prop
  | .reserveAttempt u, s, a, s' =>
    if u = account.userId then
      let granted := (policy service attemptWindow account).reserveAttempt s.now s.counter
      a = .ok granted.1 ∧
        s' = ⟨granted.2, s.now, if granted.1.isSome then
          .reserved i s.now ((policy service attemptWindow account).startsOver s.now s.counter) ::
            s.log else s.log⟩
    else s' = s
  | .note (.releaseAttempt u), s, _, s' =>
    s' = if u = account.userId then ⟨releaseAttempt s.counter, s.now, .released i :: s.log⟩ else s
  | .note (.resetFailedAttempts u), s, _, s' =>
    s' = if u = account.userId then ⟨none, s.now, .reset :: s.log⟩ else s
  | .recordFailedAttempt u, s, _, s' =>
    s' = if u = account.userId then { s with counter := recordFailedAttempt s.now s.counter } else s
  | .resolveFactor _ kind, s, .ok (some resolved), s' =>
    s' = { s with log := .resolved i ⟨kind, resolved.own, resolved.config⟩ :: s.log }
  | .onKnownDevice _, s, known, s' => known = false ∧ s' = s
  | .failedAttempts u, s, a, s' => s' = s ∧
      (u = account.userId → a = .ok (attemptCount s.counter, s.counter.map (·.last)))
  | _, s, _, s' => s' = s

/-- Time passes before a call on the accounts. -/
def sem (i : ι) : Sem (Call V) Call.Answer (GuessState ι)
  | .identity c, s, a, s' => ∃ t, s.now ≤ t ∧
      Counted service attemptWindow account i c { s with now := t } a s'
  | .store _, s, _, s' => s' = s
  | .registry _, s, _, s' => s' = s
  | .deliver .., s, _, s' => s' = s

variable [DecidableEq ι]

/-- The answers after which a credential is checked. -/
def Grants : (e : Call V) → e.Answer → Prop
  | .identity (.reserveAttempt u), a => u = account.userId ∧ a ≠ .ok none
  | .identity (.onKnownDevice _), known => known = true
  | _, _ => False

/-- A guess is given back within the attempt window and the lockout duration. -/
def Finishes (i : ι) : Call V → GuessState ι → GuessState ι → Prop
  | .identity (.note (.releaseAttempt _)), s, s' => ∀ time, reservedAt i s.log = some time →
      ¬Elapsed (policy service attemptWindow account) time s'.now
  | _, _, _ => True

/-- No guess is given back once the counter was reset. -/
def Unreset (i : ι) : Call V → GuessState ι → Prop
  | .identity (.note (.releaseAttempt _)), s => resetSince i s.log = false
  | _, _ => True

def timely (i : ι) : Sem (Call V) Call.Answer (GuessState ι) := fun e s a s' =>
  sem service attemptWindow account i e s a s' ∧ Finishes service attemptWindow account i e s s'

def orderly (i : ι) : Sem (Call V) Call.Answer (GuessState ι) := fun e s a s' =>
  timely service attemptWindow account i e s a s' ∧ Unreset i e s

section Completing

omit [DecidableEq ι]

abbrev Unguessed (e : Call V) : Prop := e.guesses = false

theorem looks_unguessed {α : Type} {T : α → Prop} {p : Async V α} (hp : p.Within Call.Looks T) :
    p.Only Unguessed :=
  hp.mono (fun _ he => he.guesses) fun _ _ => trivial

theorem evictSessions_unguessed (u : UserId) (victims : List SessionId) :
    (evictSessions u victims : Async V Unit).Only Unguessed := by
  induction victims with
  | nil => trivial
  | cons victim rest ih => exact ⟨rfl, fun _ => ih⟩

theorem makeRoom_unguessed (u : UserId) (sid : SessionId) :
    (service.makeRoom u sid : Async V Bool).Only Unguessed := by
  unfold makeRoom
  cases service.maxSessionsPerUser with
  | none => trivial
  | some max =>
    refine ⟨rfl, fun listed => ?_⟩
    cases listed with
    | error e => trivial
    | ok active => exact (evictSessions_unguessed u _).bind fun _ => trivial

theorem trimSessions_unguessed (u : UserId) (sid : SessionId) :
    (service.trimSessions u sid : Async V Bool).Only Unguessed := by
  unfold trimSessions
  cases service.maxSessionsPerUser with
  | none => trivial
  | some max =>
    refine ⟨rfl, fun listed => ?_⟩
    cases listed with
    | error e => exact ⟨rfl, fun _ => trivial⟩
    | ok active => exact (evictSessions_unguessed u _).bind fun _ => trivial

variable [JsonValue V FlowStamp] [BEq V] [JsonSize V] (scope : UserScope) (t : SessionInner V)

theorem flowStillCurrent_unguessed :
    (service.flowStillCurrent scope t).Only Unguessed := by
  have htake : (AuthSession.takeCustom loginFlowKey t).Only Unguessed :=
    (takeCustom_stays t loginFlowKey).mono (fun e he => by
      have hrows := he.onRows
      cases e with
      | store c => rfl
      | registry c => rfl
      | identity c => cases hrows
      | deliver key value => rfl) fun _ _ => trivial
  refine htake.bind fun r => ?_
  obtain ⟨taken, t⟩ := r
  cases taken with
  | none => trivial
  | some value =>
    dsimp only
    split
    · trivial
    · exact (looks_unguessed (stampIsCurrent_looks scope _)).bind fun _ => trivial

theorem registerAuthenticatedSession_unguessed (sid : SessionId) :
    (service.registerAuthenticatedSession scope sid t).Only Unguessed := by
  have hrefuse (answer : Except AuthnError (Option FactorOutcome)) (t : SessionInner V) :
      (refuseRegistered scope.userId sid answer t).Only Unguessed := ⟨rfl, fun _ => trivial⟩
  have hrecheck (t : SessionInner V) :
      (service.recheckStatusAfterRegister scope.userId sid t).Only Unguessed := by
    refine (looks_unguessed (currentAccountStatus_looks _ _)).bind fun status => ?_
    cases status with
    | error e => exact hrefuse _ t
    | ok status =>
      show Prog.Only _ (if !status.allowsLogin then _ else _)
      split
      · exact hrefuse _ t
      · trivial
  unfold registerAuthenticatedSession
  split
  · refine (makeRoom_unguessed service scope.userId sid).bind fun room => ?_
    cases room with
    | false => trivial
    | true =>
      refine ⟨rfl, fun registered => ?_⟩
      cases registered with
      | false => trivial
      | true =>
        refine (trimSessions_unguessed service scope.userId sid).bind fun kept => ?_
        cases kept with
        | false => trivial
        | true =>
          refine (flowStillCurrent_unguessed service scope t).bind fun r => ?_
          obtain ⟨current, t⟩ := r
          rcases current with e | _ | _
          · exact hrefuse _ t
          · exact hrefuse _ t
          · exact hrecheck t
  · refine (flowStillCurrent_unguessed service scope t).bind fun r => ?_
    obtain ⟨current, t⟩ := r
    rcases current with e | _ | _ <;> trivial

theorem completeFactorStep_unguessed :
    (service.completeFactorStep scope t).Only Unguessed := by
  unfold completeFactorStep
  split
  · refine (registerAuthenticatedSession_unguessed service scope _ _).bind fun r => ?_
    obtain ⟨registered, t⟩ := r
    rcases registered with e | _ | outcome
    · trivial
    · refine ⟨rfl, fun _ => ?_⟩
      refine (looks_unguessed (emitAudit_looks _)).bind fun audited => ?_
      cases audited with
      | error e =>
        refine Prog.Only.bind ?_ fun _ => trivial
        unfold AuthnService.endSessionAfterAuditFailure
        simp only
        split
        · exact ⟨rfl, fun _ => trivial⟩
        · trivial
      | ok _ => exact ⟨rfl, fun _ => trivial⟩
    · trivial
  · split <;> trivial

end Completing

/-! ## One request among others -/

section Safety

variable {service attemptWindow account} {passes : ι → PreparedFactorStep → Bool} {i : ι}
  {s s' : GuessState ι}

variable (service attemptWindow account passes) in
abbrev Races {α : Type} (i : ι) (p : Async V α) (Q : α → GuessState ι → Prop)
    (s : GuessState ι) : Prop :=
  p.Safe (orderly service attemptWindow account i)
    (Pool.others (GuessStep (policy service attemptWindow account) passes) i)
    (GuessStep (policy service attemptWindow account) passes i) Q s

/-- What the events say of one request whatever the others do and whichever factors it looks up. -/
def Lasting (i : ι) (P : List (GuessEvent ι) → Prop) : Prop :=
  ∀ e log, (who e = some i → ∃ step, e = .resolved i step) → P log → P (e :: log)

def Untouched (i : ι) (log : List (GuessEvent ι)) : Prop :=
  reservedAt i log = none ∧ released i log = false

def Guessed (i : ι) (step : PreparedFactorStep) (log : List (GuessEvent ι)) : Prop :=
  guessedAt i log = some step ∧ released i log = false

theorem lasting_untouched : Lasting i (Untouched i) := by
  rintro e log he ⟨hreserved, hreleased⟩
  by_cases hwho : who e = some i
  · obtain ⟨step, rfl⟩ := he hwho
    exact ⟨hreserved, hreleased⟩
  · exact ⟨(reservedAt_cons log hwho).trans hreserved, (released_cons log hwho).trans hreleased⟩

theorem lasting_guessed (step : PreparedFactorStep) : Lasting i (Guessed i step) := by
  rintro e log he ⟨hguessed, hreleased⟩
  by_cases hwho : who e = some i
  · obtain ⟨step, rfl⟩ := he hwho
    exact ⟨hguessed, hreleased⟩
  · exact ⟨(guessedAt_cons log hwho).trans hguessed, (released_cons log hwho).trans hreleased⟩

omit [DecidableEq ι] in
theorem lasting_true : Lasting i fun _ => True := fun _ _ _ _ => trivial

theorem stable_foreign {P : List (GuessEvent ι) → Prop}
    (hP : ∀ e log, who e ≠ some i → P log → P (e :: log)) :
    Stable (Pool.others (GuessStep (policy service attemptWindow account) passes) i)
      fun s => P s.log := by
  rintro s s' hs ⟨j, hj, hstep⟩
  rcases hstep.log with hlog | ⟨e, hlog, he⟩
  · exact hlog ▸ hs
  · exact hlog ▸ hP e s.log (fun hi => hj (he i hi).symm) hs

theorem Lasting.stable {P : List (GuessEvent ι) → Prop} (h : Lasting i P) :
    Stable (Pool.others (GuessStep (policy service attemptWindow account) passes) i)
      fun s => P s.log :=
  stable_foreign fun e log he => h e log fun hi => absurd hi he

theorem step_of_not_guesses {e : Call V} {a : e.Answer} (he : e.guesses = false)
    (hX : orderly service attemptWindow account i e s a s') :
    GuessStep (policy service attemptWindow account) passes i s s' ∧
      (s'.log = s.log ∨ (∃ step, s'.log = .resolved i step :: s.log) ∨
        s'.log = .reset :: s.log) := by
  obtain ⟨⟨hsem, -⟩, -⟩ := hX
  cases e with
  | store c => obtain rfl := hsem; exact ⟨.quiet (Int.le_refl _) rfl rfl, .inl rfl⟩
  | registry c => obtain rfl := hsem; exact ⟨.quiet (Int.le_refl _) rfl rfl, .inl rfl⟩
  | deliver key value => obtain rfl := hsem; exact ⟨.quiet (Int.le_refl _) rfl rfl, .inl rfl⟩
  | identity c =>
    obtain ⟨t, ht, hcounted⟩ := hsem
    have hquiet (h : s' = { s with now := t }) :
        GuessStep (policy service attemptWindow account) passes i s s' ∧
          (s'.log = s.log ∨ (∃ step, s'.log = .resolved i step :: s.log) ∨
            s'.log = .reset :: s.log) := by
      subst h
      exact ⟨.quiet ht rfl rfl, .inl rfl⟩
    cases c with
    | reserveAttempt u => cases he
    | recordFailedAttempt u =>
      have hcounted : s' = if u = account.userId then _ else _ := hcounted
      split at hcounted
      · subst hcounted
        exact ⟨.counted ht rfl rfl, .inl rfl⟩
      · exact hquiet hcounted
    | onKnownDevice u => exact hquiet hcounted.2
    | failedAttempts u => exact hquiet hcounted.1
    | resolveFactor owner kind =>
      rcases a with error | _ | resolved
      · exact hquiet hcounted
      · exact hquiet hcounted
      · obtain rfl := hcounted
        exact ⟨.resolved _ ht rfl rfl, .inr (.inl ⟨_, rfl⟩)⟩
    | note n =>
      cases n with
      | releaseAttempt u => cases he
      | resetFailedAttempts u =>
        have hcounted : s' = if u = account.userId then _ else _ := hcounted
        split at hcounted
        · subst hcounted
          exact ⟨.reset ht rfl rfl, .inr (.inr rfl)⟩
        · exact hquiet hcounted
      | _ => exact hquiet hcounted
    | _ => exact hquiet hcounted

theorem looks_safe {α : Type} {C : Call V → Prop} {T : α → Prop}
    {P : List (GuessEvent ι) → Prop} {p : Async V α} (hp : p.Within C T)
    (hC : ∀ e, C e → e.guesses = false) (hP : Lasting i P) (hs : P s.log) :
    Races service attemptWindow account passes i p (fun a s => T a ∧ P s.log) s := by
  refine hp.safe hP.stable (fun e s a s' he hX hs => ?_) hs
  obtain ⟨hstep, hlog⟩ := step_of_not_guesses (hC e he) hX
  refine ⟨hstep, ?_⟩
  rcases hlog with hlog | ⟨step, hlog⟩ | hlog
  · exact hlog ▸ hs
  · exact hlog ▸ hP _ _ (fun _ => ⟨step, rfl⟩) hs
  · exact hlog ▸ hP _ _ nofun hs

theorem unguessed_safe {α : Type} {p : Async V α} (hp : p.Only Unguessed) (s : GuessState ι) :
    Races service attemptWindow account passes i p (fun _ _ => True) s :=
  (looks_safe hp (fun _ he => he) lasting_true trivial).conseq fun _ _ _ => trivial

theorem done_safe {α : Type} (a : α) (s : GuessState ι) :
    Races service attemptWindow account passes i (pure a : Async V α) (fun _ _ => True) s :=
  fun _ _ => trivial

def Prepared (i : ι) (step : PreparedFactorStep) (log : List (GuessEvent ι)) : Prop :=
  Untouched i log ∧ resolvedBy i log = some step

theorem prepared_stable (step : PreparedFactorStep) :
    Stable (Pool.others (GuessStep (policy service attemptWindow account) passes) i)
      fun s => Prepared i step s.log :=
  stable_foreign fun e log he h =>
    ⟨lasting_untouched e log (fun hi => absurd hi he) h.1, (resolvedBy_cons log he).trans h.2⟩

variable {scope : UserScope} {t : SessionInner V} {credential : FactorCredential}
  {step : PreparedFactorStep}

theorem unprepared_safe {r : Except AuthnError (Except FactorOutcome PreparedFactorStep)}
    (hr : ∀ step, r ≠ .ok (.ok step)) (t : SessionInner V) (s : GuessState ι) :
    Races service attemptWindow account passes i (pure (r, t) : Async V _)
      (fun r s => ∀ step, r.1 = .ok (.ok step) → Prepared i step s.log) s :=
  Prog.Safe.ret (fun _ => True) (fun _ _ h _ => h) trivial fun _ _ step h => absurd h (hr step)

theorem resolveStep_safe [JsonValue V ChosenFactor] (remaining : List FactorStep)
    (hs : Untouched i s.log) :
    Races service attemptWindow account passes i (resolveStep credential scope remaining t)
      (fun r s => ∀ step, r.1 = .ok (.ok step) → Prepared i step s.log) s := by
  unfold resolveStep
  split
  · exact unprepared_safe (by exact fun _ => nofun) t s
  · split
    · exact unprepared_safe (by exact fun _ => nofun) t s
    · next kind _ =>
      refine Prog.Safe.perform_bind _ lasting_untouched.stable hs fun s a s' hs hX => ?_
      refine ⟨(step_of_not_guesses (e := .identity (.resolveFactor scope kind)) rfl hX).1, ?_⟩
      rcases a with e | _ | resolved
      · exact unprepared_safe (by exact fun _ => nofun) t s'
      · exact unprepared_safe (by exact fun _ => nofun) t s'
      · obtain ⟨⟨⟨now, -, rfl⟩, -⟩, -⟩ := hX
        have hprepared : Prepared i ⟨kind, resolved.own, resolved.config⟩
            (.resolved i ⟨kind, resolved.own, resolved.config⟩ :: s.log) :=
          ⟨lasting_untouched _ _ (fun _ => ⟨_, rfl⟩) hs, if_pos rfl⟩
        refine Prog.Safe.ret _ (prepared_stable _) hprepared fun s h step heq => ?_
        cases heq
        exact h

theorem prepareFactorStep_safe [JsonValue V ChosenFactor] (remaining : List FactorStep)
    (hs : Untouched i s.log) :
    Races service attemptWindow account passes i
      (service.prepareFactorStep credential scope remaining t)
      (fun r s => ∀ step, r.1 = .ok (.ok step) → Prepared i step s.log) s := by
  refine Prog.Safe.bind (looks_safe (enforceAccountStatus_looks scope t)
    (fun _ he => he.guesses) lasting_untouched hs) fun r s h => ?_
  obtain ⟨enforced, t⟩ := r
  rcases enforced with e | enforcement
  · exact unprepared_safe (by exact fun _ => nofun) t s
  · cases enforcement with
    | locked untilTime => exact unprepared_safe (by exact fun _ => nofun) t s
    | notActive status => exact unprepared_safe (by exact fun _ => nofun) t s
    | throttled delay => exact unprepared_safe (by exact fun _ => nofun) t s
    | ok => exact resolveStep_safe remaining h.2

theorem reserveGuess_safe (hs : Prepared i step s.log) :
    Races service attemptWindow account passes i (service.reserveGuess account t)
      (fun r s => (∀ count, r.1 = .ok (.reserved count) → Guessed i step s.log) ∧
        r.1 ≠ .ok .unmetered) s := by
  refine Prog.Safe.perform_bind _ (prepared_stable step) hs fun s a s' hs hX => ?_
  obtain ⟨⟨⟨now, hnow, hcounted⟩, -⟩, -⟩ := hX
  have hcounted : if account.userId = account.userId then _ else _ := hcounted
  rw [if_pos rfl] at hcounted
  obtain ⟨rfl, rfl⟩ := hcounted
  cases hgrant : (policy service attemptWindow account).reserveAttempt now s.counter with
  | mk granted counter =>
    cases granted with
    | some count =>
      refine ⟨.reserved count hnow hs.1.1 hs.1.2 hgrant rfl, ?_⟩
      have hguessed : Guessed i step (.reserved i now
          ((policy service attemptWindow account).startsOver now s.counter) :: s.log) :=
        ⟨(if_pos rfl).trans hs.2, hs.1.2⟩
      exact Prog.Safe.ret _ (lasting_guessed step).stable hguessed fun s h =>
        ⟨fun _ _ => h, nofun⟩
    | none =>
      obtain rfl := reserveAttempt_refused hgrant
      refine ⟨.quiet hnow rfl rfl, ?_⟩
      refine Prog.Safe.perform_bind (fun _ => True) (fun _ _ h _ => h) trivial
        fun s known s' _ hX => ?_
      refine ⟨(step_of_not_guesses (e := .identity (.onKnownDevice account.userId)) rfl hX).1, ?_⟩
      obtain ⟨⟨⟨_, -, rfl, -⟩, -⟩, -⟩ := hX
      -- what is left looks things up, and answers that the account is locked
      refine (looks_safe (C := Call.Looks)
        (T := fun r => (∀ count, r.1 ≠ .ok (.reserved count)) ∧ r.1 ≠ .ok .unmetered)
        ?_ (fun _ he => he.guesses) lasting_true trivial).conseq fun _ _ h =>
        ⟨fun count hr => absurd hr (h.1.1 count), h.1.2⟩
      refine Prog.Within.bind (recordRefusedAttemptAudit_looks account t .locked) fun r _ => ?_
      obtain ⟨audited, t⟩ := r
      cases audited with
      | error e => exact ⟨fun _ => nofun, nofun⟩
      | ok _ =>
        refine Prog.Within.bind (derivedLockout_looks account) fun lock _ => ?_
        cases lock <;> exact ⟨fun _ => nofun, nofun⟩

theorem releaseGuess_safe (count : Nat) (hpasses : passes i step = true)
    (hs : Guessed i step s.log) :
    Races service attemptWindow account passes i
      (releaseGuess (some count) account.userId : Async V Unit) (fun _ _ => True) s := by
  refine Prog.Safe.perform_bind _ (lasting_guessed step).stable hs fun s a s' hs hX => ?_
  refine ⟨?_, Prog.Safe.ret (fun _ => True) (fun _ _ h _ => h) trivial fun _ h => h⟩
  obtain ⟨⟨⟨now, hnow, hcounted⟩, hfinishes⟩, hreset⟩ := hX
  have hcounted : s' = if account.userId = account.userId then _ else _ := hcounted
  rw [if_pos rfl] at hcounted
  subst hcounted
  obtain ⟨time, htime⟩ := reservedAt_of_guessedAt hs.1
  have hright : (guessedAt i s.log).any (passes i) = true := by
    rw [hs.1]
    exact hpasses
  exact .released time hnow htime hs.2 hright hreset (hfinishes time htime) rfl rfl

theorem checkGuess_safe (count : Nat)
    (hpasses : ((service.verdict credential step).any VerifyOutcome.passes = true →
      passes i step = true)) (hs : Guessed i step s.log) :
    Races service attemptWindow account passes i
      (service.checkGuess credential account step (some count) t) (fun _ _ => True) s := by
  have hfailed (s : GuessState ι) : Races service attemptWindow account passes i
      (service.recordFactorFailureAfter (some count) account t >>= fun r =>
        pure (r.1.map some, r.2)) (fun _ _ => True) s :=
    Prog.Safe.map (unguessed_safe (looks_unguessed
      (recordFactorFailureAfter_looks account t (some count))) s)
  unfold checkGuess
  split
  · exact done_safe _ s
  · next outcome hverdict =>
    split
    · next hpass =>
      refine Prog.Safe.bind (looks_safe (settlePass_looks account step outcome)
        (fun _ he => he.guesses) (lasting_guessed step) hs) fun settled s h => ?_
      rcases settled with e | _ | _
      · exact done_safe _ s
      · exact hfailed s
      · have hright : passes i step = true := hpasses (by rw [hverdict]; exact hpass)
        refine Prog.Safe.bind (releaseGuess_safe count hright h.2) fun _ s _ => ?_
        refine unguessed_safe ?_ s
        refine ⟨rfl, fun _ => ?_⟩
        exact (looks_unguessed (rehashOutdatedPassword_looks account credential step)).bind
          fun _ => trivial
    · refine Prog.Safe.bind (unguessed_safe (looks_unguessed
        (settleFail_looks account step outcome)) s) fun settled s _ => ?_
      cases settled with
      | error e => exact done_safe _ s
      | ok _ => exact hfailed s

section Session

variable [JsonValue V ChosenFactor] [JsonValue V FlowStamp] [BEq V] [JsonSize V]

theorem verifyFactor_safe
    (hpasses : ∀ step, (service.verdict credential step).any VerifyOutcome.passes = true →
      passes i step = true)
    (hfor : ∀ scope, t.data.authState.flowScope = some scope → scope = account)
    (hs : Untouched i s.log) :
    Races service attemptWindow account passes i (service.verifyFactor credential t)
      (fun _ _ => True) s := by
  unfold verifyFactor
  split
  · next u tenant _ remaining _ _ _ _ _ hstate =>
    have hscope : (⟨tenant, u⟩ : UserScope) = account := hfor _ (by rw [hstate]; rfl)
    rw [hscope]
    refine Prog.Safe.bind (looks_safe (requireCurrentFlow_looks account t)
      (fun _ he => he.guesses) lasting_untouched hs) fun r s h => ?_
    obtain ⟨flow, t⟩ := r
    cases flow with
    | error e => exact done_safe _ s
    | ok _ =>
      refine Prog.Safe.bind (prepareFactorStep_safe remaining h.2) fun r s h => ?_
      obtain ⟨prepared, t⟩ := r
      rcases prepared with e | outcome | step
      · exact done_safe _ s
      · exact done_safe _ s
      · refine Prog.Safe.bind (reserveGuess_safe (h step rfl)) fun r s h => ?_
        obtain ⟨slot, t⟩ := r
        rcases slot with e | slot
        · exact done_safe _ s
        · cases slot with
          | refused outcome => exact done_safe _ s
          | unmetered => exact absurd rfl h.2
          | reserved count =>
            refine Prog.Safe.bind (Q := fun _ _ => True) ?_ fun r s _ => done_safe _ s
            refine Prog.Safe.bind (checkGuess_safe count (hpasses step) (h.1 count rfl))
              fun r s _ => ?_
            obtain ⟨checked, t⟩ := r
            rcases checked with e | _ | outcome
            · exact done_safe _ s
            · exact unguessed_safe (completeFactorStep_unguessed service account _) s
            · exact done_safe _ s
  · exact done_safe _ s

/-! ## No verdict without a reservation -/

omit [JsonValue V ChosenFactor] in
theorem attempt_same (verifier : Verifier) :
    (service.attempt credential account step t).SameUntil (Grants account)
      ({ service with verifier := verifier }.attempt credential account step t) := by
  refine ⟨_, rfl, fun a ha => ?_⟩
  obtain rfl : a = .ok none := by_contra fun h => ha ⟨rfl, h⟩
  refine ⟨_, rfl, fun known hknown => ?_⟩
  obtain rfl : known = false := Bool.eq_false_iff.mpr hknown
  -- the guess is refused
  show Prog.SameUntil _ (recordRefusedAttemptAudit account .locked t >>= _ >>= _)
    (recordRefusedAttemptAudit account .locked t >>= _ >>= _)
  rw [Prog.bind_assoc, Prog.bind_assoc]
  refine .bind _ fun r => ?_
  obtain ⟨audited, t⟩ := r
  cases audited with
  | error e => exact .refl _
  | ok _ =>
    show Prog.SameUntil _ (service.derivedLockout account >>= _ >>= _)
      (service.derivedLockout account >>= _ >>= _)
    rw [Prog.bind_assoc, Prog.bind_assoc]
    refine .bind _ fun lock => ?_
    cases lock <;> exact .refl _

theorem verifyFactor_same (verifier : Verifier)
    (hfor : ∀ scope, t.data.authState.flowScope = some scope → scope = account) :
    (service.verifyFactor credential t).SameUntil (Grants account)
      ({ service with verifier := verifier }.verifyFactor credential t) := by
  unfold verifyFactor
  split
  · next u tenant _ remaining _ _ _ _ _ hstate =>
    have hscope : (⟨tenant, u⟩ : UserScope) = account := hfor _ (by rw [hstate]; rfl)
    rw [hscope]
    refine .bind (service.requireCurrentFlow account t) fun r => ?_
    obtain ⟨flow, t⟩ := r
    cases flow with
    | error e => exact .refl _
    | ok _ =>
      refine .bind (service.prepareFactorStep credential account remaining t) fun r => ?_
      obtain ⟨prepared, t⟩ := r
      rcases prepared with e | outcome | step
      · exact .refl _
      · exact .refl _
      · exact attempt_same verifier
  · exact .refl _

theorem run_same (verifier : Verifier) {party : GuessParty V} (hfor : party.IsFor account) :
    (party.run service account).SameUntil (Grants account)
      (party.run { service with verifier := verifier } account) := by
  cases party with
  | login => exact .refl _
  | verify now credential session => exact .bind_right (verifyFactor_same verifier hfor) _

end Session

theorem reserved_of_grants {e : Call V} {a : e.Answer}
    (hX : orderly service attemptWindow account i e s a s') (hgrants : Grants account e a) :
    reservedAt i s'.log ≠ none := by
  obtain ⟨⟨hsem, -⟩, -⟩ := hX
  cases e with
  | identity c =>
    obtain ⟨now, -, hcounted⟩ := hsem
    cases c with
    | reserveAttempt u =>
      obtain ⟨rfl, hsome⟩ := hgrants
      have hcounted : if account.userId = account.userId then _ else _ := hcounted
      rw [if_pos rfl] at hcounted
      obtain ⟨rfl, rfl⟩ := hcounted
      have hgranted := Option.isSome_iff_ne_none.mpr fun h => hsome (congrArg Except.ok h)
      simp [hgranted, reservedAt]
    | onKnownDevice u => exact nomatch hcounted.1.symm.trans hgrants
    | _ => cases hgrants
  | _ => cases hgrants

end Safety

end Guessing

/-- However many verifications of an account race, the wrong guesses since its counter last started
over are within the limit, as long as none of the right ones is given back after a reset. A request
that holds no reservation has come to no verdict: the run is one with any other verifier in its
place, and so is its answer. -/
theorem wrong_guesses_limited [DecidableEq ι] [JsonValue V ChosenFactor] [JsonValue V FlowStamp]
    [BEq V] [JsonSize V] {service : LoginService} {attemptWindow : Duration} {account : UserScope}
    {parties : ι → GuessParty V} (hfor : ∀ i, (parties i).IsFor account)
    {counter : Option AttemptEntry} {now : Instant}
    {s : Pool ι (Call V) Call.Answer (Option (Except AuthnError FactorOutcome)) (GuessState ι)}
    (hrun : Pool.Reaches (Guessing.orderly service attemptWindow account)
      ⟨fun i => (parties i).run service account, ⟨counter, now, []⟩⟩ s) :
    wrong (fun i => (parties i).passes service) s.state.log ≤
      (service.lockout account.tenantId).effectiveMaxAttempts ∧
    ∀ i, reservedAt i s.state.log = none → ∀ verifier, ∃ p,
      Pool.Reaches (Guessing.orderly service attemptWindow account)
        ⟨Function.update (fun j => (parties j).run service account) i
          ((parties i).run { service with verifier := verifier } account), ⟨counter, now, []⟩⟩
        ⟨Function.update s.prog i p, s.state⟩ ∧
      ∀ answer, s.prog i = .ret answer → p = .ret answer := by
  let passes : ι → PreparedFactorStep → Bool := fun i => (parties i).passes service
  have hsafe : Pool.AllSafe (Guessing.orderly service attemptWindow account)
      (GuessStep (Guessing.policy service attemptWindow account) passes) (fun _ _ _ => True)
      ⟨fun i => (parties i).run service account, ⟨counter, now, []⟩⟩ := by
    intro i
    have hi := hfor i
    show Guessing.Races service attemptWindow account passes i ((parties i).run service account)
      (fun _ _ => True) _
    cases hparty : parties i with
    | login =>
      refine Guessing.unguessed_safe ?_ _
      exact ⟨rfl, fun _ => trivial⟩
    | verify reading credential session =>
      rw [hparty] at hi
      have hpasses (step : PreparedFactorStep)
          (h : ((GuessParty.serviceAt service reading).verdict credential step).any
            VerifyOutcome.passes = true) : passes i step = true := by
        show (parties i).passes service step = true
        rw [hparty]
        exact h
      have hverify : Guessing.Races (GuessParty.serviceAt service reading) attemptWindow account
          passes i ((GuessParty.serviceAt service reading).verifyFactor credential session)
          (fun _ _ => True) ⟨counter, now, []⟩ :=
        Guessing.verifyFactor_safe hpasses hi ⟨rfl, rfl⟩
      exact Prog.Safe.bind hverify fun _ s _ => Guessing.done_safe _ s
  have hinv : GuessInv (Guessing.policy service attemptWindow account) passes s.state :=
    hrun.invariant hsafe (fun _ _ _ hstep h => hstep.inv h)
      ⟨trivial, nofun, fun _ _ => nofun, Nat.zero_le _, Nat.zero_le _, nofun⟩
  refine ⟨hinv.wrong_le, fun i hnone verifier => ?_⟩
  obtain hreserved | ⟨p, hsame, hreach⟩ := hrun.replace hsafe (Guessing.run_same verifier (hfor i))
    (L := fun s => reservedAt i s.log ≠ none) (fun _ _ _ _ => Guessing.reserved_of_grants)
    fun _ _ _ hstep => hstep.reservedAt_ne_none
  · exact absurd hnone hreserved
  · refine ⟨p, hreach, fun answer hret => ?_⟩
    rw [hret] at hsame
    exact hsame

/-! ## A guess given back after a reset -/

namespace GivenBack

def service : LoginService :=
  { Suspending.exampleService 0 with lockout := fun _ => ⟨1, some 900000000000, .lock⟩ }

def account : UserScope := ⟨⟨0⟩, ⟨7⟩⟩

def session : SessionInner FlowValue :=
  { id := ⟨1⟩, data := Suspending.exampleRow, modified := false, needsPersist := false,
    regenerate := false, preCycleId := none, pendingFingerprint := none, maxCustomBytes := 0,
    rng := fun n => ⟨n + 2⟩, consume := none }

def parties (i : Fin 4) : GuessParty FlowValue :=
  if i.val = 0 then .verify 0 (.password "hash") session
  else if i.val = 1 then .login
  else .verify 0 (.password "guess") session

def attemptWindow : Duration := 3600000000000

abbrev policy : AttemptPolicy := Guessing.policy service attemptWindow account

def answering : Pool.Answerer (Fin 4) Unit (Call FlowValue) Call.Answer (GuessState (Fin 4)) :=
  fun i _ e s => match e with
  | .identity (.reserveAttempt u) =>
    let granted := policy.reserveAttempt s.now s.counter
    if u = account.userId then (.ok granted.1, ⟨granted.2, s.now, if granted.1.isSome then
      .reserved i s.now (policy.startsOver s.now s.counter) :: s.log else s.log⟩)
    else (.ok none, s)
  | .identity (.note (.releaseAttempt u)) => (.ok (), if u = account.userId then
      ⟨releaseAttempt s.counter, s.now, .released i :: s.log⟩ else s)
  | .identity (.note (.resetFailedAttempts u)) => (.ok (), if u = account.userId then
      ⟨none, s.now, .reset :: s.log⟩ else s)
  | .identity (.recordFailedAttempt u) => (.ok 1, if u = account.userId then
      { s with counter := recordFailedAttempt s.now s.counter } else s)
  | .identity (.failedAttempts _) =>
    (.ok (attemptCount s.counter, s.counter.map (·.last)), s)
  | .identity (.resolveFactor scope kind) =>
    match Suspending.exampleWorld.identity.resolve scope kind with
    | some resolved => (.ok (some resolved),
        { s with log := .resolved i ⟨kind, resolved.own, resolved.config⟩ :: s.log })
    | none => (.ok none, s)
  | .identity c => ((Identity.perform c Suspending.exampleWorld.identity).1, s)
  | e => ((World.perform e Suspending.exampleWorld).1, s)

def instantly (i : Fin 4) (_ : Unit) : Call FlowValue → GuessState (Fin 4) → Bool
  | .identity (.note (.releaseAttempt _)), s => (reservedAt i s.log).all (· = s.now)
  | _, _ => true

theorem not_elapsed (now : Int) : ¬Elapsed policy now now := by
  rintro (h | ⟨d, hd, h⟩)
  · have hwindow : 0 ≤ policy.window := by decide
    omega
  · have hduration : policy.lockout.duration.bind fromStd = some 900000000000 := by decide
    rw [hduration] at hd
    cases hd
    omega

theorem timely_answering (i : Fin 4) (c : Unit) (e : Call FlowValue) (s : GuessState (Fin 4))
    (h : instantly i c e s = true) :
    Guessing.timely service attemptWindow account i e s (answering i c e s).1
      (answering i c e s).2 := by
  cases e with
  | store c => exact ⟨rfl, trivial⟩
  | registry c => exact ⟨rfl, trivial⟩
  | deliver key value => exact ⟨rfl, trivial⟩
  | identity c =>
    cases c with
    | note n =>
      cases n with
      | releaseAttempt u =>
        refine ⟨⟨s.now, Int.le_refl _, rfl⟩, fun time htime => ?_⟩
        have hnow : time = s.now := by
          have hall : (reservedAt i s.log).all (· = s.now) = true := h
          rw [htime] at hall
          exact of_decide_eq_true hall
        have hstill : (if u = account.userId then
            ⟨releaseAttempt s.counter, s.now, .released i :: s.log⟩ else s : GuessState _).now =
            s.now := by split <;> rfl
        show ¬Elapsed policy time (if u = account.userId then _ else s : GuessState _).now
        rw [hstill, hnow]
        exact not_elapsed s.now
      | _ => exact ⟨⟨s.now, Int.le_refl _, rfl⟩, trivial⟩
    | reserveAttempt u =>
      refine ⟨⟨s.now, Int.le_refl _, ?_⟩, trivial⟩
      simp only [Guessing.Counted, answering]
      split <;> simp
    | resolveFactor scope kind =>
      refine ⟨⟨s.now, Int.le_refl _, ?_⟩, trivial⟩
      simp only [answering]
      cases Suspending.exampleWorld.identity.resolve scope kind <;> rfl
    | failedAttempts u => exact ⟨⟨s.now, Int.le_refl _, rfl, fun _ => rfl⟩, trivial⟩
    | onKnownDevice u => exact ⟨⟨s.now, Int.le_refl _, rfl, rfl⟩, trivial⟩
    | _ => exact ⟨⟨s.now, Int.le_refl _, rfl⟩, trivial⟩

def run (schedule : List (Fin 4 × Unit)) :
    Pool (Fin 4) (Call FlowValue) Call.Answer (Option (Except AuthnError FactorOutcome))
      (GuessState (Fin 4)) :=
  Pool.replay answering schedule
    ⟨fun i => (parties i).run service account, ⟨none, 0, []⟩⟩

/-- The right guess is reserved, another login resets the counter, a wrong guess is made, the right
one is given back, and a second wrong guess is made. -/
def overtaken : List (Fin 4 × Unit) :=
  Pool.turns [(6, 0, ()), (1, 1, ()), (6, 2, ()), (1, 0, ()), (10, 3, ()), (10, 2, ())]

def inOrder : List (Fin 4 × Unit) :=
  Pool.turns [(7, 0, ()), (1, 1, ()), (10, 2, ()), (10, 3, ())]

theorem parties_isFor (i : Fin 4) : (parties i).IsFor account := by
  have hsession : ∀ scope, session.data.authState.flowScope = some scope → scope = account :=
    fun scope h => (Option.some.inj h).symm
  unfold parties
  split
  · exact hsession
  · split
    · trivial
    · exact hsession

def undisturbed (i : Fin 4) (c : Unit) (e : Call FlowValue) (s : GuessState (Fin 4)) : Bool :=
  instantly i c e s && match e with
    | .identity (.note (.releaseAttempt _)) => !resetSince i s.log
    | _ => true

theorem orderly_answering (i : Fin 4) (c : Unit) (e : Call FlowValue) (s : GuessState (Fin 4))
    (h : undisturbed i c e s = true) :
    Guessing.orderly service attemptWindow account i e s (answering i c e s).1
      (answering i c e s).2 := by
  obtain ⟨hinstantly, hreset⟩ := (Bool.and_eq_true _ _).mp h
  refine ⟨timely_answering i c e s hinstantly, ?_⟩
  cases e with
  | identity c =>
    cases c with
    | note n =>
      cases n with
      | releaseAttempt u =>
        show resetSince i s.log = false
        simpa using hreset
      | _ => trivial
    | _ => trivial
  | _ => trivial

end GivenBack

open GivenBack

/-- The account is locked at one wrong guess, and two are made after a reset: a right guess that
was reserved before the reset makes room for the second. -/
theorem wrong_guess_given_back :
    (∀ i, (parties i).IsFor account) ∧
    (service.lockout account.tenantId).effectiveMaxAttempts = 1 ∧
    ∃ s, Pool.Reaches
        (Guessing.timely service attemptWindow account)
        ⟨fun i => (parties i).run service account, ⟨none, 0, []⟩⟩ s ∧
      s.prog 2 = .ret (some (.ok (.locked (some 900000000000)))) ∧
      s.prog 3 = .ret (some (.ok (.locked (some 900000000000)))) ∧
      wrong (fun i => (parties i).passes service) s.state.log = 2 :=
  ⟨parties_isFor, rfl, run overtaken,
    Pool.reaches_replay_of_admits timely_answering _ _ (by decide +kernel),
    Prog.eq_ret_of_returned (by decide +kernel), Prog.eq_ret_of_returned (by decide +kernel),
    by decide +kernel⟩

theorem wrong_guesses_limited_inOrder :
    wrong (fun i => (parties i).passes service)
      (run inOrder).state.log ≤ 1 ∧
    ∀ verifier, ∃ s, Pool.Reaches
        (Guessing.orderly service attemptWindow account)
        ⟨Function.update (fun i => (parties i).run service account) 3
          ((parties 3).run { service with verifier := verifier }
            account), ⟨none, 0, []⟩⟩ s ∧
      s.prog 3 = .ret (some (.ok (.locked (some 900000000000)))) := by
  have hrun : Pool.Reaches
      (Guessing.orderly service attemptWindow account)
      ⟨fun i => (parties i).run service account, ⟨none, 0, []⟩⟩
      (run inOrder) :=
    Pool.reaches_replay_of_admits orderly_answering _ _ (by decide +kernel)
  obtain ⟨hwrong, hblind⟩ := wrong_guesses_limited parties_isFor hrun
  refine ⟨hwrong, fun verifier => ?_⟩
  obtain ⟨p, hreach, hanswer⟩ := hblind 3 (by decide +kernel) verifier
  refine ⟨_, hreach, ?_⟩
  dsimp only
  rw [Function.update_self]
  exact hanswer _ (Prog.eq_ret_of_returned (by decide +kernel))

end Axess
