import Axess.Calls.Pool
import Axess.RateLimit.Bucket

/-!
# The capacity of the bucket table

`BucketStore` (`middleware/ratelimit/store.rs`). The table of buckets, the atomic `bucket_count` and
the counts of the groups change in separate steps: a slot is reserved before the bucket it is for
is inserted, and given back after the bucket has gone. In between the counts are ahead of the table.
What each caller still owes them is kept beside the state, so the counts are exact at every moment
up to those debts, and a caller that has returned owes nothing.
-/

namespace Axess

open Calls

structure Target where
  key : String
  group : Option String
  foldInto : Option String
  foldNearCap : Bool

structure BucketStore where
  limit : RateLimit
  hardCap : Nat
  groupCap : Nat

abbrev BucketTable := List (String × TokenBucket)

/-- The atomic steps of the store. The guard of `acquire_new_or_existing` spans several of them:
`lockFind` keeps the table locked when the key has no bucket, until `insertUnlock` or `unlock`. -/
inductive LimiterCall where
  | loadLastSweep
  | exchangeLastSweep (last nowMs : Nat)
  | retainLive (nowMs : Nat)
  | subBucketCount (n : Nat)
  | releaseGroup (group : String)
  | find (key : String) (nowMs : Nat)
  | loadBucketCount
  | reserveGroup (group : String)
  | lockFind (key : String) (nowMs : Nat)
  | addBucketCount
  | insertUnlock (key : String) (group : Option String) (nowMs : Nat)
  | unlock

namespace LimiterCall

abbrev Answer : LimiterCall → Type
  | loadLastSweep => Nat
  | exchangeLastSweep .. => Bool
  -- the number of buckets removed and the groups they counted against
  | retainLive _ => Nat × List String
  | subBucketCount _ => Unit
  | releaseGroup _ => Unit
  | find .. => Option Acquire
  | loadBucketCount => Nat
  | reserveGroup _ => Bool
  | lockFind .. => Option Acquire
  | addBucketCount => Nat
  | insertUnlock .. => Acquire
  | unlock => Unit

end LimiterCall

abbrev Limiter := Prog LimiterCall LimiterCall.Answer

def limiterCall (e : LimiterCall) : Limiter e.Answer := Prog.perform e

namespace BucketTable

variable (limit : RateLimit) (buckets : BucketTable) (key group : String) (nowMs : Nat)

def owned : Nat := buckets.countP fun entry => entry.2.group = some group

def draw : BucketTable :=
  buckets.map fun entry =>
    if entry.1 = key then (entry.1, (limit.take entry.2 nowMs).2) else entry

def drawn : Option Acquire :=
  (buckets.lookup key).map fun bucket => (limit.take bucket nowMs).1

def swept : BucketTable :=
  buckets.filterMap fun entry => (limit.retain entry.2 nowMs).map fun kept => (entry.1, kept)

def expired : BucketTable := buckets.filter fun entry => (limit.retain entry.2 nowMs).isNone

def freedGroups : List String := (buckets.expired limit nowMs).filterMap fun entry => entry.2.group

end BucketTable

/-- The store between two steps of the callers `ι`. A group without an entry counts zero. What a
caller owes the counts is no part of the program's state: no step reads it. -/
structure LimiterState (ι : Type) where
  buckets : BucketTable
  bucketCount : Nat
  groupCounts : String → Nat
  lastSweepMs : Nat
  holder : Option ι
  /-- A slot of `bucketCount` (`none`) or of a group's count that no bucket stands for. -/
  owed : Multiset (ι × Option String)

def LimiterState.new (ι : Type) (nowMs : Nat) : LimiterState ι :=
  ⟨[], 0, fun _ => 0, nowMs, none, 0⟩

namespace BucketStore

variable {ι : Type} [DecidableEq ι] (store : BucketStore)

def ready (i : ι) (s : LimiterState ι) : LimiterCall → Bool
  | .retainLive _ | .find .. | .lockFind .. => s.holder = none
  | .insertUnlock .. | .unlock => s.holder = some i
  | _ => true

def perform (i : ι) (s : LimiterState ι) : (e : LimiterCall) → e.Answer × LimiterState ι
  | .loadLastSweep => (s.lastSweepMs, s)
  | .exchangeLastSweep last nowMs =>
    (s.lastSweepMs = last, { s with
      lastSweepMs := if s.lastSweepMs = last then nowMs else s.lastSweepMs })
  | .retainLive nowMs =>
    (((s.buckets.expired store.limit nowMs).length, s.buckets.freedGroups store.limit nowMs),
      { s with buckets := s.buckets.swept store.limit nowMs })
  | .subBucketCount n => ((), { s with bucketCount := s.bucketCount - n })
  | .releaseGroup group => ((), { s with
      groupCounts := Function.update s.groupCounts group (s.groupCounts group - 1) })
  | .find key nowMs =>
    (s.buckets.drawn store.limit key nowMs, { s with
      buckets := s.buckets.draw store.limit key nowMs })
  | .loadBucketCount => (s.bucketCount, s)
  | .reserveGroup group =>
    (s.groupCounts group < store.groupCap, { s with
      groupCounts :=
        if s.groupCounts group < store.groupCap then
          Function.update s.groupCounts group (s.groupCounts group + 1)
        else s.groupCounts })
  | .lockFind key nowMs =>
    (s.buckets.drawn store.limit key nowMs, { s with
      buckets := s.buckets.draw store.limit key nowMs
      holder := if (s.buckets.drawn store.limit key nowMs).isNone then some i else none })
  | .addBucketCount => (s.bucketCount, { s with bucketCount := s.bucketCount + 1 })
  | .insertUnlock key group nowMs =>
    let (outcome, bucket) := store.limit.take (.new nowMs group) nowMs
    (outcome, { s with buckets := (key, bucket) :: s.buckets, holder := none })
  | .unlock => ((), { s with holder := none })

def borrowed : (e : LimiterCall) → e.Answer → Multiset (Option String)
  | .retainLive _, removed =>
    Multiset.replicate removed.1 none + (removed.2 : Multiset String).map some
  | .reserveGroup group, granted => if granted then {some group} else 0
  | .addBucketCount, _ => {none}
  | _, _ => 0

def reservation (group : Option String) : Multiset (Option String) :=
  group.elim 0 fun group => {some group}

def repaid : LimiterCall → Multiset (Option String)
  | .subBucketCount n => Multiset.replicate n none
  | .releaseGroup group => {some group}
  | .insertUnlock _ group _ => {none} + reservation group
  | _ => 0

def Serves (i : ι) : Sem LimiterCall LimiterCall.Answer (LimiterState ι) := fun e s a s' =>
  ready i s e ∧ a = (store.perform i s e).1 ∧ s' = { (store.perform i s e).2 with
    owed := s.owed + (borrowed e a).map (i, ·) - (repaid e).map (i, ·) }

def sweepIntervalMs : Nat := max (store.limit.windowMs / 8) 1000

def releaseGroups : List String → Limiter Unit
  | [] => pure ()
  | group :: groups => do
    limiterCall (.releaseGroup group)
    releaseGroups groups

/-- The entries of groups at zero, which it drops last, count as much as no entry. -/
def evictExpiredMs (nowMs : Nat) : Limiter Unit := do
  let removed ← limiterCall (.retainLive nowMs)
  limiterCall (.subBucketCount removed.1)
  releaseGroups removed.2

def sweepIfDue (nowMs : Nat) : Limiter Unit := do
  let last ← limiterCall .loadLastSweep
  -- a stamp in the future counts as due
  if last ≤ nowMs ∧ nowMs - last < store.sweepIntervalMs then pure ()
  else do
    let picked ← limiterCall (.exchangeLastSweep last nowMs)
    if picked then evictExpiredMs nowMs else pure ()

/-- The outcome, and whether a bucket was created. Under the lock a key without a bucket still has
none when the bucket is inserted. -/
def acquireNewOrExisting (key : String) (group : Option String) (nowMs : Nat) :
    Limiter (Acquire × Bool) := do
  match ← limiterCall (.lockFind key nowMs) with
  | some outcome => pure (outcome, false)
  | none => do
    let count ← limiterCall .addBucketCount
    if count ≥ store.hardCap then do
      limiterCall (.subBucketCount 1)
      limiterCall .unlock
      pure (.saturated (max (store.sweepIntervalMs / 1000) 1), false)
    else do
      let outcome ← limiterCall (.insertUnlock key group nowMs)
      pure (outcome, true)

def nearCap (target : Target) : Limiter Bool :=
  if target.foldNearCap then do
    let count ← limiterCall .loadBucketCount
    pure (store.hardCap / 4 * 3 ≤ count)
  else pure false

def reserveGroup (target : Target) (nearCap : Bool) : Limiter (Option String) :=
  match target.group with
  | none => pure none
  | some group =>
    if nearCap then pure none
    else do
      let granted ← limiterCall (.reserveGroup group)
      pure (if granted then some group else none)

def releaseUnused (reserved : Option String) (created : Bool) : Limiter Unit :=
  match reserved with
  | none => pure ()
  | some group => if created then pure () else limiterCall (.releaseGroup group)

def sharedOutcome : Acquire → Acquire
  | .allowed remaining _ => .allowed remaining true
  | refused => refused

def tryAcquireTarget (target : Target) (nowMs : Nat) : Limiter Acquire := do
  store.sweepIfDue nowMs
  match ← limiterCall (.find target.key nowMs) with
  | some outcome => pure outcome
  | none => do
    let nearCap ← store.nearCap target
    let reserved ← reserveGroup target nearCap
    let ownBucket := !nearCap && (target.group.isNone || reserved.isSome)
    match if ownBucket then none else target.foldInto with
    | some overflow => do
      let outcome ← store.acquireNewOrExisting overflow none nowMs
      pure (sharedOutcome outcome.1)
    | none => do
      let outcome ← store.acquireNewOrExisting target.key reserved nowMs
      releaseUnused reserved outcome.2
      pure outcome.1

end BucketStore

namespace RateLimit

variable {limit : RateLimit} {bucket kept : TokenBucket} {nowMs : Nat}

theorem group_roll (limit : RateLimit) (bucket : TokenBucket) (nowMs : Nat) :
    (limit.roll bucket nowMs).group = bucket.group := by
  unfold roll
  split
  · rfl
  · split <;> rfl

theorem group_take (limit : RateLimit) (bucket : TokenBucket) (nowMs : Nat) :
    (limit.take bucket nowMs).2.group = bucket.group := by
  unfold take
  dsimp only
  split <;> exact group_roll limit bucket nowMs

theorem group_retain (h : limit.retain bucket nowMs = some kept) : kept.group = bucket.group := by
  unfold retain at h
  dsimp only at h
  split at h
  · cases h
    rfl
  · cases h

end RateLimit

namespace BucketTable

variable (limit : RateLimit) (buckets : BucketTable) (key group : String) (nowMs : Nat)

theorem length_draw : (buckets.draw limit key nowMs).length = buckets.length := List.length_map _

theorem owned_draw : (buckets.draw limit key nowMs).owned group = buckets.owned group := by
  unfold draw owned
  rw [List.countP_map]
  apply List.countP_congr
  intro entry _
  simp only [Function.comp_apply]
  split
  · rw [RateLimit.group_take]
  · rfl

theorem length_swept :
    buckets.length = (buckets.swept limit nowMs).length + (buckets.expired limit nowMs).length := by
  unfold swept expired
  induction buckets with
  | nil => rfl
  | cons entry buckets ih =>
    cases hkept : limit.retain entry.2 nowMs <;> simp [hkept] <;> omega

theorem owned_swept :
    buckets.owned group =
      (buckets.swept limit nowMs).owned group + (buckets.freedGroups limit nowMs).count group := by
  unfold freedGroups swept expired owned
  induction buckets with
  | nil => rfl
  | cons entry buckets ih =>
    cases hkept : limit.retain entry.2 nowMs with
    | some kept =>
      have hgroup := RateLimit.group_retain hkept
      simp [hkept, List.countP_cons, hgroup]
      omega
    | none =>
      cases hgroup : entry.2.group <;> simp [hkept, List.countP_cons, hgroup, List.count_cons] <;> omega

end BucketTable

/-! ## Debts -/

namespace BucketStore

variable {ι : Type} [DecidableEq ι] {store : BucketStore} {i j : ι} {s s' : LimiterState ι}
  {debts made settled : Multiset (Option String)} {d : Option String} {e : LimiterCall}
  {a : e.Answer}

def Owes (i : ι) (debts : Multiset (Option String)) (s : LimiterState ι) : Prop :=
  ∀ d, s.owed.count (i, d) = debts.count d

def outstanding (d : Option String) (s : LimiterState ι) : Nat :=
  s.owed.countP fun debt => debt.2 = d

theorem count_map_caller : (debts.map (i, ·)).count (i, d) = debts.count d :=
  Multiset.count_map_eq_count' _ _ (Prod.mk_right_injective i) d

theorem count_map_other (hj : j ≠ i) : (debts.map (i, ·)).count (j, d) = 0 := by
  apply Multiset.count_eq_zero_of_notMem
  simp [Ne.symm hj]

omit [DecidableEq ι] in
theorem countP_map_caller : (debts.map (i, ·)).countP (fun debt => debt.2 = d) = debts.count d := by
  rw [Multiset.countP_map, Multiset.count, Multiset.countP_eq_card_filter]
  simp only [eq_comm]

theorem Owes.map_le (howes : Owes i debts s) (hle : settled ≤ debts) :
    settled.map (i, ·) ≤ s.owed := by
  rw [Multiset.le_iff_count]
  rintro ⟨j, d⟩
  by_cases hj : j = i
  · subst hj
    rw [count_map_caller, howes d]
    exact Multiset.count_le_of_le d hle
  · rw [count_map_other hj]
    exact Nat.zero_le _

theorem Owes.count_le (howes : Owes i debts s) (hle : settled ≤ debts) (d : Option String) :
    settled.count d ≤ outstanding d s := by
  rw [← countP_map_caller (i := i)]
  exact Multiset.countP_le_of_le _ (howes.map_le hle)

theorem Owes.outstanding_eq (howes : Owes i debts s) (hle : settled ≤ debts)
    (howed : s'.owed = s.owed + made.map (i, ·) - settled.map (i, ·)) (d : Option String) :
    outstanding d s' + settled.count d = outstanding d s + made.count d := by
  have hsub : settled.map (i, ·) ≤ s.owed + made.map (i, ·) :=
    (howes.map_le hle).trans (Multiset.le_add_right _ _)
  have hcount := howes.count_le hle d
  unfold outstanding at hcount ⊢
  rw [howed, Multiset.countP_sub hsub, Multiset.countP_add, countP_map_caller, countP_map_caller]
  omega

theorem Owes.step (howes : Owes i debts s)
    (howed : s'.owed = s.owed + made.map (i, ·) - settled.map (i, ·)) :
    Owes i (debts + made - settled) s' := by
  intro d
  rw [howed, Multiset.count_sub, Multiset.count_add, count_map_caller, count_map_caller, howes d,
    Multiset.count_sub, Multiset.count_add]

theorem count_step_other (hj : j ≠ i)
    (howed : s'.owed = s.owed + made.map (i, ·) - settled.map (i, ·)) (d : Option String) :
    s'.owed.count (j, d) = s.owed.count (j, d) := by
  rw [howed, Multiset.count_sub, Multiset.count_add, count_map_other hj, count_map_other hj]
  rfl

/-- The counts are ahead of the table by what is owed, and neither is over its cap. -/
structure Balanced (store : BucketStore) (s : LimiterState ι) : Prop where
  slots : s.bucketCount = s.buckets.length + outstanding none s
  groups : ∀ g, s.groupCounts g = s.buckets.owned g + outstanding (some g) s
  cap : s.buckets.length ≤ store.hardCap
  groupCap : ∀ g, s.groupCounts g ≤ store.groupCap

def inserts : LimiterCall → Bool
  | .insertUnlock .. => true
  | _ => false

theorem count_reservation (group : Option String) (g : String) :
    (reservation group).count (some g) = if group = some g then 1 else 0 := by
  cases group with
  | none => rfl
  | some h => simp [reservation, Multiset.count_singleton, eq_comm]

theorem count_reservation_none (group : Option String) : (reservation group).count none = 0 := by
  cases group <;> simp [reservation]

/-- Each step moves `bucket_count` by the slots it reserves and gives back, and by the buckets it
inserts and removes. -/
theorem Serves.slots (hserves : store.Serves i e s a s')
    (hle : (repaid e).count none ≤ s.bucketCount) :
    s'.bucketCount + (repaid e).count none + s.buckets.length =
      s.bucketCount + (borrowed e a).count none + s'.buckets.length := by
  obtain ⟨-, ha, hs'⟩ := hserves
  rw [hs', ha]
  cases e with
  | retainLive nowMs =>
    have hlen := s.buckets.length_swept store.limit nowMs
    simp [perform, borrowed, repaid]
    omega
  | subBucketCount n =>
    simp [repaid] at hle
    simp [perform, borrowed, repaid]
    omega
  | insertUnlock key group nowMs =>
    simp [perform, borrowed, repaid, count_reservation_none]
    omega
  | reserveGroup group =>
    by_cases hfree : s.groupCounts group < store.groupCap <;>
      simp [perform, borrowed, repaid, hfree]
  | _ => simp [perform, borrowed, repaid, BucketTable.length_draw]

theorem Serves.groups (hserves : store.Serves i e s a s') (g : String)
    (hle : (repaid e).count (some g) ≤ s.groupCounts g) :
    s'.groupCounts g + (repaid e).count (some g) + s.buckets.owned g =
      s.groupCounts g + (borrowed e a).count (some g) + s'.buckets.owned g := by
  obtain ⟨-, ha, hs'⟩ := hserves
  rw [hs', ha]
  cases e with
  | retainLive nowMs =>
    have howned := s.buckets.owned_swept store.limit g nowMs
    simp [perform, borrowed, repaid, Multiset.count_replicate,
      List.count_map_of_injective _ _ (Option.some_injective _)]
    omega
  | releaseGroup group =>
    by_cases hgroup : g = group
    · subst hgroup
      simp [repaid] at hle
      simp [perform, borrowed, repaid]
      omega
    · simp [perform, borrowed, repaid, hgroup]
  | insertUnlock key group nowMs =>
    simp [perform, borrowed, repaid, count_reservation, BucketTable.owned, List.countP_cons,
      RateLimit.group_take, TokenBucket.new]
    omega
  | reserveGroup group =>
    by_cases hfree : s.groupCounts group < store.groupCap
    · by_cases hgroup : g = group
      · subst hgroup
        simp [perform, borrowed, repaid, hfree]
      · simp [perform, borrowed, repaid, hfree, hgroup]
    · simp [perform, borrowed, repaid, hfree]
  | subBucketCount n => simp [perform, borrowed, repaid, Multiset.count_replicate]
  | _ => simp [perform, borrowed, repaid, BucketTable.owned_draw]

theorem Serves.length_le (hserves : store.Serves i e s a s') (hcap : s.buckets.length ≤ store.hardCap)
    (hroom : inserts e → s.buckets.length < store.hardCap) : s'.buckets.length ≤ store.hardCap := by
  obtain ⟨-, -, hs'⟩ := hserves
  rw [hs']
  cases e with
  | retainLive nowMs => exact (List.length_filterMap_le _ _).trans hcap
  | insertUnlock key group nowMs => exact hroom rfl
  | find key nowMs => exact (BucketTable.length_draw ..).trans_le hcap
  | lockFind key nowMs => exact (BucketTable.length_draw ..).trans_le hcap
  | _ => exact hcap

theorem Serves.groupCounts_le (hserves : store.Serves i e s a s')
    (hcap : ∀ g, s.groupCounts g ≤ store.groupCap) (g : String) :
    s'.groupCounts g ≤ store.groupCap := by
  obtain ⟨-, -, hs'⟩ := hserves
  rw [hs']
  have hg := hcap g
  cases e with
  | releaseGroup group =>
    by_cases hgroup : g = group
    · subst hgroup
      simp [perform]
      omega
    · simp [perform, hgroup, hg]
  | reserveGroup group =>
    by_cases hfree : s.groupCounts group < store.groupCap
    · by_cases hgroup : g = group
      · subst hgroup
        simp [perform, hfree]
      · simp [perform, hfree, hgroup, hg]
    · simp [perform, hfree, hg]
  | _ => exact hg

theorem Balanced.step (h : Balanced store s) (howes : Owes i debts s) (hpaid : repaid e ≤ debts)
    (hroom : inserts e → s.buckets.length < store.hardCap) (hserves : store.Serves i e s a s') :
    Balanced store s' := by
  have hout := howes.outstanding_eq hpaid (congrArg LimiterState.owed hserves.2.2)
  have hle := howes.count_le hpaid
  refine ⟨?_, fun g => ?_, hserves.length_le h.cap hroom, hserves.groupCounts_le h.groupCap⟩
  · have hslots := h.slots
    have hpaid := hle none
    have hnone := hout none
    have hmoved := hserves.slots (by omega)
    omega
  · have hgroups := h.groups g
    have hpaid := hle (some g)
    have hsome := hout (some g)
    have hmoved := hserves.groups g (by omega)
    omega

inductive Hold where
  | free
  | held
  | room
  deriving DecidableEq

def Holds (store : BucketStore) (i : ι) (s : LimiterState ι) : Hold → Prop
  | .free => s.holder ≠ some i
  | .held => s.holder = some i
  | .room => s.holder = some i ∧ s.buckets.length < store.hardCap

structure Keeps (i : ι) (s s' : LimiterState ι) : Prop where
  owed : ∀ d, s'.owed.count (i, d) = s.owed.count (i, d)
  holder : s'.holder = some i ↔ s.holder = some i
  buckets : s.holder = some i → s'.buckets = s.buckets

def Guarantees (store : BucketStore) (j : ι) (s s' : LimiterState ι) : Prop :=
  (Balanced store s → Balanced store s') ∧ ∀ i, i ≠ j → Keeps i s s'

structure At (store : BucketStore) (i : ι) (debts : Multiset (Option String)) (hold : Hold)
    (s : LimiterState ι) : Prop where
  balanced : Balanced store s
  owes : Owes i debts s
  holds : Holds store i s hold

theorem At.stable (store : BucketStore) (i : ι) (debts : Multiset (Option String)) (hold : Hold) :
    Stable (Pool.others (Guarantees store) i) (At store i debts hold) := by
  rintro s s' h ⟨j, hj, hbalanced, hkeeps⟩
  have hkept := hkeeps i hj.symm
  refine ⟨hbalanced h.balanced, fun d => (hkept.owed d).trans (h.owes d), ?_⟩
  have hholds := h.holds
  cases hold with
  | free => exact fun hnow => hholds (hkept.holder.mp hnow)
  | held => exact hkept.holder.mpr hholds
  | room =>
    refine ⟨hkept.holder.mpr hholds.1, ?_⟩
    rw [hkept.buckets hholds.1]
    exact hholds.2

def Hold.after (store : BucketStore) (hold : Hold) : (e : LimiterCall) → e.Answer → Hold
  | .lockFind .., found => if found.isNone then .held else .free
  | .addBucketCount, count => if hold ≠ .free ∧ count < store.hardCap then .room else hold
  | .insertUnlock .., _ => .free
  | .unlock, _ => .free
  | _, _ => hold

theorem Serves.keeps (hserves : store.Serves i e s a s') (hj : j ≠ i) : Keeps j s s' := by
  obtain ⟨hready, ha, hs'⟩ := hserves
  refine ⟨count_step_other hj (congrArg LimiterState.owed hs'), ?_, ?_⟩
  · rw [hs']
    cases e with
    | lockFind key nowMs =>
      simp only [ready, decide_eq_true_eq] at hready
      simp only [perform, hready]
      split <;> simp [hj.symm]
    | insertUnlock key group nowMs =>
      simp only [ready, decide_eq_true_eq] at hready
      simp [perform, hready, hj.symm]
    | unlock =>
      simp only [ready, decide_eq_true_eq] at hready
      simp [perform, hready, hj.symm]
    | _ => rfl
  · intro hholder
    rw [hs']
    -- the steps that change the table need the lock
    cases e with
    | retainLive nowMs => simp [ready, hholder] at hready
    | find key nowMs => simp [ready, hholder] at hready
    | lockFind key nowMs => simp [ready, hholder] at hready
    | insertUnlock key group nowMs => simp [ready, hholder, hj] at hready
    | _ => rfl

omit [DecidableEq ι] in
theorem Holds.congr {hold : Hold} (hholder : s'.holder = s.holder) (hbuckets : s'.buckets = s.buckets)
    (h : Holds store i s hold) : Holds store i s' hold := by
  cases hold with
  | free => exact fun hnow => h (hholder ▸ hnow)
  | held => exact hholder.trans h
  | room => exact ⟨hholder.trans h.1, hbuckets ▸ h.2⟩

omit [DecidableEq ι] in
theorem Holds.eq_free {hold : Hold} (h : Holds store i s hold) (hnone : s.holder = none) :
    hold = .free := by
  cases hold with
  | free => rfl
  | held => simp [Holds, hnone] at h
  | room => simp [Holds, hnone] at h

theorem Serves.holds {hold : Hold} (hserves : store.Serves i e s a s') (hbalanced : Balanced store s)
    (h : Holds store i s hold) : Holds store i s' (hold.after store e a) := by
  obtain ⟨hready, ha, hs'⟩ := hserves
  cases e with
  | retainLive nowMs =>
    simp only [ready, decide_eq_true_eq] at hready
    rw [h.eq_free hready, hs']
    simp [Hold.after, Holds, perform, hready]
  | find key nowMs =>
    simp only [ready, decide_eq_true_eq] at hready
    rw [h.eq_free hready, hs']
    simp [Hold.after, Holds, perform, hready]
  | lockFind key nowMs =>
    rw [hs', ha]
    simp only [Hold.after, perform]
    split <;> simp_all [Holds]
  | addBucketCount =>
    have hslots := hbalanced.slots
    simp only [Hold.after]
    split
    · next hroom =>
      -- the count is never behind the table
      have hcount : s.bucketCount < store.hardCap := by simpa [ha, perform] using hroom.2
      have hheld : s.holder = some i := by
        cases hold with
        | free => exact absurd rfl hroom.1
        | held => exact h
        | room => exact h.1
      rw [hs']
      exact ⟨hheld, by simp only [perform]; omega⟩
    · apply h.congr <;> rw [hs'] <;> rfl
  | insertUnlock key group nowMs =>
    rw [hs']
    simp [Hold.after, Holds, perform]
  | unlock =>
    rw [hs']
    simp [Hold.after, Holds, perform]
  | _ => exact h.congr (by rw [hs']; rfl) (by rw [hs']; rfl)

theorem At.step {hold : Hold} (h : At store i debts hold s) (hpaid : repaid e ≤ debts)
    (hroom : inserts e → hold = .room) (hserves : store.Serves i e s a s') :
    Guarantees store i s s' ∧
      At store i (debts + borrowed e a - repaid e) (hold.after store e a) s' := by
  have hspace : inserts e → s.buckets.length < store.hardCap := by
    intro hinserts
    have hholds := h.holds
    rw [hroom hinserts] at hholds
    exact hholds.2
  have hbalanced := h.balanced.step h.owes hpaid hspace hserves
  exact ⟨⟨fun _ => hbalanced, fun j hj => hserves.keeps hj⟩, hbalanced,
    h.owes.step (congrArg LimiterState.owed hserves.2.2), hserves.holds h.balanced h.holds⟩

/-! ## The store's functions settle their debts -/

/-- Every step of the caller among the others keeps the balance, and the end is as `Q` says. -/
abbrev Settles {α : Type} (store : BucketStore) (i : ι) (Q : α → LimiterState ι → Prop)
    (p : Limiter α) (s : LimiterState ι) : Prop :=
  p.Safe (store.Serves i) (Pool.others (Guarantees store) i) (Guarantees store i) Q s

variable {α : Type} {Q : α → LimiterState ι → Prop} {hold : Hold}

theorem Settles.pure {x : α} (h : At store i debts hold s)
    (hQ : ∀ s', At store i debts hold s' → Q x s') : Settles store i Q (pure x) s :=
  Prog.Safe.ret _ (At.stable store i debts hold) h hQ

theorem Settles.call {f : e.Answer → Limiter α} (h : At store i debts hold s)
    (hpaid : repaid e ≤ debts) (hroom : inserts e → hold = .room)
    (hf : ∀ a s', At store i (debts + borrowed e a - repaid e) (hold.after store e a) s' →
      Settles store i Q (f a) s') :
    Settles store i Q (limiterCall e >>= f) s := by
  apply Prog.Safe.perform_bind _ (At.stable store i debts hold) h
  intro s a s' hs hserves
  obtain ⟨hguarantees, hnext⟩ := hs.step hpaid hroom hserves
  exact ⟨hguarantees, hf a s' hnext⟩

theorem Settles.plain {f : e.Answer → Limiter α} (h : At store i debts hold s)
    (hpaid : repaid e = 0) (hborrowed : ∀ a, borrowed e a = 0) (hroom : inserts e = false)
    (hf : ∀ a s', At store i debts (hold.after store e a) s' → Settles store i Q (f a) s') :
    Settles store i Q (limiterCall e >>= f) s := by
  apply Settles.call h (by rw [hpaid]; exact Multiset.zero_le _) (by simp [hroom])
  intro a s' hs'
  rw [hborrowed, hpaid, add_zero, tsub_zero] at hs'
  exact hf a s' hs'

theorem settles_releaseGroups (groups : List String)
    (h : At store i ((groups : Multiset String).map some) .free s) :
    Settles store i (fun _ => At store i 0 .free) (releaseGroups groups) s := by
  induction groups generalizing s with
  | nil => exact Settles.pure h fun _ hs' => hs'
  | cons group groups ih =>
    apply Settles.call h (by simp [repaid]) (by simp [inserts])
    intro a s' hs'
    apply ih
    simpa [borrowed, repaid, Hold.after] using hs'

theorem settles_evictExpiredMs (nowMs : Nat) (h : At store i 0 .free s) :
    Settles store i (fun _ => At store i 0 .free) (evictExpiredMs nowMs) s := by
  apply Settles.call h (by simp [repaid]) (by simp [inserts])
  intro removed s hs
  simp only [borrowed, repaid, zero_add, tsub_zero, Hold.after] at hs
  apply Settles.call hs (Multiset.le_add_right _ _) (by simp [inserts])
  intro _ s hs
  apply settles_releaseGroups
  simpa [borrowed, repaid, Hold.after] using hs

theorem settles_sweepIfDue (nowMs : Nat) (h : At store i 0 .free s) :
    Settles store i (fun _ => At store i 0 .free) (store.sweepIfDue nowMs) s := by
  apply Settles.plain h rfl (fun _ => rfl) rfl
  intro last s hs
  split
  · exact Settles.pure hs fun _ hs' => hs'
  · apply Settles.plain hs rfl (fun _ => rfl) rfl
    intro picked s hs
    split
    · exact settles_evictExpiredMs nowMs hs
    · exact Settles.pure hs fun _ hs' => hs'

theorem settles_acquireNewOrExisting (key : String) (group : Option String) (nowMs : Nat)
    (h : At store i (reservation group) .free s) :
    Settles store i
      (fun outcome => At store i (if outcome.2 then 0 else reservation group) .free)
      (store.acquireNewOrExisting key group nowMs) s := by
  apply Settles.plain h rfl (fun _ => rfl) rfl
  intro found s hs
  cases found with
  | some outcome => exact Settles.pure hs fun _ hs' => hs'
  | none =>
    apply Settles.call hs (by simp [repaid]) (by simp [inserts])
    intro count s hs
    simp only [borrowed, repaid, tsub_zero] at hs
    split
    · next hfull =>
      have hheld : Hold.after store .held .addBucketCount count = .held :=
        if_neg fun hroom => Nat.not_lt.mpr hfull hroom.2
      apply Settles.call hs (by simp [repaid]) (by simp [inserts])
      intro _ s hs
      apply Settles.plain hs rfl (fun _ => rfl) rfl
      intro _ s hs
      refine Settles.pure hs fun s' hs' => ?_
      simpa [borrowed, repaid, Hold.after] using hs'
    · next hfree =>
      have hroom : Hold.after store .held .addBucketCount count = .room :=
        if_pos ⟨by decide, Nat.not_le.mp hfree⟩
      apply Settles.call hs (by rw [repaid, add_comm]) (fun _ => hroom)
      intro outcome s hs
      refine Settles.pure hs fun s' hs' => ?_
      simpa [borrowed, repaid, Hold.after, add_comm] using hs'

theorem settles_nearCap (target : Target) (h : At store i 0 .free s) :
    Settles store i (fun _ => At store i 0 .free) (store.nearCap target) s := by
  unfold nearCap
  split
  · apply Settles.plain h rfl (fun _ => rfl) rfl
    intro count s hs
    exact Settles.pure hs fun _ hs' => hs'
  · exact Settles.pure h fun _ hs' => hs'

theorem settles_reserveGroup (target : Target) (nearCap : Bool) (h : At store i 0 .free s) :
    Settles store i
      (fun reserved s => At store i (reservation reserved) .free s ∧
        (!nearCap && (target.group.isNone || reserved.isSome) ∨ reserved = none))
      (reserveGroup target nearCap) s := by
  unfold reserveGroup
  split
  · exact Settles.pure h fun _ hs' => ⟨hs', .inr rfl⟩
  · split
    · exact Settles.pure h fun _ hs' => ⟨hs', .inr rfl⟩
    · next hcap =>
      apply Settles.call h (by simp [repaid]) (by simp [inserts])
      intro granted s hs
      refine Settles.pure hs fun s' hs' => ?_
      cases granted with
      | false => exact ⟨by simpa [borrowed, repaid, Hold.after, reservation] using hs', .inr rfl⟩
      | true =>
        exact ⟨by simpa [borrowed, repaid, Hold.after, reservation] using hs', .inl (by simp [hcap])⟩

theorem settles_releaseUnused (reserved : Option String) (created : Bool)
    (h : At store i (if created then 0 else reservation reserved) .free s) :
    Settles store i (fun _ => At store i 0 .free) (releaseUnused reserved created) s := by
  cases reserved with
  | none => exact Settles.pure h fun _ hs' => by cases created <;> exact hs'
  | some group =>
    cases created with
    | true => exact Settles.pure h fun _ hs' => hs'
    | false =>
      apply Settles.call h (by simp [repaid, reservation]) (by simp [inserts])
      intro _ s hs
      refine Settles.pure hs fun s' hs' => ?_
      simpa [borrowed, repaid, Hold.after, reservation] using hs'

theorem settles_tryAcquireTarget (target : Target) (nowMs : Nat) (h : At store i 0 .free s) :
    Settles store i (fun _ => At store i 0 .free) (store.tryAcquireTarget target nowMs) s := by
  apply Prog.Safe.bind (settles_sweepIfDue nowMs h)
  intro _ s hs
  apply Settles.plain hs rfl (fun _ => rfl) rfl
  intro found s hs
  cases found with
  | some outcome => exact Settles.pure hs fun _ hs' => hs'
  | none =>
    apply Prog.Safe.bind (settles_nearCap target hs)
    intro nearCap s hs
    apply Prog.Safe.bind (settles_reserveGroup target nearCap hs)
    rintro reserved s ⟨hs, hreserved⟩
    dsimp only
    split
    · next overflow hfold =>
      -- a caller that folds has reserved nothing
      have hnone : reserved = none := by
        apply hreserved.resolve_left
        intro hown
        rw [if_pos hown] at hfold
        cases hfold
      subst hnone
      apply Prog.Safe.map
      apply (settles_acquireNewOrExisting overflow none nowMs hs).conseq
      intro outcome s hs
      simpa [reservation] using hs
    · apply Prog.Safe.bind (settles_acquireNewOrExisting target.key reserved nowMs hs)
      intro outcome s hs
      apply Prog.Safe.map
      exact settles_releaseUnused reserved outcome.2 hs

inductive LimiterRequest where
  | acquire (target : Target) (nowMs : Nat)
  | sweep (nowMs : Nat)

def serve (store : BucketStore) : LimiterRequest → Limiter (Option Acquire)
  | .acquire target nowMs => do
    let outcome ← store.tryAcquireTarget target nowMs
    pure (some outcome)
  | .sweep nowMs => do
    evictExpiredMs nowMs
    pure none

theorem settles_serve (request : LimiterRequest) (h : At store i 0 .free s) :
    Settles store i (fun _ => At store i 0 .free) (store.serve request) s := by
  cases request with
  | acquire target nowMs =>
    apply Prog.Safe.map
    exact settles_tryAcquireTarget target nowMs h
  | sweep nowMs =>
    apply Prog.Safe.map
    exact settles_evictExpiredMs nowMs h

omit [DecidableEq ι] in
theorem Balanced.new (store : BucketStore) (nowMs : Nat) :
    Balanced store (LimiterState.new ι nowMs) :=
  ⟨rfl, fun _ => rfl, Nat.zero_le _, fun _ => Nat.zero_le _⟩

theorem At.new (store : BucketStore) (i : ι) (nowMs : Nat) : At store i 0 .free (.new ι nowMs) := by
  refine ⟨Balanced.new store nowMs, fun d => rfl, ?_⟩
  simp [Holds, LimiterState.new]

/-- Whatever calls are made and however their steps interleave, the table and the groups stay within
their caps, and the counts are exact whenever each call has either not begun or returned. -/
theorem capacity_bookkeeping_exact (store : BucketStore) (request : ι → LimiterRequest) (nowMs : Nat)
    {pool : Pool ι LimiterCall LimiterCall.Answer (Option Acquire) (LimiterState ι)}
    (hrun : Pool.Reaches store.Serves ⟨fun i => store.serve (request i), .new ι nowMs⟩ pool) :
    pool.state.buckets.length ≤ store.hardCap ∧
    (∀ g, pool.state.buckets.owned g ≤ store.groupCap) ∧
    ((∀ i, pool.prog i = store.serve (request i) ∨ ∃ outcome, pool.prog i = .ret outcome) →
      pool.state.bucketCount = pool.state.buckets.length ∧
      ∀ g, pool.state.groupCounts g = pool.state.buckets.owned g) := by
  have hsafe : Pool.AllSafe store.Serves (Guarantees store) (fun i _ => At store i 0 .free)
      ⟨fun i => store.serve (request i), .new ι nowMs⟩ :=
    fun i => settles_serve (request i) (At.new store i nowMs)
  have hbalanced : Balanced store pool.state :=
    hrun.invariant hsafe (fun i s s' hG => hG.1) (Balanced.new store nowMs)
  refine ⟨hbalanced.cap, fun g => ?_, fun hidle => ?_⟩
  · have hgroups := hbalanced.groups g
    have hcap := hbalanced.groupCap g
    omega
  · have howed : pool.state.owed = 0 := by
      apply Multiset.eq_zero_of_forall_notMem
      rintro ⟨i, d⟩
      have hat : At store i 0 .free pool.state := by
        rcases hidle i with hstart | ⟨outcome, hret⟩
        · exact hrun.idle hsafe (At.stable store i 0 .free) (At.new store i nowMs) hstart
        · exact hrun.post hsafe hret
      rw [← Multiset.count_eq_zero]
      exact hat.owes d
    have hnone : ∀ d, outstanding d pool.state = 0 := by
      intro d
      rw [outstanding, howed]
      rfl
    refine ⟨?_, fun g => ?_⟩
    · rw [hbalanced.slots, hnone, add_zero]
    · rw [hbalanced.groups, hnone, add_zero]

def answerer (store : BucketStore) :
    Pool.Answerer ι Unit LimiterCall LimiterCall.Answer (LimiterState ι) :=
  fun i _ e s => ((store.perform i s e).1, { (store.perform i s e).2 with
    owed := s.owed + (borrowed e (store.perform i s e).1).map (i, ·) - (repaid e).map (i, ·) })

def oneSlot : BucketStore := ⟨.new 10 60000000000, 1, 1⟩

def twoOfOneGroup (i : Fin 2) : LimiterRequest :=
  .acquire ⟨if i.val = 0 then "ip:10.0.0.1" else "ip:10.0.0.2", some "10.0.0.0/24",
    some "10.0.0.0/24:ovf", false⟩ 5

/-- The second finds the group full, folds, and finds the table full, in between the steps of the
first. -/
def foldedSchedule : List (Fin 2 × Unit) :=
  Pool.turns [(1, 0, ()), (2, 1, ()), (2, 0, ()), (1, 1, ()), (3, 0, ()), (4, 1, ())]

theorem capacity_bookkeeping_exact_folded :
    let pool := Pool.replay (answerer oneSlot) foldedSchedule
      ⟨fun i => oneSlot.serve (twoOfOneGroup i), .new (Fin 2) 0⟩
    pool.state.bucketCount = pool.state.buckets.length ∧
    ∀ g, pool.state.groupCounts g = pool.state.buckets.owned g := by
  have hrun : Pool.Reaches oneSlot.Serves
      ⟨fun i => oneSlot.serve (twoOfOneGroup i), .new (Fin 2) 0⟩
      (Pool.replay (answerer oneSlot) foldedSchedule
        ⟨fun i => oneSlot.serve (twoOfOneGroup i), .new (Fin 2) 0⟩) :=
    Pool.reaches_replay_of_admits
      (fun i _ e s (hready : ready i s e = true) => ⟨hready, rfl, rfl⟩) foldedSchedule _
      (by decide +kernel)
  have hreturned : ∀ i, ((Pool.replay (answerer oneSlot) foldedSchedule
      ⟨fun i => oneSlot.serve (twoOfOneGroup i), .new (Fin 2) 0⟩).prog i).returned.isSome := by
    decide +kernel
  apply (capacity_bookkeeping_exact oneSlot twoOfOneGroup 0 hrun).2.2
  intro i
  obtain ⟨outcome, houtcome⟩ := Option.isSome_iff_exists.mp (hreturned i)
  exact .inr ⟨outcome, Prog.eq_ret_of_returned houtcome⟩

end BucketStore

end Axess
