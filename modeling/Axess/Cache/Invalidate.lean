import Axess.Cache.Ttl

/-!
# Invalidation beats loading

An invalidation takes the loads out of the map before it takes the entries out of the cache. A load
that was begun earlier is then not the key's any more, and never becomes it again: what it fetches
is not kept. So what a later call returns was fetched after the invalidation began.
-/

namespace Axess

open Calls Maps

inductive CacheOp (K V : Type) where
  | get (key : K)
  | getOrTryInsertWith (key : K)
  | invalidate (key : K)
  | invalidateBy (predicate : K → Bool)
  | invalidateEntriesBy (predicate : K → V → Bool)
  | invalidateAll
  | cleanupExpired

inductive CacheOutcome (V Err : Type) where
  | found (r : Option V)
  | loaded (r : Option (Except Err V))
  | removed (count : Nat)

def CacheOutcome.value {V Err : Type} : CacheOutcome V Err → Option V
  | found r => r
  | loaded (some (.ok v)) => some v
  | _ => none

namespace CacheOp

variable {K V Err : Type} [DecidableEq K]

def run (ttlMicros : Nat) : CacheOp K V → CacheProg K V Err (CacheOutcome V Err)
  | get key => .found <$> ClockTtlCache.get key
  | getOrTryInsertWith key => .loaded <$> ClockTtlCache.getOrTryInsertWith ttlMicros key
  | invalidate key => (.removed ∘ Bool.toNat) <$> ClockTtlCache.invalidate key
  | invalidateBy predicate => .removed <$> ClockTtlCache.invalidateBy predicate
  | invalidateEntriesBy predicate => .removed <$> ClockTtlCache.invalidateEntriesBy predicate
  | invalidateAll => (fun _ => .removed 0) <$> ClockTtlCache.invalidateAll
  | cleanupExpired => .removed <$> ClockTtlCache.cleanupExpired

def Covers (key : K) : CacheOp K V → Prop
  | invalidate other => other = key
  | invalidateBy predicate => predicate key = true
  | invalidateAll => True
  | _ => False

def Reads (key : K) : CacheOp K V → Prop
  | get other => other = key
  | getOrTryInsertWith other => other = key
  | _ => False

end CacheOp

/-! ## What one step does -/

namespace CacheState

variable {ι K V Err : Type} [DecidableEq K] {s s' s'' : CacheState ι K (Produced V)} {key : K}
  {c : CellId} {m : ι}

/-- Only references and loads in flight have changed, and no load has come. -/
structure Dropped (s s' : CacheState ι K (Produced V)) : Prop where
  inner : s'.inner = s.inner
  cells : s'.cells = s.cells
  fetches : s'.fetches = s.fetches
  lock : s'.lock = s.lock
  value : ∀ c, (s'.cell c).value = (s.cell c).value
  running : ∀ c, (s'.cell c).running = (s.cell c).running
  inflight : ∀ key c, s'.inflight.lookup key = some c → s.inflight.lookup key = some c

theorem Dropped.refl (s : CacheState ι K (Produced V)) : Dropped s s :=
  ⟨rfl, rfl, rfl, rfl, fun _ => rfl, fun _ => rfl, fun _ _ h => h⟩

theorem Dropped.trans (h : Dropped s s') (h' : Dropped s' s'') : Dropped s s'' where
  inner := h'.inner.trans h.inner
  cells := h'.cells.trans h.cells
  fetches := h'.fetches.trans h.fetches
  lock := h'.lock.trans h.lock
  value c := (h'.value c).trans (h.value c)
  running c := (h'.running c).trans (h.running c)
  inflight key c hc := h.inflight key c (h'.inflight key c hc)

variable {f : Cell ι (Produced V) → Cell ι (Produced V)}

omit [DecidableEq K] in
theorem value_updateCell (c' : CellId) :
    ((s.updateCell c f).cell c').value =
      if c' = c then (f (s.cell c)).value else (s.cell c').value := by
  unfold updateCell
  by_cases h : c' = c
  · subst h
    rw [if_pos rfl]
    simp
  · rw [if_neg h]
    simp [Function.update_of_ne h]

omit [DecidableEq K] in
theorem running_updateCell (c' : CellId) :
    ((s.updateCell c f).cell c').running =
      if c' = c then (f (s.cell c)).running else (s.cell c').running := by
  unfold updateCell
  by_cases h : c' = c
  · subst h
    rw [if_pos rfl]
    simp
  · rw [if_neg h]
    simp [Function.update_of_ne h]

theorem dropped_refs (hvalue : ∀ cell, (f cell).value = cell.value)
    (hrunning : ∀ cell, (f cell).running = cell.running) (s : CacheState ι K (Produced V))
    (c : CellId) : Dropped s (s.updateCell c f) where
  inner := rfl
  cells := rfl
  fetches := rfl
  lock := rfl
  value c' := by
    rw [value_updateCell]
    split
    · next h => rw [hvalue, h]
    · rfl
  running c' := by
    rw [running_updateCell]
    split
    · next h => rw [hrunning, h]
    · rfl
  inflight _ _ h := h

theorem dropped_addRef (s : CacheState ι K (Produced V)) (c : CellId) : Dropped s (s.addRef c) :=
  dropped_refs (f := fun cell => { cell with refs := cell.refs + 1 }) (fun _ => rfl)
    (fun _ => rfl) s c

theorem dropped_dropRef (s : CacheState ι K (Produced V)) (c : CellId) : Dropped s (s.dropRef c) :=
  dropped_refs (f := fun cell => { cell with refs := cell.refs - 1 }) (fun _ => rfl)
    (fun _ => rfl) s c

theorem lookup_dropSlot {key' : K} : (s.dropSlot key).inflight.lookup key' =
    if key' = key then none else s.inflight.lookup key' := by
  unfold dropSlot
  by_cases hsame : key' = key
  · subst hsame
    rw [if_pos rfl]
    cases hslot : s.inflight.lookup key' with
    | none => exact hslot
    | some c => exact AList.lookup_erase key' s.inflight
  · rw [if_neg hsame]
    cases s.inflight.lookup key with
    | none => rfl
    | some c => exact AList.lookup_erase_ne hsame

theorem dropped_dropSlot (s : CacheState ι K (Produced V)) (key : K) : Dropped s (s.dropSlot key) := by
  have hlookup (key' : K) (c : CellId) (h : (s.dropSlot key).inflight.lookup key' = some c) :
      s.inflight.lookup key' = some c := by
    rw [lookup_dropSlot] at h
    split at h
    · cases h
    · exact h
  unfold dropSlot at hlookup ⊢
  cases hslot : s.inflight.lookup key with
  | none => exact .refl s
  | some c =>
    rw [hslot] at hlookup
    have hrefs := dropped_dropRef s c
    exact ⟨rfl, rfl, rfl, rfl, hrefs.value, hrefs.running, hlookup⟩

theorem dropped_dropSlots (keys : List K) (s : CacheState ι K (Produced V)) :
    Dropped s (s.dropSlots keys) ∧ ∀ key ∈ keys, (s.dropSlots keys).inflight.lookup key = none := by
  induction keys generalizing s with
  | nil => exact ⟨.refl s, nofun⟩
  | cons key keys ih =>
    obtain ⟨hdropped, hnone⟩ := ih (s.dropSlot key)
    refine ⟨(dropped_dropSlot s key).trans hdropped, fun key' hkey' => ?_⟩
    rcases List.mem_cons.mp hkey' with rfl | hkey'
    · cases hslot : ((s.dropSlot key').dropSlots keys).inflight.lookup key' with
      | none => exact hslot
      | some c =>
        have hbefore := hdropped.inflight key' c hslot
        rw [lookup_dropSlot, if_pos rfl] at hbefore
        cases hbefore
    · exact hnone key' hkey'

/-- A step of the caller `m`. A value comes into a cell from the fetch that runs in it, and into
the cache from the cell of a load in flight. -/
structure Step (m : ι) (s s' : CacheState ι K (Produced V)) : Prop where
  cells_le : s.cells ≤ s'.cells
  fetches_le : s.fetches ≤ s'.fetches
  inflight : ∀ key c, s'.inflight.lookup key = some c →
    s.inflight.lookup key = some c ∨ s.cells ≤ c ∧ c < s'.cells
  inner : ∀ key entry, s'.inner.entries.lookup key = some entry →
    s.inner.entries.lookup key = some entry ∨
      ∃ c, s.inflight.lookup key = some c ∧ (s.cell c).value = some entry.value
  value : ∀ c v, (s'.cell c).value = some v →
    (s.cell c).value = some v ∨ (s.cell c).running = some (m, v.fetch)
  stored : ∀ c v, (s.cell c).value = some v → (s'.cell c).value = some v
  running : ∀ c who n, (s'.cell c).running = some (who, n) →
    (s.cell c).running = some (who, n) ∨ c < s.cells ∧ n = s.fetches
  own : ∀ c who n, who ≠ m → (s.cell c).running = some (who, n) →
    (s'.cell c).running = some (who, n)
  locked : ∀ who, who ≠ m → s.lock = some who → s'.lock = some who ∧ s'.inflight = s.inflight

theorem Dropped.step (h : Dropped s s') (hlock : ∀ who, who ≠ m → s.lock = some who →
    s'.inflight = s.inflight) : Step m s s' where
  cells_le := le_of_eq h.cells.symm
  fetches_le := le_of_eq h.fetches.symm
  inflight key c hc := .inl (h.inflight key c hc)
  inner _ _ he := .inl (h.inner ▸ he)
  value c _ hv := .inl (h.value c ▸ hv)
  stored c _ hv := (h.value c).trans hv
  running c _ _ hr := .inl (h.running c ▸ hr)
  own c _ _ _ hr := (h.running c).trans hr
  locked who hne hwho := ⟨h.lock.trans hwho, hlock who hne hwho⟩

theorem Step.refl (m : ι) (s : CacheState ι K (Produced V)) : Step m s s :=
  (Dropped.refl s).step fun _ _ _ => rfl

theorem step_inner {inner : Lru K (CacheEntry (Produced V))}
    (h : ∀ key entry, inner.entries.lookup key = some entry →
      s.inner.entries.lookup key = some entry ∨
        ∃ c, s.inflight.lookup key = some c ∧ (s.cell c).value = some entry.value) :
    Step m s { s with inner := inner } :=
  { Step.refl m s with inner := h }

def Ready (s : CacheState ι K (Produced V)) : CacheCall K (Produced V) → Prop
  | .put key value _ => ∃ c, s.inflight.lookup key = some c ∧ (s.cell c).value = some value
  | .enter c => c < s.cells
  | .fetch c => (s.cell c).value = none
  | _ => True

theorem lookup_readEntry {entries : Lru K (CacheEntry (Produced V))} {now : Int} {key' : K}
    {entry : CacheEntry (Produced V)}
    (h : (readEntry entries key now).2.entries.lookup key' = some entry) :
    entries.entries.lookup key' = some entry := by
  unfold readEntry at h
  cases hget : entries.get key with
  | mk found touched =>
    have htouched {key'' : K} {entry' : CacheEntry (Produced V)}
        (h : touched.entries.lookup key'' = some entry') :
        entries.entries.lookup key'' = some entry' := by
      rw [← show (entries.get key).2 = touched by rw [hget]] at h
      exact Lru.lookup_get h
    rw [hget] at h
    cases found with
    | none => exact htouched (Lru.lookup_filter h).1
    | some e =>
      simp only at h
      split at h
      · exact htouched h
      · exact htouched (Lru.lookup_filter h).1

theorem readEntry_some {entries : Lru K (CacheEntry (Produced V))} {now : Int} {v : Produced V}
    (h : (readEntry entries key now).1 = some v) :
    ∃ entry, entries.entries.lookup key = some entry ∧ entry.value = v := by
  unfold readEntry at h
  cases hget : entries.get key with
  | mk found touched =>
    have hfound : entries.entries.lookup key = found := by
      rw [← Lru.fst_get, hget]
    rw [hget] at h
    cases found with
    | none => cases h
    | some e =>
      simp only at h
      split at h
      · exact ⟨e, hfound, Option.some.inj h⟩
      · cases h

theorem step_cell {x : Cell ι (Produced V)} {fetches : Nat} (hfetches : s.fetches ≤ fetches)
    (hvalue : ∀ v, x.value = some v →
      (s.cell c).value = some v ∨ (s.cell c).running = some (m, v.fetch))
    (hstored : ∀ v, (s.cell c).value = some v → x.value = some v)
    (hrunning : ∀ who n, x.running = some (who, n) →
      (s.cell c).running = some (who, n) ∨ c < s.cells ∧ n = s.fetches)
    (hown : ∀ who n, who ≠ m → (s.cell c).running = some (who, n) → x.running = some (who, n)) :
    Step m s { s with cell := Function.update s.cell c x, fetches := fetches } where
  cells_le := Nat.le_refl _
  fetches_le := hfetches
  inflight _ _ h := .inl h
  inner _ _ h := .inl h
  value c' v hv := by
    by_cases h : c' = c
    · subst h
      simp only [Function.update_self] at hv
      exact hvalue v hv
    · simp only [Function.update_of_ne h] at hv
      exact .inl hv
  stored c' v hv := by
    by_cases h : c' = c
    · subst h
      simp only [Function.update_self]
      exact hstored v hv
    · simp only [Function.update_of_ne h]
      exact hv
  running c' who n hr := by
    by_cases h : c' = c
    · subst h
      simp only [Function.update_self] at hr
      exact hrunning who n hr
    · simp only [Function.update_of_ne h] at hr
      exact .inl hr
  own c' who n hne hr := by
    by_cases h : c' = c
    · subst h
      simp only [Function.update_self]
      exact hown who n hne hr
    · simp only [Function.update_of_ne h]
      exact hr
  locked _ _ h := ⟨h, rfl⟩

structure Blank (s : CacheState ι K (Produced V)) : Prop where
  cell : ∀ c, s.cells ≤ c → (s.cell c).value = none ∧ (s.cell c).running = none
  slot : ∀ key c, s.inflight.lookup key = some c → c < s.cells

theorem step_newCell (hblank : Blank s) (hlock : s.lock = none) : Step m s (s.newCell key) := by
  obtain ⟨hvalue, hrunning⟩ := hblank.cell s.cells (Nat.le_refl _)
  have hcell : Step m s { s with cell := Function.update s.cell s.cells ⟨none, none, 2⟩ } :=
    step_cell (Nat.le_refl _) nofun (fun v hv => nomatch hvalue.symm.trans hv) nofun
      fun who n _ hr => nomatch hrunning.symm.trans hr
  refine { hcell with
    cells_le := Nat.le_succ _
    inflight := fun key' c hc => ?_
    locked := fun who _ hwho => nomatch hlock.symm.trans hwho }
  by_cases hsame : key' = key
  · subst hsame
    rw [newCell, AList.lookup_insert] at hc
    obtain rfl := Option.some.inj hc
    exact .inr ⟨Nat.le_refl _, Nat.lt_succ_self _⟩
  · rw [newCell, AList.lookup_insert_ne hsame] at hc
    exact .inl hc

theorem Blank.step (h : Blank s) (hstep : Step m s s') : Blank s' := by
  refine ⟨fun c hc => ?_, fun key c hc => ?_⟩
  · have hunmade := Nat.le_trans hstep.cells_le hc
    obtain ⟨hvalue, hrunning⟩ := h.cell c hunmade
    constructor
    · cases hv : (s'.cell c).value with
      | none => rfl
      | some v =>
        rcases hstep.value c v hv with hold | hold
        · rw [hvalue] at hold
          cases hold
        · rw [hrunning] at hold
          cases hold
    · cases hr : (s'.cell c).running with
      | none => rfl
      | some r =>
        rcases hstep.running c r.1 r.2 hr with hold | ⟨hmade, -⟩
        · rw [hrunning] at hold
          cases hold
        · exact absurd hunmade (Nat.not_le.mpr hmade)
  · rcases hstep.inflight key c hc with hold | ⟨-, hmade⟩
    · exact Nat.lt_of_lt_of_le (h.slot key c hold) hstep.cells_le
    · exact hmade

theorem step_of_sem {e : CacheCall K (Produced V)} {a : e.Answer Err} (hX : sem m e s a s')
    (hblank : Blank s) (hready : Ready s e) : Step m s s' := by
  cases e with
  | clock =>
    obtain rfl : s' = s := hX
    exact .refl m s'
  | read key now =>
    obtain ⟨-, rfl⟩ := hX
    exact step_inner fun _ _ h => .inl (lookup_readEntry h)
  | put key value expiry =>
    obtain rfl := hX
    obtain ⟨c, hslot, hvalue⟩ := hready
    refine step_inner fun key' entry h => ?_
    rcases Lru.lookup_put h with ⟨rfl, rfl⟩ | hold
    · exact .inr ⟨c, hslot, hvalue⟩
    · exact .inl hold
  | dropInner gone =>
    obtain ⟨-, rfl⟩ := hX
    exact step_inner fun _ _ h => .inl (Lru.lookup_filter h).1
  | dropInflight covers =>
    obtain ⟨hlock, -, rfl⟩ := hX
    exact (dropped_dropSlots _ s).1.step fun _ _ hwho => nomatch hlock.symm.trans hwho
  | claim key =>
    obtain ⟨hlock, -, rfl⟩ := hX
    unfold claim
    split
    · next c _ => exact (dropped_addRef s c).step fun _ _ _ => rfl
    · exact step_newCell hblank hlock
  | clone c =>
    obtain rfl := hX
    exact (dropped_addRef s c).step fun _ _ _ => rfl
  | release c =>
    obtain rfl := hX
    exact (dropped_dropRef s c).step fun _ _ _ => rfl
  | enter c =>
    cases a with
    | value v =>
      obtain ⟨-, rfl⟩ := hX
      exact .refl m s'
    | cancelled =>
      obtain rfl : s' = s := hX
      exact .refl m s'
    | run =>
      obtain ⟨hvalue, hrunning, rfl⟩ := hX
      refine step_cell (Nat.le_succ _) (fun v hv => .inl hv) (fun v hv => hv)
        (fun who n hr => .inr ⟨hready, ?_⟩) fun who n _ hr => nomatch hrunning.symm.trans hr
      exact (Prod.mk.inj (Option.some.inj hr)).2.symm
  | fetch c =>
    obtain ⟨n, hrunning, hfetch⟩ := hX
    have hvalue : (s.cell c).value = none := hready
    have hown (who : ι) (n' : Nat) (hne : who ≠ m) (hr : (s.cell c).running = some (who, n')) :
        False :=
      hne (Prod.mk.inj (Option.some.inj (hr.symm.trans hrunning))).1
    have hended : Step m s (s.updateCell c ({ · with running := none })) :=
      step_cell (Nat.le_refl _) (fun v hv => .inl hv) (fun v hv => hv) nofun
        fun who n' hne hr => (hown who n' hne hr).elim
    cases a with
    | ok v =>
      obtain ⟨rfl, rfl⟩ := hfetch
      refine step_cell (Nat.le_refl _) (fun v' hv' => .inr ?_)
        (fun v' hv' => nomatch hvalue.symm.trans hv') nofun
        fun who n' hne hr => (hown who n' hne hr).elim
      rw [← Option.some.inj hv']
      exact hrunning
    | error e =>
      obtain rfl := hfetch
      exact hended
    | panicked =>
      obtain rfl := hfetch
      exact hended
    | cancelled =>
      obtain rfl := hfetch
      exact hended
  | lockIfCurrent key c =>
    obtain ⟨hlock, -, rfl⟩ := hX
    split
    · exact { Step.refl m s with locked := fun who _ hwho => nomatch hlock.symm.trans hwho }
    · exact .refl m s
  | removeSlot key =>
    obtain ⟨hlock, rfl⟩ := hX
    have hmine (who : ι) (hne : who ≠ m) (hwho : s.lock = some who) : False :=
      hne (Option.some.inj (hwho.symm.trans hlock))
    have hdropped := (dropped_dropSlot s key).step (m := m) fun who hne hwho =>
      (hmine who hne hwho).elim
    exact { hdropped with locked := fun who hne hwho => (hmine who hne hwho).elim }
  | leaveSlot key c =>
    obtain ⟨hlock, rfl⟩ := hX
    split
    · exact (dropped_dropSlot s key).step fun _ _ hwho => nomatch hlock.symm.trans hwho
    · exact .refl m s

/-- Since a moment with `cells` cells made and `fetches` fetches started: a cell made later has only
values fetched later. -/
structure Since (cells fetches : Nat) (s : CacheState ι K (Produced V)) : Prop where
  blank : Blank s
  cells_le : cells ≤ s.cells
  fetches_le : fetches ≤ s.fetches
  value : ∀ c, cells ≤ c → ∀ v, (s.cell c).value = some v → fetches ≤ v.fetch
  running : ∀ c, cells ≤ c → ∀ who n, (s.cell c).running = some (who, n) → fetches ≤ n

structure Unjoined (cells fetches : Nat) (key : K) (s : CacheState ι K (Produced V)) : Prop extends
    Since cells fetches s where
  slot : ∀ c, s.inflight.lookup key = some c → cells ≤ c

structure Invalidated (cells fetches : Nat) (key : K) (s : CacheState ι K (Produced V)) : Prop
    extends Unjoined cells fetches key s where
  entry : ∀ entry, s.inner.entries.lookup key = some entry → fetches ≤ entry.value.fetch

variable {cells fetches : Nat}

theorem Blank.since (h : Blank s) : Since s.cells s.fetches s where
  blank := h
  cells_le := Nat.le_refl _
  fetches_le := Nat.le_refl _
  value c hc _ hv := nomatch (h.cell c hc).1.symm.trans hv
  running c hc _ _ hr := nomatch (h.cell c hc).2.symm.trans hr

theorem Since.step (h : Since cells fetches s) (hstep : Step m s s') : Since cells fetches s' where
  blank := h.blank.step hstep
  cells_le := Nat.le_trans h.cells_le hstep.cells_le
  fetches_le := Nat.le_trans h.fetches_le hstep.fetches_le
  value c hc v hv := by
    rcases hstep.value c v hv with hold | hold
    · exact h.value c hc v hold
    · exact h.running c hc m v.fetch hold
  running c hc who n hr := by
    rcases hstep.running c who n hr with hold | ⟨-, rfl⟩
    · exact h.running c hc who n hold
    · exact h.fetches_le

theorem Unjoined.step (h : Unjoined cells fetches key s) (hstep : Step m s s') :
    Unjoined cells fetches key s' where
  toSince := h.toSince.step hstep
  slot c hc := by
    rcases hstep.inflight key c hc with hold | ⟨hnew, -⟩
    · exact h.slot c hold
    · exact Nat.le_trans h.cells_le hnew

theorem Invalidated.step (h : Invalidated cells fetches key s) (hstep : Step m s s') :
    Invalidated cells fetches key s' where
  toUnjoined := h.toUnjoined.step hstep
  entry entry hentry := by
    rcases hstep.inner key entry hentry with hold | ⟨c, hslot, hvalue⟩
    · exact h.entry entry hold
    · exact h.value c (h.slot c hslot) entry.value hvalue

theorem stable_of_step {I : CacheState ι K (Produced V) → Prop}
    (hI : ∀ m s s', Step m s s' → I s → I s') (m : ι) : Stable (Pool.others Step m) I := by
  rintro s s' h ⟨j, -, hstep⟩
  exact hI j s s' hstep h

theorem drop_safe {α : Type} (covers : K → Bool) (gone : K → CacheEntry (Produced V) → Bool)
    (hcovers : covers key = true) (hgone : ∀ entry, gone key entry = true)
    {f : Nat → Nat → α} (hs : Since cells fetches s) :
    (do
      let n : Nat ← ClockTtlCache.call (.dropInflight covers)
      let n' : Nat ← ClockTtlCache.call (.dropInner gone)
      pure (f n n') : CacheProg K (Produced V) Err α).SafeAmong sem Step m
      (fun _ => Invalidated cells fetches key) s := by
  refine Prog.Safe.perform_bind _ (stable_of_step (fun m s s' hstep h => Since.step h hstep) m) hs
    fun s n s' hs hX => ?_
  have hstep := step_of_sem hX hs.blank trivial
  have hunjoined : Unjoined cells fetches key s' := by
    refine ⟨hs.step hstep, fun c hc => ?_⟩
    obtain ⟨-, -, rfl⟩ := hX
    obtain ⟨hdropped, hnone⟩ := dropped_dropSlots (s.inflight.keys.filter covers) s
    have hkey : key ∈ s.inflight.keys.filter covers :=
      List.mem_filter.mpr ⟨AList.mem_keys.mp (AList.lookup_isSome.mp
        (by rw [hdropped.inflight key c hc]; rfl)), hcovers⟩
    rw [hnone key hkey] at hc
    cases hc
  refine ⟨hstep, Prog.Safe.perform_bind _
    (stable_of_step (fun m s s' hstep h => Unjoined.step h hstep) m) hunjoined
    fun s n s' hs hX => ?_⟩
  have hstep := step_of_sem hX hs.blank trivial
  have hdone : Invalidated cells fetches key s' := by
    refine ⟨hs.step hstep, fun entry hentry => ?_⟩
    obtain ⟨-, rfl⟩ := hX
    have hkept := (Lru.lookup_filter hentry).2
    rw [hgone entry] at hkept
    cases hkept
  exact ⟨hstep, Prog.Safe.ret _
    (stable_of_step (fun m s s' hstep h => Invalidated.step h hstep) m) hdone fun _ h => h⟩

/-! ## Loads -/

def Plain : CacheCall K (Produced V) → Prop
  | .put .. => False
  | .enter _ => False
  | .fetch _ => False
  | _ => True

theorem ready_of_plain {e : CacheCall K (Produced V)} (he : Plain e) : Ready s e := by
  cases e <;> first | exact he.elim | exact trivial

theorem safe_of_plain {I : CacheState ι K (Produced V) → Prop}
    (hkeep : ∀ m s s', Step m s s' → I s → I s') (hblank : ∀ s, I s → Blank s) {α : Type}
    {p : CacheProg K (Produced V) Err α} (hp : p.Only Plain) (hs : I s) :
    p.SafeAmong sem Step m (fun _ => I) s :=
  (Prog.Within.safe hp (stable_of_step hkeep m) (fun _ s _ s' he hX hs =>
    have hstep := step_of_sem hX (hblank s hs) (ready_of_plain he)
    ⟨hstep, hkeep m s s' hstep hs⟩) hs).conseq fun _ _ hpost => hpost.2

structure Loading (key : K) (I : CacheState ι K (Produced V) → Prop) (Own : CellId → Prop)
    (Good : Produced V → Prop) : Prop where
  keep : ∀ m s s', Step m s s' → I s → I s'
  blank : ∀ s, I s → Blank s
  entry : ∀ s entry, I s → s.inner.entries.lookup key = some entry → Good entry.value
  slot : ∀ s c, I s → s.inflight.lookup key = some c → Own c
  made : ∀ s, I s → Own s.cells
  value : ∀ s c v, I s → Own c → (s.cell c).value = some v → Good v

namespace Loading

variable {I : CacheState ι K (Produced V) → Prop} {Own : CellId → Prop}
  {Good : Produced V → Prop} {v : Produced V}

theorem stable (h : Loading key I Own Good) (m : ι) : Stable (Pool.others Step m) I :=
  stable_of_step h.keep m

theorem plain_safe (h : Loading key I Own Good) {α : Type}
    {p : CacheProg K (Produced V) Err α} (hp : p.Only Plain) (hs : I s) :
    p.SafeAmong sem Step m (fun _ => I) s :=
  safe_of_plain h.keep h.blank hp hs

theorem get_safe (h : Loading key I Own Good) (hs : I s) :
    (ClockTtlCache.get key : CacheProg K (Produced V) Err _).SafeAmong sem Step m
      (fun r s => I s ∧ ∀ v, r = some v → Good v) s := by
  refine Prog.Safe.perform_bind I (h.stable m) hs ?_
  rintro s (now : Instant) s' hs hX
  have hstep := step_of_sem (e := .clock) hX (h.blank s hs) trivial
  refine ⟨hstep, Prog.Safe.call I (h.stable m) (h.keep m s s' hstep hs) ?_⟩
  rintro s (r : Option (Produced V)) s' hs hX
  have hstep := step_of_sem (e := .read key (timestampMicros now)) hX (h.blank s hs) trivial
  refine ⟨hstep, Prog.Safe.ret I (h.stable m) (h.keep m s s' hstep hs) fun s'' hs'' =>
    ⟨hs'', fun v hv => ?_⟩⟩
  obtain ⟨entry, hentry, rfl⟩ := readEntry_some (hX.1.symm.trans hv)
  exact h.entry s entry hs hentry

theorem value_stable (h : Loading key I Own Good) (m : ι) (c : CellId) (v : Produced V) :
    Stable (Pool.others Step m) fun s => I s ∧ (s.cell c).value = some v := by
  rintro s s' ⟨hs, hv⟩ ⟨j, -, hstep⟩
  exact ⟨h.keep j s s' hstep hs, hstep.stored c v hv⟩

theorem locked_stable (h : Loading key I Own Good) (m : ι) (c : CellId) (v : Produced V) :
    Stable (Pool.others Step m) fun s => I s ∧ s.lock = some m ∧
      s.inflight.lookup key = some c ∧ (s.cell c).value = some v := by
  rintro s s' ⟨hs, hlock, hslot, hv⟩ ⟨j, hne, hstep⟩
  obtain ⟨hlock', hinflight⟩ := hstep.locked m hne.symm hlock
  exact ⟨h.keep j s s' hstep hs, hlock', hinflight ▸ hslot, hstep.stored c v hv⟩

theorem publish_safe (h : Loading key I Own Good) (ttlMicros : Nat) (hs : I s)
    (hv : (s.cell c).value = some v) :
    (ClockTtlCache.publish ttlMicros key c v : CacheProg K (Produced V) Err _).SafeAmong sem Step m
      (fun _ => I) s := by
  refine Prog.Safe.perform_bind _ (h.value_stable m c v) ⟨hs, hv⟩ ?_
  rintro s (current : Bool) s' ⟨hs, hv⟩ hX
  have hstep := step_of_sem (e := .lockIfCurrent key c) hX (h.blank s hs) trivial
  refine ⟨hstep, ?_⟩
  have hs' := h.keep m s s' hstep hs
  obtain ⟨-, hcurrent, rfl⟩ := hX
  cases current with
  | false => exact Prog.Safe.ret I (h.stable m) hs' fun _ h => h
  | true =>
    have hslot : s.inflight.lookup key = some c := of_decide_eq_true hcurrent.symm
    refine Prog.Safe.bind (Q := fun _ => I) (Prog.Safe.perform_bind _ (h.locked_stable m c v)
      ⟨hs', rfl, hslot, hv⟩ ?_) fun _ s hs => h.plain_safe ⟨trivial, fun _ => trivial⟩ hs
    rintro s (now : Instant) s' hlocked hX
    have hstep := step_of_sem (e := .clock) hX (h.blank s hlocked.1) trivial
    obtain rfl : s' = s := hX
    refine ⟨hstep, Prog.Safe.call _ (h.locked_stable m c v) hlocked ?_⟩
    rintro s _ s' ⟨hs, -, hslot, hv⟩ hX
    have hstep := step_of_sem hX (h.blank s hs) ⟨c, hslot, hv⟩
    exact ⟨hstep, Prog.Safe.ret I (h.stable m) (h.keep m s s' hstep hs) fun _ h => h⟩

omit [DecidableEq K] in
theorem leave_plain (key : K) (c : CellId) :
    (ClockTtlCache.leave key c : CacheProg K (Produced V) Err _).Only Plain :=
  ⟨trivial, fun _ => ⟨trivial, fun _ => ⟨trivial, fun _ => trivial⟩⟩⟩

def Ended (I : CacheState ι K (Produced V) → Prop) (Good : Produced V → Prop)
    (r : Option (Except Err (Produced V))) (s : CacheState ι K (Produced V)) : Prop :=
  I s ∧ ∀ v, r = some (.ok v) → Good v

theorem leave_safe (h : Loading key I Own Good) {r : Option (Except Err (Produced V))}
    (hr : ∀ v, r = some (.ok v) → Good v) (hs : I s) :
    (do
      ClockTtlCache.leave key c
      pure r : CacheProg K (Produced V) Err _).SafeAmong sem Step m
      (Ended I Good) s :=
  Prog.Safe.bind (h.plain_safe (leave_plain key c) hs) fun _ _ hs =>
    Prog.Safe.ret I (h.stable m) hs fun _ hs => ⟨hs, hr⟩

theorem publish_leave_safe (h : Loading key I Own Good) (ttlMicros : Nat) (hs : I s)
    (hown : Own c) (hv : (s.cell c).value = some v) :
    (do
      ClockTtlCache.publish ttlMicros key c v
      ClockTtlCache.leave key c
      pure (some (.ok v)) :
        CacheProg K (Produced V) Err (Option (Except Err (Produced V)))).SafeAmong sem Step m
          (Ended I Good) s := by
  refine Prog.Safe.bind (h.publish_safe ttlMicros hs hv) fun _ s' hs' => ?_
  refine h.leave_safe (fun v' hv' => ?_) hs'
  obtain rfl := Except.ok.inj (Option.some.inj hv')
  exact h.value s c v hs hown hv

theorem made_stable (h : Loading key I Own Good) (m : ι) (c : CellId) :
    Stable (Pool.others Step m) fun s => I s ∧ c < s.cells := by
  rintro s s' ⟨hs, hc⟩ ⟨j, -, hstep⟩
  exact ⟨h.keep j s s' hstep hs, Nat.lt_of_lt_of_le hc hstep.cells_le⟩

theorem running_stable (h : Loading key I Own Good) (m : ι) (c : CellId) (n : Nat) :
    Stable (Pool.others Step m) fun s => I s ∧ (s.cell c).running = some (m, n) ∧
      (s.cell c).value = none := by
  rintro s s' ⟨hs, hrunning, hvalue⟩ ⟨j, hne, hstep⟩
  refine ⟨h.keep j s s' hstep hs, hstep.own c m n hne.symm hrunning, ?_⟩
  cases hv : (s'.cell c).value with
  | none => rfl
  | some v =>
    rcases hstep.value c v hv with hold | hold
    · rw [hvalue] at hold
      cases hold
    · rw [hrunning] at hold
      exact absurd (Prod.mk.inj (Option.some.inj hold)).1 hne.symm

theorem claimed (h : Loading key I Own Good) (hs : I s)
    (hX : (sem m : Sem _ (CacheCall.Answer Err) _) (.claim key) s c s') : Own c ∧ c < s'.cells := by
  obtain ⟨-, rfl, rfl⟩ := hX
  unfold claim
  split
  · next c hslot => exact ⟨h.slot s c hs hslot, (h.blank s hs).slot key c hslot⟩
  · exact ⟨h.made s hs, Nat.lt_succ_self _⟩

theorem getOrTryInsertWith_safe (h : Loading key I Own Good) (ttlMicros : Nat) (hs : I s) :
    (ClockTtlCache.getOrTryInsertWith ttlMicros key : CacheProg K (Produced V) Err _).SafeAmong
      sem Step m (Ended I Good) s := by
  refine Prog.Safe.bind (h.get_safe hs) fun found s hfound => ?_
  obtain ⟨hs, hgood⟩ := hfound
  cases found with
  | some v =>
    refine Prog.Safe.ret I (h.stable m) hs fun _ hs => ⟨hs, fun v' hv' => ?_⟩
    exact hgood v' (congrArg some (Except.ok.inj (Option.some.inj hv')))
  | none =>
  refine Prog.Safe.perform_bind I (h.stable m) hs ?_
  rintro s (c : CellId) s' hs hX
  have hstep := step_of_sem (e := .claim key) hX (h.blank s hs) trivial
  obtain ⟨hown, hmade⟩ := h.claimed hs hX
  refine ⟨hstep, Prog.Safe.perform_bind _ (h.made_stable m c)
    ⟨h.keep m s s' hstep hs, hmade⟩ ?_⟩
  rintro s _ s' ⟨hs, hmade⟩ hX
  have hstep := step_of_sem (e := .clone c) hX (h.blank s hs) trivial
  refine ⟨hstep, Prog.Safe.perform_bind _ (h.made_stable m c)
    ⟨h.keep m s s' hstep hs, Nat.lt_of_lt_of_le hmade hstep.cells_le⟩ ?_⟩
  rintro s (entered : CellEntered (Produced V)) s' ⟨hs, hmade⟩ hX
  have hstep := step_of_sem (e := .enter c) hX (h.blank s hs) hmade
  have hs' := h.keep m s s' hstep hs
  refine ⟨hstep, ?_⟩
  cases entered with
  | value v =>
    obtain ⟨hv, rfl⟩ := hX
    exact h.publish_leave_safe ttlMicros hs' hown hv
  | cancelled => exact h.leave_safe nofun hs'
  | run =>
  obtain ⟨hnone, -, rfl⟩ := hX
  refine Prog.Safe.perform_bind _ (h.running_stable m c s.fetches)
    ⟨hs', by simp [updateCell], by simpa [updateCell] using hnone⟩ ?_
  rintro w (fetched : Fetched (Produced V) Err) w' ⟨hw, -, hnone⟩ hX
  have hstep := step_of_sem (e := .fetch c) hX (h.blank w hw) hnone
  have hw' := h.keep m w w' hstep hw
  refine ⟨hstep, ?_⟩
  cases fetched with
  | ok v =>
    obtain ⟨n, -, -, rfl⟩ := hX
    exact h.publish_leave_safe ttlMicros hw' hown (by simp [updateCell])
  | error e => exact h.leave_safe nofun hw'
  | panicked => exact h.leave_safe nofun hw'
  | cancelled => exact h.leave_safe nofun hw'

end Loading

theorem loading_blank (key : K) :
    Loading key (Blank : CacheState ι K (Produced V) → Prop) (fun _ => True) fun _ => True :=
  ⟨fun _ _ _ hstep h => h.step hstep, fun _ h => h, fun _ _ _ _ => trivial,
    fun _ _ _ _ => trivial, fun _ _ => trivial, fun _ _ _ _ _ _ => trivial⟩

theorem loading_invalidated (cells fetches : Nat) (key : K) :
    Loading key (Invalidated cells fetches key : CacheState ι K (Produced V) → Prop)
      (cells ≤ ·) (fetches ≤ ·.fetch) where
  keep _ _ _ hstep h := h.step hstep
  blank _ h := h.blank
  entry _ entry h := h.entry entry
  slot _ c h := h.slot c
  made _ h := h.cells_le
  value _ c v h hc := h.value c hc v

theorem run_safe (ttlMicros : Nat) (op : CacheOp K (Produced V)) (hs : Blank s) :
    (op.run ttlMicros : CacheProg K (Produced V) Err _).SafeAmong sem Step m
      (fun _ _ => True) s := by
  have hplain {p : CacheProg K (Produced V) Err (CacheOutcome (Produced V) Err)}
      (hp : p.Only Plain) :
      p.SafeAmong sem Step m (fun _ _ => True) s :=
    (safe_of_plain (fun _ _ _ hstep h => Blank.step h hstep) (fun _ h => h) hp hs).conseq
      fun _ _ _ => trivial
  cases op with
  | get key =>
    exact Prog.Safe.map (((loading_blank key).get_safe hs).conseq fun _ _ _ => trivial)
  | getOrTryInsertWith key =>
    exact Prog.Safe.map (((loading_blank key).getOrTryInsertWith_safe ttlMicros hs).conseq
      fun _ _ _ => trivial)
  | invalidate key => exact hplain ⟨trivial, fun _ => ⟨trivial, fun _ => trivial⟩⟩
  | invalidateBy predicate => exact hplain ⟨trivial, fun _ => ⟨trivial, fun _ => trivial⟩⟩
  | invalidateEntriesBy predicate => exact hplain ⟨trivial, fun _ => trivial⟩
  | invalidateAll => exact hplain ⟨trivial, fun _ => ⟨trivial, fun _ => trivial⟩⟩
  | cleanupExpired => exact hplain ⟨trivial, fun _ => ⟨trivial, fun _ => trivial⟩⟩

theorem covers_safe (ttlMicros : Nat) {op : CacheOp K (Produced V)} (hop : op.Covers key)
    (hs : Since cells fetches s) :
    (op.run ttlMicros : CacheProg K (Produced V) Err _).SafeAmong sem Step m
      (fun _ => Invalidated cells fetches key) s := by
  cases op with
  | invalidate other =>
    have hkey : decide (key = other) = true := decide_eq_true hop.symm
    exact Prog.Safe.map (drop_safe (· = other) (fun key _ => key = other) hkey (fun _ => hkey) hs)
  | invalidateBy predicate =>
    exact Prog.Safe.map (drop_safe (f := fun _ n => n) predicate (fun key _ => predicate key) hop
      (fun _ => hop) hs)
  | invalidateAll =>
    exact Prog.Safe.map (drop_safe (fun _ => true) (fun _ _ => true) rfl (fun _ => rfl) hs)
  | _ => exact hop.elim

theorem reads_safe (ttlMicros : Nat) {op : CacheOp K (Produced V)} (hop : op.Reads key)
    (hs : Invalidated cells fetches key s) :
    (op.run ttlMicros : CacheProg K (Produced V) Err _).SafeAmong sem Step m
      (fun r _ => ∀ v, r.value = some v → fetches ≤ v.fetch) s := by
  have hloading := loading_invalidated (ι := ι) (V := V) cells fetches key
  cases op with
  | get other =>
    obtain rfl : other = key := hop
    exact Prog.Safe.map ((hloading.get_safe hs).conseq fun r _ hr v hv => hr.2 v hv)
  | getOrTryInsertWith other =>
    obtain rfl : other = key := hop
    refine Prog.Safe.map ((hloading.getOrTryInsertWith_safe ttlMicros hs).conseq
      fun r _ hr v (hv : CacheOutcome.value (.loaded r) = some v) => hr.2 v ?_)
    rcases r with - | e | v'
    · cases hv
    · cases hv
    · rw [Option.some.inj hv]
  | _ => exact hop.elim

theorem blank_start (cap : Nat) (pos : 0 < cap) :
    Blank (start cap pos : CacheState ι K (Produced V)) :=
  ⟨fun _ _ => ⟨rfl, rfl⟩, fun _ _ hc => nomatch hc⟩

end CacheState

/-- A call that starts after an invalidation of its key has returned does not return a value whose
fetch was started before the invalidation began. -/
theorem invalidation_beats_loading {ι K V Err : Type} [DecidableEq ι] [DecidableEq K]
    {op : ι → CacheOp K (Produced V)} {ttlMicros cap : Nat} {pos : 0 < cap}
    {before returned later : Pool ι (CacheCall K (Produced V)) (CacheCall.Answer Err)
      (CacheOutcome (Produced V) Err) (CacheState ι K (Produced V))}
    (hbefore : Pool.Reaches CacheState.sem ⟨fun i => (op i).run ttlMicros, .start cap pos⟩ before)
    {j : ι} {key : K} (hcovers : (op j).Covers key) (hidle : before.prog j = (op j).run ttlMicros)
    (hreturned : Pool.Reaches CacheState.sem before returned) {r : CacheOutcome (Produced V) Err}
    (hj : returned.prog j = .ret r) {i : ι}
    (hreads : (op i).Reads key)
    (hnot : returned.prog i = (op i).run ttlMicros)
    (hlater : Pool.Reaches CacheState.sem returned later) {r' : CacheOutcome (Produced V) Err}
    (hi : later.prog i = .ret r') {value : Produced V} (hvalue : r'.value = some value) :
    before.state.fetches ≤ value.fetch := by
  have hstart : Pool.AllSafe CacheState.sem CacheState.Step (fun _ _ _ => True)
      (⟨fun i => (op i).run ttlMicros, .start cap pos⟩ : Pool ι (CacheCall K (Produced V))
        (CacheCall.Answer Err) (CacheOutcome (Produced V) Err) _) :=
    fun i => CacheState.run_safe ttlMicros (op i) (CacheState.blank_start cap pos)
  have hblank : CacheState.Blank before.state :=
    hbefore.invariant hstart (fun _ _ _ hstep h => h.step hstep) (CacheState.blank_start cap pos)
  have hsafe := hbefore.safe hstart
  have hinvalidated : CacheState.Invalidated before.state.cells before.state.fetches key
      returned.state :=
    hreturned.post_of hsafe (hidle ▸ CacheState.covers_safe ttlMicros hcovers hblank.since) hj
  have hlate : (returned.prog i).SafeAmong CacheState.sem CacheState.Step i
    (fun r _ => ∀ v, r.value = some v → before.state.fetches ≤ v.fetch)
      returned.state :=
    hnot ▸ CacheState.reads_safe ttlMicros hreads hinvalidated
  exact hlater.post_of (hreturned.safe hsafe) hlate hi value hvalue

namespace Overtaken

def op : Fin 3 → CacheOp Unit (Produced Unit)
  | 0 => .getOrTryInsertWith ()
  | 1 => .invalidate ()
  | 2 => .getOrTryInsertWith ()

abbrev State := CacheState (Fin 3) Unit (Produced Unit)

def answering : Pool.Answerer (Fin 3) Unit (CacheCall Unit (Produced Unit)) (CacheCall.Answer Unit)
    State :=
  fun i _ => CacheState.answer Unit i ()

theorem sem_answering (i : Fin 3) (x : Unit) (e : CacheCall Unit (Produced Unit)) (s : State)
    (h : CacheState.enabled i e s = true) :
    CacheState.sem i e s (answering i x e s).1 (answering i x e s).2 :=
  CacheState.sem_answer h

abbrev Caches := Pool (Fin 3) (CacheCall Unit (Produced Unit)) (CacheCall.Answer Unit)
  (CacheOutcome (Produced Unit) Unit) State

def before : Caches :=
  Pool.replay answering (Pool.turns [(5, 0, ())])
    ⟨fun i => (op i).run 60000000, .start 8 (by decide)⟩

def returned : Caches := Pool.replay answering (Pool.turns [(2, 1, ())]) before

def later : Caches :=
  Pool.replay answering (Pool.turns [(5, 2, ()), (5, 0, ()), (8, 2, ())]) returned

end Overtaken

open Overtaken

theorem invalidation_beats_overtaken_load :
    later.prog 0 = .ret (.loaded (some (.ok ⟨(), 0⟩))) ∧
    later.prog 2 = .ret (.loaded (some (.ok ⟨(), 1⟩))) ∧
    before.state.fetches ≤ 1 := by
  have hsecond : later.prog 2 = .ret (.loaded (some (.ok ⟨(), 1⟩))) :=
    Prog.eq_ret_of_returned rfl
  refine ⟨Prog.eq_ret_of_returned rfl, hsecond, ?_⟩
  have hbefore : Pool.Reaches CacheState.sem
      ⟨fun i => (op i).run 60000000, .start 8 (by decide)⟩ before :=
    Pool.reaches_replay_of_admits sem_answering _ _ (by decide +kernel)
  have hreturned : Pool.Reaches CacheState.sem before returned :=
    Pool.reaches_replay_of_admits sem_answering _ _ (by decide +kernel)
  have hlater : Pool.Reaches CacheState.sem returned later :=
    Pool.reaches_replay_of_admits sem_answering _ _ (by decide +kernel)
  have hinvalidation : returned.prog 1 = .ret (.removed 1) :=
    Prog.eq_ret_of_returned rfl
  exact invalidation_beats_loading (j := 1) (i := 2) hbefore rfl rfl hreturned
    hinvalidation rfl rfl hlater hsecond rfl

end Axess
