import Axess.Cache.Invalidate

/-!
# The loads in flight and who holds them

The callers of `get_or_try_insert_with`, with no invalidation among them. A caller that waits for a
cell holds two references to it, and keeps them for a while after its guard has run. The count that
a guard reads is the map's reference, those of the callers that are still waiting, and those of the
callers that have left already.
-/

namespace Axess

open Calls Maps

/-- The cache, and what its callers hold and have done. -/
structure Flight (ι K V : Type) where
  cache : CacheState ι K (Produced V)
  keyOf : CellId → Option K
  /-- The references of callers whose guard has not run. -/
  held : List (ι × CellId)
  /-- Those of callers whose guard has run. -/
  late : List (ι × CellId)
  fetched : List (ι × Produced V)
  promoted : List (ι × Produced V)
  /-- The cell whose value the holder of the lock is putting in the cache. -/
  publishing : Option CellId

namespace Flight

variable {ι K V Err : Type} [DecidableEq ι] [DecidableEq K]

def start (cap : Nat) (pos : 0 < cap) : Flight ι K V :=
  ⟨.start cap pos, fun _ => none, [], [], [], [], none⟩

def note (m : ι) : (e : CacheCall K (Produced V)) → e.Answer Err → Flight ι K V →
    CacheState ι K (Produced V) → Flight ι K V
  | .claim key, (c : CellId), s, cache => { s with
      cache := cache, keyOf := Function.update s.keyOf c (some key), held := (m, c) :: s.held }
  | .clone c, _, s, cache => { s with cache := cache, held := (m, c) :: s.held }
  | .leaveSlot _ c, _, s, cache => { s with
      cache := cache
      held := s.held.filter (· ≠ (m, c))
      late := s.held.filter (· = (m, c)) ++ s.late }
  | .release c, _, s, cache => { s with cache := cache, late := s.late.erase (m, c) }
  | .fetch _, .ok v, s, cache => { s with cache := cache, fetched := (m, v) :: s.fetched }
  | .lockIfCurrent _ c, (current : Bool), s, cache => { s with
      cache := cache, publishing := if current then some c else s.publishing }
  | .put _ v _, _, s, cache => { s with cache := cache, promoted := (m, v) :: s.promoted }
  | .removeSlot _, _, s, cache => { s with cache := cache, publishing := none }
  | _, _, s, cache => { s with cache := cache }

def sem (m : ι) : Sem (CacheCall K (Produced V)) (CacheCall.Answer Err) (Flight ι K V) :=
  fun e s a s' => ∃ cache, CacheState.sem m e s.cache a cache ∧ s' = note m e a s cache

def countOf (refs : List (ι × CellId)) (c : CellId) : Nat := refs.countP (·.2 = c)

def own (m : ι) (refs : List (ι × CellId)) : List (ι × CellId) := refs.filter (·.1 = m)

/-- A caller loads the key `load` says. A cell without a value is the key's as long as somebody
waits for it. -/
structure Counted (load : ι → K) (s : Flight ι K V) : Prop where
  blank : s.cache.Blank
  slot : ∀ key c, s.cache.inflight.lookup key = some c → s.keyOf c = some key
  held : ∀ m c, (m, c) ∈ s.held → s.keyOf c = some (load m) ∧ c < s.cache.cells
  late : ∀ m c, (m, c) ∈ s.late → c < s.cache.cells
  refs : ∀ key c, s.cache.inflight.lookup key = some c →
    (s.cache.cell c).refs = 1 + countOf s.held c + countOf s.late c
  waiting : ∀ m c, (m, c) ∈ s.held → (s.cache.cell c).value = none →
    s.cache.inflight.lookup (load m) = some c
  running : ∀ c who n, (s.cache.cell c).running = some (who, n) →
    (who, c) ∈ s.held ∧ (s.cache.cell c).value = none

def Promoted (s : Flight ι K V) (v : Produced V) : Prop := ∃ m, (m, v) ∈ s.promoted

def Fills (s : Flight ι K V) (n : Nat) (c : CellId) : Prop :=
  (∃ v, (s.cache.cell c).value = some v ∧ v.fetch = n) ∨
    ∃ who, (s.cache.cell c).running = some (who, n)

/-- The cell that a value of a caller is in. -/
def InCell (load : ι → K) (s : Flight ι K V) (m : ι) (v : Produced V) : Prop :=
  ∃ c, (s.cache.cell c).value = some v ∧ s.keyOf c = some (load m)

/-- What was fetched is put in the cache once. Until then its cell is the key's, and the caller that
fetched it has not left. -/
structure Kept (load : ι → K) (s : Flight ι K V) : Prop where
  number : ∀ n c, s.Fills n c → n < s.cache.fetches
  unique : ∀ n c c', s.Fills n c → s.Fills n c' → c = c'
  fetched : ∀ m v, (m, v) ∈ s.fetched → s.InCell load m v
  promoted : ∀ m v, (m, v) ∈ s.promoted → s.InCell load m v
  once : (s.promoted.map (·.2.fetch)).Nodup
  fetcher : ∀ c v, (s.cache.cell c).value = some v → ∃ m, (m, v) ∈ s.fetched
  unkept : ∀ m v, (m, v) ∈ s.fetched → s.Promoted v ∨
    ∃ c, (s.cache.cell c).value = some v ∧ (m, c) ∈ s.held
  slot : ∀ c v, (s.cache.cell c).value = some v → s.Promoted v ∨
    ∃ key, s.cache.inflight.lookup key = some c
  unpublished : ∀ key c v, s.cache.inflight.lookup key = some c → (s.cache.cell c).value = some v →
    s.publishing ≠ some c → ¬s.Promoted v
  entry : ∀ key entry, s.cache.inner.entries.lookup key = some entry → s.Promoted entry.value
  locked : s.cache.lock = none → s.publishing = none

structure Frame (m : ι) (s s' : Flight ι K V) : Prop where
  cache : CacheState.Step m s.cache s'.cache
  held : ∀ j, j ≠ m → own j s'.held = own j s.held := by exact fun _ _ => rfl
  late : ∀ j, j ≠ m → own j s'.late = own j s.late := by exact fun _ _ => rfl
  fetched : ∀ j v, j ≠ m → (j, v) ∈ s'.fetched → (j, v) ∈ s.fetched := by exact fun _ _ _ hv => hv
  promoted : ∀ j v, j ≠ m → (j, v) ∈ s'.promoted → (j, v) ∈ s.promoted := by
    exact fun _ _ _ hv => hv
  kept : ∀ p ∈ s.promoted, p ∈ s'.promoted := by exact fun _ hp => hp
  running : ∀ j c n, j ≠ m → (s'.cache.cell c).running = some (j, n) →
    (s.cache.cell c).running = some (j, n) := by exact fun _ _ _ _ hr => hr
  locked : ∀ j, j ≠ m → s.cache.lock = some j →
    s'.promoted = s.promoted ∧ s'.publishing = s.publishing := by exact fun _ _ _ => ⟨rfl, rfl⟩

/-- A slot comes with a caller that waits for its cell, and outlasts the guard of one only if there
is another, or one that has left and still has a reference. -/
structure Slots (m : ι) (s s' : Flight ι K V) : Prop where
  slot : ∀ key c, s'.cache.inflight.lookup key = some c →
    s.cache.inflight.lookup key = some c ∨ (m, c) ∈ s'.held
  stay : ∀ p ∈ s.held, p.1 ≠ m → p ∈ s'.held
  left : ∀ key c, (m, c) ∈ s.held → (m, c) ∉ s'.held → s'.cache.inflight.lookup key = some c →
    (∃ j, j ≠ m ∧ (j, c) ∈ s.held) ∨ ∃ j, (j, c) ∈ s.late

def Guarantee (load : ι → K) (m : ι) (s s' : Flight ι K V) : Prop :=
  Counted load s ∧ Kept load s → (Counted load s' ∧ Kept load s') ∧ Frame m s s' ∧ Slots m s s'

variable {load : ι → K} {s s' : Flight ι K V} {m j : ι} {c d : CellId} {v : Produced V}
  {held late H L : List (ι × CellId)} {F : List (Produced V)} {R : List CellId}

omit [DecidableEq ι] in
theorem countOf_cons (m : ι) (c c' : CellId) (held : List (ι × CellId)) :
    countOf ((m, c) :: held) c' = countOf held c' + if c' = c then 1 else 0 := by
  unfold countOf
  rw [List.countP_cons]
  by_cases h : c' = c
  · rw [if_pos h, if_pos (decide_eq_true h.symm)]
  · rw [if_neg h, if_neg (by simpa using Ne.symm h)]

omit [DecidableEq ι] in
theorem countOf_eq_zero (h : ∀ m, (m, c) ∉ held) : countOf held c = 0 := by
  refine List.countP_eq_zero.mpr fun p hp hpc => h p.1 ?_
  rw [← of_decide_eq_true hpc]
  exact hp

omit [DecidableEq ι] in
theorem countOf_pos (h : (m, c) ∈ held) : 0 < countOf held c :=
  List.countP_pos_iff.mpr ⟨(m, c), h, decide_eq_true rfl⟩

omit [DecidableEq ι] in
theorem countOf_append (held late : List (ι × CellId)) (c : CellId) :
    countOf (held ++ late) c = countOf held c + countOf late c :=
  List.countP_append

omit [DecidableEq ι] in
theorem countOf_filter (p : ι × CellId → Bool) (held : List (ι × CellId)) (c : CellId) :
    countOf held c = countOf (held.filter p) c + countOf (held.filter fun x => !p x) c :=
  List.countP_eq_countP_filter_add held _ p

theorem mem_of_own (hown : own m held = H) (h : (m, c) ∈ H) : (m, c) ∈ held :=
  (List.mem_filter.mp (hown ▸ h)).1

theorem mem_own (hown : own m held = H) (h : (m, c) ∈ held) : (m, c) ∈ H :=
  hown ▸ List.mem_filter.mpr ⟨h, decide_eq_true rfl⟩

theorem own_cons_self (m : ι) (c : CellId) (held : List (ι × CellId)) :
    own m ((m, c) :: held) = (m, c) :: own m held :=
  List.filter_cons_of_pos (decide_eq_true rfl)

theorem own_cons_of_ne (h : j ≠ m) (c : CellId) (held : List (ι × CellId)) :
    own j ((m, c) :: held) = own j held :=
  List.filter_cons_of_neg (by simpa using Ne.symm h)

omit [DecidableEq ι] in
theorem slots_of_grow (hslot : ∀ key c, s'.cache.inflight.lookup key = some c →
      s.cache.inflight.lookup key = some c ∨ (m, c) ∈ s'.held)
    (hheld : ∀ p ∈ s.held, p ∈ s'.held) : Slots m s s' :=
  ⟨hslot, fun p hp _ => hheld p hp, fun _ _ hin hout => absurd (hheld _ hin) hout⟩

omit [DecidableEq ι] in
theorem slots_of_same (hslot : s'.cache.inflight = s.cache.inflight) (hheld : s'.held = s.held) :
    Slots m s s' :=
  slots_of_grow (fun _ _ hc => .inl (hslot ▸ hc)) fun _ hp => hheld ▸ hp

/-! ## One caller among the others -/

/-- Caller `m` among the others: the cells its fetcher may run in, the references it holds, before
and after its guard, and the values it has fetched or put in the cache. -/
structure At (load : ι → K) (m : ι) (R : List CellId) (H L : List (ι × CellId))
    (F : List (Produced V)) (s : Flight ι K V) : Prop where
  counted : Counted load s
  kept : Kept load s
  held : own m s.held = H
  late : own m s.late = L
  mine : ∀ v, (m, v) ∈ s.fetched ∨ (m, v) ∈ s.promoted → v ∈ F
  running : ∀ c n, (s.cache.cell c).running = some (m, n) → c ∈ R

/-- A step of caller `m`, with what is known of the caller after it. -/
abbrev Moved (load : ι → K) (m : ι) (R : List CellId) (H L : List (ι × CellId))
    (F : List (Produced V)) (s s' : Flight ι K V) : Prop :=
  At load m R H L F s' ∧ Frame m s s'

theorem at_stable {P : Flight ι K V → Prop} (hP : ∀ j s s', j ≠ m → Frame j s s' → P s → P s') :
    Stable (Pool.others (Guarantee load) m) fun s => At load m R H L F s ∧ P s := by
  rintro s s' ⟨hat, hp⟩ ⟨j, hj, hG⟩
  obtain ⟨⟨hcounted, hkept⟩, hframe, -⟩ := hG ⟨hat.counted, hat.kept⟩
  refine ⟨⟨hcounted, hkept, (hframe.held m hj.symm).trans hat.held,
    (hframe.late m hj.symm).trans hat.late, fun v hv => hat.mine v ?_,
    fun c n hr => hat.running c n (hframe.running m c n hj.symm hr)⟩, hP j s s' hj hframe hp⟩
  exact hv.imp (hframe.fetched m v hj.symm) (hframe.promoted m v hj.symm)

/-- Nothing is fetched or put in the cache, and a value loses its caller or its slot only if it is
there. -/
structure Settles (s s' : Flight ι K V) : Prop where
  value : ∀ c, (s'.cache.cell c).value = (s.cache.cell c).value := by exact fun _ => rfl
  running : ∀ c, (s'.cache.cell c).running = (s.cache.cell c).running := by exact fun _ => rfl
  fetches : s'.cache.fetches = s.cache.fetches := by rfl
  keyOf : ∀ c key, (s.cache.cell c).value.isSome → s.keyOf c = some key →
    s'.keyOf c = some key := by exact fun _ _ _ hk => hk
  fetched : s'.fetched = s.fetched := by rfl
  promoted : s'.promoted = s.promoted := by rfl
  held : ∀ m c v, (m, v) ∈ s.fetched → (s.cache.cell c).value = some v → (m, c) ∈ s.held →
    s.Promoted v ∨ (m, c) ∈ s'.held := by exact fun _ _ _ _ _ hm => .inr hm
  slot : ∀ key c v, (s.cache.cell c).value = some v → s.cache.inflight.lookup key = some c →
    s.Promoted v ∨ ∃ key, s'.cache.inflight.lookup key = some c := by
      exact fun key _ _ _ hk => .inr ⟨key, hk⟩
  unpublished : ∀ key c, s'.cache.inflight.lookup key = some c → s'.publishing ≠ some c →
    (s.cache.cell c).value.isSome → s.cache.inflight.lookup key = some c ∧
      s.publishing ≠ some c := by exact fun _ _ hk hp _ => ⟨hk, hp⟩
  entry : ∀ key entry, s'.cache.inner.entries.lookup key = some entry →
    s.cache.inner.entries.lookup key = some entry := by exact fun _ _ he => he
  locked : s'.cache.lock = none → s'.publishing = none

omit [DecidableEq ι] in
theorem Kept.mono (h : Kept load s) (hs : Settles s s') : Kept load s' := by
  obtain ⟨hvalue, hrunning, hfetches, hkeyOf, hfetched, hpromoted, hheld, hslot, hunpublished,
    hentry, hlocked⟩ := hs
  have hfills (n : Nat) (c : CellId) (hf : s'.Fills n c) : s.Fills n c := by
    unfold Fills at hf ⊢
    rw [hvalue, hrunning] at hf
    exact hf
  have hpromoted' (v : Produced V) : s'.Promoted v ↔ s.Promoted v := by
    unfold Promoted
    rw [hpromoted]
  have hincell (m : ι) (v : Produced V) (hv : s.InCell load m v) : s'.InCell load m v := by
    obtain ⟨c, hc, hkey⟩ := hv
    exact ⟨c, (hvalue c).trans hc, hkeyOf c _ (by rw [hc]; rfl) hkey⟩
  constructor
  case number => exact fun n c hf => hfetches ▸ h.number n c (hfills n c hf)
  case unique => exact fun n c c' hf hf' => h.unique n c c' (hfills n c hf) (hfills n c' hf')
  case fetched => exact fun m v hv => hincell m v (h.fetched m v (hfetched ▸ hv))
  case promoted => exact fun m v hv => hincell m v (h.promoted m v (hpromoted ▸ hv))
  case once => exact hpromoted ▸ h.once
  case fetcher =>
    intro c v hv
    rw [hfetched]
    exact h.fetcher c v ((hvalue c).symm.trans hv)
  case unkept =>
    intro m v hv
    rw [hfetched] at hv
    rw [hpromoted']
    rcases h.unkept m v hv with hdone | ⟨c, hc, hmem⟩
    · exact .inl hdone
    · exact (hheld m c v hv hc hmem).imp_right fun hmem' => ⟨c, (hvalue c).trans hc, hmem'⟩
  case slot =>
    intro c v hv
    have hv' := (hvalue c).symm.trans hv
    rw [hpromoted']
    rcases h.slot c v hv' with hdone | ⟨key, hkey⟩
    · exact .inl hdone
    · exact hslot key c v hv' hkey
  case unpublished =>
    intro key c v hkey hv hpub
    have hv' := (hvalue c).symm.trans hv
    rw [hpromoted']
    obtain ⟨hkey', hpub'⟩ := hunpublished key c hkey hpub (by rw [hv']; rfl)
    exact h.unpublished key c v hkey' hv' hpub'
  case entry => exact fun key entry he => (hpromoted' _).mpr (h.entry key entry (hentry key entry he))
  case locked => exact hlocked

theorem At.inner (h : At load m R H L F s) (inner : Lru K (CacheEntry (Produced V)))
    (hinner : ∀ key entry, inner.entries.lookup key = some entry →
      s.cache.inner.entries.lookup key = some entry) :
    Moved load m R H L F s { s with cache := { s.cache with inner := inner } } := by
  have hc := h.counted
  refine ⟨⟨⟨⟨hc.blank.cell, hc.blank.slot⟩, hc.slot, hc.held, hc.late, hc.refs, hc.waiting,
    hc.running⟩, ?_, h.held, h.late, h.mine, h.running⟩, ?_⟩
  · exact h.kept.mono { entry := hinner, locked := h.kept.locked }
  · exact { cache := CacheState.step_inner fun key entry he => .inl (hinner key entry he) }

omit [DecidableEq ι] [DecidableEq K] in
theorem refs_updateCell {cache : CacheState ι K (Produced V)}
    {f : Cell ι (Produced V) → Cell ι (Produced V)} (c' : CellId) :
    ((cache.updateCell c f).cell c').refs =
      if c' = c then (f (cache.cell c)).refs else (cache.cell c').refs := by
  unfold CacheState.updateCell
  by_cases h : c' = c
  · subst h
    rw [if_pos rfl]
    simp
  · rw [if_neg h]
    simp [Function.update_of_ne h]

omit [DecidableEq ι] [DecidableEq K] in
theorem mem_cons_held (hj : (j, d) ∈ (m, c) :: held) : (j = m ∧ d = c) ∨ (j, d) ∈ held :=
  (List.mem_cons.mp hj).imp_left Prod.mk.inj

theorem At.hold (h : At load m R H L F s) (hkey : s.keyOf c = some (load m))
    (hmade : c < s.cache.cells)
    (hslot : (s.cache.cell c).value = none → s.cache.inflight.lookup (load m) = some c) :
    Moved load m R ((m, c) :: H) L F s { s with cache := s.cache.addRef c, held := (m, c) :: s.held } := by
  have hc := h.counted
  have hdropped := CacheState.dropped_addRef s.cache c
  have hstep : CacheState.Step m s.cache (s.cache.addRef c) := hdropped.step fun _ _ _ => rfl
  refine ⟨⟨⟨hc.blank.step hstep, hc.slot, fun j d hj => ?_, hc.late, fun key d hd => ?_,
    fun j d hj hv => ?_, fun d who n hr => ?_⟩, ?_, ?_, h.late, h.mine,
    fun d n hr => h.running d n ((hdropped.running d).symm.trans hr)⟩, ?_⟩
  · rcases mem_cons_held hj with ⟨rfl, rfl⟩ | hold
    · exact ⟨hkey, hmade⟩
    · exact hc.held j d hold
  · show ((s.cache.updateCell c fun cell => { cell with refs := cell.refs + 1 }).cell d).refs =
      1 + countOf ((m, c) :: s.held) d + countOf s.late d
    have hrefs := hc.refs key d hd
    rw [refs_updateCell, countOf_cons]
    by_cases hcd : d = c
    · rw [if_pos hcd, if_pos hcd, ← hcd]
      show (s.cache.cell d).refs + 1 = _
      omega
    · rw [if_neg hcd, if_neg hcd]
      omega
  · have hv' : (s.cache.cell d).value = none := (hdropped.value d).symm.trans hv
    rcases mem_cons_held hj with ⟨rfl, rfl⟩ | hold
    · exact hslot hv'
    · exact hc.waiting j d hold hv'
  · obtain ⟨hmem', hvalue⟩ := hc.running d who n ((hdropped.running d).symm.trans hr)
    exact ⟨List.mem_cons_of_mem _ hmem', (hdropped.value d).trans hvalue⟩
  · exact h.kept.mono { hdropped with
      fetches := rfl
      held := fun _ _ _ _ _ hm => .inr (List.mem_cons_of_mem _ hm)
      locked := h.kept.locked }
  · exact (own_cons_self m c s.held).trans (congrArg _ h.held)
  · exact {
      cache := hstep
      held := fun j hj => own_cons_of_ne hj c s.held
      running := fun _ d _ _ hr => (hdropped.running d).symm.trans hr }

/-! ### A cell for a key that has none -/

def begun (load : ι → K) (m : ι) (s : Flight ι K V) : Flight ι K V :=
  { s with
    cache := s.cache.newCell (load m)
    keyOf := Function.update s.keyOf s.cache.cells (some (load m))
    held := (m, s.cache.cells) :: s.held }

section Begin

omit [DecidableEq ι]

theorem cell_begun (hd : d ≠ s.cache.cells) : (begun load m s).cache.cell d = s.cache.cell d :=
  Function.update_of_ne hd _ _

theorem newCell_begun : (begun load m s).cache.cell s.cache.cells = ⟨none, none, 2⟩ :=
  Function.update_self ..

theorem value_begun (hblank : s.cache.Blank) (d : CellId) :
    ((begun load m s).cache.cell d).value = (s.cache.cell d).value := by
  by_cases hd : d = s.cache.cells
  · rw [hd, newCell_begun, (hblank.cell _ (Nat.le_refl _)).1]
  · rw [cell_begun hd]

theorem running_begun (hblank : s.cache.Blank) (d : CellId) :
    ((begun load m s).cache.cell d).running = (s.cache.cell d).running := by
  by_cases hd : d = s.cache.cells
  · rw [hd, newCell_begun, (hblank.cell _ (Nat.le_refl _)).2]
  · rw [cell_begun hd]

theorem lookup_begun (key : K) : (begun load m s).cache.inflight.lookup key =
    if key = load m then some s.cache.cells else s.cache.inflight.lookup key := by
  by_cases hkey : key = load m
  · rw [if_pos hkey, hkey]
    exact AList.lookup_insert _
  · rw [if_neg hkey]
    exact AList.lookup_insert_ne hkey

theorem slot_begun {key : K} (hd : (begun load m s).cache.inflight.lookup key = some d) :
    (key = load m ∧ d = s.cache.cells) ∨ s.cache.inflight.lookup key = some d := by
  rw [lookup_begun] at hd
  split at hd
  · next hkey => exact .inl ⟨hkey, (Option.some.inj hd).symm⟩
  · exact .inr hd

theorem keyOf_begun (hd : d < s.cache.cells) : (begun load m s).keyOf d = s.keyOf d :=
  Function.update_of_ne (Nat.ne_of_lt hd) _ _

theorem Counted.begin (h : Counted load s) (hlock : s.cache.lock = none)
    (hnone : s.cache.inflight.lookup (load m) = none) : Counted load (begun load m s) := by
  constructor
  case blank => exact h.blank.step (CacheState.step_newCell (m := m) h.blank hlock)
  case slot =>
    intro key d hd
    rcases slot_begun hd with ⟨rfl, rfl⟩ | hd'
    · exact Function.update_self ..
    · exact (keyOf_begun (h.blank.slot key d hd')).trans (h.slot key d hd')
  case held =>
    intro j d hj
    rcases mem_cons_held hj with ⟨rfl, rfl⟩ | hj'
    · exact ⟨Function.update_self .., Nat.lt_succ_self _⟩
    · obtain ⟨hk, hlt⟩ := h.held j d hj'
      exact ⟨(keyOf_begun hlt).trans hk, Nat.lt_succ_of_lt hlt⟩
  case late => exact fun j d hj => Nat.lt_succ_of_lt (h.late j d hj)
  case refs =>
    intro key d hd
    show _ = 1 + countOf ((m, s.cache.cells) :: s.held) d + countOf s.late d
    rw [countOf_cons]
    rcases slot_begun hd with ⟨-, rfl⟩ | hd'
    · -- the new cell is nobody's so far
      rw [newCell_begun, if_pos rfl, countOf_eq_zero fun j hj => Nat.lt_irrefl _ (h.held j _ hj).2,
        countOf_eq_zero fun j hj => Nat.lt_irrefl _ (h.late j _ hj)]
    · have hne : d ≠ s.cache.cells := Nat.ne_of_lt (h.blank.slot key d hd')
      rw [cell_begun hne, if_neg hne]
      exact h.refs key d hd'
  case waiting =>
    intro j d hj hv
    rw [lookup_begun]
    rcases mem_cons_held hj with ⟨rfl, rfl⟩ | hj'
    · rw [if_pos rfl]
    · have hslot := h.waiting j d hj' ((value_begun h.blank d).symm.trans hv)
      rw [if_neg]
      · exact hslot
      · intro heq
        rw [heq, hnone] at hslot
        cases hslot
  case running =>
    intro d who n hr
    obtain ⟨hj, hv⟩ := h.running d who n ((running_begun h.blank d).symm.trans hr)
    exact ⟨List.mem_cons_of_mem _ hj, (value_begun h.blank d).trans hv⟩

theorem Kept.begin (h : Kept load s) (hblank : s.cache.Blank)
    (hnone : s.cache.inflight.lookup (load m) = none) : Kept load (begun load m s) := by
  have hnew {d : CellId} (hsome : (s.cache.cell d).value.isSome) : d ≠ s.cache.cells := by
    rintro rfl
    rw [(hblank.cell _ (Nat.le_refl _)).1] at hsome
    cases hsome
  refine h.mono {
    value := value_begun hblank
    running := running_begun hblank
    keyOf := fun d key hsome hk => (Function.update_of_ne (hnew hsome) _ _).trans hk
    held := fun _ _ _ _ _ hm => .inr (List.mem_cons_of_mem _ hm)
    slot := fun key d _ _ hk => .inr ⟨key, ?_⟩
    unpublished := fun key d hk hp hsome =>
      ⟨(slot_begun hk).resolve_left fun hmine => hnew hsome hmine.2, hp⟩
    locked := h.locked }
  rw [lookup_begun, if_neg]
  · exact hk
  · rintro rfl
    rw [hnone] at hk
    cases hk

end Begin

theorem At.begin (h : At load m R H L F s) (hlock : s.cache.lock = none)
    (hnone : s.cache.inflight.lookup (load m) = none) :
    Moved load m R ((m, s.cache.cells) :: H) L F s (begun load m s) := by
  have hblank := h.counted.blank
  refine ⟨⟨h.counted.begin hlock hnone, h.kept.begin hblank hnone,
    (own_cons_self m s.cache.cells s.held).trans (congrArg _ h.held), h.late, h.mine,
    fun d n hr => h.running d n ((running_begun hblank d).symm.trans hr)⟩, ?_⟩
  exact {
    cache := CacheState.step_newCell hblank hlock
    held := fun j hj => own_cons_of_ne hj _ s.held
    running := fun _ d _ _ hr => (running_begun hblank d).symm.trans hr }

theorem At.claim (h : At load m R H L F s) (hlock : s.cache.lock = none) :
    Moved load m R ((m, (s.cache.claim (load m)).1) :: H) L F s { s with
      cache := (s.cache.claim (load m)).2
      keyOf := Function.update s.keyOf (s.cache.claim (load m)).1 (some (load m))
      held := (m, (s.cache.claim (load m)).1) :: s.held } ∧
    Slots m s { s with
      cache := (s.cache.claim (load m)).2
      keyOf := Function.update s.keyOf (s.cache.claim (load m)).1 (some (load m))
      held := (m, (s.cache.claim (load m)).1) :: s.held } := by
  unfold CacheState.claim
  cases hslot : s.cache.inflight.lookup (load m) with
  | some c =>
    have hkey := h.counted.slot (load m) c hslot
    have hmoved := h.hold hkey (h.counted.blank.slot (load m) c hslot) fun _ => hslot
    have hsame : Function.update s.keyOf c (some (load m)) = s.keyOf := by
      rw [← hkey]
      exact Function.update_eq_self c s.keyOf
    simp only [hsame]
    exact ⟨hmoved, slots_of_grow (fun _ _ hd => .inl hd) fun _ hp => List.mem_cons_of_mem _ hp⟩
  | none =>
    refine ⟨h.begin hlock hslot, slots_of_grow (fun key d hd => ?_) fun _ hp => List.mem_cons_of_mem _ hp⟩
    by_cases hkey : key = load m
    · rw [hkey] at hd
      have hnew : s.cache.cells = d := Option.some.inj ((AList.lookup_insert _).symm.trans hd)
      exact .inr (hnew ▸ List.mem_cons_self)
    · exact .inl ((AList.lookup_insert_ne hkey).symm.trans hd)

/-! ### A fetch that starts or ends -/

def recelled (c : CellId) (x : Cell ι (Produced V)) (fetches : Nat) (s : Flight ι K V) :
    Flight ι K V :=
  { s with cache := { s.cache with cell := Function.update s.cache.cell c x, fetches := fetches } }

/-- A step on one cell that leaves its value and its references: a fetch of the caller starts in it
or ends. -/
structure Refetches (m : ι) (c : CellId) (x : Cell ι (Produced V)) (fetches : Nat)
    (s : Flight ι K V) : Prop where
  fetches_le : s.cache.fetches ≤ fetches
  value : x.value = (s.cache.cell c).value
  refs : x.refs = (s.cache.cell c).refs
  starts : ∀ who n, x.running = some (who, n) → who = m ∧ n = s.cache.fetches ∧ n < fetches ∧
    (m, c) ∈ s.held ∧ (s.cache.cell c).value = none
  own : ∀ who n, who ≠ m → (s.cache.cell c).running ≠ some (who, n)

namespace Refetches

variable {x : Cell ι (Produced V)} {fetches n : Nat} {who : ι} (hx : Refetches m c x fetches s)
include hx

omit [DecidableEq ι]

omit [DecidableEq K] in
theorem value_eq (d : CellId) :
    ((s.recelled c x fetches).cache.cell d).value = (s.cache.cell d).value := by
  show (Function.update s.cache.cell c x d).value = _
  by_cases hd : d = c
  · rw [hd, Function.update_self, hx.value]
  · rw [Function.update_of_ne hd]

omit [DecidableEq K] in
theorem refs_eq (d : CellId) :
    ((s.recelled c x fetches).cache.cell d).refs = (s.cache.cell d).refs := by
  show (Function.update s.cache.cell c x d).refs = _
  by_cases hd : d = c
  · rw [hd, Function.update_self, hx.refs]
  · rw [Function.update_of_ne hd]

omit [DecidableEq K] in
theorem running_cases
    (hr : ((s.recelled c x fetches).cache.cell d).running = some (who, n)) :
    (s.cache.cell d).running = some (who, n) ∨ d = c ∧ who = m ∧ n = s.cache.fetches ∧
      n < fetches ∧ (m, c) ∈ s.held ∧ (s.cache.cell c).value = none := by
  change (Function.update s.cache.cell c x d).running = some (who, n) at hr
  by_cases hd : d = c
  · rw [hd, Function.update_self] at hr
    exact .inr ⟨hd, hx.starts who n hr⟩
  · rw [Function.update_of_ne hd] at hr
    exact .inl hr

theorem step (hc : Counted load s) :
    CacheState.Step m s.cache (s.recelled c x fetches).cache := by
  refine CacheState.step_cell hx.fetches_le (fun v hv => .inl (hx.value ▸ hv))
    (fun v hv => hx.value ▸ hv) (fun who n hr => ?_) fun who n hne hr => absurd hr (hx.own who n hne)
  obtain ⟨-, rfl, -, hmem, -⟩ := hx.starts who n hr
  exact .inr ⟨(hc.held m c hmem).2, rfl⟩

theorem counted (hc : Counted load s) : Counted load (s.recelled c x fetches) := by
  refine ⟨hc.blank.step (hx.step hc), hc.slot, hc.held, hc.late,
    fun key d hd => (hx.refs_eq d).trans (hc.refs key d hd),
    fun j d hj hv => hc.waiting j d hj ((hx.value_eq d).symm.trans hv), fun d who n hr => ?_⟩
  rw [hx.value_eq]
  rcases hx.running_cases hr with hold | ⟨rfl, rfl, -, -, hmem, hnone⟩
  · exact hc.running d who n hold
  · exact ⟨hmem, hnone⟩

omit [DecidableEq K] in
theorem fills (hf : (s.recelled c x fetches).Fills n d) :
    s.Fills n d ∨ n = s.cache.fetches ∧ n < fetches ∧ d = c := by
  rcases hf with ⟨v, hv, hn⟩ | ⟨who, hr⟩
  · exact .inl (.inl ⟨v, (hx.value_eq d).symm.trans hv, hn⟩)
  · rcases hx.running_cases hr with hold | ⟨hd, -, hn, hlt, -⟩
    · exact .inl (.inr ⟨who, hold⟩)
    · exact .inr ⟨hn, hlt, hd⟩

theorem kept (hk : Kept load s) : Kept load (s.recelled c x fetches) := by
  have hincell (j : ι) (v : Produced V) (hv : s.InCell load j v) :
      (s.recelled c x fetches).InCell load j v :=
    hv.imp fun d hd => ⟨(hx.value_eq d).trans hd.1, hd.2⟩
  constructor
  case number =>
    intro n d hf
    rcases hx.fills hf with hold | ⟨-, hlt, -⟩
    · exact Nat.lt_of_lt_of_le (hk.number n d hold) hx.fetches_le
    · exact hlt
  case unique =>
    -- a fetch that starts has a number of its own
    intro n d d' hf hf'
    rcases hx.fills hf with hold | ⟨rfl, -, rfl⟩
    · rcases hx.fills hf' with hold' | ⟨rfl, -⟩
      · exact hk.unique n d d' hold hold'
      · exact absurd (hk.number _ d hold) (Nat.lt_irrefl _)
    · rcases hx.fills hf' with hold' | ⟨-, -, rfl⟩
      · exact absurd (hk.number _ d' hold') (Nat.lt_irrefl _)
      · rfl
  case fetched => exact fun j v hv => hincell j v (hk.fetched j v hv)
  case promoted => exact fun j v hv => hincell j v (hk.promoted j v hv)
  case once => exact hk.once
  case fetcher => exact fun d v hv => hk.fetcher d v ((hx.value_eq d).symm.trans hv)
  case unkept =>
    intro j v hv
    refine (hk.unkept j v hv).imp_right ?_
    rintro ⟨d, hd, hj⟩
    exact ⟨d, (hx.value_eq d).trans hd, hj⟩
  case slot => exact fun d v hv => hk.slot d v ((hx.value_eq d).symm.trans hv)
  case unpublished =>
    exact fun key d v hd hv => hk.unpublished key d v hd ((hx.value_eq d).symm.trans hv)
  case entry => exact hk.entry
  case locked => exact hk.locked

end Refetches

theorem At.recell {R' : List CellId} (h : At load m R H L F s) {x : Cell ι (Produced V)}
    {fetches : Nat} (hx : Refetches m c x fetches s) (hR : ∀ d ∈ R, d ≠ c → d ∈ R')
    (hR' : x.running.isSome → c ∈ R') : Moved load m R' H L F s (s.recelled c x fetches) := by
  refine ⟨⟨hx.counted h.counted, hx.kept h.kept, h.held, h.late, h.mine, fun d n hr => ?_⟩, {
    cache := hx.step h.counted
    running := fun j d n hj hr => (hx.running_cases hr).resolve_right fun hmine => hj hmine.2.1 }⟩
  change (Function.update s.cache.cell c x d).running = some (m, n) at hr
  by_cases hd : d = c
  · rw [hd, Function.update_self] at hr
    rw [hd]
    exact hR' (by rw [hr]; rfl)
  · rw [Function.update_of_ne hd] at hr
    exact hR d (h.running d n hr) hd

theorem At.run (h : At load m [] H L F s) (hmem : (m, c) ∈ s.held)
    (hnone : (s.cache.cell c).value = none) (hfree : (s.cache.cell c).running = none) :
    Moved load m [c] H L F s { s with cache :=
      { s.cache.updateCell c ({ · with running := some (m, s.cache.fetches) }) with
        fetches := s.cache.fetches + 1 } } := by
  refine h.recell ⟨Nat.le_succ _, rfl, rfl, fun who n hr => ?_,
    fun who n _ hr => nomatch hfree.symm.trans hr⟩ nofun fun _ => List.mem_singleton_self c
  obtain ⟨rfl, rfl⟩ := Prod.mk.inj (Option.some.inj hr)
  exact ⟨rfl, rfl, Nat.lt_succ_self _, hmem, hnone⟩

theorem At.stop (h : At load m [c] H L F s) {n : Nat}
    (hrunning : (s.cache.cell c).running = some (m, n)) :
    Moved load m [] H L F s { s with cache := s.cache.updateCell c ({ · with running := none }) } := by
  refine h.recell ⟨Nat.le_refl _, rfl, rfl, nofun, fun who n' hne hr => hne ?_⟩
    (fun d hd hne => absurd (List.mem_singleton.mp hd) hne) nofun
  exact (Prod.mk.inj (Option.some.inj (hr.symm.trans hrunning))).1

/-! ### A fetch that brings a value -/

def filled (m : ι) (c : CellId) (v : Produced V) (s : Flight ι K V) : Flight ι K V :=
  { s with
    cache := s.cache.updateCell c ({ · with value := some v, running := none })
    fetched := (m, v) :: s.fetched }

section Fill

omit [DecidableEq ι]

omit [DecidableEq K] in
theorem value_filled (d : CellId) : ((filled m c v s).cache.cell d).value =
    if d = c then some v else (s.cache.cell d).value := by
  unfold filled
  dsimp only
  rw [CacheState.value_updateCell]

omit [DecidableEq K] in
theorem running_filled {who : ι} {n : Nat}
    (hr : ((filled m c v s).cache.cell d).running = some (who, n)) :
    d ≠ c ∧ (s.cache.cell d).running = some (who, n) := by
  unfold filled at hr
  dsimp only at hr
  rw [CacheState.running_updateCell] at hr
  split at hr
  · cases hr
  · next hd => exact ⟨hd, hr⟩

omit [DecidableEq K] in
theorem refs_filled (d : CellId) :
    ((filled m c v s).cache.cell d).refs = (s.cache.cell d).refs := by
  unfold filled
  dsimp only
  rw [refs_updateCell]
  split
  · next hd => rw [hd]
  · rfl

omit [DecidableEq K] in
/-- A value that was there before is in another cell. -/
theorem value_filled_of_some {v' : Produced V} (hnone : (s.cache.cell c).value = none)
    (hv : (s.cache.cell d).value = some v') :
    ((filled m c v s).cache.cell d).value = some v' := by
  rw [value_filled, if_neg]
  · exact hv
  · rintro rfl
    rw [hnone] at hv
    cases hv

omit [DecidableEq K] in
theorem value_filled_cases {v' : Produced V}
    (hv : ((filled m c v s).cache.cell d).value = some v') :
    (d = c ∧ v' = v) ∨ (s.cache.cell d).value = some v' := by
  rw [value_filled] at hv
  split at hv
  · next hd => exact .inl ⟨hd, (Option.some.inj hv).symm⟩
  · exact .inr hv

variable (hrunning : (s.cache.cell c).running = some (m, v.fetch))
include hrunning

theorem step_filled (hc : Counted load s) :
    CacheState.Step m s.cache (filled m c v s).cache :=
  CacheState.step_cell (Nat.le_refl _)
    (fun v' hv' => .inr (by rw [← Option.some.inj hv']; exact hrunning))
    (fun v' hv' => nomatch (hc.running c m v.fetch hrunning).2.symm.trans hv') nofun
    fun who n hne hr => (hne (Prod.mk.inj (Option.some.inj (hr.symm.trans hrunning))).1).elim

theorem Counted.fill (hc : Counted load s) : Counted load (filled m c v s) := by
  refine ⟨hc.blank.step (step_filled hrunning hc), hc.slot, hc.held, hc.late,
    fun key d hd => (refs_filled d).trans (hc.refs key d hd),
    fun j d hj hv => hc.waiting j d hj ?_, fun d who n hr => ?_⟩
  · cases hd : (s.cache.cell d).value with
    | none => rfl
    | some v' =>
      exact nomatch (value_filled_of_some (hc.running c m v.fetch hrunning).2 hd).symm.trans hv
  · obtain ⟨hd, hr'⟩ := running_filled hr
    rw [value_filled, if_neg hd]
    exact hc.running d who n hr'

omit [DecidableEq K] in
theorem fills_of_filled {n : Nat} (hf : (filled m c v s).Fills n d) : s.Fills n d := by
  rcases hf with ⟨v', hv, hn⟩ | ⟨who, hr⟩
  · rcases value_filled_cases hv with ⟨rfl, rfl⟩ | hv'
    · exact .inr ⟨m, hn ▸ hrunning⟩
    · exact .inl ⟨v', hv', hn⟩
  · exact .inr ⟨who, (running_filled hr).2⟩

theorem Kept.fill (hk : Kept load s) (hc : Counted load s) : Kept load (filled m c v s) := by
  obtain ⟨hmem, hnone⟩ := hc.running c m v.fetch hrunning
  have hincell (j : ι) (v' : Produced V) (hv : s.InCell load j v') :
      (filled m c v s).InCell load j v' :=
    hv.imp fun d hd => ⟨value_filled_of_some hnone hd.1, hd.2⟩
  have hfilled : ((filled m c v s).cache.cell c).value = some v := by rw [value_filled, if_pos rfl]
  constructor
  case number => exact fun n d hf => hk.number n d (fills_of_filled hrunning hf)
  case unique =>
    exact fun n d d' hf hf' =>
      hk.unique n d d' (fills_of_filled hrunning hf) (fills_of_filled hrunning hf')
  case fetched =>
    intro j v' hv
    rcases List.mem_cons.mp hv with heq | hv
    · obtain ⟨rfl, rfl⟩ := Prod.mk.inj heq
      exact ⟨c, hfilled, (hc.held j c hmem).1⟩
    · exact hincell j v' (hk.fetched j v' hv)
  case promoted => exact fun j v' hv => hincell j v' (hk.promoted j v' hv)
  case once => exact hk.once
  case fetcher =>
    intro d v' hv
    rcases value_filled_cases hv with ⟨-, rfl⟩ | hv'
    · exact ⟨m, List.mem_cons_self⟩
    · exact (hk.fetcher d v' hv').imp fun _ hj => List.mem_cons_of_mem _ hj
  case unkept =>
    intro j v' hv
    rcases List.mem_cons.mp hv with heq | hv
    · obtain ⟨rfl, rfl⟩ := Prod.mk.inj heq
      exact .inr ⟨c, hfilled, hmem⟩
    · refine (hk.unkept j v' hv).imp_right ?_
      rintro ⟨d, hd, hj⟩
      exact ⟨d, value_filled_of_some hnone hd, hj⟩
  case slot =>
    intro d v' hv
    rcases value_filled_cases hv with ⟨rfl, rfl⟩ | hv'
    · exact .inr ⟨load m, hc.waiting m d hmem hnone⟩
    · exact hk.slot d v' hv'
  case unpublished =>
    intro key d v' hd hv hpub
    rcases value_filled_cases hv with ⟨rfl, rfl⟩ | hv'
    · -- a value that was put in the cache has filled its cell before
      rintro ⟨j, hj⟩
      obtain ⟨d', hd', -⟩ := hk.promoted j v' hj
      obtain rfl := hk.unique _ d' d (.inl ⟨v', hd', rfl⟩) (.inr ⟨m, hrunning⟩)
      exact nomatch hnone.symm.trans hd'
    · exact hk.unpublished key d v' hd hv' hpub
  case entry => exact hk.entry
  case locked => exact hk.locked

end Fill

theorem At.fill (h : At load m [c] H L [] s)
    (hrunning : (s.cache.cell c).running = some (m, v.fetch)) :
    Moved load m [] H L [v] s (filled m c v s) := by
  refine ⟨⟨h.counted.fill hrunning, h.kept.fill hrunning h.counted, h.held, h.late,
    fun v' hv => ?_, fun d n hr => ?_⟩, {
      cache := step_filled hrunning h.counted
      fetched := fun j v' hj hv =>
        (List.mem_cons.mp hv).resolve_left fun heq => hj (Prod.mk.inj heq).1
      running := fun j d n _ hr => (running_filled hr).2 }⟩
  · rcases hv with hv | hv
    · rcases List.mem_cons.mp hv with heq | hv
      · rw [(Prod.mk.inj heq).2]
        exact List.mem_singleton_self v
      · exact absurd (h.mine v' (.inl hv)) List.not_mem_nil
    · exact absurd (h.mine v' (.inr hv)) List.not_mem_nil
  · obtain ⟨hd, hr'⟩ := running_filled hr
    exact absurd (List.mem_singleton.mp (h.running d n hr')) hd

theorem At.lock (h : At load m R H L F s) (hlock : s.cache.lock = none) (c : CellId) :
    Moved load m R H L F s { s with cache := { s.cache with lock := some m }, publishing := some c } := by
  have hc := h.counted
  refine ⟨⟨⟨⟨hc.blank.cell, hc.blank.slot⟩, hc.slot, hc.held, hc.late, hc.refs, hc.waiting,
    hc.running⟩, ?_, h.held, h.late, h.mine, h.running⟩, ?_⟩
  · refine h.kept.mono { unpublished := fun _ d hk _ _ => ⟨hk, ?_⟩, locked := nofun }
    rw [h.kept.locked hlock]
    exact nofun
  · have hfree (j : ι) (hj : s.cache.lock = some j) : False := nomatch hlock.symm.trans hj
    exact {
      cache := { CacheState.Step.refl m s.cache with
        locked := fun who _ hwho => (hfree who hwho).elim }
      locked := fun j _ hj => (hfree j hj).elim }

omit [DecidableEq ι] in
theorem Kept.put (hk : Kept load s) (hown : s.keyOf c = some (load m))
    (hpub : s.publishing = some c) (hv : (s.cache.cell c).value = some v) (hnot : ¬s.Promoted v)
    (expiry : Int) :
    Kept load { s with
      cache := { s.cache with inner := s.cache.inner.put (load m) ⟨v, expiry⟩ }
      promoted := (m, v) :: s.promoted } := by
  have hmono (v' : Produced V) (hv' : s.Promoted v') : ∃ j, (j, v') ∈ (m, v) :: s.promoted :=
    hv'.imp fun _ hj => List.mem_cons_of_mem _ hj
  constructor
  case number => exact hk.number
  case unique => exact hk.unique
  case fetched => exact hk.fetched
  case promoted =>
    intro j v' hv'
    rcases List.mem_cons.mp hv' with heq | hv'
    · obtain ⟨rfl, rfl⟩ := Prod.mk.inj heq
      exact ⟨c, hv, hown⟩
    · exact hk.promoted j v' hv'
  case once =>
    -- a fetch fills one cell, so another value has another number
    refine List.nodup_cons.mpr ⟨fun hin => ?_, hk.once⟩
    obtain ⟨⟨j, v'⟩, hj, hfetch⟩ := List.mem_map.mp hin
    obtain ⟨d, hd, -⟩ := hk.promoted j v' hj
    obtain rfl := hk.unique v.fetch d c (.inl ⟨v', hd, hfetch⟩) (.inl ⟨v, hv, rfl⟩)
    obtain rfl := Option.some.inj (hd.symm.trans hv)
    exact hnot ⟨j, hj⟩
  case fetcher => exact hk.fetcher
  case unkept => exact fun j v' hv' => (hk.unkept j v' hv').imp_left (hmono v')
  case slot => exact fun d v' hv' => (hk.slot d v' hv').imp_left (hmono v')
  case unpublished =>
    rintro key d v' hd hv' hpub' ⟨j, hj⟩
    rcases List.mem_cons.mp hj with heq | hj
    · obtain ⟨-, rfl⟩ := Prod.mk.inj heq
      obtain rfl := hk.unique v'.fetch d c (.inl ⟨v', hv', rfl⟩) (.inl ⟨v', hv, rfl⟩)
      exact hpub' hpub
    · exact hk.unpublished key d v' hd hv' hpub' ⟨j, hj⟩
  case entry =>
    intro key entry he
    rcases Lru.lookup_put he with ⟨-, rfl⟩ | hold
    · exact ⟨m, List.mem_cons_self⟩
    · exact hmono _ (hk.entry key entry hold)
  case locked => exact hk.locked

theorem At.put (h : At load m R H L F s) (hF : ∀ v' ∈ F, v' = v) (hmem : (m, c) ∈ s.held)
    (hlock : s.cache.lock = some m) (hpub : s.publishing = some c)
    (hslot : s.cache.inflight.lookup (load m) = some c) (hv : (s.cache.cell c).value = some v)
    (hnot : ¬s.Promoted v) (expiry : Int) :
    Moved load m R H L [v] s { s with
      cache := { s.cache with inner := s.cache.inner.put (load m) ⟨v, expiry⟩ }
      promoted := (m, v) :: s.promoted } := by
  have hc := h.counted
  have hkept := h.kept.put (hc.held m c hmem).1 hpub hv hnot expiry
  refine ⟨⟨⟨⟨hc.blank.cell, hc.blank.slot⟩, hc.slot, hc.held, hc.late, hc.refs, hc.waiting,
    hc.running⟩, hkept, h.held, h.late, fun v' hv' => ?_, h.running⟩, ?_⟩
  · refine List.mem_singleton.mpr ?_
    rcases hv' with hv' | hv'
    · exact hF v' (h.mine v' (.inl hv'))
    · rcases List.mem_cons.mp hv' with heq | hv'
      · exact (Prod.mk.inj heq).2
      · exact hF v' (h.mine v' (.inr hv'))
  · refine {
      cache := CacheState.step_inner fun key entry he => ?_
      promoted := fun j v' hj hv' => ?_
      kept := fun _ hp => List.mem_cons_of_mem _ hp
      locked := fun j hj hlock' => ?_ }
    · rcases Lru.lookup_put he with ⟨rfl, rfl⟩ | hold
      · exact .inr ⟨c, hslot, hv⟩
      · exact .inl hold
    · exact (List.mem_cons.mp hv').resolve_left fun heq => hj (Prod.mk.inj heq).1
    · exact absurd (Option.some.inj (hlock'.symm.trans hlock)) hj

omit [DecidableEq ι] in
theorem Counted.dropSlot (h : Counted load s) {key : K}
    (hslot : s.cache.inflight.lookup key = some c)
    (hfree : ∀ j, (j, c) ∈ s.held → (s.cache.cell c).value ≠ none) :
    Counted load { s with cache := s.cache.dropSlot key } := by
  have hdropped := CacheState.dropped_dropSlot s.cache key
  have hrefs (key' : K) (d : CellId) (hkey : key' ≠ key)
      (hd : s.cache.inflight.lookup key' = some d) :
      ((s.cache.dropSlot key).cell d).refs = (s.cache.cell d).refs := by
    have hne : d ≠ c := by
      rintro rfl
      exact hkey (Option.some.inj ((h.slot key' d hd).symm.trans (h.slot key d hslot)))
    unfold CacheState.dropSlot
    rw [hslot]
    refine (refs_updateCell (f := fun cell => { cell with refs := cell.refs - 1 }) d).trans ?_
    rw [if_neg hne]
  have hlookup (key' : K) (d : CellId)
      (hd : (s.cache.dropSlot key).inflight.lookup key' = some d) :
      key' ≠ key ∧ s.cache.inflight.lookup key' = some d := by
    rw [CacheState.lookup_dropSlot] at hd
    split at hd
    · cases hd
    · next hne => exact ⟨hne, hd⟩
  have hcells : (s.cache.dropSlot key).cells = s.cache.cells := hdropped.cells
  refine ⟨⟨fun d hd => ?_, fun key' d hd => ?_⟩, fun key' d hd => h.slot key' d (hlookup key' d hd).2,
    fun j d hj => hcells ▸ h.held j d hj, fun j d hj => hcells ▸ h.late j d hj,
    fun key' d hd => ?_, fun j d hj hv => ?_, fun d who n hr => ?_⟩
  · rw [hdropped.value, hdropped.running]
    exact h.blank.cell d (hcells ▸ hd)
  · exact hcells ▸ h.blank.slot key' d (hlookup key' d hd).2
  · obtain ⟨hne, hd'⟩ := hlookup key' d hd
    exact (hrefs key' d hne hd').trans (h.refs key' d hd')
  · have hv' : (s.cache.cell d).value = none := (hdropped.value d).symm.trans hv
    have hslot' := h.waiting j d hj hv'
    show (s.cache.dropSlot key).inflight.lookup (load j) = some d
    rw [CacheState.lookup_dropSlot, if_neg]
    · exact hslot'
    · intro heq
      rw [heq, hslot] at hslot'
      obtain rfl := Option.some.inj hslot'
      exact hfree j hj hv'
  · obtain ⟨hj, hv⟩ := h.running d who n ((hdropped.running d).symm.trans hr)
    exact ⟨hj, (hdropped.value d).trans hv⟩

omit [DecidableEq ι] in
theorem Kept.dropSlot (h : Kept load s) {key : K} (hslot : s.cache.inflight.lookup key = some c)
    (hdone : ∀ v, (s.cache.cell c).value = some v → s.Promoted v) :
    Kept load { s with cache := s.cache.dropSlot key } := by
  have hdropped := CacheState.dropped_dropSlot s.cache key
  refine h.mono { hdropped with
    slot := fun key' d v hv hd => ?_
    unpublished := fun key' d hd hp _ => ⟨hdropped.inflight key' d hd, hp⟩
    entry := fun _ _ he => hdropped.inner ▸ he
    locked := fun hlock => h.locked (hdropped.lock ▸ hlock) }
  by_cases hkey : key' = key
  · rw [hkey, hslot] at hd
    obtain rfl := Option.some.inj hd
    exact .inl (hdone v hv)
  · refine .inr ⟨key', ?_⟩
    show (s.cache.dropSlot key).inflight.lookup key' = some d
    rw [CacheState.lookup_dropSlot, if_neg hkey]
    exact hd

theorem At.unslot (h : At load m R H L F s) (hlock : s.cache.lock = some m)
    (hpub : s.publishing = some c) (hslot : s.cache.inflight.lookup (load m) = some c)
    (hv : (s.cache.cell c).value = some v) (hdone : s.Promoted v) :
    Moved load m R H L F s { s with
      cache := { s.cache.dropSlot (load m) with lock := none }, publishing := none } := by
  have hdropped := CacheState.dropped_dropSlot s.cache (load m)
  have hc := h.counted.dropSlot hslot (fun _ _ hnone => nomatch hnone.symm.trans hv)
  have hk := h.kept.dropSlot hslot (fun v' hv' => by
    rw [← Option.some.inj (hv.symm.trans hv')]
    exact hdone)
  refine ⟨⟨⟨⟨hc.blank.cell, hc.blank.slot⟩, hc.slot, hc.held, hc.late, hc.refs, hc.waiting,
    hc.running⟩, ?_, h.held, h.late, h.mine,
    fun d n hr => h.running d n ((hdropped.running d).symm.trans hr)⟩, ?_⟩
  · refine hk.mono {
      unpublished := fun key d hd _ _ => ⟨hd, fun hpub' => ?_⟩
      locked := fun _ => rfl }
    -- the cell that was being published is not a key's any more
    obtain rfl : c = d := Option.some.inj (hpub.symm.trans hpub')
    have hd' : s.cache.inflight.lookup key = some c := hdropped.inflight key c hd
    obtain rfl : key = load m :=
      Option.some.inj ((h.counted.slot key c hd').symm.trans (h.counted.slot _ c hslot))
    have hnone := (CacheState.lookup_dropSlot : (s.cache.dropSlot (load m)).inflight.lookup (load m) = _).trans
      (if_pos rfl)
    exact nomatch hnone.symm.trans hd
  · have hmine (j : ι) (hj : j ≠ m) (hlock' : s.cache.lock = some j) : False :=
      hj (Option.some.inj (hlock'.symm.trans hlock))
    have hstep := hdropped.step (m := m) fun who hne hwho => (hmine who hne hwho).elim
    exact {
      cache := { hstep with locked := fun who hne hwho => (hmine who hne hwho).elim }
      running := fun _ d _ _ hr => (hdropped.running d).symm.trans hr
      locked := fun j hj hlock' => (hmine j hj hlock').elim }

theorem filter_eq_of_own (hown : own m held = [(m, c), (m, c)]) :
    held.filter (· = (m, c)) = [(m, c), (m, c)] := by
  have hfilter : held.filter (· = (m, c)) = (own m held).filter (· = (m, c)) := by
    unfold own
    rw [List.filter_filter]
    refine List.filter_congr fun p _ => ?_
    by_cases hp : p = (m, c)
    · simp [hp]
    · simp [hp]
  rw [hfilter, hown]
  simp

theorem own_filter_ne_self (hown : own m held = [(m, c), (m, c)]) :
    own m (held.filter (· ≠ (m, c))) = [] := by
  have hcomm : own m (held.filter (· ≠ (m, c))) = (own m held).filter (· ≠ (m, c)) :=
    List.filter_comm ..
  rw [hcomm, hown]
  simp

theorem own_filter_ne (hj : j ≠ m) (c : CellId) (held : List (ι × CellId)) :
    own j (held.filter (· ≠ (m, c))) = own j held := by
  unfold own
  rw [List.filter_filter]
  refine List.filter_congr fun p _ => ?_
  by_cases hp : p.1 = j
  · have hne : p ≠ (m, c) := by
      rintro rfl
      exact hj hp.symm
    simp [hp, hne]
  · simp [hp]

theorem countOf_leave (m : ι) (c d : CellId) (held late : List (ι × CellId)) :
    countOf (held.filter (· ≠ (m, c))) d + countOf (held.filter (· = (m, c)) ++ late) d =
      countOf held d + countOf late d := by
  have hsplit := countOf_filter (fun p => decide (p = (m, c))) held d
  have hne : held.filter (fun p => !decide (p = (m, c))) = held.filter (· ≠ (m, c)) :=
    List.filter_congr fun p _ => (decide_not).symm
  rw [hne] at hsplit
  rw [countOf_append]
  omega

theorem Counted.depart (h : Counted load s) (hidle : ∀ d n, (s.cache.cell d).running ≠ some (m, n))
    (c : CellId) :
    Counted load { s with
      held := s.held.filter (· ≠ (m, c)), late := s.held.filter (· = (m, c)) ++ s.late } := by
  refine ⟨h.blank, h.slot, fun j d hj => h.held j d (List.mem_filter.mp hj).1, fun j d hj => ?_,
    fun key d hd => ?_, fun j d hj => h.waiting j d (List.mem_filter.mp hj).1,
    fun d who n hr => ?_⟩
  · rcases List.mem_append.mp hj with hj | hj
    · exact (h.held j d (List.mem_filter.mp hj).1).2
    · exact h.late j d hj
  · have hcount := countOf_leave m c d s.held s.late
    have hrefs := h.refs key d hd
    show (s.cache.cell d).refs = 1 + countOf (s.held.filter (· ≠ (m, c))) d +
      countOf (s.held.filter (· = (m, c)) ++ s.late) d
    omega
  · obtain ⟨hj, hv⟩ := h.running d who n hr
    refine ⟨List.mem_filter.mpr ⟨hj, decide_eq_true ?_⟩, hv⟩
    intro heq
    rw [(Prod.mk.inj heq).1] at hr
    exact hidle d n hr

theorem Kept.depart (h : Kept load s) (hdone : ∀ v, (m, v) ∈ s.fetched → s.Promoted v)
    (c : CellId) :
    Kept load { s with
      held := s.held.filter (· ≠ (m, c)), late := s.held.filter (· = (m, c)) ++ s.late } := by
  refine h.mono { held := fun j d v hv _ hj => ?_, locked := h.locked }
  by_cases hjm : j = m
  · exact .inl (hdone v (hjm ▸ hv))
  · refine .inr (List.mem_filter.mpr ⟨hj, decide_eq_true ?_⟩)
    intro heq
    exact hjm (Prod.mk.inj heq).1

/-- A caller's guard runs: its references are counted apart, and the slot goes if no other caller
has any. What it fetched is in the cache by then. -/
theorem At.leave (h : At load m [] [(m, c), (m, c)] [] F s) (hdone : ∀ v ∈ F, s.Promoted v)
    (hlock : s.cache.lock = none) {cache : CacheState ι K (Produced V)}
    (hcache : cache = if s.cache.inflight.lookup (load m) = some c ∧
      (s.cache.cell c).refs ≤ idleCellRefs then s.cache.dropSlot (load m) else s.cache) :
    Moved load m [] [] [(m, c), (m, c)] F s { s with
      cache := cache
      held := s.held.filter (· ≠ (m, c))
      late := s.held.filter (· = (m, c)) ++ s.late } ∧
    ∀ key, cache.inflight.lookup key = some c →
      (∃ j, j ≠ m ∧ (j, c) ∈ s.held) ∨ ∃ j, (j, c) ∈ s.late := by
  have hidle (d : CellId) (n : Nat) : (s.cache.cell d).running ≠ some (m, n) :=
    fun hr => List.not_mem_nil (h.running d n hr)
  have hcounted := h.counted.depart hidle c
  have hkept := h.kept.depart (fun v hv => hdone v (h.mine v (.inl hv))) c
  have hmoved := filter_eq_of_own h.held
  have hheld (j : ι) (hj : j ≠ m) := own_filter_ne hj c s.held
  have hlate (j : ι) (hj : j ≠ m) : own j (s.held.filter (· = (m, c)) ++ s.late) = own j s.late := by
    rw [hmoved]
    exact (own_cons_of_ne hj c _).trans (own_cons_of_ne hj c _)
  have hmine : own m (s.held.filter (· = (m, c)) ++ s.late) = [(m, c), (m, c)] := by
    have hself := (own_cons_self m c ((m, c) :: s.late)).trans
      (congrArg _ ((own_cons_self m c s.late).trans (congrArg _ h.late)))
    rw [hmoved]
    exact hself
  have hmem : (m, c) ∈ s.held := mem_of_own h.held List.mem_cons_self
  -- the count without the caller's own two
  have hcount : s.cache.inflight.lookup (load m) = some c →
      (s.cache.cell c).refs = 3 + countOf (s.held.filter (· ≠ (m, c))) c + countOf s.late c := by
    intro hslot
    have hrefs := hcounted.refs (load m) c hslot
    have htwo : countOf [(m, c), (m, c)] c = 2 := by simp [countOf]
    change (s.cache.cell c).refs = 1 + countOf (s.held.filter (· ≠ (m, c))) c +
      countOf (s.held.filter (· = (m, c)) ++ s.late) c at hrefs
    rw [hmoved, countOf_append, htwo] at hrefs
    omega
  split at hcache
  · next hlast =>
    obtain ⟨hslot, hrefs⟩ := hlast
    rw [hcount hslot] at hrefs
    have hnobody (j : ι) : (j, c) ∉ s.held.filter (· ≠ (m, c)) := by
      intro hj
      have hpos := countOf_pos hj
      unfold idleCellRefs at hrefs
      omega
    have hdropped := CacheState.dropped_dropSlot s.cache (load m)
    have hc := hcounted.dropSlot hslot fun j hj => absurd hj (hnobody j)
    have hk := hkept.dropSlot hslot (fun v hv => by
      obtain ⟨j, hj⟩ := hkept.fetcher c v hv
      refine (hkept.unkept j v hj).resolve_right ?_
      rintro ⟨d, hd, hj'⟩
      obtain rfl := hkept.unique v.fetch d c (.inl ⟨v, hd, rfl⟩) (.inl ⟨v, hv, rfl⟩)
      exact hnobody j hj')
    subst hcache
    refine ⟨⟨⟨hc, hk, own_filter_ne_self h.held, hmine, h.mine, fun d n hr =>
      absurd ((hdropped.running d).symm.trans hr) (hidle d n)⟩, ?_⟩, fun key hkey => ?_⟩
    · exact {
        cache := hdropped.step (fun _ _ hwho => nomatch hlock.symm.trans hwho)
        held := hheld
        late := hlate
        running := fun _ d _ _ hr => (hdropped.running d).symm.trans hr }
    · have hkey' : key = load m := Option.some.inj
        ((h.counted.slot key c (hdropped.inflight key c hkey)).symm.trans
          (h.counted.slot _ c hslot))
      rw [CacheState.lookup_dropSlot, if_pos hkey'] at hkey
      cases hkey
  · next hnot =>
    subst hcache
    refine ⟨⟨⟨hcounted, hkept, own_filter_ne_self h.held, hmine, h.mine, h.running⟩,
      { cache := .refl m s.cache, held := hheld, late := hlate }⟩, fun key hkey => ?_⟩
    -- the slot stays because somebody else is counted
    obtain rfl : key = load m := Option.some.inj
      ((h.counted.slot key c hkey).symm.trans (h.counted.held m c hmem).1)
    have hrefs := hcount hkey
    have hmore : idleCellRefs < (s.cache.cell c).refs :=
      Nat.lt_of_not_le fun hle => hnot ⟨hkey, hle⟩
    unfold idleCellRefs at hmore
    by_cases hothers : countOf (s.held.filter (· ≠ (m, c))) c = 0
    · have hpos : 0 < countOf s.late c := by omega
      obtain ⟨p, hp, hpc⟩ := List.countP_pos_iff.mp hpos
      rw [decide_eq_true_eq] at hpc
      exact .inr ⟨p.1, by rw [← hpc]; exact hp⟩
    · obtain ⟨p, hp, hpc⟩ := List.countP_pos_iff.mp (Nat.pos_of_ne_zero hothers)
      rw [decide_eq_true_eq] at hpc
      obtain ⟨hp', hne⟩ := List.mem_filter.mp hp
      refine .inl ⟨p.1, fun hpm => of_decide_eq_true hne ?_, by rw [← hpc]; exact hp'⟩
      rw [← hpm, ← hpc]

theorem At.release (h : At load m R H ((m, c) :: L) F s) :
    Moved load m R H L F s { s with cache := s.cache.dropRef c, late := s.late.erase (m, c) } := by
  have hc := h.counted
  have hmem : (m, c) ∈ s.late := mem_of_own h.late List.mem_cons_self
  have hdropped := CacheState.dropped_dropRef s.cache c
  have hstep : CacheState.Step m s.cache (s.cache.dropRef c) := hdropped.step fun _ _ _ => rfl
  have hown (j : ι) : own j (s.late.erase (m, c)) = (own j s.late).erase (m, c) :=
    (List.erase_filter ..).symm
  refine ⟨⟨⟨hc.blank.step hstep, hc.slot, hc.held, fun j d hj => hc.late j d (List.mem_of_mem_erase hj),
    fun key d hd => ?_, fun j d hj hv => hc.waiting j d hj ((hdropped.value d).symm.trans hv),
    fun d who n hr => ?_⟩, ?_, h.held, ?_, h.mine,
    fun d n hr => h.running d n ((hdropped.running d).symm.trans hr)⟩, ?_⟩
  · have hrefs := hc.refs key d hd
    show ((s.cache.updateCell c fun cell => { cell with refs := cell.refs - 1 }).cell d).refs =
      1 + countOf s.held d + countOf (s.late.erase (m, c)) d
    have herase : countOf (s.late.erase (m, c)) d = countOf s.late d - if d = c then 1 else 0 := by
      unfold countOf
      rw [List.countP_erase]
      by_cases hdc : d = c
      · simp [hdc, hmem]
      · simp [hdc, Ne.symm hdc]
    rw [refs_updateCell, herase]
    by_cases hdc : d = c
    · have hpos : 0 < countOf s.late d := countOf_pos (hdc ▸ hmem)
      rw [if_pos hdc, if_pos hdc, ← hdc]
      show (s.cache.cell d).refs - 1 = _
      omega
    · rw [if_neg hdc, if_neg hdc]
      omega
  · obtain ⟨hj, hv⟩ := hc.running d who n ((hdropped.running d).symm.trans hr)
    exact ⟨hj, (hdropped.value d).trans hv⟩
  · exact h.kept.mono { hdropped with fetches := rfl, locked := h.kept.locked }
  · show own m (s.late.erase (m, c)) = L
    rw [hown, h.late, List.erase_cons_head]
  · refine {
      cache := hstep
      late := fun j hj => ?_
      running := fun _ d _ _ hr => (hdropped.running d).symm.trans hr }
    show own j (s.late.erase (m, c)) = own j s.late
    rw [hown, List.erase_of_not_mem]
    intro hin
    exact hj (of_decide_eq_true (List.mem_filter.mp hin).2).symm

end Flight

end Axess
