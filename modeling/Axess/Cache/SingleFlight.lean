import Axess.Cache.Flight

/-!
# One fetch at a time, and no load left behind

Any number of callers load keys of the cache; their fetchers succeed, fail, panic or are abandoned.
At most one fetcher of a key runs at a moment, and what it fetched is put in the cache once. The
load of a key whose callers have all gone is out of the map, unless two guards ran so close that each
counted the other's references.
-/

namespace Axess

open Calls Maps

namespace Flight

variable {ι K V Err α : Type} [DecidableEq ι] [DecidableEq K] {load : ι → K} {s s' : Flight ι K V}
  {m : ι} {c : CellId} {v : Produced V} {H L : List (ι × CellId)} {F : List (Produced V)}
  {R : List CellId} {P : Flight ι K V → Prop}

/-! ## The calls of one caller -/

abbrev SafeAt (load : ι → K) (m : ι) (Q : α → Flight ι K V → Prop)
    (p : CacheProg K (Produced V) Err α) (s : Flight ι K V) : Prop :=
  p.Safe (sem m) (Pool.others (Guarantee load) m) (Guarantee load m) Q s

def Lasting (m : ι) (P : Flight ι K V → Prop) : Prop :=
  ∀ j s s', j ≠ m → Frame j s s' → P s → P s'

theorem lasting_true : Lasting m fun _ : Flight ι K V => True := fun _ _ _ _ _ _ => trivial

theorem lasting_promoted (Good : Produced V → Prop) :
    Lasting (K := K) m fun s : Flight ι K V => ∀ v, Good v → s.Promoted v :=
  fun _ _ _ _ hframe h v hv => (h v hv).imp fun _ hj => hframe.kept _ hj

theorem lasting_value (c : CellId) (v : Produced V) :
    Lasting m fun s : Flight ι K V => (s.cache.cell c).value = some v :=
  fun _ _ _ _ hframe h => hframe.cache.stored c v h

theorem perform_safe {Q : α → Flight ι K V → Prop} {e : CacheCall K (Produced V)}
    {f : e.Answer Err → CacheProg K (Produced V) Err α} (hP : Lasting m P)
    (hs : At load m R H L F s ∧ P s)
    (hstep : ∀ s a cache, At load m R H L F s → P s → CacheState.sem m e s.cache a cache →
      Guarantee load m s (note m e a s cache) ∧ SafeAt load m Q (f a) (note m e a s cache)) :
    SafeAt load m Q (ClockTtlCache.call e >>= f) s := by
  refine Prog.Safe.perform_bind _ (at_stable hP) hs ?_
  rintro s a s' ⟨hat, hp⟩ ⟨cache, hX, rfl⟩
  exact hstep s a cache hat hp hX

theorem ret_safe {Q : α → Flight ι K V → Prop} {r : α} (hP : Lasting m P)
    (hs : At load m R H L F s ∧ P s) (hQ : ∀ s, At load m R H L F s ∧ P s → Q r s) :
    SafeAt load m Q (.ret r : CacheProg K (Produced V) Err α) s :=
  Prog.Safe.ret _ (at_stable hP) hs hQ

theorem At.guarantee (h : At load m R H L F s') (hframe : Frame m s s')
    (hslots : Slots m s s' := by exact slots_of_same rfl rfl) :
    Guarantee load m s s' :=
  fun _ => ⟨⟨h.counted, h.kept⟩, hframe, hslots⟩

theorem get_safe (hs : At load m R H L F s) :
    SafeAt load m (fun r s => At load m R H L F s ∧ ∀ v, r = some v → s.Promoted v)
      (ClockTtlCache.get (load m) : CacheProg K (Produced V) Err _) s := by
  refine perform_safe lasting_true ⟨hs, trivial⟩ ?_
  rintro s (now : Instant) cache hs - hX
  obtain rfl : cache = s.cache := hX
  obtain ⟨hs', hframe⟩ := hs.inner s.cache.inner fun _ _ he => he
  refine ⟨hs'.guarantee hframe, ?_⟩
  refine Prog.Safe.call _ (at_stable lasting_true) ⟨hs', trivial⟩ ?_
  rintro s (r : Option (Produced V)) s' ⟨hs, -⟩ ⟨cache, ⟨hr, rfl⟩, rfl⟩
  obtain ⟨hs', hframe⟩ := hs.inner _ fun _ _ => CacheState.lookup_readEntry
  refine ⟨hs'.guarantee hframe, ?_⟩
  refine Prog.Safe.ret _ (at_stable (lasting_promoted fun v => r = some v))
    ⟨hs', fun v hv => ?_⟩ fun _ h => h
  obtain ⟨entry, hentry, rfl⟩ := CacheState.readEntry_some (hr.symm.trans hv)
  exact hs.kept.entry (load m) entry hentry

theorem At.mono (h : At load m R H L F s) {F' : List (Produced V)} (hF : ∀ v ∈ F, v ∈ F') :
    At load m R H L F' s :=
  { h with mine := fun v hv => hF v (h.mine v hv) }

structure Publishing (load : ι → K) (m : ι) (c : CellId) (v : Produced V) (s : Flight ι K V) :
    Prop where
  lock : s.cache.lock = some m
  cell : s.publishing = some c
  slot : s.cache.inflight.lookup (load m) = some c
  value : (s.cache.cell c).value = some v

theorem Publishing.frame {j : ι} (h : Publishing load m c v s) (hj : j ≠ m) (hframe : Frame j s s') :
    Publishing load m c v s' ∧ s'.promoted = s.promoted := by
  obtain ⟨hlock, hinflight⟩ := hframe.cache.locked m hj.symm h.lock
  obtain ⟨hpromoted, hcell⟩ := hframe.locked m hj.symm h.lock
  exact ⟨⟨hlock, hcell.trans h.cell, hinflight ▸ h.slot, hframe.cache.stored c v h.value⟩,
    hpromoted⟩

theorem lasting_unpublished :
    Lasting m fun s : Flight ι K V => Publishing load m c v s ∧ ¬s.Promoted v := by
  rintro j s s' hj hframe ⟨hp, hnot⟩
  obtain ⟨hp', hsame⟩ := hp.frame hj hframe
  refine ⟨hp', ?_⟩
  unfold Promoted
  rw [hsame]
  exact hnot

theorem lasting_published :
    Lasting m fun s : Flight ι K V => Publishing load m c v s ∧ s.Promoted v :=
  fun _ _ _ hj hframe h => ⟨(h.1.frame hj hframe).1, h.2.imp fun _ hp => hframe.kept _ hp⟩

theorem publish_safe (ttlMicros : Nat) (hF : ∀ v' ∈ F, v' = v)
    (hs : At load m [] [(m, c), (m, c)] [] F s ∧ (s.cache.cell c).value = some v) :
    SafeAt load m (fun _ s => At load m [] [(m, c), (m, c)] [] [v] s ∧
        ∀ v', v' = v → s.Promoted v')
      (ClockTtlCache.publish ttlMicros (load m) c v : CacheProg K (Produced V) Err _) s := by
  have hpromoted := lasting_promoted (K := K) (m := m) fun v' : Produced V => v' = v
  refine perform_safe (lasting_value c v) hs ?_
  rintro s (current : Bool) cache hs hv ⟨hlock, hcurrent, rfl⟩
  have hheld : (m, c) ∈ s.held := mem_of_own hs.held List.mem_cons_self
  cases current with
  | false =>
    -- another caller has ended the load, and put its value in the cache
    have hslot : s.cache.inflight.lookup (load m) ≠ some c := of_decide_eq_false hcurrent.symm
    refine ⟨hs.guarantee { cache := .refl m s.cache }, ?_⟩
    · refine ret_safe hpromoted ⟨hs.mono fun v' hv' => ?_, ?_⟩ fun _ h => h
      · rw [hF v' hv']
        exact List.mem_singleton_self v
      · intro v' heq
        rw [heq]
        refine (hs.kept.slot c v hv).resolve_right ?_
        rintro ⟨key, hkey⟩
        have hown := (hs.counted.held m c hheld).1
        rw [Option.some.inj ((hs.counted.slot key c hkey).symm.trans hown)] at hkey
        exact hslot hkey
  | true =>
    have hslot : s.cache.inflight.lookup (load m) = some c := of_decide_eq_true hcurrent.symm
    obtain ⟨hs', hframe⟩ := hs.lock hlock c
    refine ⟨hs'.guarantee hframe, ?_⟩
    have hnew : ¬s.Promoted v := by
      refine hs.kept.unpublished (load m) c v hslot hv ?_
      rw [hs.kept.locked hlock]
      exact nofun
    refine perform_safe (e := .clock) lasting_unpublished ⟨hs', ⟨rfl, rfl, hslot, hv⟩, hnew⟩ ?_
    rintro s (now : Instant) cache hs hp hX
    obtain rfl : cache = s.cache := hX
    obtain ⟨hs', hframe⟩ := hs.inner s.cache.inner fun _ _ he => he
    refine ⟨hs'.guarantee hframe, ?_⟩
    refine perform_safe (e := .put ..) lasting_unpublished ⟨hs', hp⟩ ?_
    rintro s _ cache hs ⟨hp, hnew⟩ hX
    obtain rfl := hX
    obtain ⟨hs', hframe⟩ := hs.put hF (mem_of_own hs.held List.mem_cons_self) hp.lock hp.cell hp.slot
      hp.value hnew _
    refine ⟨hs'.guarantee hframe, ?_⟩
    refine Prog.Safe.call _ (at_stable lasting_published)
      ⟨hs', ⟨hp.lock, hp.cell, hp.slot, hp.value⟩, m, List.mem_cons_self⟩ ?_
    rintro s _ s' ⟨hs, hp, hdone⟩ ⟨cache, ⟨-, rfl⟩, rfl⟩
    obtain ⟨hs', hframe⟩ := hs.unslot hp.lock hp.cell hp.slot hp.value hdone
    refine ⟨hs'.guarantee hframe (slots_of_grow (fun key d hd => .inl ?_) fun _ hin => hin), ?_⟩
    · exact (CacheState.dropped_dropSlot s.cache (load m)).inflight key d hd
    · refine Prog.Safe.ret _ (at_stable hpromoted) ⟨hs', ?_⟩ fun _ h => h
      intro v' heq
      rw [heq]
      exact hdone

structure Returned (load : ι → K) (m : ι) (r : Option (Except Err (Produced V)))
    (s : Flight ι K V) : Prop where
  here : At load m [] [] [] (match r with | some (.ok v) => [v] | _ => []) s
  value : ∀ v, r = some (.ok v) → s.Promoted v

theorem leave_safe {r : Option (Except Err (Produced V))}
    (hF : F = match r with | some (.ok v) => [v] | _ => [])
    (hs : At load m [] [(m, c), (m, c)] [] F s ∧ ∀ v, r = some (.ok v) → s.Promoted v) :
    SafeAt load m (Returned load m) (do
      ClockTtlCache.leave (load m) c
      pure r : CacheProg K (Produced V) Err _) s := by
  have hdone := lasting_promoted (K := K) (m := m) fun v : Produced V => r = some (Except.ok v)
  have hmine (v : Produced V) (hv : v ∈ F) : r = some (.ok v) := by
    rw [hF] at hv
    split at hv
    · rw [List.mem_singleton.mp hv]
    · cases hv
  refine perform_safe (e := .leaveSlot (load m) c) hdone hs ?_
  rintro s _ cache hs hp ⟨hlock, hcache⟩
  obtain ⟨⟨hs', hframe⟩, hstay⟩ := hs.leave (fun v hv => hp v (hmine v hv)) hlock hcache
  refine ⟨hs'.guarantee hframe ⟨fun key d hd => .inl ?_, fun p hin hne => ?_,
    fun key d hin hout hd => ?_⟩, ?_⟩
  · change cache.inflight.lookup key = some d at hd
    rw [hcache] at hd
    split at hd
    · exact (CacheState.dropped_dropSlot s.cache (load m)).inflight key d hd
    · exact hd
  · refine List.mem_filter.mpr ⟨hin, decide_eq_true ?_⟩
    rintro rfl
    exact hne rfl
  · have hdc : d = c := by
      by_contra hne
      exact hout (List.mem_filter.mpr ⟨hin, decide_eq_true fun heq => hne (Prod.mk.inj heq).2⟩)
    subst hdc
    exact hstay key hd
  refine perform_safe (e := .release c) hdone ⟨hs', hp⟩ ?_
  rintro s _ cache hs hp hX
  obtain rfl := hX
  obtain ⟨hs', hframe⟩ := hs.release
  refine ⟨hs'.guarantee hframe, ?_⟩
  refine perform_safe (e := .release c) hdone ⟨hs', hp⟩ ?_
  rintro s _ cache hs hp hX
  obtain rfl := hX
  obtain ⟨hs', hframe⟩ := hs.release
  refine ⟨hs'.guarantee hframe, ?_⟩
  exact ret_safe hdone ⟨hs', hp⟩ fun s h => ⟨hF ▸ h.1, h.2⟩

theorem publish_leave_safe (ttlMicros : Nat) (hF : ∀ v' ∈ F, v' = v)
    (hs : At load m [] [(m, c), (m, c)] [] F s ∧ (s.cache.cell c).value = some v) :
    SafeAt load m (Returned load m) (do
      ClockTtlCache.publish ttlMicros (load m) c v
      ClockTtlCache.leave (load m) c
      pure (some (.ok v)) : CacheProg K (Produced V) Err (Option (Except Err (Produced V)))) s := by
  refine Prog.Safe.bind (publish_safe ttlMicros hF hs) fun _ s h => leave_safe rfl ⟨h.1, ?_⟩
  intro v' hv'
  exact h.2 v' (Except.ok.inj (Option.some.inj hv')).symm

theorem getOrTryInsertWith_safe (ttlMicros : Nat) (hs : At load m [] [] [] [] s) :
    SafeAt load m (Returned load m) (ClockTtlCache.getOrTryInsertWith ttlMicros (load m) :
      CacheProg K (Produced V) Err (Option (Except Err (Produced V)))) s := by
  refine Prog.Safe.bind (get_safe hs) fun found s hfound => ?_
  obtain ⟨hs, hgood⟩ := hfound
  cases found with
  | some v =>
    refine ret_safe (lasting_promoted fun v' => some v = some v') ⟨hs, hgood⟩ fun s h =>
      ⟨h.1.mono nofun, fun v' hv' => h.2 v' ?_⟩
    exact congrArg some (Except.ok.inj (Option.some.inj hv'))
  | none =>
  refine perform_safe (e := .claim (load m)) lasting_true ⟨hs, trivial⟩ ?_
  rintro s (c : CellId) cache hs - ⟨hlock, rfl, rfl⟩
  obtain ⟨⟨hs', hframe⟩, hslots⟩ := hs.claim hlock
  set c := (s.cache.claim (load m)).1
  refine ⟨hs'.guarantee hframe hslots, ?_⟩
  refine perform_safe (e := .clone c) lasting_true ⟨hs', trivial⟩ ?_
  rintro s _ cache hs - hX
  obtain rfl := hX
  have hmem : (m, c) ∈ s.held := mem_of_own hs.held List.mem_cons_self
  obtain ⟨hkey, hmade⟩ := hs.counted.held m c hmem
  obtain ⟨hs', hframe⟩ := hs.hold hkey hmade (hs.counted.waiting m c hmem)
  refine ⟨hs'.guarantee hframe (slots_of_grow (fun _ _ hd => .inl hd)
    fun _ hp => List.mem_cons_of_mem _ hp), ?_⟩
  refine perform_safe (e := .enter c) lasting_true ⟨hs', trivial⟩ ?_
  rintro s (entered : CellEntered (Produced V)) cache hs - hX
  have hmem : (m, c) ∈ s.held := mem_of_own hs.held List.mem_cons_self
  cases entered with
  | value v =>
    obtain ⟨hv, rfl⟩ := hX
    obtain ⟨hs', hframe⟩ := hs.inner s.cache.inner fun _ _ he => he
    exact ⟨hs'.guarantee hframe,
      publish_leave_safe ttlMicros (fun _ hv' => absurd hv' List.not_mem_nil) ⟨hs', hv⟩⟩
  | cancelled =>
    obtain rfl : cache = s.cache := hX
    obtain ⟨hs', hframe⟩ := hs.inner s.cache.inner fun _ _ he => he
    exact ⟨hs'.guarantee hframe, leave_safe rfl ⟨hs', fun _ hr => by cases hr⟩⟩
  | run =>
  obtain ⟨hnone, hfree, rfl⟩ := hX
  obtain ⟨hs', hframe⟩ := hs.run hmem hnone hfree
  refine ⟨hs'.guarantee hframe, ?_⟩
  refine perform_safe (e := .fetch c) lasting_true ⟨hs', trivial⟩ ?_
  rintro s (fetched : Fetched (Produced V) Err) cache hs - ⟨n, hrunning, hX⟩
  cases fetched with
  | ok v =>
    obtain ⟨rfl, rfl⟩ := hX
    obtain ⟨hs', hframe⟩ := hs.fill hrunning
    refine ⟨hs'.guarantee hframe, ?_⟩
    exact publish_leave_safe ttlMicros (fun _ hv => List.mem_singleton.mp hv)
      ⟨hs', by simp [note, CacheState.updateCell]⟩
  | error e =>
    obtain rfl := hX
    obtain ⟨hs', hframe⟩ := hs.stop hrunning
    exact ⟨hs'.guarantee hframe, leave_safe rfl ⟨hs', fun _ hr => by cases hr⟩⟩
  | panicked =>
    obtain rfl := hX
    obtain ⟨hs', hframe⟩ := hs.stop hrunning
    exact ⟨hs'.guarantee hframe, leave_safe rfl ⟨hs', fun _ hr => by cases hr⟩⟩
  | cancelled =>
    obtain rfl := hX
    obtain ⟨hs', hframe⟩ := hs.stop hrunning
    exact ⟨hs'.guarantee hframe, leave_safe rfl ⟨hs', fun _ hr => by cases hr⟩⟩

omit [DecidableEq ι] in
theorem counted_start (load : ι → K) (cap : Nat) (pos : 0 < cap) :
    Counted load (start cap pos : Flight ι K V) :=
  ⟨CacheState.blank_start cap pos, nofun, nofun, nofun, nofun, nofun, nofun⟩

omit [DecidableEq ι] in
theorem kept_start (load : ι → K) (cap : Nat) (pos : 0 < cap) :
    Kept load (start cap pos : Flight ι K V) := by
  have hvalue (c : CellId) (v : Produced V) : ((start cap pos : Flight ι K V).cache.cell c).value ≠
      some v := nofun
  have hfills (n : Nat) (c : CellId) : ¬Fills (start cap pos : Flight ι K V) n c := by
    rintro (⟨v, hv, -⟩ | ⟨who, hr⟩)
    · exact hvalue c v hv
    · cases hr
  exact ⟨fun n c hf => (hfills n c hf).elim, fun n c _ hf => (hfills n c hf).elim, nofun, nofun,
    List.nodup_nil, fun c v hv => (hvalue c v hv).elim, nofun, fun c v hv => (hvalue c v hv).elim,
    nofun, nofun, fun _ => rfl⟩

theorem at_start (load : ι → K) (m : ι) (cap : Nat) (pos : 0 < cap) :
    At load m [] [] [] [] (start cap pos : Flight ι K V) :=
  ⟨counted_start load cap pos, kept_start load cap pos, rfl, rfl, nofun, nofun⟩

def loads (Err : Type) (load : ι → K) (ttlMicros cap : Nat) (pos : 0 < cap) :
    Pool ι (CacheCall K (Produced V)) (CacheCall.Answer Err) (Option (Except Err (Produced V)))
      (Flight ι K V) :=
  ⟨fun i => ClockTtlCache.getOrTryInsertWith ttlMicros (load i), .start cap pos⟩

theorem loads_safe (load : ι → K) (ttlMicros cap : Nat) (pos : 0 < cap) :
    Pool.AllSafe sem (Guarantee load) (Returned load)
      (loads Err load ttlMicros cap pos : Pool ι (CacheCall K (Produced V)) _ _ _) :=
  fun i => getOrTryInsertWith_safe ttlMicros (at_start load i cap pos)

/-- When the last caller of a cell that is in a slot runs its guard, no caller that has left has a
reference. -/
def Careful (m : ι) : CacheCall K (Produced V) → Flight ι K V → Prop
  | .leaveSlot _ c, s => (∃ key, s.cache.inflight.lookup key = some c) →
    (∃ j, j ≠ m ∧ (j, c) ∈ s.held) ∨ ∀ j, (j, c) ∉ s.late
  | _, _ => True

def careful (m : ι) : Sem (CacheCall K (Produced V)) (CacheCall.Answer Err) (Flight ι K V) :=
  fun e s a s' => sem m e s a s' ∧ Careful m e s

/-- A caller that leaves a slot is not the last one, or is counted alone. -/
def Alone (m : ι) (s s' : Flight ι K V) : Prop :=
  ∀ c, (m, c) ∈ s.held → (m, c) ∉ s'.held → (∃ key, s.cache.inflight.lookup key = some c) →
    (∃ j, j ≠ m ∧ (j, c) ∈ s.held) ∨ ∀ j, (j, c) ∉ s.late

theorem alone_of_careful {e : CacheCall K (Produced V)} {a : e.Answer Err}
    (h : careful m e s a s') : Alone m s s' := by
  obtain ⟨⟨cache, -, rfl⟩, hcareful⟩ := h
  intro c hin hout
  cases e
  case leaveSlot key d =>
    by_cases hcd : c = d
    · subst hcd
      exact hcareful
    · have hne : (m, c) ≠ (m, d) := fun heq => hcd (Prod.mk.inj heq).2
      exact absurd (List.mem_filter.mpr ⟨hin, decide_eq_true hne⟩) hout
  case claim => exact absurd (List.mem_cons_of_mem _ hin) hout
  case clone => exact absurd (List.mem_cons_of_mem _ hin) hout
  case fetch => cases a <;> exact absurd hin hout
  all_goals exact absurd hin hout

def Waited (s : Flight ι K V) : Prop :=
  ∀ key c, s.cache.inflight.lookup key = some c → ∃ j, (j, c) ∈ s.held

theorem Waited.step (h : Waited s) (hslots : Slots m s s') (halone : Alone m s s') : Waited s' := by
  intro key c hkey
  rcases hslots.slot key c hkey with hold | hnew
  · obtain ⟨j, hj⟩ := h key c hold
    by_cases hjm : j = m
    · subst hjm
      by_cases hstays : (j, c) ∈ s'.held
      · exact ⟨j, hstays⟩
      · -- the slot outlasts the guard of the caller, so another caller waits
        have hother : ∃ k, k ≠ j ∧ (k, c) ∈ s.held := by
          rcases halone c hj hstays ⟨key, hold⟩ with hother | hnone
          · exact hother
          · exact (hslots.left key c hj hstays hkey).resolve_right fun hlate =>
              hlate.elim hnone
        obtain ⟨k, hk, hin⟩ := hother
        exact ⟨k, hslots.stay _ hin hk⟩
    · exact ⟨j, hslots.stay _ hj hjm⟩
  · exact ⟨m, hnew⟩

end Flight

/-! ## The loads -/

namespace Crowded

def cacheAnswer (m : Fin 3) (succeeds : Bool) : (e : CacheCall Unit (Produced Unit)) →
    Overtaken.State → e.Answer Unit × Overtaken.State
  | .fetch c, s =>
    if succeeds then CacheState.answer Unit m () (.fetch c) s
    else (.error (), s.updateCell c ({ · with running := none }))
  | e, s => CacheState.answer Unit m () e s

def answering : Pool.Answerer (Fin 3) Bool (CacheCall Unit (Produced Unit)) (CacheCall.Answer Unit)
    (Flight (Fin 3) Unit Unit) :=
  fun m succeeds e s => ((cacheAnswer m succeeds e s.cache).1,
    Flight.note m e (cacheAnswer m succeeds e s.cache).1 s (cacheAnswer m succeeds e s.cache).2)

def enabled (m : Fin 3) (_ : Bool) (e : CacheCall Unit (Produced Unit))
    (s : Flight (Fin 3) Unit Unit) : Bool :=
  CacheState.enabled m e s.cache

def apart (m : Fin 3) (succeeds : Bool) (e : CacheCall Unit (Produced Unit))
    (s : Flight (Fin 3) Unit Unit) : Bool :=
  enabled m succeeds e s && match e with
    | .leaveSlot .. => s.late.isEmpty
    | _ => true

theorem sem_answering (m : Fin 3) (succeeds : Bool) (e : CacheCall Unit (Produced Unit))
    (s : Flight (Fin 3) Unit Unit) (h : enabled m succeeds e s = true) :
    Flight.sem m e s (answering m succeeds e s).1 (answering m succeeds e s).2 := by
  refine ⟨(cacheAnswer m succeeds e s.cache).2, ?_, rfl⟩
  cases e
  case fetch c =>
    cases succeeds with
    | true => exact CacheState.sem_answer h
    | false =>
      obtain ⟨⟨_, n⟩, hrunning, rfl⟩ := Option.map_eq_some_iff.mp (of_decide_eq_true h)
      exact ⟨n, hrunning, rfl⟩
  all_goals exact CacheState.sem_answer (v := ()) h

theorem careful_answering (m : Fin 3) (succeeds : Bool) (e : CacheCall Unit (Produced Unit))
    (s : Flight (Fin 3) Unit Unit) (h : apart m succeeds e s = true) :
    Flight.careful m e s (answering m succeeds e s).1 (answering m succeeds e s).2 := by
  unfold apart at h
  rw [Bool.and_eq_true] at h
  refine ⟨sem_answering m succeeds e s h.1, ?_⟩
  cases e
  case leaveSlot key c =>
    refine fun _ => .inr fun j hj => ?_
    rw [List.isEmpty_iff.mp h.2] at hj
    exact List.not_mem_nil hj
  all_goals exact trivial

theorem capacity_pos : 0 < 8 := by decide

def start : Pool (Fin 3) (CacheCall Unit (Produced Unit)) (CacheCall.Answer Unit)
    (Option (Except Unit (Produced Unit))) (Flight (Fin 3) Unit Unit) :=
  Flight.loads Unit (fun _ => ()) 60000000 8 capacity_pos

def joined : List (Fin 3 × Bool) := Pool.turns [(5, 0, false), (4, 1, false), (1, 0, false)]

def succeeds : List (Fin 3 × Bool) := joined ++ Pool.turns [(3, 0, false), (9, 1, true)]

def fails : List (Fin 3 × Bool) := joined ++ Pool.turns [(3, 0, false), (5, 1, false)]

/-- Both fail, and each guard runs before the other caller has given its references back. -/
def close : List (Fin 3 × Bool) :=
  joined ++ Pool.turns
    [(2, 1, false), (1, 0, false), (1, 1, false), (2, 0, false), (2, 1, false)]

end Crowded

/-- At most one fetcher of a key runs. A value that was fetched is put in the cache at most once, and
once its fetcher's call has returned exactly once; by a caller of the same key that returns it. -/
theorem loads_are_single_flight {ι K V Err : Type} [DecidableEq ι] [DecidableEq K] {load : ι → K}
    {ttlMicros cap : Nat} {pos : 0 < cap}
    {s : Pool ι (CacheCall K (Produced V)) (CacheCall.Answer Err)
      (Option (Except Err (Produced V))) (Flight ι K V)}
    (hrun : Pool.Reaches Flight.sem (Flight.loads Err load ttlMicros cap pos) s) :
    (∀ i j c d n n', load i = load j → (s.state.cache.cell c).running = some (i, n) →
      (s.state.cache.cell d).running = some (j, n') → i = j ∧ c = d) ∧
    ∀ i v, (i, v) ∈ s.state.fetched →
      (s.state.promoted.map (·.2.fetch)).count v.fetch ≤ 1 ∧
      ((∃ r, s.prog i = .ret r) → (s.state.promoted.map (·.2.fetch)).count v.fetch = 1) ∧
      ∀ j v', (j, v') ∈ s.state.promoted → v'.fetch = v.fetch →
        load j = load i ∧ ∀ r, s.prog j = .ret r → r = some (.ok v) := by
  have hsafe : Pool.AllSafe Flight.sem (Flight.Guarantee load) (Flight.Returned load)
      (Flight.loads Err load ttlMicros cap pos : Pool ι (CacheCall K (Produced V)) _ _ _) :=
    Flight.loads_safe load ttlMicros cap pos
  obtain ⟨hc, hk⟩ : Flight.Counted load s.state ∧ Flight.Kept load s.state :=
    hrun.invariant hsafe (fun _ _ _ hG h => (hG h).1)
      ⟨Flight.counted_start load cap pos, Flight.kept_start load cap pos⟩
  constructor
  · -- both cells are the key's
    intro i j c d n n' hkey hi hj
    obtain ⟨hheld, hnone⟩ := hc.running c i n hi
    obtain ⟨hheld', hnone'⟩ := hc.running d j n' hj
    have hslot := hc.waiting i c hheld hnone
    have hslot' := hc.waiting j d hheld' hnone'
    rw [← hkey, hslot] at hslot'
    obtain rfl := Option.some.inj hslot'
    exact ⟨(Prod.mk.inj (Option.some.inj (hi.symm.trans hj))).1, rfl⟩
  · intro i v hfetched
    obtain ⟨c, hv, hkey⟩ := hk.fetched i v hfetched
    refine ⟨List.nodup_iff_count_le_one.mp hk.once _, ?_, ?_⟩
    · rintro ⟨r, hret⟩
      have hreturned := hrun.post hsafe hret
      have hmine := hreturned.here.mine v (.inl hfetched)
      have hdone : s.state.Promoted v := by
        split at hmine
        · rw [List.mem_singleton.mp hmine]
          exact hreturned.value _ rfl
        · cases hmine
      obtain ⟨j, hj⟩ := hdone
      exact List.count_eq_one_of_mem hk.once (List.mem_map.mpr ⟨(j, v), hj, rfl⟩)
    · intro j v' hj hfetch
      obtain ⟨d, hv', hkey'⟩ := hk.promoted j v' hj
      obtain rfl := hk.unique v.fetch c d (.inl ⟨v, hv, rfl⟩) (.inl ⟨v', hv', hfetch⟩)
      obtain rfl := Option.some.inj (hv.symm.trans hv')
      refine ⟨Option.some.inj (hkey'.symm.trans hkey), fun r hret => ?_⟩
      have hmine := (hrun.post hsafe hret).here.mine v (.inr hj)
      split at hmine
      · rw [List.mem_singleton.mp hmine]
      · cases hmine

open Crowded in
theorem loads_are_single_flight_taken_over :
    let s := Pool.replay answering succeeds start
    (1, ⟨(), 1⟩) ∈ s.state.fetched ∧ (s.state.promoted.map (·.2.fetch)).count 1 = 1 := by
  intro s
  have hrun : Pool.Reaches Flight.sem start s :=
    Pool.reaches_replay_of_admits sem_answering succeeds start (by decide +kernel)
  have hfetched : (1, ⟨(), 1⟩) ∈ s.state.fetched :=
    show _ ∈ [((1 : Fin 3), (⟨(), 1⟩ : Produced Unit))] from List.mem_singleton_self _
  have hret : s.prog 1 = .ret (some (.ok ⟨(), 1⟩)) := Prog.eq_ret_of_returned rfl
  exact ⟨hfetched, ((loads_are_single_flight hrun).2 1 _ hfetched).2.1 ⟨_, hret⟩⟩

/-- In every run in which the last guard of a cell in a slot runs when no caller that has left has a
reference to it: once every caller of a key has returned or not begun, no load of the key is in the map. -/
theorem no_load_is_left_behind {ι K V Err : Type} [DecidableEq ι] [DecidableEq K] {load : ι → K}
    {ttlMicros cap : Nat} {pos : 0 < cap}
    {s : Pool ι (CacheCall K (Produced V)) (CacheCall.Answer Err)
      (Option (Except Err (Produced V))) (Flight ι K V)}
    (hrun : Pool.Reaches Flight.careful (Flight.loads Err load ttlMicros cap pos) s) {key : K}
    (hdone : ∀ i, load i = key → (∃ r, s.prog i = .ret r) ∨
      s.prog i = ClockTtlCache.getOrTryInsertWith ttlMicros (load i)) :
    s.state.cache.inflight.lookup key = none := by
  have hsafe : Pool.AllSafe Flight.careful (fun i w w' => Flight.Guarantee load i w w' ∧
      Flight.Alone i w w') (Flight.Returned load)
      (Flight.loads Err load ttlMicros cap pos : Pool ι (CacheCall K (Produced V)) _ _ _) := by
    intro i
    refine (Flight.loads_safe load ttlMicros cap pos i).restrict
      (fun _ _ _ _ h => ⟨h.1, Flight.alone_of_careful h⟩) ?_
    rintro w w' ⟨j, hj, hG, -⟩
    exact ⟨j, hj, hG⟩
  obtain ⟨⟨hc, -⟩, hwaited⟩ : (Flight.Counted load s.state ∧ Flight.Kept load s.state) ∧
      Flight.Waited s.state := by
    refine hrun.invariant hsafe
      (I := fun w => (Flight.Counted load w ∧ Flight.Kept load w) ∧ Flight.Waited w)
      (fun i w w' hG h => ?_)
      ⟨⟨Flight.counted_start load cap pos, Flight.kept_start load cap pos⟩, nofun⟩
    obtain ⟨hinv, -, hslots⟩ := hG.1 h.1
    exact ⟨hinv, h.2.step hslots hG.2⟩
  cases hslot : s.state.cache.inflight.lookup key with
  | none => rfl
  | some c =>
    -- whoever waits for the cell is a caller of the key that is not done
    obtain ⟨j, hj⟩ := hwaited key c hslot
    have hkey : load j = key :=
      Option.some.inj ((hc.held j c hj).1.symm.trans (hc.slot key c hslot))
    have hown : Flight.own j s.state.held = [] := by
      rcases hdone j hkey with ⟨r, hret⟩ | hidle
      · exact (hrun.post hsafe hret).here.held
      · have hstable : Stable (Pool.others (fun i w w' => Flight.Guarantee load i w w' ∧
            Flight.Alone i w w') j) fun w : Flight ι K V => Flight.At load j [] [] [] [] w ∧ True := by
          rintro w w' hw ⟨k, hk, hG, -⟩
          exact Flight.at_stable Flight.lasting_true hw ⟨k, hk, hG⟩
        exact (hrun.idle hsafe hstable ⟨Flight.at_start load j cap pos, trivial⟩ hidle).1.held
    exact absurd (Flight.mem_own hown hj) List.not_mem_nil

open Crowded in
theorem no_load_is_left_behind_apart :
    (Pool.replay answering fails start).prog 0 = .ret (some (.error ())) ∧
    (Pool.replay answering fails start).prog 1 = .ret (some (.error ())) ∧
    (Pool.replay answering fails start).state.cache.inflight.lookup () = none := by
  have hrun : Pool.Reaches Flight.careful start (Pool.replay answering fails start) :=
    Pool.reaches_replay_of_admits careful_answering fails start (by decide +kernel)
  have hfirst : (Pool.replay answering fails start).prog 0 = .ret (some (.error ())) :=
    Prog.eq_ret_of_returned rfl
  have hsecond : (Pool.replay answering fails start).prog 1 = .ret (some (.error ())) :=
    Prog.eq_ret_of_returned rfl
  refine ⟨hfirst, hsecond, no_load_is_left_behind hrun fun i _ => ?_⟩
  match i with
  | 0 => exact .inl ⟨_, hfirst⟩
  | 1 => exact .inl ⟨_, hsecond⟩
  | 2 => exact .inr (Pool.replay_prog_of_notMem answering fails start (by decide))

open Crowded in
/-- Two callers fail. Each guard counts the references of the other caller, and both leave the slot
to it. -/
theorem load_left_behind :
    ∃ s, Pool.Reaches Flight.sem start s ∧
      (∀ i, (∃ r, s.prog i = .ret r) ∨ s.prog i = start.prog i) ∧
      s.state.cache.inflight.lookup () = some 0 := by
  refine ⟨Pool.replay answering close start,
    Pool.reaches_replay_of_admits sem_answering close start (by decide +kernel), fun i => ?_,
    by decide +kernel⟩
  match i with
  | 0 => exact .inl ⟨some (.error ()), Prog.eq_ret_of_returned rfl⟩
  | 1 => exact .inl ⟨some (.error ()), Prog.eq_ret_of_returned rfl⟩
  | 2 => exact .inr (Pool.replay_prog_of_notMem answering close start (by decide))

end Axess
