import Axess.Calls.Pool
import Axess.Maps.Lru
import Axess.Session.Data

/-!
# A cache that loads each key once

The cache with a time to live and single-flight loads (`axess-cache/src/cache.rs`). Its entries and
its loads in flight are under two locks; a load that publishes its value holds the second and takes
the first. What happens under one lock is one call, so a call is one step of a run; a call that
needs the lock of the loads waits while another holds it.
-/

namespace Axess

open Calls Maps

structure CacheEntry (V : Type) where
  value : V
  expiresAtMicros : Int
  deriving DecidableEq

def i64Max : Int := 2 ^ 63 - 1

def expiresAt (ttlMicros : Nat) (nowMicros : Int) : Int :=
  min (nowMicros + min (ttlMicros : Int) i64Max) i64Max

def timestampMicros (instant : Instant) : Int := instant / 1000

def readEntry {K V : Type} [DecidableEq K] (entries : Lru K (CacheEntry V)) (key : K)
    (nowMicros : Int) : Option V × Lru K (CacheEntry V) :=
  match entries.get key with
  | (some entry, touched) =>
    if nowMicros < entry.expiresAtMicros then (some entry.value, touched)
    else (none, (touched.pop key).2)
  | (none, touched) => (none, (touched.pop key).2)

inductive CellEntered (V : Type) where
  | value (v : V)
  | run
  | cancelled

inductive Fetched (V Err : Type) where
  | ok (v : V)
  | error (e : Err)
  | panicked
  | cancelled

abbrev CellId := Nat

inductive CacheCall (K V : Type) where
  | clock
  | read (key : K) (nowMicros : Int)
  | put (key : K) (value : V) (expiresAtMicros : Int)
  | dropInner (gone : K → CacheEntry V → Bool)
  | dropInflight (covers : K → Bool)
  | claim (key : K)
  | clone (cell : CellId)
  | release (cell : CellId)
  | enter (cell : CellId)
  | fetch (cell : CellId)
  | lockIfCurrent (key : K) (cell : CellId)
  | removeSlot (key : K)
  | leaveSlot (key : K) (cell : CellId)

def CacheCall.Answer {K V : Type} (Err : Type) : CacheCall K V → Type
  | clock => Instant
  | read .. => Option V
  | put .. => Unit
  | dropInner _ => Nat
  | dropInflight _ => Nat
  | claim _ => CellId
  | clone _ => Unit
  | release _ => Unit
  | enter _ => CellEntered V
  | fetch _ => Fetched V Err
  | lockIfCurrent .. => Bool
  | removeSlot _ => Unit
  | leaveSlot .. => Unit

abbrev CacheProg (K V Err α : Type) := Prog (CacheCall K V) (CacheCall.Answer Err) α

namespace ClockTtlCache

variable {K V Err : Type} [DecidableEq K]

def call (e : CacheCall K V) : CacheProg K V Err (e.Answer Err) := Prog.perform e

def get (key : K) : CacheProg K V Err (Option V) := do
  let now : Instant ← call .clock
  call (.read key (timestampMicros now))

def insert (ttlMicros : Nat) (key : K) (value : V) : CacheProg K V Err Unit := do
  let now : Instant ← call .clock
  call (.put key value (expiresAt ttlMicros (timestampMicros now)))

def invalidate (key : K) : CacheProg K V Err Bool := do
  let inflightRemoved : Nat ← call (.dropInflight (· = key))
  let lruRemoved : Nat ← call (.dropInner fun other _ => other = key)
  pure (0 < inflightRemoved || 0 < lruRemoved)

def invalidateBy (predicate : K → Bool) : CacheProg K V Err Nat := do
  let _ ← call (.dropInflight predicate)
  call (.dropInner fun key _ => predicate key)

def invalidateEntriesBy (predicate : K → V → Bool) : CacheProg K V Err Nat :=
  call (.dropInner fun key entry => predicate key entry.value)

def invalidateAll : CacheProg K V Err Unit := do
  let _ ← call (.dropInflight fun _ => true)
  let _ ← call (.dropInner fun _ _ => true)
  pure ()

def cleanupExpired : CacheProg K V Err Nat := do
  let now : Instant ← call .clock
  call (.dropInner fun _ entry => entry.expiresAtMicros ≤ timestampMicros now)

def publish (ttlMicros : Nat) (key : K) (cell : CellId) (v : V) : CacheProg K V Err Unit := do
  let current : Bool ← call (.lockIfCurrent key cell)
  if current then
    insert ttlMicros key v
    call (.removeSlot key)

def leave (key : K) (cell : CellId) : CacheProg K V Err Unit := do
  call (.leaveSlot key cell)
  call (.release cell)
  call (.release cell)

/-- `none` if the fetcher panicked or the caller went away. -/
def getOrTryInsertWith (ttlMicros : Nat) (key : K) :
    CacheProg K V Err (Option (Except Err V)) := do
  match ← get key with
  | some v => pure (some (.ok v))
  | none =>
    let cell : CellId ← call (.claim key)
    call (.clone cell)
    match ← call (.enter cell) with
    | .value v => do
      publish ttlMicros key cell v
      leave key cell
      pure (some (.ok v))
    | .cancelled => do
      leave key cell
      pure none
    | .run =>
      match ← call (.fetch cell) with
      | .ok v => do
        publish ttlMicros key cell v
        leave key cell
        pure (some (.ok v))
      | .error e => do
        leave key cell
        pure (some (.error e))
      | .panicked => do
        leave key cell
        pure none
      | .cancelled => do
        leave key cell
        pure none

end ClockTtlCache

structure Cell (ι V : Type) where
  value : Option V
  running : Option (ι × Nat)
  refs : Nat

/-- References to a cell when no joiner waits: the map's, the load's and its guard's. -/
def idleCellRefs : Nat := 3

structure CacheState (ι K V : Type) where
  inner : Lru K (CacheEntry V)
  inflight : AList fun _ : K => CellId
  lock : Option ι
  cell : CellId → Cell ι V
  cells : Nat
  fetches : Nat

structure Produced (V : Type) where
  value : V
  fetch : Nat

namespace CacheState

variable {ι K V : Type} [DecidableEq K] (s : CacheState ι K V)

def start (cap : Nat) (pos : 0 < cap) : CacheState ι K V :=
  ⟨.empty cap pos, ∅, none, fun _ => ⟨none, none, 0⟩, 0, 0⟩

def updateCell (c : CellId) (f : Cell ι V → Cell ι V) : CacheState ι K V :=
  { s with cell := Function.update s.cell c (f (s.cell c)) }

def addRef (c : CellId) : CacheState ι K V :=
  s.updateCell c fun cell => { cell with refs := cell.refs + 1 }

def dropRef (c : CellId) : CacheState ι K V :=
  s.updateCell c fun cell => { cell with refs := cell.refs - 1 }

def dropSlot (key : K) : CacheState ι K V :=
  match s.inflight.lookup key with
  | none => s
  | some c => { s.dropRef c with inflight := s.inflight.erase key }

def dropSlots (keys : List K) : CacheState ι K V := keys.foldl dropSlot s

def newCell (key : K) : CacheState ι K V :=
  { s with
    inflight := s.inflight.insert key s.cells
    cell := Function.update s.cell s.cells ⟨none, none, 2⟩
    cells := s.cells + 1 }

def claim (key : K) : CellId × CacheState ι K V :=
  match s.inflight.lookup key with
  | some c => (c, s.addRef c)
  | none => (s.cells, s.newCell key)

/-- What a call does and answers. A fetch that succeeds produces a value of its own. -/
def sem {Err : Type} (i : ι) : Sem (CacheCall K (Produced V)) (CacheCall.Answer Err)
    (CacheState ι K (Produced V))
  | .clock, s, _, s' => s' = s
  | .read key now, s, (a : Option (Produced V)), s' =>
    a = (readEntry s.inner key now).1 ∧ s' = { s with inner := (readEntry s.inner key now).2 }
  | .put key value expiry, s, _, s' => s' = { s with inner := s.inner.put key ⟨value, expiry⟩ }
  | .dropInner gone, s, (a : Nat), s' =>
    let left := s.inner.filter fun key entry => !gone key entry
    a = s.inner.entries.entries.length - left.entries.entries.length ∧ s' = { s with inner := left }
  | .dropInflight covers, s, (a : Nat), s' =>
    let keys := s.inflight.keys.filter covers
    s.lock = none ∧ a = keys.length ∧ s' = s.dropSlots keys
  | .claim key, s, (a : CellId), s' =>
    s.lock = none ∧ a = (s.claim key).1 ∧ s' = (s.claim key).2
  | .clone c, s, _, s' => s' = s.addRef c
  | .release c, s, _, s' => s' = s.dropRef c
  | .enter c, s, (a : CellEntered (Produced V)), s' =>
    match a with
    | .value v => (s.cell c).value = some v ∧ s' = s
    | .run => (s.cell c).value = none ∧ (s.cell c).running = none ∧
      s' = { s.updateCell c ({ · with running := some (i, s.fetches) }) with
        fetches := s.fetches + 1 }
    | .cancelled => s' = s
  | .fetch c, s, (a : Fetched (Produced V) Err), s' => ∃ n, (s.cell c).running = some (i, n) ∧
    match a with
    | .ok v => v.fetch = n ∧ s' = s.updateCell c ({ · with value := some v, running := none })
    | .error _ => s' = s.updateCell c ({ · with running := none })
    | .panicked => s' = s.updateCell c ({ · with running := none })
    | .cancelled => s' = s.updateCell c ({ · with running := none })
  | .lockIfCurrent key c, s, (a : Bool), s' => s.lock = none ∧
    a = decide (s.inflight.lookup key = some c) ∧ s' = if a then { s with lock := some i } else s
  | .removeSlot key, s, _, s' => s.lock = some i ∧ s' = { s.dropSlot key with lock := none }
  | .leaveSlot key c, s, _, s' => s.lock = none ∧
    s' = if s.inflight.lookup key = some c ∧ (s.cell c).refs ≤ idleCellRefs then s.dropSlot key
      else s

def answer (Err : Type) (i : ι) (v : V) : (e : CacheCall K (Produced V)) →
    CacheState ι K (Produced V) → e.Answer Err × CacheState ι K (Produced V)
  | .clock, s => ((0 : Int), s)
  | .read key now, s =>
    ((readEntry s.inner key now).1, { s with inner := (readEntry s.inner key now).2 })
  | .put key value expiry, s => ((), { s with inner := s.inner.put key ⟨value, expiry⟩ })
  | .dropInner gone, s =>
    let left := s.inner.filter fun key entry => !gone key entry
    (s.inner.entries.entries.length - left.entries.entries.length, { s with inner := left })
  | .dropInflight covers, s =>
    ((s.inflight.keys.filter covers).length, s.dropSlots (s.inflight.keys.filter covers))
  | .claim key, s => s.claim key
  | .clone c, s => ((), s.addRef c)
  | .release c, s => ((), s.dropRef c)
  | .enter c, s =>
    match (s.cell c).value with
    | some v => (.value v, s)
    | none => (.run, { s.updateCell c ({ · with running := some (i, s.fetches) }) with
        fetches := s.fetches + 1 })
  | .fetch c, s =>
    let produced : Produced V := ⟨v, ((s.cell c).running.map (·.2)).getD 0⟩
    (.ok produced, s.updateCell c ({ · with value := some produced, running := none }))
  | .lockIfCurrent key c, s =>
    (decide (s.inflight.lookup key = some c),
      if decide (s.inflight.lookup key = some c) then { s with lock := some i } else s)
  | .removeSlot key, s => ((), { s.dropSlot key with lock := none })
  | .leaveSlot key c, s =>
    ((), if s.inflight.lookup key = some c ∧ (s.cell c).refs ≤ idleCellRefs then s.dropSlot key
      else s)

def enabled [DecidableEq ι] (i : ι) (e : CacheCall K (Produced V))
    (s : CacheState ι K (Produced V)) : Bool :=
  match e with
  | .dropInflight _ => s.lock = none
  | .claim _ => s.lock = none
  | .enter c => (s.cell c).value.isSome || (s.cell c).running.isNone
  | .fetch c => ((s.cell c).running.map (·.1)) = some i
  | .lockIfCurrent .. => s.lock = none
  | .removeSlot _ => s.lock = some i
  | .leaveSlot .. => s.lock = none
  | _ => true

theorem sem_answer {Err : Type} [DecidableEq ι] {i : ι} {v : V} {e : CacheCall K (Produced V)}
    {s : CacheState ι K (Produced V)} (h : enabled i e s = true) :
    sem i e s (answer Err i v e s).1 (answer Err i v e s).2 := by
  cases e with
  | clock => rfl
  | read => exact ⟨rfl, rfl⟩
  | put => rfl
  | dropInner => exact ⟨rfl, rfl⟩
  | dropInflight => exact ⟨of_decide_eq_true h, rfl, rfl⟩
  | claim => exact ⟨of_decide_eq_true h, rfl, rfl⟩
  | clone => rfl
  | release => rfl
  | enter c =>
    cases hvalue : (s.cell c).value with
    | some found =>
      simp only [answer, hvalue]
      exact ⟨hvalue, rfl⟩
    | none =>
      simp only [enabled, hvalue, Option.isSome_none, Bool.false_or] at h
      simp only [answer, hvalue]
      exact ⟨hvalue, Option.isNone_iff_eq_none.mp h, rfl⟩
  | fetch c =>
    obtain ⟨⟨_, n⟩, hrunning, rfl⟩ := Option.map_eq_some_iff.mp (of_decide_eq_true h)
    refine ⟨n, hrunning, ?_, rfl⟩
    simp [hrunning]
  | lockIfCurrent => exact ⟨of_decide_eq_true h, rfl, rfl⟩
  | removeSlot => exact ⟨of_decide_eq_true h, rfl⟩
  | leaveSlot => exact ⟨of_decide_eq_true h, rfl⟩

end CacheState

end Axess
