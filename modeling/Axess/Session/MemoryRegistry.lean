import Axess.Authn.Throttle
import Axess.Maps.MultiMap

/-!
# The registry in memory

`MemorySessionRegistry` (`session/store/memory_registry.rs`) keeps for each user the ids of their
sessions with the time each was registered or last used. Entries past the time to live are dropped
when their user registers a session, or with everyone's once there are many users; until then they
lie in the map. What it answers is what a plain list for each user would, from which nothing is
dropped before it is invalidated.
-/

namespace Axess

open Maps

abbrev RegisteredSession := SessionId × Int

abbrev Sessions := List RegisteredSession

abbrev SessionMap := MultiMap UserId RegisteredSession

structure MemoryRegistry where
  valid : SessionMap
  sweepAt : Nat

inductive RegistryOp where
  | register (u : UserId) (id : SessionId)
  | isValid (u : UserId) (id : SessionId)
  | invalidateUser (u : UserId)
  | invalidateSession (u : UserId) (id : SessionId)
  | activeSessions (u : UserId)

abbrev Timeline := List (UtcTime × RegistryOp)

inductive RegistryAnswer where
  | done
  | valid (live : Bool)
  | sessions (ids : List SessionId)
  deriving DecidableEq

def renew (id : SessionId) (now : Int) (sessions : Sessions) : Sessions :=
  sessions.replaceF fun e => if e.1 = id then some (e.1, now) else none

namespace MemoryRegistry

def minSweepUsers : Nat := 32

def init : MemoryRegistry := ⟨∅, minSweepUsers⟩

variable (ttl : Duration)

def cutoff (now : UtcTime) : Int :=
  ((fromStd ttl).bind fun d => checkedAddSigned now.ns (-d)).getD minUtc

/-- Drop one user's expired entries, and the user with the last of them. -/
def retainUser (oldest : Int) (valid : SessionMap) (u : UserId) :
    SessionMap :=
  let kept := (valid.values u).filter fun e => oldest < e.2
  if kept.isEmpty then valid.erase u else valid.insert u kept

def sweep (oldest : Int) (valid : SessionMap) :
    SessionMap :=
  valid.keys.foldl (retainUser oldest) valid

def registered (oldest : Int) (id : SessionId) (now : Int) (sessions : Sessions) : Sessions :=
  let kept := sessions.filter fun e => oldest < e.2
  match kept.find? fun e => e.1 = id with
  | some _ => renew id now kept
  | none => kept ++ [(id, now)]

def register (reg : MemoryRegistry) (u : UserId) (id : SessionId) (now : UtcTime) :
    MemoryRegistry :=
  let oldest := cutoff ttl now
  let valid := reg.valid.insert u (registered oldest id now.ns (reg.valid.values u))
  if reg.sweepAt ≤ valid.keys.length then
    let swept := sweep oldest valid
    ⟨swept, max (min (swept.keys.length * 2) maxU64) minSweepUsers⟩
  else ⟨valid, reg.sweepAt⟩

def checked (oldest : Int) (id : SessionId) (now : Int) (sessions : Sessions) :
    Bool × Sessions :=
  let half := (fromStd (ttl / 2)).getD maxChronoDuration
  match sessions.find? fun e => e.1 = id with
  | some e =>
    (oldest < e.2, if oldest < e.2 ∧ half ≤ now - e.2 then renew id now sessions else sessions)
  | none => (false, sessions)

def step (reg : MemoryRegistry) (now : UtcTime) : RegistryOp → RegistryAnswer × MemoryRegistry
  | .register u id => (.done, reg.register ttl u id now)
  | .isValid u id =>
    match reg.valid.lookup u with
    | none => (.valid false, reg)
    | some sessions =>
      let (live, sessions) := checked ttl (cutoff ttl now) id now.ns sessions
      (.valid live, { reg with valid := reg.valid.insert u sessions })
  | .invalidateUser u => (.done, { reg with valid := reg.valid.erase u })
  | .invalidateSession u id =>
    let kept := (reg.valid.values u).filter fun e => e.1 ≠ id
    (.done, { reg with
      valid := if kept.isEmpty then reg.valid.erase u else reg.valid.insert u kept })
  | .activeSessions u =>
    (.sessions (((reg.valid.values u).filter fun e => cutoff ttl now < e.2).map Prod.fst), reg)

def after (reg : MemoryRegistry) (ops : Timeline) : MemoryRegistry :=
  ops.foldl (fun reg op => (reg.step ttl op.1 op.2).2) reg

end MemoryRegistry

def live (ttl : Duration) (now : Int) (e : RegisteredSession) : Bool := now - e.2 < ttl

def liveEntry (ttl : Duration) (now : Int) (id : SessionId) (sessions : Sessions) :
    Option RegisteredSession :=
  (sessions.filter (live ttl now)).find? fun e => e.1 = id

abbrev UserLists := UserId → Sessions

namespace UserLists

variable (ttl : Duration)

/-- A live session is stamped again where it stands, any other goes to the end. -/
def registered (id : SessionId) (now : Int) (sessions : Sessions) : Sessions :=
  match liveEntry ttl now id sessions with
  | some _ => renew id now sessions
  | none => sessions.filter (fun e => e.1 ≠ id) ++ [(id, now)]

def checked (id : SessionId) (now : Int) (sessions : Sessions) : Sessions :=
  match liveEntry ttl now id sessions with
  | some e => if (ttl / 2 : Nat) ≤ now - e.2 then renew id now sessions else sessions
  | none => sessions

def step (lists : UserLists) (now : Int) : RegistryOp → RegistryAnswer × UserLists
  | .register u id => (.done, Function.update lists u (registered ttl id now (lists u)))
  | .isValid u id =>
    (.valid (liveEntry ttl now id (lists u)).isSome,
      Function.update lists u (checked ttl id now (lists u)))
  | .invalidateUser u => (.done, Function.update lists u [])
  | .invalidateSession u id =>
    (.done, Function.update lists u ((lists u).filter fun e => e.1 ≠ id))
  | .activeSessions u => (.sessions (((lists u).filter (live ttl now)).map Prod.fst), lists)

def after (lists : UserLists) (ops : Timeline) : UserLists :=
  ops.foldl (fun lists op => (lists.step ttl op.1.ns op.2).2) lists

end UserLists

/-! ## One user's entries -/

section Entries

variable {ttl : Duration} {now : Int} {id : SessionId} {l k : Sessions}

/-- One entry for each id, none stamped in the future. -/
structure Stamped (now : Int) (l : Sessions) : Prop where
  nodup : (l.map Prod.fst).Nodup
  past : ∀ e ∈ l, e.2 ≤ now

theorem Stamped.nil : Stamped now [] := ⟨List.nodup_nil, nofun⟩

theorem Stamped.filter (h : Stamped now l) (p : RegisteredSession → Bool) :
    Stamped now (l.filter p) :=
  ⟨h.nodup.sublist (List.filter_sublist.map _), fun e he => h.past e (List.mem_of_mem_filter he)⟩

theorem Stamped.mono {later : Int} (h : Stamped now l) (hle : now ≤ later) : Stamped later l :=
  ⟨h.nodup, fun e he => (h.past e he).trans hle⟩

theorem Stamped.eq_of_id (h : Stamped now l) {e e' : RegisteredSession} (he : e ∈ l) (he' : e' ∈ l)
    (hid : e.1 = e'.1) : e = e' :=
  List.inj_on_of_nodup_map h.nodup he he' hid

theorem renew_eq_map (h : Stamped now l) :
    renew id now l = l.map fun e => if e.1 = id then (e.1, now) else e := by
  obtain ⟨hnodup, -⟩ := h
  unfold renew
  induction l with
  | nil => rfl
  | cons e l ih =>
    obtain ⟨hnew, hnodup⟩ := List.nodup_cons.mp hnodup
    by_cases hid : e.1 = id
    · have hrest : ∀ e' ∈ l, (if e'.1 = id then (e'.1, now) else e') = e' := by
        intro e' he'
        refine if_neg fun heq => hnew ?_
        exact List.mem_map.mpr ⟨e', he', heq.trans hid.symm⟩
      rw [List.map_cons, List.map_congr_left hrest, List.map_id']
      simp only [List.replaceF, if_pos hid]
    · simp only [List.replaceF, List.map_cons, if_neg hid, ih hnodup]

theorem Stamped.renew (h : Stamped now l) (id : SessionId) : Stamped now (renew id now l) := by
  rw [renew_eq_map h]
  constructor
  · have hkeys : (l.map fun e => if e.1 = id then (e.1, now) else e).map Prod.fst =
        l.map Prod.fst := by
      rw [List.map_map]
      refine List.map_congr_left fun e _ => ?_
      dsimp only [Function.comp]
      split <;> rfl
    rw [hkeys]
    exact h.nodup
  · intro e he
    obtain ⟨e', he', rfl⟩ := List.mem_map.mp he
    split
    · exact Int.le_refl _
    · exact h.past e' he'

theorem Stamped.append (h : Stamped now l) (hnew : ∀ e ∈ l, e.1 ≠ id) :
    Stamped now (l ++ [(id, now)]) := by
  constructor
  · rw [List.map_append]
    refine h.nodup.append (List.nodup_singleton _) ?_
    rintro i hi (_ | ⟨_, ⟨⟩⟩)
    obtain ⟨e, he, hid⟩ := List.mem_map.mp hi
    exact hnew e he hid
  · intro e he
    rcases List.mem_append.mp he with he | he
    · exact h.past e he
    · rw [List.mem_singleton.mp he]

/-- A session whose entry is live stays so when it is stamped again, in its place. -/
theorem filter_renew (h : Stamped now l) (hlive : ∀ e ∈ l, e.1 = id → live ttl now e = true) :
    (renew id now l).filter (live ttl now) = renew id now (l.filter (live ttl now)) := by
  rw [renew_eq_map h, renew_eq_map (h.filter _), List.filter_map]
  refine congrArg _ (List.filter_congr fun e he => ?_)
  dsimp only [Function.comp]
  split
  · next hid =>
    have hnow := hlive e he hid
    have hpast := h.past e he
    rw [hnow]
    simp only [live, decide_eq_true_eq] at hnow ⊢
    omega
  · rfl

/-- The map's entries and the list's are the same, those aside that have expired. -/
structure SameLive (ttl : Duration) (now : Int) (l k : Sessions) : Prop where
  held : Stamped now l
  listed : Stamped now k
  agree : l.filter (live ttl now) = k.filter (live ttl now)
  later : ∀ e ∈ l, minUtc < e.2

namespace SameLive

theorem mono {later : Int} (h : SameLive ttl now l k) (hle : now ≤ later) :
    SameLive ttl later l k := by
  have hagain : ∀ m : Sessions,
      m.filter (live ttl later) = (m.filter (live ttl now)).filter (live ttl later) := by
    intro m
    rw [List.filter_filter]
    refine List.filter_congr fun e _ => ?_
    rw [Bool.eq_iff_iff]
    simp only [live, Bool.and_eq_true, decide_eq_true_eq]
    omega
  exact ⟨h.held.mono hle, h.listed.mono hle, by rw [hagain l, hagain k, h.agree], h.later⟩

/-- An entry is in both while it is live. -/
theorem mem_iff (h : SameLive ttl now l k) {e : RegisteredSession} (hlive : live ttl now e = true) :
    e ∈ l ↔ e ∈ k := by
  have hl : e ∈ l.filter (live ttl now) ↔ e ∈ l := by simp [hlive]
  have hk : e ∈ k.filter (live ttl now) ↔ e ∈ k := by simp [hlive]
  rw [← hl, h.agree, hk]

theorem filter_left (h : SameLive ttl now l k) : SameLive ttl now (l.filter (live ttl now)) k :=
  ⟨h.held.filter _, h.listed, by rw [List.filter_filter, ← h.agree]; simp,
    fun e he => h.later e (List.mem_of_mem_filter he)⟩

theorem filter_both (h : SameLive ttl now l k) (p : RegisteredSession → Bool) :
    SameLive ttl now (l.filter p) (k.filter p) :=
  ⟨h.held.filter p, h.listed.filter p, by
    rw [List.filter_comm, h.agree, List.filter_comm], fun e he => h.later e (List.mem_of_mem_filter he)⟩

theorem renew (h : SameLive ttl now l k) (hnow : minUtc < now) {stamp : Int}
    (hmem : (id, stamp) ∈ l) (hlive : live ttl now (id, stamp) = true) :
    SameLive ttl now (renew id now l) (renew id now k) := by
  have hl : ∀ e ∈ l, e.1 = id → live ttl now e = true := by
    intro e he hid
    rw [h.held.eq_of_id he hmem hid]
    exact hlive
  have hk : ∀ e ∈ k, e.1 = id → live ttl now e = true := by
    intro e he hid
    rw [h.listed.eq_of_id he ((h.mem_iff hlive).mp hmem) hid]
    exact hlive
  refine ⟨h.held.renew id, h.listed.renew id, ?_, ?_⟩
  · rw [filter_renew h.held hl, filter_renew h.listed hk, h.agree]
  · intro e he
    rw [renew_eq_map h.held] at he
    obtain ⟨e', he', rfl⟩ := List.mem_map.mp he
    split
    · exact hnow
    · exact h.later e' he'

end SameLive

/-- The entries the code keeps are the live ones, unless one is stamped with the calendar's first
point in time. -/
theorem cutoff_lt_iff (ttl : Duration) {now : UtcTime} {e : RegisteredSession}
    (hfirst : minUtc < e.2) (hpast : e.2 ≤ now.ns) :
    MemoryRegistry.cutoff ttl now < e.2 ↔ live ttl now.ns e = true := by
  have hlast := now.le_max
  unfold MemoryRegistry.cutoff fromStd live checkedAddSigned
  rw [decide_eq_true_eq]
  by_cases hlong : ttl ≤ maxChronoDuration
  · rw [if_pos hlong]
    dsimp only [Option.bind]
    split
    · simp only [Option.getD_some]
      omega
    · simp only [Option.getD_none]
      omega
  · rw [if_neg hlong]
    simp only [Option.bind_none, Option.getD_none]
    unfold minUtc maxUtc maxChronoDuration at *
    have hnat : (maxChronoDuration : Int) < ttl := Int.ofNat_lt.mpr (Nat.not_le.mp hlong)
    unfold maxChronoDuration at hnat
    omega

theorem id_of_find {e : RegisteredSession} (h : l.find? (fun e => e.1 = id) = some e) :
    e.1 = id := by
  have := List.find?_some h
  exact of_decide_eq_true this

/-- The live entry of a session is its entry, if that is live. -/
theorem liveEntry_eq (h : Stamped now l) :
    liveEntry ttl now id l = (l.find? fun e => e.1 = id).filter (live ttl now) := by
  unfold liveEntry
  cases hfind : l.find? fun e => e.1 = id with
  | none =>
    refine List.find?_eq_none.mpr fun e he => ?_
    exact List.find?_eq_none.mp hfind e (List.mem_of_mem_filter he)
  | some e =>
    have hmem := List.mem_of_find?_eq_some hfind
    by_cases hlive : live ttl now e = true
    · rw [Option.filter_some_pos hlive]
      cases hfilter : (l.filter (live ttl now)).find? fun e => e.1 = id with
      | none =>
        have hnot := List.find?_eq_none.mp hfilter e (List.mem_filter.mpr ⟨hmem, hlive⟩)
        exact absurd (decide_eq_true (id_of_find hfind)) hnot
      | some e' =>
        have hmem' := List.mem_of_mem_filter (List.mem_of_find?_eq_some hfilter)
        rw [h.eq_of_id hmem' hmem ((id_of_find hfilter).trans (id_of_find hfind).symm)]
    · rw [Option.filter_some_neg (Bool.eq_false_iff.mpr hlive)]
      refine List.find?_eq_none.mpr fun e' he' hid => hlive ?_
      obtain ⟨hmem', hlive'⟩ := List.mem_filter.mp he'
      rw [h.eq_of_id hmem hmem' ((id_of_find hfind).trans (of_decide_eq_true hid).symm)]
      exact hlive'

namespace SameLive

theorem liveEntry_eq (h : SameLive ttl now l k) :
    liveEntry ttl now id l = liveEntry ttl now id k := by
  rw [liveEntry, h.agree, liveEntry]

variable {now : UtcTime}

theorem retain_eq (h : SameLive ttl now.ns l k) :
    (l.filter fun e => MemoryRegistry.cutoff ttl now < e.2) = l.filter (live ttl now.ns) := by
  refine List.filter_congr fun e he => Bool.eq_iff_iff.mpr ?_
  rw [decide_eq_true_eq]
  exact cutoff_lt_iff ttl (h.later e he) (h.held.past e he)

theorem retain (h : SameLive ttl now.ns l k) :
    SameLive ttl now.ns (l.filter fun e => MemoryRegistry.cutoff ttl now < e.2) k := by
  rw [h.retain_eq]
  exact h.filter_left

theorem registered (h : SameLive ttl now.ns l k) (hnow : minUtc < now.ns) (id : SessionId) :
    SameLive ttl now.ns (MemoryRegistry.registered (MemoryRegistry.cutoff ttl now) id now.ns l)
      (UserLists.registered ttl id now.ns k) := by
  unfold MemoryRegistry.registered UserLists.registered
  rw [h.retain_eq, ← h.liveEntry_eq]
  change SameLive ttl now.ns (match liveEntry ttl now.ns id l with | some _ => _ | none => _) _
  cases hfind : liveEntry ttl now.ns id l with
  | some e =>
    obtain ⟨hmem, hlive⟩ := List.mem_filter.mp (List.mem_of_find?_eq_some hfind)
    obtain rfl := id_of_find hfind
    exact h.filter_left.renew hnow (List.mem_filter.mpr ⟨hmem, hlive⟩) hlive
  | none =>
    have hnew : ∀ e ∈ l.filter (live ttl now.ns), e.1 ≠ id := fun e he heq =>
      List.find?_eq_none.mp hfind e he (decide_eq_true heq)
    refine ⟨(h.held.filter _).append hnew, (h.listed.filter _).append ?_, ?_, ?_⟩
    · intro e he
      simpa using (List.mem_filter.mp he).2
    · rw [List.filter_append, List.filter_append, List.filter_filter, List.filter_comm, ← h.agree]
      simp only [Bool.and_self]
      rw [List.filter_eq_self.mpr fun e he => decide_eq_true (hnew e he)]
    · intro e he
      rcases List.mem_append.mp he with he | he
      · exact h.later e (List.mem_of_mem_filter he)
      · rw [List.mem_singleton.mp he]
        exact hnow

theorem checked (h : SameLive ttl now.ns l k) (hnow : minUtc < now.ns) (id : SessionId) :
    (MemoryRegistry.checked ttl (MemoryRegistry.cutoff ttl now) id now.ns l).1 =
      (liveEntry ttl now.ns id k).isSome ∧
    SameLive ttl now.ns
      (MemoryRegistry.checked ttl (MemoryRegistry.cutoff ttl now) id now.ns l).2
      (UserLists.checked ttl id now.ns k) := by
  unfold MemoryRegistry.checked UserLists.checked
  rw [← h.liveEntry_eq, Axess.liveEntry_eq h.held]
  cases hfind : l.find? fun e => e.1 = id with
  | none => exact ⟨rfl, h⟩
  | some e =>
    have hmem := List.mem_of_find?_eq_some hfind
    obtain rfl := id_of_find hfind
    have hcut := cutoff_lt_iff ttl (h.later e hmem) (h.held.past e hmem)
    have hhalf : (fromStd (ttl / 2)).getD maxChronoDuration ≤ now.ns - e.2 ↔
        ((ttl / 2 : Nat) : Int) ≤ now.ns - e.2 := by
      have hfirst := h.later e hmem
      have hlast := now.le_max
      unfold fromStd
      split
      · exact Iff.rfl
      · next hlong =>
        have hnat : (maxChronoDuration : Int) < (ttl / 2 : Nat) :=
          Int.ofNat_lt.mpr (Nat.not_le.mp hlong)
        unfold minUtc maxUtc at *
        unfold maxChronoDuration at *
        simp only [Option.getD_none]
        omega
    dsimp only
    simp only [hcut, hhalf, Bool.decide_eq_true]
    by_cases hlive : live ttl now.ns e = true
    · rw [Option.filter_some_pos hlive]
      refine ⟨hlive, ?_⟩
      dsimp only
      split
      · next hold =>
        rw [if_pos hold.2]
        exact h.renew hnow hmem hlive
      · next hyoung =>
        rw [if_neg fun hold => hyoung ⟨hlive, hold⟩]
        exact h
    · rw [Option.filter_some_neg (Bool.eq_false_iff.mpr hlive)]
      refine ⟨Bool.eq_false_iff.mpr hlive, ?_⟩
      rw [if_neg fun hold => hlive hold.1]
      exact h

end SameLive

end Entries

section Runs

variable {ttl : Duration} {reg : MemoryRegistry} {lists : UserLists} {before : Int} {now : UtcTime}

/-- The registry and the lists hold the same live sessions. -/
def Same (ttl : Duration) (now : Int) (valid : SessionMap)
    (lists : UserLists) : Prop :=
  ∀ u, SameLive ttl now (valid.values u) (lists u)

namespace Same

theorem init (now : Int) : Same ttl now MemoryRegistry.init.valid fun _ => [] :=
  fun _ => ⟨Stamped.nil, Stamped.nil, rfl, nofun⟩

variable {valid valid' : SessionMap} {u : UserId}
  {l k : Sessions}

theorem set (h : Same ttl before valid lists) (hu : SameLive ttl before l k)
    (hvalues : ∀ u', valid'.values u' = if u' = u then l else valid.values u') :
    Same ttl before valid' (Function.update lists u k) := by
  intro u'
  rw [hvalues, Function.update_apply]
  split
  · exact hu
  · exact h u'

/-- Dropping expired entries shows nowhere. -/
theorem retainUser (h : Same ttl now.ns valid lists) (u : UserId) :
    Same ttl now.ns (MemoryRegistry.retainUser (MemoryRegistry.cutoff ttl now) valid u) lists := by
  rw [← Function.update_eq_self u lists]
  exact h.set (h u).retain fun u' => MultiMap.values_insert_or_erase _

theorem sweep (h : Same ttl now.ns valid lists) :
    Same ttl now.ns (MemoryRegistry.sweep (MemoryRegistry.cutoff ttl now) valid) lists := by
  unfold MemoryRegistry.sweep
  generalize valid.keys = users
  induction users generalizing valid with
  | nil => exact h
  | cons u users ih => exact ih (h.retainUser u)

theorem step (h : Same ttl before reg.valid lists) (hle : before ≤ now.ns)
    (hnow : minUtc < now.ns) (op : RegistryOp) :
    (reg.step ttl now op).1 = (lists.step ttl now.ns op).1 ∧
      Same ttl now.ns (reg.step ttl now op).2.valid (lists.step ttl now.ns op).2 := by
  have hsame : Same ttl now.ns reg.valid lists := fun u => (h u).mono hle
  unfold MemoryRegistry.step UserLists.step
  cases op with
  | register u id =>
    refine ⟨rfl, ?_⟩
    have hnew : Same ttl now.ns _ _ := hsame.set ((hsame u).registered hnow id) fun u' =>
      MultiMap.values_insert (k := u) _
    dsimp only [MemoryRegistry.register]
    split
    · exact hnew.sweep
    · exact hnew
  | isValid u id =>
    obtain ⟨hanswer, hleft⟩ := (hsame u).checked hnow id
    dsimp only
    cases hlookup : reg.valid.lookup u with
    | none =>
      have hnone : reg.valid.values u = [] := by rw [MultiMap.values, hlookup]; rfl
      rw [hnone] at hanswer hleft
      refine ⟨congrArg _ hanswer, hsame.set hleft fun u' => ?_⟩
      show reg.valid.values u' = _
      split
      · next heq =>
        rw [heq]
        exact hnone
      · rfl
    | some sessions =>
      have hsome : reg.valid.values u = sessions := by rw [MultiMap.values, hlookup]; rfl
      rw [hsome] at hanswer hleft
      exact ⟨congrArg _ hanswer, hsame.set hleft fun u' => MultiMap.values_insert _⟩
  | invalidateUser u =>
    have hnil : SameLive ttl now.ns [] [] :=
      ⟨Stamped.nil, Stamped.nil, rfl, fun _ he => absurd he List.not_mem_nil⟩
    exact ⟨rfl, hsame.set hnil fun u' => MultiMap.values_erase⟩
  | invalidateSession u id =>
    exact ⟨rfl, hsame.set ((hsame u).filter_both _) fun u' => MultiMap.values_insert_or_erase _⟩
  | activeSessions u =>
    refine ⟨?_, hsame⟩
    dsimp only
    rw [(hsame u).retain_eq, (hsame u).agree]

end Same

/-! ## A session that is checked often enough -/

/-- From `last` on to `now` the session is registered or checked at intervals of less than half the
time to live, and nothing invalidates it. -/
def CheckedWithin (ttl : Duration) (u : UserId) (id : SessionId) (now : Int) :
    Int → Timeline → Prop
  | last, [] => 2 * (now - last) < ttl
  | last, (time, op) :: ops =>
    match op with
    | .register u' id' | .isValid u' id' =>
      if u' = u ∧ id' = id then 2 * (time.ns - last) < ttl ∧ CheckedWithin ttl u id now time.ns ops
      else CheckedWithin ttl u id now last ops
    | .invalidateUser u' => u' ≠ u ∧ CheckedWithin ttl u id now last ops
    | .invalidateSession u' id' => ¬(u' = u ∧ id' = id) ∧ CheckedWithin ttl u id now last ops
    | .activeSessions _ => CheckedWithin ttl u id now last ops

/-- The stamp was less than half the time to live old when the session was last seen. -/
def Fresh (ttl : Duration) (id : SessionId) (last : Int) (k : Sessions) : Prop :=
  ∃ stamp, (id, stamp) ∈ k ∧ 2 * (last - stamp) < ttl

namespace Fresh

variable {id id' : SessionId} {last now : Int} {k k' : Sessions}

theorem liveEntry (h : Fresh ttl id last k) (hk : Stamped now k) (hgap : 2 * (now - last) < ttl) :
    ∃ stamp, liveEntry ttl now id k = some (id, stamp) := by
  obtain ⟨stamp, hmem, hstamp⟩ := h
  have hlive : live ttl now (id, stamp) = true := by
    simp only [live, decide_eq_true_eq]
    omega
  rw [liveEntry_eq hk]
  cases hfind : k.find? fun e => e.1 = id with
  | none => exact absurd (decide_eq_true rfl) (List.find?_eq_none.mp hfind _ hmem)
  | some e =>
    rw [hk.eq_of_id (List.mem_of_find?_eq_some hfind) hmem (id_of_find hfind)]
    exact ⟨stamp, Option.filter_some_pos hlive⟩

theorem renew_other (h : Fresh ttl id last k) (hk : Stamped now k) (hne : id' ≠ id) :
    Fresh ttl id last (renew id' now k) := by
  obtain ⟨stamp, hmem, hstamp⟩ := h
  refine ⟨stamp, ?_, hstamp⟩
  rw [renew_eq_map hk]
  exact List.mem_map.mpr ⟨_, hmem, if_neg fun heq => hne heq.symm⟩

theorem renewed {stamp : Int} (hmem : (id, stamp) ∈ k) (hk : Stamped now k)
    (httl : 0 < (ttl : Int)) : Fresh ttl id now (renew id now k) := by
  refine ⟨now, ?_, by rwa [Int.sub_self]⟩
  rw [renew_eq_map hk]
  exact List.mem_map.mpr ⟨_, hmem, if_pos rfl⟩

theorem registered_other (h : Fresh ttl id last k) (hk : Stamped now k) (hne : id' ≠ id) :
    Fresh ttl id last (UserLists.registered ttl id' now k) := by
  unfold UserLists.registered
  split
  · exact h.renew_other hk hne
  · obtain ⟨stamp, hmem, hstamp⟩ := h
    exact ⟨stamp, List.mem_append_left _ (List.mem_filter.mpr
      ⟨hmem, decide_eq_true fun heq => hne heq.symm⟩), hstamp⟩

theorem checked_other (h : Fresh ttl id last k) (hk : Stamped now k) (hne : id' ≠ id) :
    Fresh ttl id last (UserLists.checked ttl id' now k) := by
  unfold UserLists.checked
  split
  · split
    · exact h.renew_other hk hne
    · exact h
  · exact h

theorem registered (hk : Stamped now k) (httl : 0 < (ttl : Int)) :
    Fresh ttl id now (UserLists.registered ttl id now k) := by
  unfold UserLists.registered
  split
  · next e hentry =>
    have hmem := List.mem_of_mem_filter (List.mem_of_find?_eq_some hentry)
    obtain rfl := id_of_find hentry
    exact renewed hmem hk httl
  · exact ⟨now, List.mem_append_right _ (List.mem_singleton.mpr rfl), by rwa [Int.sub_self]⟩

theorem checked (h : Fresh ttl id last k) (hk : Stamped now k) (hle : last ≤ now)
    (hgap : 2 * (now - last) < ttl) : Fresh ttl id now (UserLists.checked ttl id now k) := by
  obtain ⟨stamp, hentry⟩ := h.liveEntry hk hgap
  have hmem := List.mem_of_mem_filter (List.mem_of_find?_eq_some hentry)
  unfold UserLists.checked
  rw [hentry]
  dsimp only
  split
  · exact renewed hmem hk (by omega)
  · exact ⟨stamp, hmem, by omega⟩

section Step

variable {lists : UserLists} {u : UserId} {time : UtcTime} {ops : Timeline}

theorem seen {u' : UserId} (h : Fresh ttl id last (lists u)) (hle : last ≤ time.ns)
    (hwithin : if u' = u ∧ id' = id then
        2 * (time.ns - last) < ttl ∧ CheckedWithin ttl u id now time.ns ops
      else CheckedWithin ttl u id now last ops)
    (hself : id' = id → 2 * (time.ns - last) < ttl → Fresh ttl id time.ns k)
    (hother : id' ≠ id → Fresh ttl id last k) (hk : u' = u → k' = k) :
    ∃ last', last' ≤ time.ns ∧ Fresh ttl id last' (Function.update lists u' k' u) ∧
      CheckedWithin ttl u id now last' ops := by
  rw [Function.update_apply]
  by_cases hu : u = u'
  · rw [if_pos hu, hk hu.symm]
    by_cases hid : id' = id
    · rw [if_pos ⟨hu.symm, hid⟩] at hwithin
      exact ⟨time.ns, Int.le_refl _, hself hid hwithin.1, hwithin.2⟩
    · rw [if_neg fun heq => hid heq.2] at hwithin
      exact ⟨last, hle, hother hid, hwithin⟩
  · rw [if_neg hu]
    rw [if_neg fun heq => hu heq.1.symm] at hwithin
    exact ⟨last, hle, h, hwithin⟩

/-- A call keeps the stamp fresh, or stamps again. -/
theorem step {op : RegistryOp} (h : Fresh ttl id last (lists u)) (hk : Stamped time.ns (lists u))
    (hle : last ≤ time.ns) (hwithin : CheckedWithin ttl u id now last ((time, op) :: ops)) :
    ∃ last', last' ≤ time.ns ∧ Fresh ttl id last' ((lists.step ttl time.ns op).2 u) ∧
      CheckedWithin ttl u id now last' ops := by
  unfold CheckedWithin at hwithin
  cases op with
  | register u' id' =>
    refine h.seen hle hwithin (fun hid hgap => ?_) (h.registered_other hk) fun hu => hu ▸ rfl
    exact hid ▸ registered hk (by omega)
  | isValid u' id' =>
    refine h.seen hle hwithin (fun hid hgap => ?_) (h.checked_other hk) fun hu => hu ▸ rfl
    exact hid ▸ h.checked hk hle hgap
  | invalidateUser u' =>
    simp only [UserLists.step, Function.update_apply]
    rw [if_neg hwithin.1.symm]
    exact ⟨last, hle, h, hwithin.2⟩
  | invalidateSession u' id' =>
    simp only [UserLists.step, Function.update_apply]
    refine ⟨last, hle, ?_, hwithin.2⟩
    split
    · next hu =>
      subst hu
      obtain ⟨stamp, hmem, hstamp⟩ := h
      refine ⟨stamp, List.mem_filter.mpr ⟨hmem, decide_eq_true fun heq => ?_⟩, hstamp⟩
      exact hwithin.1 ⟨rfl, heq.symm⟩
    · exact h
  | activeSessions u' => exact ⟨last, hle, h, hwithin⟩

end Step

end Fresh

/-- The clock does not go back, nor does it read the calendar's first point in time. -/
structure Clocked (before : Int) (ops : Timeline) : Prop where
  start : ∀ op ∈ ops, before ≤ op.1.ns
  ordered : ops.Pairwise fun a b => a.1.ns ≤ b.1.ns
  later : ∀ op ∈ ops, minUtc < op.1.ns

theorem Clocked.cons {op : UtcTime × RegistryOp} {ops : Timeline} (h : Clocked before (op :: ops)) :
    before ≤ op.1.ns ∧ minUtc < op.1.ns ∧ Clocked op.1.ns ops :=
  ⟨h.start op List.mem_cons_self, h.later op List.mem_cons_self,
    (List.pairwise_cons.mp h.ordered).1, (List.pairwise_cons.mp h.ordered).2,
    fun o ho => h.later o (List.mem_cons_of_mem op ho)⟩

variable {ops rest : Timeline}

theorem Same.after (h : Same ttl before reg.valid lists) (hclock : Clocked before (ops ++ rest)) :
    ∃ time, Same ttl time (reg.after ttl ops).valid (lists.after ttl ops) ∧ Clocked time rest := by
  induction ops generalizing reg lists before with
  | nil => exact ⟨before, h, hclock⟩
  | cons op ops ih =>
    obtain ⟨hle, hfirst, hclock⟩ := hclock.cons
    exact ih (h.step hle hfirst op.2).2 hclock

theorem Fresh.after {u : UserId} {id : SessionId} {now last : Int}
    (hfresh : Fresh ttl id last (lists u)) (h : Same ttl before reg.valid lists)
    (hlast : last ≤ before) (hclock : Clocked before (ops ++ rest))
    (hwithin : CheckedWithin ttl u id now last ops) :
    ∃ last', 2 * (now - last') < ttl ∧ Fresh ttl id last' (lists.after ttl ops u) := by
  induction ops generalizing reg lists before last with
  | nil => exact ⟨last, hwithin, hfresh⟩
  | cons op ops ih =>
    obtain ⟨hle, hfirst, hclock⟩ := hclock.cons
    obtain ⟨last', hlast', hfresh', hwithin'⟩ :=
      hfresh.step ((h u).listed.mono hle) (hlast.trans hle) hwithin
    exact ih hfresh' (h.step hle hfirst op.2).2 hlast' hclock hwithin'

/-- After any calls the registry answers as the lists do, and a session that was registered and
then seen at intervals of less than half the time to live is valid. -/
theorem registry_refines_lists (ttl : Duration) (ops : Timeline) (now : UtcTime) (op : RegistryOp)
    (hordered : (ops ++ [(now, op)]).Pairwise fun a b => a.1.ns ≤ b.1.ns)
    (hfirst : ∀ op' ∈ ops ++ [(now, op)], minUtc < op'.1.ns) :
    ((MemoryRegistry.init.after ttl ops).step ttl now op).1 =
      ((UserLists.after ttl (fun _ => []) ops).step ttl now.ns op).1 ∧
    ∀ u id earlier start within, op = .isValid u id → 0 < ttl →
      ops = earlier ++ (start, .register u id) :: within →
      CheckedWithin ttl u id now.ns start.ns within →
      ((MemoryRegistry.init.after ttl ops).step ttl now op).1 = .valid true := by
  have hclock : Clocked minUtc (ops ++ [(now, op)]) :=
    ⟨fun op' hop => (hfirst op' hop).le, hordered, hfirst⟩
  have hinit : Same ttl minUtc MemoryRegistry.init.valid fun _ => [] := Same.init _
  obtain ⟨time, hsame, hlast⟩ := hinit.after hclock
  obtain ⟨hle, hlater, -⟩ := hlast.cons
  have hanswer := (hsame.step hle hlater op).1
  refine ⟨hanswer, ?_⟩
  rintro u id earlier start within rfl httl rfl hwithin
  rw [hanswer]
  rw [List.append_assoc] at hclock
  obtain ⟨t, hsame', hclock'⟩ := hinit.after hclock
  obtain ⟨hstart, hstartFirst, hclock'⟩ := hclock'.cons
  have hseen : Fresh ttl id start.ns
      ((UserLists.step ttl (UserLists.after ttl (fun _ => []) earlier) start.ns (.register u id)).2 u) := by
    simp only [UserLists.step, Function.update_self]
    exact Fresh.registered ((hsame' u).listed.mono hstart) (Int.natCast_pos.mpr httl)
  obtain ⟨last, hgap, hfresh⟩ := hseen.after (hsame'.step hstart hstartFirst (.register u id)).2
    (Int.le_refl _) hclock' hwithin
  have hrun : UserLists.after ttl (fun _ => []) (earlier ++ (start, .register u id) :: within) =
      UserLists.after ttl (UserLists.step ttl (UserLists.after ttl (fun _ => []) earlier) start.ns
        (.register u id)).2 within := List.foldl_append
  rw [← hrun] at hfresh
  obtain ⟨stamp, hentry⟩ := hfresh.liveEntry ((hsame u).listed.mono hle) hgap
  rw [UserLists.step, hentry]
  rfl

/-- A session that is checked every four seconds lives past a time to live of ten. -/
theorem checked_session_lives :
    let clock : Nat → UtcTime := fun n => ⟨min n 20, by unfold minUtc; omega, by
      unfold maxUtc; omega⟩
    ((MemoryRegistry.init.after 10 [(clock 1, .register ⟨1⟩ ⟨2⟩), (clock 5, .isValid ⟨1⟩ ⟨2⟩),
      (clock 9, .isValid ⟨1⟩ ⟨2⟩)]).step 10 (clock 13) (.isValid ⟨1⟩ ⟨2⟩)).1 = .valid true := by
  intro clock
  refine (registry_refines_lists 10 _ (clock 13) (.isValid ⟨1⟩ ⟨2⟩) (by decide) (by decide)).2 _ _ []
    (clock 1) _ rfl (by decide) rfl ?_
  exact ⟨by decide, by decide, show (2 : Int) * (13 - 9) < 10 by decide⟩

/-- A session registered at the calendar's first point in time is not valid then, where the list has
a day left for it. -/
theorem unregistered_at_first :
    let first : UtcTime := ⟨minUtc, by decide, by decide⟩
    ((MemoryRegistry.init.after 86400000000000 [(first, .register ⟨1⟩ ⟨2⟩)]).step 86400000000000
      first (.isValid ⟨1⟩ ⟨2⟩)).1 = .valid false ∧
    ((UserLists.after 86400000000000 (fun _ => []) [(first, .register ⟨1⟩ ⟨2⟩)]).step
      86400000000000 first.ns (.isValid ⟨1⟩ ⟨2⟩)).1 = .valid true := by
  decide +kernel

end Runs

end Axess
