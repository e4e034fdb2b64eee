import Mathlib

/-!
# Bounded maps by recency

A map of at most `cap` entries, from the most to the least recently used. A read moves its entry to
the front; a new key that finds no room drops the last entry.
-/

namespace Maps

structure Lru (K V : Type) where
  cap : Nat
  entries : AList fun _ : K => V
  pos : 0 < cap
  bounded : entries.entries.length ≤ cap

namespace Lru

variable {K V : Type} [DecidableEq K]

def empty (cap : Nat) (pos : 0 < cap) : Lru K V := ⟨cap, ∅, pos, Nat.zero_le cap⟩

def filter (l : Lru K V) (keep : K → V → Bool) : Lru K V where
  cap := l.cap
  entries := ⟨l.entries.entries.filter fun e => keep e.1 e.2,
    List.NodupKeys.sublist List.filter_sublist l.entries.nodupKeys⟩
  pos := l.pos
  bounded := Nat.le_trans (List.length_filter_le _ _) l.bounded

variable (l : Lru K V)

def pop (key : K) : Option V × Lru K V :=
  (l.entries.lookup key, l.filter fun other _ => other ≠ key)

def evictTail : AList fun _ : K => V :=
  ⟨l.entries.entries.dropLast,
    List.NodupKeys.sublist (List.dropLast_sublist _) l.entries.nodupKeys⟩

def room (key : K) : AList fun _ : K => V :=
  if key ∈ l.entries then l.entries
  else if l.cap ≤ l.entries.entries.length then l.evictTail else l.entries

theorem room_sublist (key : K) : (l.room key).entries.Sublist l.entries.entries := by
  unfold room
  split
  · exact List.Sublist.refl _
  · split
    · exact List.dropLast_sublist _
    · exact List.Sublist.refl _

def put (key : K) (v : V) : Lru K V where
  cap := l.cap
  entries := (l.room key).insert key v
  pos := l.pos
  bounded := by
    rw [AList.entries_insert, List.length_cons]
    by_cases hmem : key ∈ l.entries
    · -- the old entry of the key goes
      have hlength : ((l.room key).entries.kerase key).length = l.entries.entries.length - 1 := by
        have hroom : l.room key = l.entries := if_pos hmem
        have hkeys : key ∈ l.entries.entries.keys := hmem
        rw [hroom, ← List.length_map, ← List.keys, List.keys_kerase,
          List.length_erase_of_mem hkeys, List.keys, List.length_map]
      have hpos : 0 < l.entries.entries.length :=
        List.length_pos_of_mem (AList.mem_lookup_iff.mp
          (Option.get_mem (AList.lookup_isSome.mpr hmem)))
      have hbounded := l.bounded
      omega
    · have hlength : (l.room key).entries.length < l.cap := by
        have hpos := l.pos
        have hbounded := l.bounded
        unfold room
        rw [if_neg hmem]
        split
        · rw [evictTail, List.length_dropLast]
          omega
        · omega
      exact Nat.lt_of_le_of_lt (List.kerase_sublist key _).length_le hlength

def get (key : K) : Option V × Lru K V :=
  match l.entries.lookup key with
  | none => (none, l)
  | some v => (some v, l.put key v)

variable {l} {key key' : K} {v v' : V}

theorem lookup_filter {keep : K → V → Bool} (h : (l.filter keep).entries.lookup key = some v) :
    l.entries.lookup key = some v ∧ keep key v = true := by
  obtain ⟨hmem, hkeep⟩ := List.mem_filter.mp (AList.mem_lookup_iff.mp h)
  exact ⟨AList.mem_lookup_iff.mpr hmem, hkeep⟩

theorem lookup_put (h : (l.put key v).entries.lookup key' = some v') :
    key' = key ∧ v' = v ∨ l.entries.lookup key' = some v' := by
  by_cases hkey : key' = key
  · subst hkey
    rw [put, AList.lookup_insert] at h
    exact .inl ⟨rfl, (Option.some.inj h).symm⟩
  · rw [put, AList.lookup_insert_ne hkey] at h
    exact .inr (AList.mem_lookup_iff.mpr ((l.room_sublist key).subset (AList.mem_lookup_iff.mp h)))

theorem lookup_get (h : (l.get key).2.entries.lookup key' = some v') :
    l.entries.lookup key' = some v' := by
  unfold get at h
  cases hkey : l.entries.lookup key with
  | none =>
    rw [hkey] at h
    exact h
  | some v =>
    rw [hkey] at h
    rcases lookup_put h with ⟨rfl, rfl⟩ | hold
    · exact hkey
    · exact hold

theorem fst_get : (l.get key).1 = l.entries.lookup key := by
  unfold get
  cases l.entries.lookup key <;> rfl

end Lru

end Maps
