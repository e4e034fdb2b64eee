import Mathlib

/-!
# Maps to sets

A map from keys to sets of values in which no set is empty: a key goes with its last value.
-/

namespace Maps

variable {K V : Type} [DecidableEq K]

abbrev MultiMap (K V : Type) := AList fun _ : K => List V

namespace MultiMap

def values (m : MultiMap K V) (k : K) : List V := (m.lookup k).getD []

variable [DecidableEq V]

def add (m : MultiMap K V) (k : K) (v : V) : MultiMap K V := m.insert k ((m.values k).insert v)

def drop (m : MultiMap K V) (k : K) (v : V) : MultiMap K V :=
  if ((m.values k).filter (· ≠ v)).isEmpty then m.erase k
  else m.insert k ((m.values k).filter (· ≠ v))

variable {m : MultiMap K V} {k k' : K} {v v' : V}

omit [DecidableEq V] in
@[simp] theorem values_empty (k : K) : (∅ : MultiMap K V).values k = [] := rfl

omit [DecidableEq V] in
theorem values_insert (vs : List V) :
    MultiMap.values (m.insert k vs) k' = if k' = k then vs else m.values k' := by
  unfold values
  split
  · next heq =>
    rw [heq, AList.lookup_insert]
    rfl
  · next hne => rw [AList.lookup_insert_ne hne]

omit [DecidableEq V] in
theorem values_erase : MultiMap.values (m.erase k) k' = if k' = k then [] else m.values k' := by
  unfold values
  split
  · next heq =>
    rw [heq, AList.lookup_erase]
    rfl
  · next hne => rw [AList.lookup_erase_ne hne]

omit [DecidableEq V] in
/-- A key whose values are gone goes with them. -/
theorem values_insert_or_erase (vs : List V) :
    MultiMap.values (if vs.isEmpty then m.erase k else m.insert k vs) k' =
      if k' = k then vs else m.values k' := by
  split
  · next hempty => rw [values_erase, List.isEmpty_iff.mp hempty]
  · exact values_insert vs

theorem mem_values_add : v' ∈ (m.add k v).values k' ↔ v' ∈ m.values k' ∨ k' = k ∧ v' = v := by
  rw [add, values_insert]
  split
  · next heq =>
    rw [List.mem_insert_iff, heq, or_comm]
    simp
  · next hne => simp [hne]

theorem mem_values_drop :
    v' ∈ (m.drop k v).values k' ↔ v' ∈ m.values k' ∧ ¬(k' = k ∧ v' = v) := by
  have hrest : v' ∈ (m.values k).filter (· ≠ v) ↔ v' ∈ m.values k ∧ v' ≠ v := by
    rw [List.mem_filter, decide_eq_true_eq]
  rw [drop, values_insert_or_erase]
  by_cases hk : k' = k
  · subst hk
    rw [if_pos rfl, hrest]
    simp
  · rw [if_neg hk]
    simp [hk]

theorem nodup_add (h : (m.values k').Nodup) : ((m.add k v).values k').Nodup := by
  rw [add, values_insert]
  split
  · next heq => exact (heq ▸ h).insert
  · exact h

theorem nodup_drop (h : (m.values k').Nodup) : ((m.drop k v).values k').Nodup := by
  rw [drop, values_insert_or_erase]
  split
  · next heq => exact (heq ▸ h).filter _
  · exact h

/-- No key is left without a value. -/
def NoEmpty (m : MultiMap K V) : Prop := ∀ k, m.lookup k ≠ some []

omit [DecidableEq V] in
theorem NoEmpty.insert {vs : List V} (h : m.NoEmpty) (hvs : vs ≠ []) :
    NoEmpty (AList.insert k vs m) := by
  intro k' hk'
  by_cases heq : k' = k
  · rw [heq, AList.lookup_insert] at hk'
    exact hvs (Option.some.inj hk')
  · rw [AList.lookup_insert_ne heq] at hk'
    exact h k' hk'

theorem NoEmpty.add (h : m.NoEmpty) : (m.add k v).NoEmpty :=
  h.insert (List.ne_nil_of_mem List.mem_insert_self)

theorem NoEmpty.drop (h : m.NoEmpty) : (m.drop k v).NoEmpty := by
  unfold MultiMap.drop
  split
  · intro k' hk'
    by_cases heq : k' = k
    · rw [heq, AList.lookup_erase] at hk'
      cases hk'
    · rw [AList.lookup_erase_ne heq] at hk'
      exact h k' hk'
  · next hvs => exact h.insert fun hnil => hvs (List.isEmpty_iff.mpr hnil)

end MultiMap

end Maps
