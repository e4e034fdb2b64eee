import Mathlib

/-!
# The newest entries of a log

A log lists its entries oldest first and grows at its end; `newest k l` is its last `k` entries.
A register that entries are removed from is a sublist of the log. What it keeps of the newest
entries of the log are its own newest entries.
-/

namespace Order

variable {α : Type}

def newest (k : Nat) (l : List α) : List α := l.drop (l.length - k)

theorem newest_suffix (k : Nat) (l : List α) : newest k l <:+ l := List.drop_suffix _ l

theorem length_newest (k : Nat) (l : List α) : (newest k l).length = min k l.length := by
  rw [newest, List.length_drop]
  omega

theorem take_append_newest (k : Nat) (l : List α) :
    l.take (l.length - k) ++ newest k l = l :=
  List.take_append_drop _ l

variable {k : Nat} {l : List α}

theorem newest_of_length_le (h : l.length ≤ k) : newest k l = l := by
  rw [newest, Nat.sub_eq_zero_of_le h, List.drop_zero]

theorem newest_append_of_length (old : List α) (h : l.length = k) : newest k (old ++ l) = l := by
  rw [newest, List.length_append, h, Nat.add_sub_cancel, List.drop_left]

theorem subset_newest {suffix : List α} (old : List α) (hl : l = old ++ suffix)
    (h : suffix.length ≤ k) : suffix ⊆ newest k l := by
  subst hl
  intro x hx
  rw [newest, List.length_append, List.drop_append, List.mem_append]
  have hzero : old.length + suffix.length - k - old.length = 0 := by omega
  exact .inr (by rwa [hzero, List.drop_zero])

theorem newest_subset {m : Nat} (h : k ≤ m) (l : List α) : newest k l ⊆ newest m l := by
  refine subset_newest (l.take (l.length - k)) (take_append_newest k l).symm ?_
  rw [length_newest]
  omega

theorem newest_append_singleton (k : Nat) (l : List α) (a : α) :
    newest (k + 1) (l ++ [a]) = newest k l ++ [a] := by
  rw [newest, newest, List.length_append, List.length_singleton,
    show l.length + 1 - (k + 1) = l.length - k by omega,
    List.drop_append_of_le_length (by omega)]

variable {x : α}

theorem mem_newest_append {a : α} (hx : x ∈ newest k (l ++ [a])) (hne : x ≠ a) :
    x ∈ newest (k - 1) l := by
  cases k with
  | zero =>
    rw [newest, Nat.sub_zero, List.drop_length] at hx
    cases hx
  | succ k =>
    rw [newest_append_singleton, List.mem_append, List.mem_singleton] at hx
    exact hx.resolve_right hne

theorem notMem_newest_append {a : α} (hx : x ∉ newest k l) (hne : x ≠ a) :
    x ∉ newest k (l ++ [a]) :=
  fun hin => hx (newest_subset (Nat.sub_le k 1) l (mem_newest_append hin hne))

variable {r : List α}

theorem split_sublist (hr : r.Sublist l) :
    ∃ old kept, r = old ++ kept ∧ old.Sublist (l.take (l.length - k)) ∧
      kept.Sublist (newest k l) := by
  rw [← take_append_newest k l] at hr
  exact List.sublist_append_iff.mp hr

theorem notMem_take_of_mem_newest (hl : l.Nodup) (hx : x ∈ newest k l) :
    x ∉ l.take (l.length - k) := by
  rw [← take_append_newest k l] at hl
  exact fun hin => (List.nodup_append.mp hl).2.2 x hin x hx rfl

/-- An entry of the register that is among the newest of the log is among the newest of the
register. -/
theorem mem_newest_of_sublist (hr : r.Sublist l) (hl : l.Nodup) (hx : x ∈ r) (hnew : x ∈ newest k l) :
    x ∈ newest k r := by
  obtain ⟨old, kept, rfl, hold, hkept⟩ := split_sublist (k := k) hr
  have hlen : kept.length ≤ k := by
    have := hkept.length_le
    rw [length_newest] at this
    omega
  rcases List.mem_append.mp hx with hin | hin
  · exact absurd (hold.subset hin) (notMem_take_of_mem_newest hl hnew)
  · exact subset_newest old rfl hlen hin

theorem newest_eq_of_sublist (hr : r.Sublist l) (hl : l.Nodup) (hkeep : newest k l ⊆ r) :
    newest k r = newest k l := by
  obtain ⟨old, kept, rfl, hold, hkept⟩ := split_sublist (k := k) hr
  have hin : newest k l ⊆ kept := by
    intro x hx
    rcases List.mem_append.mp (hkeep hx) with hmem | hmem
    · exact absurd (hold.subset hmem) (notMem_take_of_mem_newest hl hx)
    · exact hmem
  have hnodup : (newest k l).Nodup := hl.sublist (newest_suffix k l).sublist
  have heq : kept = newest k l :=
    hkept.eq_of_length_le (hnodup.subperm hin).length_le
  subst heq
  by_cases hlen : k ≤ l.length
  · exact newest_append_of_length old (by rw [length_newest]; omega)
  · -- a log shorter than `k` is all new, so nothing of the register lies before it
    have hnone : old = [] := by
      rw [Nat.sub_eq_zero_of_le (by omega), List.take_zero] at hold
      exact List.sublist_nil.mp hold
    rw [hnone, List.nil_append]
    exact newest_of_length_le (by rw [length_newest]; omega)

theorem eq_newest_of_sublist (hr : r.Sublist l) (hl : l.Nodup) (hkeep : newest k l ⊆ r)
    (honly : r ⊆ newest k l) : r = newest k l := by
  have hnew := newest_eq_of_sublist hr hl hkeep
  have hle : r.length ≤ (newest k l).length := ((hl.sublist hr).subperm honly).length_le
  rw [← hnew, newest_of_length_le]
  rw [length_newest] at hle
  omega

theorem mem_take_of_notMem_newest (hx : x ∈ l) (hnew : x ∉ newest k l) :
    x ∈ l.take (l.length - k) := by
  rw [← take_append_newest k l] at hx
  exact (List.mem_append.mp hx).resolve_right hnew

end Order
