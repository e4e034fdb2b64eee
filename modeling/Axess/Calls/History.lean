import Mathlib

/-!
# Histories

A history is a list that grows at its end. Where a recorded event stands in it is said by a split:
what was there before the event, and what has come after it.
-/

namespace Calls.History

variable {α : Type}

theorem split_snoc {l b a : List α} {x y : α} (h : l ++ [x] = b ++ y :: a) :
    (∃ a₀, a = a₀ ++ [x] ∧ l = b ++ y :: a₀) ∨ (a = [] ∧ b = l ∧ y = x) := by
  rcases List.eq_nil_or_concat a with rfl | ⟨a₀, z, rfl⟩
  · obtain ⟨hl, hx⟩ := List.append_inj' h rfl
    cases hx
    exact .inr ⟨rfl, hl.symm, rfl⟩
  · rw [List.concat_eq_append, ← List.cons_append, ← List.append_assoc] at h
    rw [List.concat_eq_append]
    obtain ⟨hl, hx⟩ := List.append_inj' h rfl
    cases hx
    exact .inl ⟨a₀, rfl, hl⟩

end Calls.History
