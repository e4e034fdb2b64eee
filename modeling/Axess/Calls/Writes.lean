import Mathlib

/-!
# Linked writes

The log of the writes to one place, each over the value the write before it left. What every write
keeps is kept from the value any of them left to the value any later one was made over.
-/

namespace Calls

open Relation

variable {ι C : Type}

structure Write (ι C : Type) where
  who : ι
  before : C
  next : C
  deriving DecidableEq

/-- The log leads from the first value to the last, every write within `M`. -/
inductive Linked (M : C → C → Prop) (start : C) : List (Write ι C) → C → Prop where
  | nil : Linked M start [] start
  | snoc {log : List (Write ι C)} {mid next : C} (who : ι) :
      Linked M start log mid → M mid next →
      Linked M start (log ++ [⟨who, mid, next⟩]) next

namespace Linked

variable {M : C → C → Prop} {start last : C} {log : List (Write ι C)}

theorem after (h : Linked M start log last) {e : Write ι C} (he : e ∈ log) :
    ReflTransGen M e.next last := by
  induction h with
  | nil => cases he
  | snoc who _ hM ih =>
    rw [List.mem_append, List.mem_singleton] at he
    rcases he with he | rfl
    · exact (ih he).tail hM
    · exact .refl

theorem between (h : Linked M start log last) {k l : Nat} {e e' : Write ι C} (hkl : k < l)
    (hk : log[k]? = some e) (hl : log[l]? = some e') : ReflTransGen M e.next e'.before := by
  induction h with
  | nil => cases hk
  | @snoc log mid next who hlog hM ih =>
    have hlen : l < log.length ∨ l = log.length := by
      have hlt := (List.getElem?_eq_some_iff.mp hl).1
      rw [List.length_append, List.length_singleton] at hlt
      omega
    have hold : log[k]? = some e := by
      rwa [List.getElem?_append_left (by omega)] at hk
    rcases hlen with hlt | rfl
    · rw [List.getElem?_append_left hlt] at hl
      exact ih hold hl
    · rw [List.getElem?_concat_length] at hl
      cases hl
      exact hlog.after (List.mem_of_getElem? hold)

end Linked

end Calls
