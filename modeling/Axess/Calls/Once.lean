import Mathlib

/-!
# Letting in once

A gate that lets a key in only while it is not barred, and bars what it lets in. Whatever else the
gate forgets, a key is let in at most once as long as nothing that is barred comes free.
-/

namespace Calls

variable {ι K σ : Type}

structure Admission (ι K : Type) where
  who : ι
  key : K

/-- What a gate keeps to in one step. -/
structure Bars (barred : K → σ → Prop) (log : σ → List (Admission ι K)) (s s' : σ) : Prop where
  keeps : ∀ key, barred key s → barred key s'
  lets : log s' = log s ∨ ∃ e, log s' = log s ++ [e] ∧ ¬barred e.key s ∧ barred e.key s'

structure Once (barred : K → σ → Prop) (log : σ → List (Admission ι K)) (s : σ) : Prop where
  barred : ∀ e ∈ log s, barred e.key s
  nodup : ((log s).map (·.key)).Nodup

namespace Once

variable {barred : K → σ → Prop} {log : σ → List (Admission ι K)} {s s' : σ}

theorem nil (h : log s = []) : Once barred log s := by
  refine ⟨fun e he => ?_, ?_⟩
  · rw [h] at he
    cases he
  · rw [h]
    exact List.nodup_nil

theorem step (h : Once barred log s) (hs : Bars barred log s s') : Once barred log s' := by
  rcases hs.lets with hlog | ⟨e, hlog, hfree, hbarred⟩
  · refine ⟨fun e he => hs.keeps _ (h.barred e (hlog ▸ he)), ?_⟩
    rw [hlog]
    exact h.nodup
  · refine ⟨fun e' he' => ?_, ?_⟩
    · rw [hlog, List.mem_append, List.mem_singleton] at he'
      rcases he' with he' | rfl
      · exact hs.keeps _ (h.barred e' he')
      · exact hbarred
    · rw [hlog, List.map_append, List.map_singleton, List.nodup_append]
      refine ⟨h.nodup, List.nodup_singleton _, fun key hkey key' hkey' => ?_⟩
      -- a key in the log is barred, the new one was not
      rw [List.mem_singleton] at hkey'
      rintro rfl
      obtain ⟨e', he', rfl⟩ := List.mem_map.mp hkey
      exact hfree (hkey' ▸ h.barred e' he')

theorem eq (h : Once barred log s) {e e' : Admission ι K} (he : e ∈ log s) (he' : e' ∈ log s)
    (hkey : e.key = e'.key) : e = e' :=
  List.inj_on_of_nodup_map h.nodup he he' hkey

end Once

end Calls
