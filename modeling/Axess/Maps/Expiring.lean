import Mathlib

/-!
# Maps with a queue of expiries

A map whose entries carry a time, and a queue of the times with the keys. Entries leave by the
queue: while its front is due, the front goes and takes its key with it. One item for each key, so
an entry that is not due does not go.
-/

namespace Maps

variable {K V T : Type} [DecidableEq K]

/-- Pop the items that are due off the front of the queue, with the entries they name. -/
def popDue (due : T → Bool) (entries : AList fun _ : K => V) :
    List (T × K) → (AList fun _ : K => V) × List (T × K)
  | [] => (entries, [])
  | (time, key) :: queue =>
    if due time then popDue due (entries.erase key) queue else (entries, (time, key) :: queue)

theorem lookup_popDue_none (due : T → Bool) {entries : AList fun _ : K => V} {key : K}
    (hkey : entries.lookup key = none) (queue : List (T × K)) :
    (popDue due entries queue).1.lookup key = none := by
  induction queue generalizing entries with
  | nil => exact hkey
  | cons item queue ih =>
    unfold popDue
    split
    · refine ih ?_
      by_cases heq : key = item.2
      · rw [heq, AList.lookup_erase]
      · rw [AList.lookup_erase_ne heq]
        exact hkey
    · exact hkey

theorem snd_popDue (due : T → Bool) (entries : AList fun _ : K => V) (queue : List (T × K)) :
    (popDue due entries queue).2 = queue.dropWhile fun item => due item.1 := by
  induction queue generalizing entries with
  | nil => rfl
  | cons item queue ih =>
    unfold popDue
    split
    · next hdue => rw [List.dropWhile_cons, if_pos hdue, ih]
    · next hdue => rw [List.dropWhile_cons, if_neg hdue]

/-- What is not due in a queue that is in the order of its times is what popping leaves. -/
theorem filter_eq_dropWhile {α : Type} {time : α → Int} {queue : List α}
    (hsorted : queue.Pairwise fun a b => time a ≤ time b) (now : Int) :
    queue.filter (fun a => decide (now < time a)) = queue.dropWhile fun a => decide (time a ≤ now) := by
  induction queue with
  | nil => rfl
  | cons a queue ih =>
    obtain ⟨hle, hsorted⟩ := List.pairwise_cons.mp hsorted
    rw [List.dropWhile_cons]
    split
    · next hdue =>
      have hdue := of_decide_eq_true hdue
      rw [List.filter_cons_of_neg (by simpa using hdue), ih hsorted]
    · next hnot =>
      have hnot : now < time a := by simpa using hnot
      refine List.filter_eq_self.mpr fun b hb => decide_eq_true ?_
      rcases List.mem_cons.mp hb with rfl | hb
      · exact hnot
      · exact hnot.trans_le (hle b hb)

theorem keys_insert_of_notMem {entries : AList fun _ : K => V} {key : K} (hnew : key ∉ entries) (v : V) :
    (entries.insert key v).keys = key :: entries.keys := by
  rw [AList.keys_insert, List.erase_of_not_mem (AList.mem_keys.not.mp hnew)]

/-- If the queue has the map's keys, it still does. -/
theorem keys_popDue (due : T → Bool) {entries : AList fun _ : K => V} {queue : List (T × K)}
    (hkeys : entries.keys.Perm (queue.map (·.2))) :
    (popDue due entries queue).1.keys.Perm ((popDue due entries queue).2.map (·.2)) := by
  induction queue generalizing entries with
  | nil => exact hkeys
  | cons item queue ih =>
    unfold popDue
    split
    · refine ih ?_
      have herase := hkeys.erase item.2
      rwa [List.map_cons, List.erase_cons_head, ← AList.keys_erase] at herase
    · exact hkeys

/-- Every item of the queue is of an entry with its time, and no two are of one key. -/
structure Queued (time : V → T) (entries : AList fun _ : K => V) (queue : List (T × K)) : Prop where
  nodup : (queue.map (·.2)).Nodup
  held : ∀ item ∈ queue, ∃ v, entries.lookup item.2 = some v ∧ time v = item.1

namespace Queued

variable {time : V → T} {entries : AList fun _ : K => V} {queue : List (T × K)} {key : K} {v : V}

theorem empty : Queued time (∅ : AList fun _ : K => V) [] := ⟨List.nodup_nil, nofun⟩

theorem pop {item : T × K} (h : Queued time entries (item :: queue)) :
    Queued time (entries.erase item.2) queue := by
  obtain ⟨hnew, hnodup⟩ := List.nodup_cons.mp h.nodup
  refine ⟨hnodup, fun other hother => ?_⟩
  have hne : other.2 ≠ item.2 := fun heq => hnew (List.mem_map.mpr ⟨other, hother, heq⟩)
  rw [AList.lookup_erase_ne hne]
  exact h.held other (List.mem_cons_of_mem item hother)

theorem popDue (h : Queued time entries queue) (due : T → Bool) :
    Queued time (popDue due entries queue).1 (popDue due entries queue).2 := by
  induction queue generalizing entries with
  | nil => exact h
  | cons item queue ih =>
    unfold Maps.popDue
    split
    · exact ih h.pop
    · exact h

theorem lookup_popDue (h : Queued time entries queue) {due : T → Bool}
    (hkey : entries.lookup key = some v) (hnot : due (time v) = false) :
    (Maps.popDue due entries queue).1.lookup key = some v := by
  induction queue generalizing entries with
  | nil => exact hkey
  | cons item queue ih =>
    unfold Maps.popDue
    split
    · next hdue =>
      -- the entry that goes is due, so it is another one
      have hne : key ≠ item.2 := by
        rintro rfl
        obtain ⟨v', hv', htime⟩ := h.held item List.mem_cons_self
        obtain rfl := Option.some.inj (hkey.symm.trans hv')
        rw [htime, hdue] at hnot
        cases hnot
      exact ih h.pop (by rw [AList.lookup_erase_ne hne]; exact hkey)
    · exact hkey

theorem insert (h : Queued time entries queue) (hnew : key ∉ entries) (v : V)
    {queue' : List (T × K)} (hperm : queue'.Perm ((time v, key) :: queue)) :
    Queued time (entries.insert key v) queue' := by
  have hother (item : T × K) (hitem : item ∈ queue) : item.2 ≠ key := by
    rintro rfl
    obtain ⟨v', hv', -⟩ := h.held item hitem
    exact hnew (AList.lookup_isSome.mp (by rw [hv']; rfl))
  refine ⟨(hperm.map _).nodup_iff.mpr (List.nodup_cons.mpr ⟨fun hmem => ?_, h.nodup⟩),
    fun item hitem => ?_⟩
  · obtain ⟨item, hitem, heq⟩ := List.mem_map.mp hmem
    exact hother item hitem heq
  · rcases List.mem_cons.mp (hperm.mem_iff.mp hitem) with rfl | hitem
    · exact ⟨v, AList.lookup_insert entries, rfl⟩
    · rw [AList.lookup_insert_ne (hother item hitem)]
      exact h.held item hitem

theorem replace (h : Queued time entries queue) {v' : V} (hkey : entries.lookup key = some v)
    (htime : time v' = time v) : Queued time (entries.insert key v') queue := by
  refine ⟨h.nodup, fun item hitem => ?_⟩
  by_cases heq : item.2 = key
  · obtain ⟨v₀, hv₀, hitemTime⟩ := h.held item hitem
    rw [heq] at hv₀ ⊢
    obtain rfl := Option.some.inj (hkey.symm.trans hv₀)
    exact ⟨v', AList.lookup_insert entries, htime.trans hitemTime⟩
  · rw [AList.lookup_insert_ne heq]
    exact h.held item hitem

theorem erase (h : Queued time entries queue) {keep : T × K → Bool}
    (hkeep : ∀ item ∈ queue, keep item = true → item.2 ≠ key) :
    Queued time (entries.erase key) (queue.filter keep) := by
  refine ⟨(List.filter_sublist.map _).nodup h.nodup, fun item hitem => ?_⟩
  obtain ⟨hmem, hkept⟩ := List.mem_filter.mp hitem
  rw [AList.lookup_erase_ne (hkeep item hmem hkept)]
  exact h.held item hmem

end Queued

end Maps
