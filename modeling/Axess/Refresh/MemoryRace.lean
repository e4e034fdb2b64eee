import Axess.Calls.History
import Axess.Refresh.Memory

/-!
# Revocations of tokens in memory, and rotations that overlap them

A rotation revokes the parent in one step and stores the child in another; a revocation lists the
rows in one step and revokes them one by one. A child that is stored after the listing is not on
the list. The run is safe as long as two steps do not fall where they may not: a listing while a
rotation of a listed row has yet to store its child, and a rotation of a row that a revocation has
listed and not come to.
-/

namespace Axess

open Calls Relation

variable {ι : Type}

namespace MemoryLedger

def Listed (task : ι → MemoryTask) (s : MemoryLedger ι) (j : ι) (covers : RefreshToken → Bool)
    (before : List (ι × MemoryEvent)) (rows : List RefreshToken) (after : List (ι × MemoryEvent)) :
    Prop :=
  (task j).covers = some covers ∧ s.history = before ++ (j, .listed rows) :: after

/-- The rotation has revoked the parent and not stored the child. -/
def InFlight (s : MemoryLedger ι) (k : ι) (parentId : RefreshTokenId) (t : RefreshToken) : Prop :=
  (k, .updated parentId .rotated true) ∈ s.history ∧ (k, .stored t) ∉ s.history

/-- When a revocation lists the rows, no rotation of a row it is for is in flight; and when a row
is to be rotated that a revocation has listed and not come to, it is revoked already. -/
def Orderly (task : ι → MemoryTask) (i : ι) : MemoryCall → MemoryLedger ι → Prop
  | .snapshot, s => ∀ covers, (task i).covers = some covers →
    ∀ k p t, task k = .rotateToken p t → s.InFlight k p t →
      ∀ e ∈ s.map.entries, e.value.id = p → covers e.value = false
  | .update id .rotated _, s => ∀ j covers before rows after,
    Listed task s j covers before rows after → (∃ r ∈ rows, r.id = id ∧ covers r = true) →
      (∀ reason won, (j, .updated id reason won) ∉ after) →
      ∀ e ∈ s.map.entries, e.value.id = id → e.value.revoked = true
  | _, _ => True

def orderly (task : ι → MemoryTask) (i : ι) : Sem MemoryCall MemoryCall.Answer (MemoryLedger ι) :=
  fun c s a s' => steps i c s a s' ∧ Orderly task i c s

def Gone (s : MemoryLedger ι) (id : RefreshTokenId) : Prop :=
  ∀ e ∈ s.map.entries, e.value.id = id → e.value.revoked = true ∨ e.expiresAt ≤ s.map.clock

section Step

variable {i : ι} {s s' : MemoryLedger ι}

theorem steps_now {a : Instant} (h : steps i .now s a s') :
    s.map.clock ≤ s'.map.clock ∧ s'.map.entries = s.map.entries := by
  obtain ⟨⟨now, hnow, heq⟩, _⟩ := h
  obtain ⟨_, hmap⟩ := Prod.mk.inj heq
  rw [hmap]
  exact ⟨hnow, rfl⟩

theorem steps_snapshot {rows : List RefreshToken} (h : steps i .snapshot s rows s') :
    s.map.clock ≤ s'.map.clock ∧ s'.map.entries = s.map.entries ∧ rows.Perm s'.map.rows := by
  obtain ⟨⟨now, hnow, hrows, hmap⟩, _⟩ := h
  rw [hmap]
  exact ⟨hnow, rfl, hrows⟩

variable {id : RefreshTokenId} {reason : RevocationReason}

variable {at_ : Instant}

theorem steps_update {a : Option Bool} (h : steps i (.update id reason at_) s a s') :
    s.map.clock ≤ s'.map.clock ∧
      s'.map.entries = s.map.entries.map (s'.map.revokeEntry id reason at_) ∧
      a = (s.map.entries.find? (s'.map.touches id)).map fun e => !e.value.revoked := by
  obtain ⟨⟨now, hnow, heq⟩, _⟩ := h
  obtain ⟨ha, hmap⟩ := Prod.mk.inj heq
  rw [hmap]
  exact ⟨hnow, rfl, ha⟩

variable {a : Unit}

theorem steps_put {t : RefreshToken} {ttl : TimeDelta} (h : steps i (.put t ttl) s a s') :
    s.map.clock ≤ s'.map.clock ∧ ∃ deadline,
      s'.map.entries = s.map.entries.filter (·.value.id != t.id) ++ [⟨t, deadline⟩] := by
  obtain ⟨⟨now, hnow, heq⟩, _⟩ := h
  obtain ⟨_, hmap⟩ := Prod.mk.inj heq
  rw [hmap]
  exact ⟨hnow, _, rfl⟩

theorem steps_lock (h : steps i .lockIssue s a s') :
    s.map.clock ≤ s'.map.clock ∧ s'.map.entries = s.map.entries := by
  obtain ⟨⟨now, hnow, _, hmap⟩, _⟩ := h
  rw [hmap]
  exact ⟨hnow, rfl⟩

theorem steps_unlock (h : steps i .unlockIssue s a s') :
    s.map.clock ≤ s'.map.clock ∧ s'.map.entries = s.map.entries := by
  obtain ⟨⟨now, hnow, heq⟩, _⟩ := h
  obtain ⟨_, hmap⟩ := Prod.mk.inj heq
  rw [hmap]
  exact ⟨hnow, rfl⟩

theorem steps_entries {c : MemoryCall} {a : c.Answer} (h : steps i c s a s') :
    s.map.clock ≤ s'.map.clock ∧
      (s'.map.entries = s.map.entries ∨
        (∃ id reason at_, c = .update id reason at_ ∧
          s'.map.entries = s.map.entries.map (s'.map.revokeEntry id reason at_)) ∨
        ∃ t ttl deadline, c = .put t ttl ∧
          s'.map.entries = s.map.entries.filter (·.value.id != t.id) ++ [⟨t, deadline⟩]) := by
  cases c with
  | now => exact ⟨(steps_now h).1, .inl (steps_now h).2⟩
  | snapshot => exact ⟨(steps_snapshot h).1, .inl (steps_snapshot h).2.1⟩
  | update id reason at_ =>
    exact ⟨(steps_update h).1, .inr (.inl ⟨id, reason, at_, rfl, (steps_update h).2.1⟩)⟩
  | put t ttl =>
    obtain ⟨hclock, deadline, hentries⟩ := steps_put h
    exact ⟨hclock, .inr (.inr ⟨t, ttl, deadline, rfl, hentries⟩)⟩
  | lockIssue => exact ⟨(steps_lock h).1, .inl (steps_lock h).2⟩
  | unlockIssue => exact ⟨(steps_unlock h).1, .inl (steps_unlock h).2⟩

theorem revokeEntry_id (m : MemoryMap) (id : RefreshTokenId) (reason : RevocationReason)
    (at_ : Instant) (e : MemoryEntry) : (m.revokeEntry id reason at_ e).value.id = e.value.id := by
  unfold MemoryMap.revokeEntry
  split
  · exact RefreshToken.id_eq_of_core RefreshToken.core_revoke
  · rfl

theorem revokeEntry_expiresAt (m : MemoryMap) (id : RefreshTokenId) (reason : RevocationReason)
    (at_ : Instant) (e : MemoryEntry) : (m.revokeEntry id reason at_ e).expiresAt = e.expiresAt := by
  unfold MemoryMap.revokeEntry
  split <;> rfl

theorem revokeEntry_revoked {m : MemoryMap} {e : MemoryEntry} (h : e.value.revoked = true) :
    (m.revokeEntry id reason at_ e).value.revoked = true := by
  unfold MemoryMap.revokeEntry
  split
  · exact RefreshToken.revoked_revoke
  · exact h

theorem Gone.step {c : MemoryCall} {a : c.Answer} (hgone : s.Gone id)
    (h : steps i c s a s') (hput : ∀ t ttl, c = .put t ttl → t.id ≠ id) : s'.Gone id := by
  obtain ⟨hclock, hsame | ⟨id', reason, at_, _, hentries⟩ | ⟨t, ttl, deadline, hc, hentries⟩⟩ :=
    steps_entries h
  · intro e he hid
    rw [hsame] at he
    exact (hgone e he hid).imp_right fun hexpired => hexpired.trans hclock
  · intro e he hid
    rw [hentries] at he
    obtain ⟨e₀, he₀, rfl⟩ := List.mem_map.mp he
    rw [revokeEntry_id] at hid
    rw [revokeEntry_expiresAt]
    exact (hgone e₀ he₀ hid).imp revokeEntry_revoked fun hexpired => hexpired.trans hclock
  · intro e he hid
    rw [hentries] at he
    rcases List.mem_append.mp he with he | he
    · exact (hgone e (List.mem_of_mem_filter he) hid).imp_right fun hexpired => hexpired.trans hclock
    · rw [List.mem_singleton.mp he] at hid
      exact absurd hid (hput t ttl hc)

theorem gone_updated {a : Option Bool} (h : steps i (.update id reason at_) s a s') :
    s'.Gone id := by
  obtain ⟨_, hentries, _⟩ := steps_update h
  intro e he hid
  rw [hentries] at he
  obtain ⟨e₀, _, rfl⟩ := List.mem_map.mp he
  rw [revokeEntry_id] at hid
  rw [revokeEntry_expiresAt]
  by_cases hvisible : s'.map.visible e₀ = true
  · left
    have htouches : s'.map.touches id e₀ = true := by
      rw [MemoryMap.touches, hvisible, hid, beq_self_eq_true, Bool.and_true]
    rw [MemoryMap.revokeEntry, if_pos htouches]
    exact RefreshToken.revoked_revoke
  · right
    rw [MemoryMap.visible, decide_eq_true_eq, not_lt] at hvisible
    exact hvisible

theorem not_gone_of_won (h : steps i (.update id reason at_) s (some true) s') :
    ¬s.Gone id ∧ ∃ e ∈ s.map.entries, e.value.id = id ∧ e.value.revoked = false := by
  obtain ⟨hclock, _, ha⟩ := steps_update h
  obtain ⟨e, hfind, hlive⟩ := Option.map_eq_some_iff.mp ha.symm
  have hmem := List.mem_of_find?_eq_some hfind
  have htouches := List.find?_some hfind
  rw [MemoryMap.touches, Bool.and_eq_true, beq_iff_eq, MemoryMap.visible, decide_eq_true_eq]
    at htouches
  obtain ⟨hid, hvisible⟩ := htouches
  rw [Bool.not_eq_true'] at hlive
  refine ⟨fun hgone => ?_, e, hmem, hid, hlive⟩
  rcases hgone e hmem hid with hrevoked | hexpired
  · rw [hlive] at hrevoked
    cases hrevoked
  · exact absurd (hexpired.trans hclock) (not_le.mpr hvisible)

end Step

/-! ## The invariant -/

def Known (ids : List RefreshTokenId) (s : MemoryLedger ι) (id : RefreshTokenId) : Prop :=
  id ∈ ids ∨ ∃ k t, (k, .stored t) ∈ s.history ∧ t.id = id

structure Listing (task : ι → MemoryTask) (ids : List RefreshTokenId) (s : MemoryLedger ι) (j : ι)
    (covers : RefreshToken → Bool) (before : List (ι × MemoryEvent)) (rows : List RefreshToken)
    (after : List (ι × MemoryEvent)) : Prop where
  known : ∀ r ∈ rows, Known ids s r.id
  done : ∀ r ∈ rows, ∀ reason won, (j, .updated r.id reason won) ∈ after → s.Gone r.id
  flying : ∀ k p t, task k = .rotateToken p t → (k, .updated p .rotated true) ∈ before →
    (k, .stored t) ∉ before → ∀ r ∈ rows, covers r = true → r.id ≠ p
  won : ∀ k p t, task k = .rotateToken p t → (k, .updated p .rotated true) ∈ after →
    ∀ r ∈ rows, covers r = true → r.id ≠ p
  stored : ∀ k p t, task k = .rotateToken p t → (k, .stored t) ∈ after →
    ∀ r ∈ rows, covers r = true → r.id ≠ p

structure Inv (task : ι → MemoryTask) (ids : List RefreshTokenId) (s : MemoryLedger ι) : Prop where
  unique : ∀ e ∈ s.map.entries, ∀ e' ∈ s.map.entries, e.value.id = e'.value.id → e = e'
  known : ∀ e ∈ s.map.entries, Known ids s e.value.id
  storedBy : ∀ k t, (k, .stored t) ∈ s.history → (task k).token = some t
  listing : ∀ j covers before rows after, Listed task s j covers before rows after →
    Listing task ids s j covers before rows after

/-- What a member may put: its own token, once, and a rotation only when it has won the parent. -/
def Permits (task : ι → MemoryTask) (i : ι) : MemoryCall → MemoryLedger ι → Prop
  | .put t _, s => (task i).token = some t ∧ (i, .stored t) ∉ s.history ∧
    ∀ p, task i = .rotateToken p t → (i, .updated p .rotated true) ∈ s.history
  | _, _ => True

def Guarantee (task : ι → MemoryTask) (i : ι) (s s' : MemoryLedger ι) : Prop :=
  ∃ c a, steps i c s a s' ∧ Orderly task i c s ∧ Permits task i c s

/-- No two callers store a token under one id, and none under an id that was stored at the start. -/
structure FreshTokens (task : ι → MemoryTask) (ids : List RefreshTokenId) : Prop where
  apart : ∀ i j t t', (task i).token = some t → (task j).token = some t' → t.id = t'.id → i = j
  unused : ∀ i t, (task i).token = some t → t.id ∉ ids

section Invariant

variable {task : ι → MemoryTask} {ids : List RefreshTokenId} {i j : ι} {c : MemoryCall}
  {a : c.Answer} {s s' : MemoryLedger ι} {covers : RefreshToken → Bool}
  {before after : List (ι × MemoryEvent)} {rows : List RefreshToken}

theorem Known.step {id : RefreshTokenId} (h : Known ids s id) (hX : steps i c s a s') :
    Known ids s' id := by
  rcases h with hin | ⟨k, t, hstored, hid⟩
  · exact .inl hin
  · refine .inr ⟨k, t, ?_, hid⟩
    rw [hX.2]
    exact List.mem_append_left _ hstored

theorem Inv.fresh (hs : Inv task ids s) (hfresh : FreshTokens task ids) {t : RefreshToken}
    {ttl : TimeDelta} (hperm : Permits task i (.put t ttl) s) {id : RefreshTokenId}
    (hknown : Known ids s id) : t.id ≠ id := by
  rintro rfl
  rcases hknown with hin | ⟨k, t', hstored, hid⟩
  · exact hfresh.unused i t hperm.1 hin
  · have htoken := hs.storedBy k t' hstored
    obtain rfl := hfresh.apart k i t' t htoken hperm.1 hid
    rw [hperm.1] at htoken
    cases htoken
    exact hperm.2.1 hstored

theorem Listed.of_step (hX : steps i c s a s') (h : Listed task s' j covers before rows after) :
    (∃ after₀, after = after₀ ++ (events c a).map (i, ·) ∧
      Listed task s j covers before rows after₀) ∨
    (events c a = [.listed rows] ∧ j = i ∧ before = s.history ∧ after = []) := by
  obtain ⟨hcovers, hhistory⟩ := h
  rw [hX.2] at hhistory
  have hlast {e : MemoryEvent} (he : events c a = [e]) :
      (∃ after₀, after = after₀ ++ (events c a).map (i, ·) ∧
        Listed task s j covers before rows after₀) ∨
      (events c a = [.listed rows] ∧ j = i ∧ before = s.history ∧ after = []) := by
    rw [he] at hhistory ⊢
    rcases History.split_snoc hhistory with ⟨after₀, rfl, hold⟩ | ⟨rfl, hbefore, hnew⟩
    · exact .inl ⟨after₀, rfl, hcovers, hold⟩
    · cases hnew
      exact .inr ⟨rfl, rfl, hbefore, rfl⟩
  have hnone (he : events c a = []) :
      (∃ after₀, after = after₀ ++ (events c a).map (i, ·) ∧
        Listed task s j covers before rows after₀) ∨
      (events c a = [.listed rows] ∧ j = i ∧ before = s.history ∧ after = []) := by
    rw [he, List.map_nil, List.append_nil] at hhistory
    rw [he]
    exact .inl ⟨after, (List.append_nil _).symm, hcovers, hhistory⟩
  cases c with
  | now => exact hnone rfl
  | snapshot => exact hlast rfl
  | update id reason at_ => exact hlast rfl
  | put t ttl => exact hlast rfl
  | lockIssue => exact hnone rfl
  | unlockIssue => exact hnone rfl

theorem Listing.grow (h : Listing task ids s j covers before rows after)
    (hX : steps i c s a s') (hput : ∀ t ttl, c = .put t ttl → ∀ r ∈ rows, t.id ≠ r.id)
    {new : List (ι × MemoryEvent)}
    (hdone : ∀ r ∈ rows, ∀ reason won, (j, .updated r.id reason won) ∈ new → s'.Gone r.id)
    (hwon : ∀ k p t, task k = .rotateToken p t → (k, .updated p .rotated true) ∈ new →
      ∀ r ∈ rows, covers r = true → r.id ≠ p)
    (hstored : ∀ k p t, task k = .rotateToken p t → (k, .stored t) ∈ new →
      ∀ r ∈ rows, covers r = true → r.id ≠ p) :
    Listing task ids s' j covers before rows (after ++ new) where
  known := fun r hr => (h.known r hr).step hX
  done := fun r hr reason won hin => (List.mem_append.mp hin).elim
    (fun hold => (h.done r hr reason won hold).step hX fun t ttl hc => hput t ttl hc r hr)
    (hdone r hr reason won)
  flying := h.flying
  won := fun k p t htask hin => (List.mem_append.mp hin).elim (h.won k p t htask)
    (hwon k p t htask)
  stored := fun k p t htask hin => (List.mem_append.mp hin).elim (h.stored k p t htask)
    (hstored k p t htask)

theorem Listing.not_won (h : Listing task ids s j covers before rows after)
    (hlisted : Listed task s j covers before rows after) {id : RefreshTokenId} {at_ : Instant}
    (hX : steps i (.update id .rotated at_) s (some true) s')
    (hord : Orderly task i (.update id .rotated at_) s) {r : RefreshToken} (hr : r ∈ rows)
    (hcovers : covers r = true) : r.id ≠ id := by
  rintro rfl
  obtain ⟨hnot, e, he, hid, hlive⟩ := not_gone_of_won hX
  -- either the revocation has come to the row, or the step was not orderly
  by_cases hcame : ∃ reason won, (j, .updated r.id reason won) ∈ after
  · obtain ⟨reason, won, hin⟩ := hcame
    exact hnot (h.done r hr reason won hin)
  · have hrevoked := hord j covers before rows after hlisted ⟨r, hr, rfl, hcovers⟩
      (fun reason won hin => hcame ⟨reason, won, hin⟩) e he hid
    rw [hlive] at hrevoked
    cases hrevoked

theorem Listing.not_stored (h : Listing task ids s j covers before rows after)
    (hlisted : Listed task s j covers before rows after) {t : RefreshToken} {ttl : TimeDelta}
    (hperm : Permits task i (.put t ttl) s) {p : RefreshTokenId}
    (htask : task i = .rotateToken p t) : ∀ r ∈ rows, covers r = true → r.id ≠ p := by
  have hwon := hperm.2.2 p htask
  have hstored := hperm.2.1
  rw [hlisted.2] at hwon hstored
  rcases List.mem_append.mp hwon with hbefore | hafter
  · exact h.flying i p t htask hbefore fun hin => hstored (List.mem_append_left _ hin)
  · rcases List.mem_cons.mp hafter with hlist | hafter
    · cases hlist
    · exact h.won i p t htask hafter

theorem Inv.listing_step (hs : Inv task ids s) (hfresh : FreshTokens task ids)
    (hX : steps i c s a s') (hord : Orderly task i c s) (hperm : Permits task i c s)
    (hlisted : Listed task s j covers before rows after) :
    Listing task ids s' j covers before rows (after ++ (events c a).map (i, ·)) := by
  have h := hs.listing j covers before rows after hlisted
  cases c with
  | now | lockIssue | unlockIssue =>
    exact h.grow hX (fun _ _ hc => nomatch hc) (fun _ _ _ _ hin => nomatch hin)
      (fun _ _ _ _ hin => nomatch hin) fun _ _ _ _ hin => nomatch hin
  | snapshot =>
    refine h.grow hX (fun _ _ hc => nomatch hc) (fun _ _ _ _ hin => ?_) (fun _ _ _ _ hin => ?_)
      fun _ _ _ _ hin => ?_
    all_goals cases List.mem_singleton.mp hin
  | update id reason at_ =>
    refine h.grow hX (fun _ _ hc => nomatch hc) (fun r hr reason' won hin => ?_)
      (fun k p t _ hin r hr hcovers => ?_) fun _ _ _ _ hin => ?_
    · obtain ⟨_, heq⟩ := Prod.mk.inj (List.mem_singleton.mp hin)
      cases heq
      exact gone_updated hX
    · obtain ⟨_, heq⟩ := Prod.mk.inj (List.mem_singleton.mp hin)
      obtain ⟨rfl, rfl, hwon⟩ := MemoryEvent.updated.inj heq
      rw [eq_of_beq hwon.symm] at hX
      exact h.not_won hlisted hX hord hr hcovers
    · cases List.mem_singleton.mp hin
  | put t ttl =>
    refine h.grow hX (fun t' ttl' hc r hr => ?_) (fun _ _ _ _ hin => ?_) (fun _ _ _ _ hin => ?_)
      fun k p t' htask hin => ?_
    · cases hc
      exact hs.fresh hfresh hperm (h.known r hr)
    · cases List.mem_singleton.mp hin
    · cases List.mem_singleton.mp hin
    · cases List.mem_singleton.mp hin
      exact h.not_stored hlisted hperm htask

theorem Inv.listing_new (hs : Inv task ids s) (hX : steps i .snapshot s rows s')
    (hord : Orderly task i .snapshot s) (hcovers : (task i).covers = some covers) :
    Listing task ids s' i covers s.history rows [] where
  known := fun r hr => by
    obtain ⟨_, hentries, hperm⟩ := steps_snapshot hX
    obtain ⟨e, he, rfl⟩ := List.mem_map.mp (hperm.mem_iff.mp hr)
    exact (hs.known e (hentries ▸ List.mem_of_mem_filter he)).step hX
  done := fun _ _ _ _ hin => nomatch hin
  flying := fun k p t htask hwon hstored r hr hcov hid => by
    obtain ⟨_, hentries, hperm⟩ := steps_snapshot hX
    obtain ⟨e, he, rfl⟩ := List.mem_map.mp (hperm.mem_iff.mp hr)
    have hmem : e ∈ s.map.entries := hentries ▸ List.mem_of_mem_filter he
    rw [hord covers hcovers k p t htask ⟨hwon, hstored⟩ e hmem hid] at hcov
    cases hcov
  won := fun _ _ _ _ hin => nomatch hin
  stored := fun _ _ _ _ hin => nomatch hin

theorem Inv.step (hs : Inv task ids s) (hfresh : FreshTokens task ids)
    (hG : Guarantee task i s s') : Inv task ids s' := by
  obtain ⟨c, a, hX, hord, hperm⟩ := hG
  obtain ⟨_, hentries⟩ := steps_entries hX
  refine ⟨?_, ?_, ?_, ?_⟩
  · rcases hentries with hsame | ⟨id, reason, at_, _, hmap⟩ | ⟨t, ttl, deadline, rfl, hput⟩
    · rw [hsame]
      exact hs.unique
    · rw [hmap]
      intro e he e' he' hid
      obtain ⟨e₀, he₀, rfl⟩ := List.mem_map.mp he
      obtain ⟨e₁, he₁, rfl⟩ := List.mem_map.mp he'
      rw [revokeEntry_id, revokeEntry_id] at hid
      rw [hs.unique e₀ he₀ e₁ he₁ hid]
    · rw [hput]
      intro e he e' he' hid
      rcases List.mem_append.mp he with he | he <;> rcases List.mem_append.mp he' with he' | he'
      · exact hs.unique e (List.mem_of_mem_filter he) e' (List.mem_of_mem_filter he') hid
      · rw [List.mem_singleton.mp he'] at hid
        exact absurd hid.symm (hs.fresh hfresh hperm (hs.known e (List.mem_of_mem_filter he)))
      · rw [List.mem_singleton.mp he] at hid
        exact absurd hid (hs.fresh hfresh hperm (hs.known e' (List.mem_of_mem_filter he')))
      · rw [List.mem_singleton.mp he, List.mem_singleton.mp he']
  · intro e he
    rcases hentries with hsame | ⟨id, reason, at_, _, hmap⟩ | ⟨t, ttl, deadline, rfl, hput⟩
    · exact (hs.known e (hsame ▸ he)).step hX
    · rw [hmap] at he
      obtain ⟨e₀, he₀, rfl⟩ := List.mem_map.mp he
      rw [revokeEntry_id]
      exact (hs.known e₀ he₀).step hX
    · rw [hput] at he
      rcases List.mem_append.mp he with he | he
      · exact (hs.known e (List.mem_of_mem_filter he)).step hX
      · rw [List.mem_singleton.mp he]
        refine .inr ⟨i, t, ?_, rfl⟩
        rw [hX.2]
        exact List.mem_append_right _ List.mem_cons_self
  · intro k t hin
    rw [hX.2] at hin
    rcases List.mem_append.mp hin with hold | hnew
    · exact hs.storedBy k t hold
    · cases c with
      | put t' ttl =>
        cases List.mem_singleton.mp hnew
        exact hperm.1
      | snapshot => cases List.mem_singleton.mp hnew
      | update id reason at_ => cases List.mem_singleton.mp hnew
      | now | lockIssue | unlockIssue => exact nomatch hnew
  · intro j covers before rows after hlisted
    rcases hlisted.of_step hX with ⟨after₀, rfl, hold⟩ | ⟨hevent, rfl, rfl, rfl⟩
    · exact hs.listing_step hfresh hX hord hperm hold
    · cases c with
      | snapshot =>
        cases hevent
        exact hs.listing_new hX hord hlisted.1
      | now | update | put | lockIssue | unlockIssue => cases hevent

end Invariant

section Member

open MemoryRefreshTokenStore

variable {task : ι → MemoryTask} {ids : List RefreshTokenId} {i : ι} {s s' : MemoryLedger ι}

theorem others_history (h : Pool.others (Guarantee task) i s s') :
    ∃ new, s'.history = s.history ++ new ∧ ∀ e, (i, e) ∉ new := by
  obtain ⟨j, hji, c, a, hX, _, _⟩ := h
  refine ⟨_, hX.2, fun e hin => ?_⟩
  obtain ⟨_, _, heq⟩ := List.mem_map.mp hin
  exact hji (Prod.mk.inj heq).1

variable (task ids i) in
def Unstored (s : MemoryLedger ι) : Prop := Inv task ids s ∧ ∀ t, (i, .stored t) ∉ s.history

theorem inv_stable (hfresh : FreshTokens task ids) :
    Stable (Pool.others (Guarantee task) i) (Inv task ids) :=
  fun _ _ hs ⟨_, _, hG⟩ => hs.step hfresh hG

theorem unstored_stable (hfresh : FreshTokens task ids) :
    Stable (Pool.others (Guarantee task) i) (Unstored task ids i) := by
  refine fun s s' hs hR => ⟨inv_stable hfresh hs.1 hR, fun t hin => ?_⟩
  obtain ⟨new, hhistory, hnew⟩ := others_history hR
  rw [hhistory] at hin
  exact (List.mem_append.mp hin).elim (hs.2 t) (hnew _)

def HasWon (task : ι → MemoryTask) (i : ι) (t : RefreshToken) (s : MemoryLedger ι) : Prop :=
  ∀ p, task i = .rotateToken p t → (i, .updated p .rotated true) ∈ s.history

theorem hasWon_stable {t : RefreshToken} :
    Stable (Pool.others (Guarantee task) i) (HasWon task i t) := by
  intro s s' hs hR p htask
  obtain ⟨new, hhistory, _⟩ := others_history hR
  rw [hhistory]
  exact List.mem_append_left _ (hs p htask)

def Quiet : MemoryCall → Prop
  | .put .. => False
  | _ => True

theorem guarantee_of_quiet {c : MemoryCall} {a : c.Answer} (hX : orderly task i c s a s')
    (hc : Quiet c) : Guarantee task i s s' := by
  refine ⟨c, a, hX.1, hX.2, ?_⟩
  cases c with
  | put t ttl => exact hc.elim
  | now | snapshot | update | lockIssue | unlockIssue => trivial

theorem unstored_of_quiet (hfresh : FreshTokens task ids) {c : MemoryCall} {a : c.Answer}
    (hX : orderly task i c s a s') (hc : Quiet c) (hs : Unstored task ids i s) :
    Guarantee task i s s' ∧ Unstored task ids i s' := by
  have hG := guarantee_of_quiet hX hc
  refine ⟨hG, hs.1.step hfresh hG, fun t hin => ?_⟩
  rw [hX.1.2] at hin
  rcases List.mem_append.mp hin with hold | hnew
  · exact hs.2 t hold
  · cases c with
    | put t ttl => exact hc.elim
    | snapshot => cases List.mem_singleton.mp hnew
    | update id reason at_ => cases List.mem_singleton.mp hnew
    | now | lockIssue | unlockIssue => exact nomatch hnew

theorem revokeAs_quiet (id : RefreshTokenId) (reason : RevocationReason) :
    (revokeAs id reason).Only Quiet :=
  ⟨trivial, fun _ => ⟨trivial, fun _ => trivial⟩⟩

theorem revokeEach_quiet (reason : RevocationReason) (targets : List RefreshToken) :
    (revokeEach reason targets).Only Quiet := by
  induction targets with
  | nil => trivial
  | cons t rest ih => exact (revokeAs_quiet t.id reason).bind fun _ => ih

theorem findToken_quiet (h : String) : (findToken h).Only Quiet := ⟨trivial, fun _ => trivial⟩

theorem activeTokens_quiet (u : UserId) : (activeTokens u).Only Quiet :=
  ⟨trivial, fun _ => trivial⟩

theorem quiet_safe (hfresh : FreshTokens task ids) {α : Type} {p : MemoryProg α}
    (hp : p.Only Quiet) (hs : Unstored task ids i s) :
    p.SafeAmong (orderly task) (Guarantee task) i
      (fun _ => Unstored task ids i) s :=
  (Prog.Within.safe hp (unstored_stable hfresh)
    (fun _ _ _ _ hc hX hs => unstored_of_quiet hfresh hX hc hs) hs).conseq fun _ _ h => h.2

theorem storeToken_safe (hfresh : FreshTokens task ids) {t : RefreshToken}
    (htoken : (task i).token = some t) (hs : Unstored task ids i s) (hwon : HasWon task i t s) :
    (storeToken t).SafeAmong (orderly task) (Guarantee task) i
      (fun _ => Inv task ids) s := by
  have hstable : Stable (Pool.others (Guarantee task) i)
      fun s => Unstored task ids i s ∧ HasWon task i t s :=
    (unstored_stable hfresh).and hasWon_stable
  refine Prog.Safe.call _ hstable ⟨hs, hwon⟩ fun s now s' hs hX => ?_
  obtain ⟨hG, hs'⟩ := unstored_of_quiet hfresh hX trivial hs.1
  have hwon' : HasWon task i t s' := fun p htask => by
    rw [hX.1.2]
    exact List.mem_append_left _ (hs.2 p htask)
  refine ⟨hG, Prog.Safe.call _ hstable ⟨hs', hwon'⟩ fun s a s' hs hX => ?_⟩
  have hG : Guarantee task i s s' := ⟨_, a, hX.1, hX.2, htoken, hs.1.2 t, hs.2⟩
  exact ⟨hG, Prog.Safe.ret _ (inv_stable hfresh) (hs.1.1.step hfresh hG) fun _ h => h⟩

theorem rotateToken_safe (hfresh : FreshTokens task ids) {p : RefreshTokenId} {t : RefreshToken}
    (htask : task i = .rotateToken p t) (hs : Unstored task ids i s) :
    (rotateToken p t).SafeAmong (orderly task) (Guarantee task) i
      (fun _ => Inv task ids) s := by
  refine Prog.Safe.call _ (unstored_stable hfresh) hs fun s a s' hs hX => ?_
  obtain ⟨hG, hs'⟩ := unstored_of_quiet hfresh hX trivial hs
  refine ⟨hG, ?_⟩
  rcases a with _ | _ | _
  · exact Prog.Safe.ret _ (inv_stable hfresh) hs'.1 fun _ h => h
  · exact Prog.Safe.ret _ (inv_stable hfresh) hs'.1 fun _ h => h
  · have hwon : HasWon task i t s' := fun p' htask' => by
      rw [htask] at htask'
      cases htask'
      rw [hX.1.2]
      exact List.mem_append_right _ List.mem_cons_self
    show Prog.Safe _ _ _ _ (storeToken t >>= fun _ => pure RotationOutcome.rotated) s'
    refine Prog.Safe.bind (storeToken_safe hfresh (by rw [htask]; rfl) hs' hwon) fun _ s hs => ?_
    exact Prog.Safe.ret _ (inv_stable hfresh) hs fun _ h => h

theorem issueCapped_safe (hfresh : FreshTokens task ids) {t : RefreshToken} {maxPerUser : Nat}
    (htask : task i = .issueCapped t maxPerUser) (hs : Unstored task ids i s) :
    (issueCapped t maxPerUser).SafeAmong (orderly task) (Guarantee task) i
      (fun _ => Inv task ids) s := by
  refine Prog.Safe.bind (quiet_safe hfresh ⟨trivial, fun _ => trivial⟩ hs) fun _ s hs => ?_
  refine Prog.Safe.bind (quiet_safe hfresh (activeTokens_quiet _) hs) fun active s hs => ?_
  refine Prog.Safe.bind (quiet_safe hfresh (revokeEach_quiet _ _) hs) fun _ s hs => ?_
  have hwon : HasWon task i t s := fun p hrotate => by
    rw [htask] at hrotate
    cases hrotate
  refine Prog.Safe.bind (storeToken_safe hfresh (by rw [htask]; rfl) hs hwon) fun _ s hs => ?_
  refine Prog.Safe.call _ (inv_stable hfresh) hs fun s a s' hs hX => ?_
  have hG := guarantee_of_quiet hX trivial
  exact ⟨hG, Prog.Safe.ret _ (inv_stable hfresh) (hs.step hfresh hG) fun _ h => h⟩

/-! ## A revocation comes to every row it has listed -/

variable (task ids i) in
/-- Of the rows the revocation is for, those that are not gone are yet to come. -/
def Working (rest : List RefreshToken) (s : MemoryLedger ι) : Prop :=
  Inv task ids s ∧ (∃ rows, (i, .listed rows) ∈ s.history) ∧
    ∀ covers before rows after, Listed task s i covers before rows after →
      ∀ r ∈ rows, covers r = true → s.Gone r.id ∨ ∃ t ∈ rest, t.id = r.id

theorem Working.step (hfresh : FreshTokens task ids) {rest : List RefreshToken}
    (hs : Working task ids i rest s) {j : ι} {c : MemoryCall} {a : c.Answer}
    (hX : steps j c s a s') (hord : Orderly task j c s) (hperm : Permits task j c s)
    (hother : j = i → ∀ rows, events c a ≠ [.listed rows]) : Working task ids i rest s' := by
  obtain ⟨hinv, ⟨listed, hin⟩, hrows⟩ := hs
  refine ⟨hinv.step hfresh ⟨c, a, hX, hord, hperm⟩, ⟨listed, ?_⟩,
    fun covers before rows after hlisted r hr hcov => ?_⟩
  · rw [hX.2]
    exact List.mem_append_left _ hin
  rcases hlisted.of_step hX with ⟨after₀, _, hold⟩ | ⟨hevent, hj, _, _⟩
  · refine (hrows covers before rows after₀ hold r hr hcov).imp_left fun hgone => ?_
    refine hgone.step hX fun t ttl hc => ?_
    subst hc
    exact hinv.fresh hfresh hperm ((hinv.listing i covers before rows after₀ hold).known r hr)
  · exact absurd hevent (hother hj.symm rows)

theorem working_stable (hfresh : FreshTokens task ids) (rest : List RefreshToken) :
    Stable (Pool.others (Guarantee task) i) (Working task ids i rest) := by
  rintro s s' hs ⟨j, hji, c, a, hX, hord, hperm⟩
  exact hs.step hfresh hX hord hperm fun h => absurd h hji

theorem revokeEach_safe (hfresh : FreshTokens task ids) (reason : RevocationReason)
    {rest : List RefreshToken} (hs : Working task ids i rest s) :
    (revokeEach reason rest).SafeAmong (orderly task) (Guarantee task) i
      (fun _ => Working task ids i []) s := by
  induction rest generalizing s with
  | nil => exact Prog.Safe.ret _ (working_stable hfresh []) hs fun _ h => h
  | cons t rest ih =>
    refine Prog.Safe.call _ (working_stable hfresh (t :: rest)) hs fun s now s₁ hs hX => ?_
    refine ⟨guarantee_of_quiet hX trivial, ?_⟩
    have hs₁ := hs.step hfresh hX.1 hX.2 trivial fun _ rows h => nomatch h
    refine Prog.Safe.call _ (working_stable hfresh (t :: rest)) hs₁ fun s a s₂ hs hX => ?_
    refine ⟨guarantee_of_quiet hX trivial, ih ?_⟩
    have hs₂ := hs.step hfresh hX.1 hX.2 trivial fun _ rows h => nomatch h
    refine ⟨hs₂.1, hs₂.2.1, fun covers before rows after hlisted r hr hcov => ?_⟩
    rcases hs₂.2.2 covers before rows after hlisted r hr hcov with hgone | ⟨t', ht', hid⟩
    · exact .inl hgone
    · rcases List.mem_cons.mp ht' with rfl | ht'
      · exact .inl (hid ▸ gone_updated hX.1)
      · exact .inr ⟨t', ht', hid⟩

variable (task ids i) in
def Unlisted (s : MemoryLedger ι) : Prop := Inv task ids s ∧ ∀ rows, (i, .listed rows) ∉ s.history

theorem unlisted_stable (hfresh : FreshTokens task ids) :
    Stable (Pool.others (Guarantee task) i) (Unlisted task ids i) := by
  refine fun s s' hs hR => ⟨inv_stable hfresh hs.1 hR, fun rows hin => ?_⟩
  obtain ⟨new, hhistory, hnew⟩ := others_history hR
  rw [hhistory] at hin
  exact (List.mem_append.mp hin).elim (hs.2 rows) (hnew _)

theorem working_listed (hfresh : FreshTokens task ids) {covers p : RefreshToken → Bool}
    (hcovers : (task i).covers = some covers)
    (hp : ∀ r, covers r = true → p r = true ∨ r.revoked = true) {rows : List RefreshToken}
    (hs : Unlisted task ids i s) (hX : orderly task i .snapshot s rows s') :
    Working task ids i (rows.filter p) s' := by
  refine ⟨hs.1.step hfresh (guarantee_of_quiet hX trivial), ⟨rows, ?_⟩, ?_⟩
  · rw [hX.1.2]
    exact List.mem_append_right _ List.mem_cons_self
  intro covers' before rows' after hlisted r hr hcov
  rcases hlisted.of_step hX.1 with ⟨after₀, _, hold⟩ | ⟨hevent, _, _, _⟩
  · refine absurd ?_ (hs.2 rows')
    rw [hold.2]
    exact List.mem_append_right _ List.mem_cons_self
  · cases hevent
    rw [hlisted.1] at hcovers
    cases hcovers
    rcases hp r hcov with hpass | hrevoked
    · exact .inr ⟨r, List.mem_filter.mpr ⟨hr, hpass⟩, rfl⟩
    · obtain ⟨_, hentries, hperm⟩ := steps_snapshot hX.1
      obtain ⟨e, he, rfl⟩ := List.mem_map.mp (hperm.mem_iff.mp hr)
      refine .inl fun e' he' hid => .inl ?_
      have hsame := (hs.1.step hfresh (guarantee_of_quiet hX trivial)).unique e' he' e
        (List.mem_of_mem_filter he) hid
      rw [hsame]
      exact hrevoked

theorem revokeListed_safe (hfresh : FreshTokens task ids) {covers p : RefreshToken → Bool}
    (hcovers : (task i).covers = some covers)
    (hp : ∀ r, covers r = true → p r = true ∨ r.revoked = true) (reason : RevocationReason)
    (hs : Unlisted task ids i s) :
    (revokeListed reason p).SafeAmong (orderly task) (Guarantee task) i
      (fun _ => Working task ids i []) s := by
  refine Prog.Safe.call _ (unlisted_stable hfresh) hs fun s rows s' hs hX => ?_
  refine ⟨guarantee_of_quiet hX trivial, ?_⟩
  show Prog.Safe _ _ _ _ (revokeEach reason (rows.filter p) >>= fun _ => pure _) s'
  refine Prog.Safe.bind (revokeEach_safe hfresh reason (working_listed hfresh hcovers hp hs hX))
    fun _ s hs => ?_
  exact Prog.Safe.ret _ (working_stable hfresh []) hs fun _ h => h

variable (task ids i) in
def TaskPost (s : MemoryLedger ι) : Prop :=
  Inv task ids s ∧ ∀ covers, (task i).covers = some covers → Working task ids i [] s

theorem taskPost_of_uncovered (h : (task i).covers = none) (hs : Inv task ids s) :
    TaskPost task ids i s :=
  ⟨hs, fun covers hcovers => by rw [h] at hcovers; cases hcovers⟩

theorem task_safe (hfresh : FreshTokens task ids) (hs : Inv task ids s)
    (hidle : ∀ e, (i, e) ∉ s.history) :
    (task i).prog.SafeAmong (orderly task) (Guarantee task) i
      (fun _ => TaskPost task ids i) s := by
  have hunstored : Unstored task ids i s := ⟨hs, fun t => hidle _⟩
  have hunlisted : Unlisted task ids i s := ⟨hs, fun rows => hidle _⟩
  have hquiet {α : Type} {p : MemoryProg α} (hp : p.Only Quiet) (h : (task i).covers = none)
      (f : α → MemoryResult) :
      (p >>= fun a => pure (f a)).SafeAmong (orderly task) (Guarantee task) i
        (fun _ => TaskPost task ids i) s :=
    Prog.Safe.map ((quiet_safe hfresh hp hunstored).conseq fun _ _ hs =>
      taskPost_of_uncovered h hs.1)
  have hrevoke {p covers : RefreshToken → Bool} (hcovers : (task i).covers = some covers)
      (hp : ∀ r, covers r = true → p r = true ∨ r.revoked = true) (reason : RevocationReason)
      {α : Type} (f : Nat → α) (g : α → MemoryResult) :
      ((revokeListed reason p >>= fun n => pure (f n)) >>= fun a => pure (g a)).Safe
        (orderly task i) (Pool.others (Guarantee task) i) (Guarantee task i)
        (fun _ => TaskPost task ids i) s :=
    Prog.Safe.map (Prog.Safe.map ((revokeListed_safe hfresh hcovers hp reason hunlisted).conseq
      fun _ _ hs => ⟨hs.1, fun _ _ => hs⟩))
  cases htask : task i with
  | storeToken t =>
    have hwon : HasWon task i t s := fun p hrotate => by
      rw [htask] at hrotate
      cases hrotate
    exact Prog.Safe.map ((storeToken_safe hfresh (by rw [htask]; rfl) hunstored hwon).conseq
      fun _ _ hs => taskPost_of_uncovered (by rw [htask]; rfl) hs)
  | findToken h => exact hquiet (findToken_quiet h) (by rw [htask]; rfl) _
  | revokeToken id => exact hquiet (revokeAs_quiet id .explicit) (by rw [htask]; rfl) _
  | revokeUserTokens u =>
    exact hrevoke (by rw [htask]; rfl) (fun _ h => .inl h) .explicit (fun _ => ()) _
  | revokeFamily u f =>
    exact hrevoke (by rw [htask]; rfl) (fun _ h => .inl h) .compromise (fun _ => ()) _
  | revokeDeviceTokens t d =>
    refine hrevoke (by rw [htask]; rfl) (fun r h => ?_) .device DeviceTokenRevocation.revoked _
    -- the rows it passes over are the ones that are revoked
    rw [h, Bool.true_and]
    cases r.revoked with
    | true => exact .inr rfl
    | false => exact .inl rfl
  | activeTokens u => exact hquiet (activeTokens_quiet u) (by rw [htask]; rfl) _
  | issueCapped t max =>
    exact Prog.Safe.map ((issueCapped_safe hfresh htask hunstored).conseq
      fun _ _ hs => taskPost_of_uncovered (by rw [htask]; rfl) hs)
  | rotateToken p t =>
    exact Prog.Safe.map ((rotateToken_safe hfresh htask hunstored).conseq
      fun _ _ hs => taskPost_of_uncovered (by rw [htask]; rfl) hs)

end Member

section Runs

variable [DecidableEq ι]

def start (task : ι → MemoryTask) (map : MemoryMap) :
    Pool ι MemoryCall MemoryCall.Answer MemoryResult (MemoryLedger ι) :=
  ⟨fun i => (task i).prog, ⟨map, []⟩⟩

def Inserted (task : ι → MemoryTask) (after : List (ι × MemoryEvent)) (p x : RefreshTokenId) : Prop :=
  ∃ k t, task k = .rotateToken p t ∧ (k, .stored t) ∈ after ∧ t.id = x

/-- The set a revocation is for: the rows it is for that were stored when it listed them, and what
rotations have stored since in place of a member. -/
def Revoked (task : ι → MemoryTask) (covers : RefreshToken → Bool) (rows : List RefreshToken)
    (after : List (ι × MemoryEvent)) (x : RefreshTokenId) : Prop :=
  ∃ r ∈ rows, covers r = true ∧ ReflTransGen (Inserted task after) r.id x

variable {task : ι → MemoryTask} {map : MemoryMap}

omit [DecidableEq ι] in
theorem inv_start (hids : (map.entries.map (·.value.id)).Nodup) :
    Inv task (map.entries.map (·.value.id)) (⟨map, []⟩ : MemoryLedger ι) where
  unique := fun _ he _ he' hid => List.inj_on_of_nodup_map hids he he' hid
  known := fun _ he => .inl (List.mem_map_of_mem he)
  storedBy := fun _ _ hin => nomatch hin
  listing := fun _ _ before _ _ h => by
    have hempty := h.2
    cases before <;> cases hempty

omit [DecidableEq ι] in
theorem start_safe (hids : (map.entries.map (·.value.id)).Nodup)
    (hfresh : FreshTokens task (map.entries.map (·.value.id))) :
    Pool.AllSafe (orderly task) (Guarantee task)
      (fun i _ => TaskPost task (map.entries.map (·.value.id)) i) (start task map) :=
  fun _ => task_safe hfresh (inv_start hids) fun _ => List.not_mem_nil

/-- **A revocation is final where no step falls into a gap.** In every run of any number of
callers whose steps are all orderly: once a revocation has returned it has listed the rows, and no
row of the set it is for is live, the rows that rotations have stored in place of a member
included. -/
theorem orderly_revocation_final (hids : (map.entries.map (·.value.id)).Nodup)
    (hfresh : FreshTokens task (map.entries.map (·.value.id)))
    {s : Pool ι MemoryCall MemoryCall.Answer MemoryResult (MemoryLedger ι)}
    (hr : Pool.Reaches (orderly task) (start task map) s) {j : ι} {covers : RefreshToken → Bool}
    (hcovers : (task j).covers = some covers) {result : MemoryResult}
    (hret : s.prog j = .ret result) :
    (∃ before rows after, Listed task s.state j covers before rows after) ∧
    ∀ before rows after, Listed task s.state j covers before rows after →
      ∀ x, Revoked task covers rows after x → s.state.Gone x := by
  obtain ⟨hinv, hpost⟩ := hr.post (start_safe hids hfresh) hret
  obtain ⟨_, ⟨rows, hin⟩, hgone⟩ := hpost covers hcovers
  refine ⟨?_, fun before rows after hlisted x hx => ?_⟩
  · obtain ⟨before, after, hhistory⟩ := List.append_of_mem hin
    exact ⟨before, rows, after, hcovers, hhistory⟩
  · obtain ⟨r, hrow, hcov, hchain⟩ := hx
    have hlisting := hinv.listing j covers before rows after hlisted
    -- no rotation has stored a child of a listed row since
    have hsame : r.id = x := by
      induction hchain with
      | refl => rfl
      | tail _ hstep ih =>
        obtain ⟨k, t, htask, hstored, _⟩ := hstep
        exact absurd ih (hlisting.stored k _ t htask hstored r hrow hcov)
    rcases hgone covers before rows after hlisted r hrow hcov with hdead | ⟨t, ht, _⟩
    · exact hsame ▸ hdead
    · cases ht

def stepping : Pool.Answerer ι Unit MemoryCall MemoryCall.Answer (MemoryLedger ι) :=
  fun i _ c s => ((s.map.perform c).1,
    ⟨(s.map.perform c).2, s.history ++ (events c (s.map.perform c).1).map (i, ·)⟩)

omit [DecidableEq ι] in
theorem steps_stepping (i : ι) (u : Unit) (c : MemoryCall) (s : MemoryLedger ι)
    (hc : (c != .lockIssue) = true) : steps i c s (stepping i u c s).1 (stepping i u c s).2 := by
  refine ⟨⟨s.map.clock, le_rfl, ?_⟩, rfl⟩
  cases c with
  | snapshot => exact ⟨.refl _, rfl⟩
  | lockIssue => cases hc
  | now | update | put | unlockIssue => rfl

end Runs

inductive GapParty where
  | rotator | revoker
  deriving DecidableEq

def gapToken (id : Nat) : RefreshToken where
  id := ⟨id⟩
  userId := ⟨7⟩
  tenantId := ⟨1⟩
  tokenHash := ""
  issuedAt := 0
  expiresAt := 1000
  revoked := false
  deviceInfo := none
  familyId := some ⟨100⟩
  deviceId := none
  authnTime := none
  revokedReason := none
  revokedAt := none

def gapTask : GapParty → MemoryTask
  | .rotator => .rotateToken ⟨100⟩ (gapToken 101)
  | .revoker => .revokeFamily ⟨7⟩ ⟨100⟩

def gapMap : MemoryMap := ⟨[⟨gapToken 100, 1000⟩], 0, false⟩

/-- The listing falls between the two steps of the rotation. -/
def gapRun : Pool GapParty MemoryCall MemoryCall.Answer MemoryResult (MemoryLedger GapParty) :=
  Pool.replay stepping ([.rotator, .revoker, .rotator, .rotator, .revoker, .revoker].map (·, ()))
    (start gapTask gapMap)

theorem gapTask_fresh : FreshTokens gapTask (gapMap.entries.map (·.value.id)) where
  apart := fun i j t t' hi hj _ => by
    cases i <;> cases j
    · rfl
    · cases hj
    · cases hi
    · rfl
  unused := fun i t hi => by
    cases i with
    | rotator =>
      cases hi
      decide
    | revoker => cases hi

theorem gapMap_nodup : (gapMap.entries.map (·.value.id)).Nodup := by decide

/-- The rotation has stored the child when the family is listed. -/
def rotatedRun :
    Pool GapParty MemoryCall MemoryCall.Answer MemoryResult (MemoryLedger GapParty) :=
  Pool.replay stepping ([.rotator, .rotator, .rotator, .revoker, .revoker, .revoker, .revoker,
    .revoker].map (·, ())) (start gapTask gapMap)

def rotatesFirst (c : MemoryCall) (s : MemoryLedger GapParty) : Bool :=
  match c with
  | .lockIssue => false
  | .snapshot => s.history.contains (.rotator, .stored (gapToken 101))
  | .update _ .rotated _ => s.history.isEmpty
  | _ => true

theorem orderly_stepping (i : GapParty) (u : Unit) (c : MemoryCall) (s : MemoryLedger GapParty)
    (h : rotatesFirst c s = true) :
    orderly gapTask i c s (stepping i u c s).1 (stepping i u c s).2 := by
  have hsteps := steps_stepping i u c s
  cases c with
  | lockIssue => cases h
  | snapshot =>
    refine ⟨hsteps rfl, fun covers _ k p t htask hflight => ?_⟩
    cases k with
    | rotator =>
      cases htask
      exact absurd (List.contains_iff_mem.mp h) hflight.2
    | revoker => cases htask
  | update id reason at_ =>
    refine ⟨hsteps rfl, ?_⟩
    cases reason with
    | rotated =>
      rintro j covers before rows after ⟨-, hhistory⟩
      rw [rotatesFirst, hhistory] at h
      simp at h
    | explicit | evicted | compromise | device => trivial
  | now | put | unlockIssue => exact ⟨hsteps rfl, trivial⟩

theorem orderly_revocation_final_after_rotation :
    rotatedRun.prog .rotator = .ret (.rotation .rotated) ∧ rotatedRun.state.Gone ⟨100⟩ ∧
      rotatedRun.state.Gone ⟨101⟩ := by
  have hhistory : rotatedRun.state.history =
      [(.rotator, .updated ⟨100⟩ .rotated true), (.rotator, .stored (gapToken 101))] ++
      (.revoker, .listed [(gapToken 100).revoke .rotated 0, gapToken 101]) ::
      [(.revoker, .updated ⟨100⟩ .compromise false), (.revoker, .updated ⟨101⟩ .compromise true)] := by
    decide +kernel
  have hret : rotatedRun.prog .revoker = .ret .done := rfl
  have hr : Pool.Reaches (orderly gapTask) (start gapTask gapMap) rotatedRun :=
    Pool.reaches_replay_of_admits orderly_stepping _ _ (by decide +kernel)
  have hgone := (orderly_revocation_final gapMap_nodup gapTask_fresh hr rfl hret).2 _ _ _
    ⟨rfl, hhistory⟩
  exact ⟨rfl, hgone _ ⟨_, List.mem_cons_self, rfl, .refl⟩,
    hgone _ ⟨gapToken 101, List.mem_cons_of_mem _ List.mem_cons_self, rfl, .refl⟩⟩

/-- The family is listed when its token is revoked and its child not stored: the child is live when
both calls have returned. -/
theorem rotation_escapes_revocation :
    Pool.Reaches steps (start gapTask gapMap) gapRun ∧ (∀ i, ∃ r, gapRun.prog i = .ret r) ∧
    ∃ before rows after,
      Listed gapTask gapRun.state .revoker (MemoryRefreshTokenStore.ofFamily ⟨7⟩ ⟨100⟩) before rows
        after ∧
      Revoked gapTask (MemoryRefreshTokenStore.ofFamily ⟨7⟩ ⟨100⟩) rows after ⟨101⟩ ∧
      ¬gapRun.state.Gone ⟨101⟩ := by
  have hhistory : gapRun.state.history = [(.rotator, .updated ⟨100⟩ .rotated true)] ++
      (.revoker, .listed [(gapToken 100).revoke .rotated 0]) ::
      [(.rotator, .stored (gapToken 101)), (.revoker, .updated ⟨100⟩ .compromise false)] := by
    decide +kernel
  have hr : Pool.Reaches steps (start gapTask gapMap) gapRun :=
    Pool.reaches_replay_of_admits steps_stepping _ _ (by decide +kernel)
  refine ⟨hr, fun i => ?_, _, _, _, ⟨rfl, hhistory⟩, ?_, fun hgone => ?_⟩
  · cases i with
    | rotator => exact ⟨.rotation .rotated, rfl⟩
    | revoker => exact ⟨.done, rfl⟩
  · exact ⟨_, List.mem_cons_self, rfl, .single ⟨.rotator, gapToken 101, rfl, List.mem_cons_self, rfl⟩⟩
  · have hmem : (⟨gapToken 101, 1000⟩ : MemoryEntry) ∈ gapRun.state.map.entries := by decide +kernel
    have hclock : gapRun.state.map.clock = 0 := by decide +kernel
    rcases hgone _ hmem rfl with hrevoked | hexpired
    · cases hrevoked
    · rw [hclock] at hexpired
      exact absurd hexpired (by decide)

end MemoryLedger

end Axess
