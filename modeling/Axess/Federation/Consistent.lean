import Axess.Federation.Indexes

/-!
# The sid map as a whole

What the indexes add to the mappings, in every map that is reached: no set is left empty, the order
is by time, so that the oldest mappings are evicted first, and the queue of the sweep names every
record, so that sweeps come to each.
-/

namespace Axess

open Maps

namespace SidState

variable {s s' : SidState} {key : SidKey} {session : SessionId}

instance : Std.Total orderLe where
  total a b := by
    unfold orderLe
    rcases lt_trichotomy a.1 b.1 with h | h | h
    · exact .inl (.inl h)
    · rcases lt_trichotomy a.2.1 b.2.1 with h' | h' | h'
      · exact .inl (.inr ⟨h, .inl h'⟩)
      · rcases le_total a.2.2 b.2.2 with h'' | h''
        · exact .inl (.inr ⟨h, .inr ⟨h', h''⟩⟩)
        · exact .inr (.inr ⟨h.symm, .inr ⟨h'.symm, h''⟩⟩)
      · exact .inr (.inr ⟨h.symm, .inl h'⟩)
    · exact .inr (.inl h)

instance : IsTrans (Instant × SidKey) orderLe where
  trans a b c := by
    unfold orderLe
    rintro (hab | ⟨hab, hab' | ⟨hab', hab''⟩⟩) (hbc | ⟨hbc, hbc' | ⟨hbc', hbc''⟩⟩)
    · exact .inl (hab.trans hbc)
    · exact .inl (hbc ▸ hab)
    · exact .inl (hbc ▸ hab)
    · exact .inl (hab ▸ hbc)
    · exact .inr ⟨hab.trans hbc, .inl (hab'.trans hbc')⟩
    · exact .inr ⟨hab.trans hbc, .inl (hbc' ▸ hab')⟩
    · exact .inl (hab ▸ hbc)
    · exact .inr ⟨hab.trans hbc, .inl (hab' ▸ hbc')⟩
    · exact .inr ⟨hab.trans hbc, .inr ⟨hab'.trans hbc', hab''.trans hbc''⟩⟩

structure Tidy (s : SidState) : Prop where
  keysOfSession : s.keysOfSession.NoEmpty
  bySubject : s.bySubject.NoEmpty
  subjects : s.subjects.NoEmpty
  sorted : s.order.Pairwise orderLe
  nodup : s.order.Nodup

theorem nodup_orderedInsert {order : List (Instant × SidKey)} (h : order.Nodup)
    (item : Instant × SidKey) :
    ((order.filter (· ≠ item)).orderedInsert orderLe item).Nodup := by
  refine (List.perm_orderedInsert _ item _).nodup_iff.mpr (List.nodup_cons.mpr ⟨?_, h.filter _⟩)
  intro hmem
  simp at hmem

theorem kept_tidy : Kept Tidy where
  insert s key stored h := by
    unfold SidState.insert
    cases s.entries.lookup key with
    | none =>
      exact ⟨h.keysOfSession.add, h.bySubject.add, h.subjects,
        (h.sorted.filter _).orderedInsert _ _, nodup_orderedInsert h.nodup _⟩
    | some old =>
      have hsorted := (h.sorted.filter (· ≠ (old.insertedAt, key))).filter
        (· ≠ (stored.insertedAt, key))
      have hnodup := h.nodup.filter (· ≠ (old.insertedAt, key))
      dsimp only
      split
      · exact ⟨h.keysOfSession.drop.add, h.bySubject.drop.add, h.subjects,
          hsorted.orderedInsert _ _, nodup_orderedInsert hnodup _⟩
      · exact ⟨h.keysOfSession.drop.add, h.bySubject.add, h.subjects,
          hsorted.orderedInsert _ _, nodup_orderedInsert hnodup _⟩
  remove s key h := by
    unfold SidState.remove
    cases s.entries.lookup key with
    | none => exact h
    | some old =>
      exact ⟨h.keysOfSession.drop, h.bySubject.drop, h.subjects, h.sorted.filter _,
        h.nodup.filter _⟩
  forget s issuer user session h := by
    unfold forgetSubject
    split
    · exact h
    · split
      · exact ⟨h.keysOfSession, h.bySubject, h.subjects.drop, h.sorted, h.nodup⟩
      · exact h
  record s issuer subject user session _ h := by
    obtain ⟨queue, heq⟩ := compact_eq (s := s.record issuer subject user session)
    rw [heq]
    exact ⟨h.keysOfSession, h.bySubject, h.subjects.add, h.sorted, h.nodup⟩
  sweep s max h := by
    obtain ⟨queue, heq⟩ := sweepFrom_eq (min max s.subjectOrder.length) [] s
    show Tidy (sweepFrom _ [] s).2
    rw [heq]
    exact ⟨h.keysOfSession, h.bySubject, h.subjects, h.sorted, h.nodup⟩

theorem tidy_empty : Tidy empty := ⟨nofun, nofun, nofun, .nil, List.nodup_nil⟩

/-- What is evicted is the first part of the order that is due, in that order, and the rest is left. -/
theorem evictFrom_order (due : Instant → Bool) (n max : Nat) (hlen : s.order.length ≤ n)
    (hi : Indexed s) (h : Tidy s) :
    (evictFrom due n max s).1.map (fun p => (p.2.insertedAt, p.1)) =
        (s.order.takeWhile (due ·.1)).take max ∧
      s.order = (evictFrom due n max s).1.map (fun p => (p.2.insertedAt, p.1)) ++
        (evictFrom due n max s).2.order := by
  fun_induction evictFrom due n max s with
  | case1 n max s horder => simp [horder]
  | case2 _ _ _ _ _ _ horder _ _ hremove =>
    obtain ⟨_, -, -, hpopped⟩ := remove_popped hi horder
    cases hpopped.symm.trans hremove
  | case3 n max s insertedAt key order horder hdue stored left hremove evicted last hrest ih =>
    obtain ⟨stored, hstored, rfl, hpopped⟩ := remove_popped hi horder
    obtain ⟨⟨⟩, rfl⟩ := Prod.mk.inj (hpopped.symm.trans hremove)
    have horder' : (s.remove key).2.order = order := by
      have hnew := (List.nodup_cons.mp (horder ▸ h.nodup)).1
      unfold SidState.remove
      rw [hstored]
      simp only [unlinkSession, unindex, unorder, horder]
      rw [List.filter_cons_of_neg (by simp), List.filter_eq_self]
      intro item hitem
      exact decide_eq_true fun heq => hnew (heq ▸ hitem)
    rw [horder, List.length_cons, Nat.add_le_add_iff_right] at hlen
    obtain ⟨hevicted, hleft⟩ :=
      ih (horder'.symm ▸ hlen) (hi.remove key) (kept_tidy.remove s key h)
    rw [hrest, horder'] at hevicted hleft
    rw [horder, List.takeWhile_cons_of_pos (by exact hdue)]
    exact ⟨congrArg _ hevicted, congrArg _ hleft⟩
  | case4 n max s insertedAt key order horder hdue => simp [horder, hdue]
  | case5 n max s hstop =>
    cases max with
    | zero => simp
    | succ max =>
      cases n with
      | zero => simp [List.length_eq_zero_iff.mp (Nat.le_zero.mp hlen)]
      | succ n => exact absurd rfl (hstop n max rfl)

abbrev SweepItem := String × UserId × SessionId

def Queued (s : SidState) : Prop := ∀ item, s.recorded item = true → item ∈ s.subjectOrder

theorem recorded_iff {item : SweepItem} : s.recorded item = true ↔
    ∃ held, s.subjectOf.lookup item.2.2 = some held ∧ held.issuer = item.1 ∧
      held.user = item.2.1 := by
  unfold recorded
  cases s.subjectOf.lookup item.2.2 <;> simp

/-- A session has one record, so one item is of it. -/
theorem recorded_unique {item item' : SweepItem} (h : s.recorded item = true)
    (h' : s.recorded item' = true) (hsession : item.2.2 = item'.2.2) : item = item' := by
  obtain ⟨held, hheld, hissuer, huser⟩ := recorded_iff.mp h
  obtain ⟨held', hheld', hissuer', huser'⟩ := recorded_iff.mp h'
  obtain rfl := Option.some.inj (hheld.symm.trans (hsession ▸ hheld'))
  exact Prod.ext (hissuer.symm.trans hissuer') (Prod.ext (huser.symm.trans huser') hsession)

/-- A sweep of `n` items does not come to what is behind them. -/
theorem mem_sweepFrom_of_drop {n : Nat} {named : List SessionId} {item : SweepItem}
    (h : item ∈ s.subjectOrder.drop n) : item ∈ (sweepFrom n named s).2.subjectOrder := by
  induction n generalizing named s with
  | zero => exact h
  | succ n ih =>
    unfold sweepFrom
    cases hqueue : s.subjectOrder with
    | nil =>
      rw [hqueue] at h
      exact absurd h (by simp)
    | cons first queue =>
      rw [hqueue] at h
      dsimp only
      split
      · refine ih ?_
        rw [List.drop_append]
        exact List.mem_append_left _ h
      · exact ih h

/-- A sweep of `n` items names a record whose item is among them, and brings the item of another
`n` places further to the front. The item stays in the queue. -/
theorem sweepFrom_item {n : Nat} {named : List SessionId} {item : SweepItem}
    {before after : List SweepItem} (hqueue : s.subjectOrder = before ++ item :: after)
    (hnew : item ∉ before) (hrecorded : s.recorded item = true) (hnamed : item.2.2 ∉ named) :
    (before.length < n → item ∈ (sweepFrom n named s).1) ∧
    (n ≤ before.length → ∃ before' after', (sweepFrom n named s).2.subjectOrder =
      before' ++ item :: after' ∧ item ∉ before' ∧ before'.length + n = before.length) ∧
    (n ≤ s.subjectOrder.length → item ∈ (sweepFrom n named s).2.subjectOrder) := by
  induction n generalizing named s before after with
  | zero =>
    exact ⟨nofun, fun _ => ⟨before, after, hqueue, hnew, rfl⟩, fun _ => by simp [sweepFrom, hqueue]⟩
  | succ n ih =>
    unfold sweepFrom
    rw [hqueue]
    cases before with
    | nil =>
      dsimp only [List.nil_append]
      rw [if_pos ⟨hrecorded, hnamed⟩]
      refine ⟨fun _ => List.mem_cons_self, fun h => absurd h (by simp), fun h => ?_⟩
      refine mem_sweepFrom_of_drop ?_
      rw [List.length_cons] at h
      rw [List.drop_append_of_le_length (by omega)]
      simp
    | cons first before =>
      obtain ⟨hne, hnew⟩ := not_or.mp (mt List.mem_cons.mpr hnew)
      simp only [List.cons_append, List.length_cons, Nat.add_lt_add_iff_right,
        Nat.add_le_add_iff_right]
      split
      · next hfirst =>
        have hother : item.2.2 ∉ first.2.2 :: named := by
          rw [List.mem_cons, not_or]
          exact ⟨fun heq => hne (recorded_unique hrecorded hfirst.1 heq), hnamed⟩
        obtain ⟨hout, hfront, hkept⟩ := ih (s := { s with
          subjectOrder := before ++ item :: after ++ [first] }) (List.append_assoc ..) hnew hrecorded
          hother
        refine ⟨fun h => List.mem_cons_of_mem _ (hout h), fun h => ?_, fun h => hkept ?_⟩
        · obtain ⟨before', after', hleft, hnew', hlen⟩ := hfront h
          exact ⟨before', after', hleft, hnew', by omega⟩
        · rw [List.length_append]
          omega
      · obtain ⟨hout, hfront, hkept⟩ := ih (s := { s with subjectOrder := before ++ item :: after })
          rfl hnew hrecorded hnamed
        refine ⟨hout, fun h => ?_, hkept⟩
        obtain ⟨before', after', hleft, hnew', hlen⟩ := hfront h
        exact ⟨before', after', hleft, hnew', by omega⟩

theorem subjectOrder_insert (stored : StoredSid) :
    (s.insert key stored).2.subjectOrder = s.subjectOrder := by
  unfold SidState.insert
  cases s.entries.lookup key with
  | none => rfl
  | some old =>
    dsimp only
    split <;> rfl

theorem subjectOrder_remove : (s.remove key).2.subjectOrder = s.subjectOrder := by
  unfold SidState.remove
  cases s.entries.lookup key <;> rfl

theorem kept_queued : Kept Queued where
  insert s key stored h item hitem := by
    rw [subjectOrder_insert]
    refine h item ?_
    rwa [recorded, subjectOf_insert] at hitem
  remove s key h item hitem := by
    rw [subjectOrder_remove]
    refine h item ?_
    rwa [recorded, subjectOf_remove] at hitem
  forget s issuer user session h item hitem := by
    have hbefore : s.recorded item = true := by
      obtain ⟨held, hheld, hof⟩ := recorded_iff.mp hitem
      rw [lookup_subjectOf_forgetSubject] at hheld
      split at hheld
      · cases hheld
      · exact recorded_iff.mpr ⟨held, hheld, hof⟩
    have hqueue : (s.forgetSubject issuer user session).2.subjectOrder = s.subjectOrder := by
      unfold forgetSubject
      split
      · rfl
      · split <;> rfl
    rw [hqueue]
    exact h item hbefore
  record s issuer subject user session hnone h := by
    have hrecord : Queued (s.record issuer subject user session) := by
      intro item hitem
      obtain ⟨held, hheld, hissuer, huser⟩ := recorded_iff.mp hitem
      by_cases hsession : item.2.2 = session
      · rw [hsession, SidState.record, AList.lookup_insert] at hheld
        cases hheld
        refine List.mem_append_right _ (List.mem_singleton.mpr ?_)
        exact Prod.ext hissuer.symm (Prod.ext huser.symm hsession)
      · rw [SidState.record, AList.lookup_insert_ne hsession] at hheld
        exact List.mem_append_left _ (h item (recorded_iff.mpr ⟨held, hheld, hissuer, huser⟩))
    unfold compact
    split
    · exact fun item hitem => List.mem_filter.mpr ⟨hrecord item hitem, hitem⟩
    · exact hrecord
  sweep s max h item hitem := by
    have hbefore : s.recorded item = true := by
      obtain ⟨queue, heq⟩ := sweepFrom_eq (min max s.subjectOrder.length) [] s
      rw [sweepSubjectCandidates, heq] at hitem
      exact hitem
    obtain ⟨before, after, hqueue, hnew⟩ := List.eq_append_cons_of_mem (h item hbefore)
    exact (sweepFrom_item hqueue hnew hbefore List.not_mem_nil).2.2 (Nat.min_le_right ..)

def sweeps (max : Nat) : Nat → SidState → SidState
  | 0, s => s
  | n + 1, s => sweeps max n (s.sweepSubjectCandidates max).2

theorem reached_by_sweeps {max : Nat} (hmax : 0 < max) {item : SweepItem}
    {before after : List SweepItem} (hqueue : s.subjectOrder = before ++ item :: after)
    (hnew : item ∉ before) (hrecorded : s.recorded item = true) :
    ∃ n, item ∈ ((sweeps max n s).sweepSubjectCandidates max).1 := by
  induction hlen : before.length using Nat.strong_induction_on generalizing s before after with
  | _ length ih =>
    have hpos : 0 < min max s.subjectOrder.length := by
      rw [hqueue, List.length_append, List.length_cons]
      omega
    obtain ⟨hout, hfront, -⟩ := sweepFrom_item (n := min max s.subjectOrder.length) hqueue hnew
      hrecorded List.not_mem_nil
    by_cases hnear : before.length < min max s.subjectOrder.length
    · exact ⟨0, hout hnear⟩
    · obtain ⟨before', after', hqueue', hnew', hlen'⟩ := hfront (Nat.not_lt.mp hnear)
      have hrecorded' : (s.sweepSubjectCandidates max).2.recorded item = true := by
        obtain ⟨queue, heq⟩ := sweepFrom_eq (min max s.subjectOrder.length) [] s
        rw [sweepSubjectCandidates, heq]
        exact hrecorded
      obtain ⟨n, hn⟩ := ih before'.length (by omega) hqueue' hnew' hrecorded' rfl
      exact ⟨n + 1, hn⟩

structure Consistent (s : SidState) : Prop where
  indexed : Indexed s
  recorded : Recorded s
  tidy : Tidy s
  queued : Queued s

/-- Whatever calls have been made, the indexes are of the mappings and the two sides of the subject
registry of the same records, without an empty set; an eviction takes the mappings it returns and no
other, which are the oldest, in order, as many as are due; and sweeps, of one item or more each, come
to every record. -/
theorem sid_map_consistent {s : SidState} (h : Reachable s) :
    Consistent s ∧
    (∀ due max,
      (s.evictFront due max).1.map (fun p => (p.2.insertedAt, p.1)) =
        (s.order.takeWhile (due ·.1)).take max ∧
      (∀ key stored, s.entries.lookup key = some stored ↔
        (key, stored) ∈ (s.evictFront due max).1 ∨
          (s.evictFront due max).2.entries.lookup key = some stored) ∧
      (∀ p ∈ (s.evictFront due max).1, (s.evictFront due max).2.entries.lookup p.1 = none) ∧
      (s.evictFront due max).1.Pairwise (fun p q => p.2.insertedAt ≤ q.2.insertedAt) ∧
      ∀ p ∈ (s.evictFront due max).1, ∀ key stored,
        (s.evictFront due max).2.entries.lookup key = some stored →
          p.2.insertedAt ≤ stored.insertedAt) ∧
    ∀ max, 0 < max → ∀ session held, s.subjectOf.lookup session = some held →
      ∃ n, (held.issuer, held.user, session) ∈ ((sweeps max n s).sweepSubjectCandidates max).1 := by
  have hsound := h.sound
  have htidy := kept_tidy.reachable tidy_empty h
  have hqueued := kept_queued.reachable (fun item hitem => by cases hitem) h
  refine ⟨⟨hsound.indexed, hsound.recorded, htidy, hqueued⟩, fun due max => ?_,
    fun max hmax session held hheld => ?_⟩
  · obtain ⟨htaken, horder⟩ := evictFrom_order due s.order.length max le_rfl hsound.indexed htidy
    obtain ⟨hevicted, hdropped⟩ := evictFrom_spec due s.order.length max hsound.indexed
    have hsorted := htidy.sorted
    rw [horder, List.pairwise_append, List.pairwise_map] at hsorted
    have hle : ∀ {a b : Instant × SidKey}, orderLe a b → a.1 ≤ b.1 := by
      rintro a b (hlt | ⟨heq, -⟩)
      · exact hlt.le
      · exact heq.le
    refine ⟨htaken, fun key stored => ⟨fun hstored => ?_, fun h => h.elim
      (fun hmem => (hevicted _ hmem).1) hdropped.lookup⟩, fun p hp => hdropped.unmapped p.1 ⟨p.2, hp⟩,
      hsorted.1.imp hle, fun p hp key stored hstored => ?_⟩
    · by_cases hgone : ∃ stored, (key, stored) ∈ (evictFrom due s.order.length max s).1
      · obtain ⟨stored', hmem⟩ := hgone
        obtain rfl := Option.some.inj (hstored.symm.trans (hevicted _ hmem).1)
        exact .inl hmem
      · exact .inr ((hdropped.mapped key hgone).trans hstored)
    · exact hle (hsorted.2.2 _ (List.mem_map.mpr ⟨p, hp, rfl⟩) (stored.insertedAt, key)
        (((hdropped.indexed hsound.indexed).order _ _).mpr ⟨stored, hstored, rfl⟩))
  · have hitem : s.recorded (held.issuer, held.user, session) = true :=
      recorded_iff.mpr ⟨held, hheld, rfl, rfl⟩
    obtain ⟨before, after, hqueue, hnew⟩ := List.eq_append_cons_of_mem (hqueued _ hitem)
    exact reached_by_sweeps hmax hqueue hnew hitem

/-- Of three mappings the two older ones are evicted, the oldest first. -/
theorem sid_map_consistent_evicting :
    let stored (n : Nat) (at' : Instant) : StoredSid := ⟨"sub", ⟨n⟩, ⟨n⟩, at'⟩
    let s := ((((empty.insert ("op", "a") (stored 1 20)).2.insert ("op", "b") (stored 2 10)).2.insert
      ("op", "c") (stored 3 30)).2.registerSubject "op" "sub" ⟨1⟩ ⟨1⟩)
    Consistent s ∧ (s.evictOldest 2).1 = [(("op", "b"), stored 2 10), (("op", "a"), stored 1 20)] ∧
      (∀ key value, (s.evictOldest 2).2.entries.lookup key = some value → 20 ≤ value.insertedAt) ∧
      ∃ n, ("op", ⟨1⟩, ⟨1⟩) ∈ ((sweeps 1 n s).sweepSubjectCandidates 1).1 := by
  intro stored s
  have hs : Reachable s := .tail (.tail (.tail (.single (.insert _ _)) (.insert _ _)) (.insert _ _))
    (.registerSubject _ _ _ _)
  obtain ⟨hconsistent, hevict, hsweep⟩ := sid_map_consistent hs
  refine ⟨hconsistent, by decide, ?_, hsweep 1 (by decide) ⟨1⟩ ⟨"op", "sub", ⟨1⟩⟩ (by decide)⟩
  exact (hevict (fun _ => true) 2).2.2.2.2 (("op", "a"), stored 1 20) (by decide)

end SidState

end Axess
