import Axess.Federation.SidMap

/-!
# The indexes of the sid map

Every operation keeps the indexes to the mappings, and the two sides of the subject registry to each
other. What is proved about the map reads the mappings and the records alone.
-/

namespace Axess

open Maps

namespace SidState

variable {s : SidState} {key key' : SidKey} {stored old : StoredSid} {issuer subject : String}
  {user : UserId} {session session' : SessionId}

structure Indexed (s : SidState) : Prop where
  keys : ∀ session key, key ∈ s.keysOfSession.values session ↔
    ∃ stored, s.entries.lookup key = some stored ∧ stored.session = session
  bySubject : ∀ issuer subject sid, sid ∈ s.bySubject.values (issuer, subject) ↔
    ∃ stored, s.entries.lookup (issuer, sid) = some stored ∧ stored.subject = subject
  order : ∀ insertedAt key, (insertedAt, key) ∈ s.order ↔
    ∃ stored, s.entries.lookup key = some stored ∧ stored.insertedAt = insertedAt

structure Recorded (s : SidState) : Prop where
  subjects : ∀ issuer subject user session, (user, session) ∈ s.subjects.values (issuer, subject) ↔
    s.subjectOf.lookup session = some ⟨issuer, subject, user⟩
  nodup : ∀ slot, (s.subjects.values slot).Nodup

theorem indexed_empty : Indexed empty where
  keys _ _ := by simp [empty]
  bySubject _ _ _ := by simp [empty]
  order _ _ := by simp [empty]

theorem recorded_empty : Recorded empty :=
  ⟨fun _ _ _ _ => by simp [empty], fun _ => List.nodup_nil⟩

/-! ## Mapping a key -/

theorem entries_insert : (s.insert key stored).2.entries = s.entries.insert key stored := by
  unfold insert
  cases s.entries.lookup key with
  | none => rfl
  | some old =>
    simp only
    split <;> rfl

theorem subjectOf_insert : (s.insert key stored).2.subjectOf = s.subjectOf := by
  unfold insert
  cases s.entries.lookup key with
  | none => rfl
  | some old =>
    simp only
    split <;> rfl

theorem subjects_insert : (s.insert key stored).2.subjects = s.subjects := by
  unfold insert
  cases s.entries.lookup key with
  | none => rfl
  | some old =>
    simp only
    split <;> rfl

theorem lookup_entries_insert : (s.insert key stored).2.entries.lookup key' =
    if key' = key then some stored else s.entries.lookup key' := by
  rw [entries_insert]
  split
  · next heq => rw [heq, AList.lookup_insert]
  · next hne => rw [AList.lookup_insert_ne hne]

theorem keys_insert : key' ∈ (s.insert key stored).2.keysOfSession.values session ↔
    key' ∈ s.keysOfSession.values session ∧
        ¬(∃ old, s.entries.lookup key = some old ∧ session = old.session ∧ key' = key) ∨
      session = stored.session ∧ key' = key := by
  unfold insert
  cases hold : s.entries.lookup key with
  | none => simp [MultiMap.mem_values_add]
  | some old =>
    have hdrop : ∀ s' : SidState, s'.keysOfSession = s.keysOfSession →
        (key' ∈ MultiMap.values ((s'.unlinkSession old.session key).unorder old.insertedAt
          key).keysOfSession session ↔
        key' ∈ s.keysOfSession.values session ∧ ¬(session = old.session ∧ key' = key)) := by
      intro s' hs'
      simp only [unorder, unlinkSession, MultiMap.mem_values_drop, hs']
    simp only [MultiMap.mem_values_add]
    rw [hdrop _ (by split <;> rfl)]
    simp only [Option.some.injEq, exists_eq_left']

theorem bySubject_insert {sid : String} :
    sid ∈ (s.insert key stored).2.bySubject.values (issuer, subject) ↔
    sid ∈ s.bySubject.values (issuer, subject) ∧
        ¬(∃ old, s.entries.lookup key = some old ∧ old.subject ≠ stored.subject ∧
          (issuer, subject) = (key.1, old.subject) ∧ sid = key.2) ∨
      (issuer, subject) = (key.1, stored.subject) ∧ sid = key.2 := by
  unfold insert
  cases hold : s.entries.lookup key with
  | none => simp [MultiMap.mem_values_add]
  | some old =>
    have hdrop : sid ∈ MultiMap.values (if old.subject ≠ stored.subject then
          ({ s with entries := s.entries.insert key stored } : SidState).unindex key.1 old.subject
            key.2
        else { s with entries := s.entries.insert key stored }).bySubject (issuer, subject) ↔
        sid ∈ s.bySubject.values (issuer, subject) ∧ ¬(old.subject ≠ stored.subject ∧
          (issuer, subject) = (key.1, old.subject) ∧ sid = key.2) := by
      split
      · next hne => simp only [unindex, MultiMap.mem_values_drop, hne, ne_eq, not_false_eq_true, true_and]
      · next heq => simp only [heq, false_and, not_false_eq_true, and_true]
    simp only [MultiMap.mem_values_add, unorder, unlinkSession]
    rw [hdrop]
    simp only [Option.some.injEq, exists_eq_left']

theorem order_insert {insertedAt : Instant} :
    (insertedAt, key') ∈ (s.insert key stored).2.order ↔
    (insertedAt, key') ∈ s.order ∧
        ¬(∃ old, s.entries.lookup key = some old ∧ insertedAt = old.insertedAt ∧ key' = key) ∨
      insertedAt = stored.insertedAt ∧ key' = key := by
  have hadd (l : List (Instant × SidKey)) : (insertedAt, key') ∈
      (l.filter (· ≠ (stored.insertedAt, key))).orderedInsert orderLe (stored.insertedAt, key) ↔
      (insertedAt, key') ∈ l ∨ insertedAt = stored.insertedAt ∧ key' = key := by
    rw [List.mem_orderedInsert, List.mem_filter, decide_eq_true_eq, Prod.mk.injEq]
    by_cases hsame : insertedAt = stored.insertedAt ∧ key' = key
    · simp [hsame]
    · simp [hsame]
  unfold insert
  cases hold : s.entries.lookup key with
  | none =>
    simp only [hadd]
    simp
  | some old =>
    have hdrop : ∀ s' : SidState, s'.order = s.order →
        ((insertedAt, key') ∈ ((s'.unlinkSession old.session key).unorder old.insertedAt
          key).order ↔
        (insertedAt, key') ∈ s.order ∧ ¬(insertedAt = old.insertedAt ∧ key' = key)) := by
      intro s' hs'
      simp only [unorder, unlinkSession, hs', List.mem_filter, decide_eq_true_eq, ne_eq,
        Prod.mk.injEq]
    simp only [hadd]
    rw [hdrop _ (by split <;> rfl)]
    simp only [Option.some.injEq, exists_eq_left']

theorem Indexed.insert (h : Indexed s) (key : SidKey) (stored : StoredSid) :
    Indexed (s.insert key stored).2 where
  keys session key' := by
    rw [keys_insert, lookup_entries_insert, h.keys]
    by_cases hkey : key' = key
    · subst hkey
      rw [if_pos rfl]
      constructor
      · rintro (⟨⟨old, hold, hsession⟩, hnot⟩ | ⟨hsession, -⟩)
        · exact absurd ⟨old, hold, hsession.symm, rfl⟩ hnot
        · exact ⟨stored, rfl, hsession.symm⟩
      · rintro ⟨_, ⟨⟩, hsession⟩
        exact .inr ⟨hsession.symm, rfl⟩
    · simp [hkey]
  bySubject issuer subject sid := by
    rw [bySubject_insert, lookup_entries_insert, h.bySubject]
    by_cases hkey : (issuer, sid) = key
    · subst hkey
      rw [if_pos rfl]
      constructor
      · rintro (⟨⟨old, hold, hsubject⟩, hnot⟩ | ⟨heq, -⟩)
        · -- the old mapping was of the same subject, or its `sid` was taken out
          refine ⟨stored, rfl, ?_⟩
          by_contra hne
          exact hnot ⟨old, hold, fun hsame => hne (hsame.symm.trans hsubject),
            by rw [hsubject], rfl⟩
        · exact ⟨stored, rfl, (Prod.mk.inj heq).2.symm⟩
      · rintro ⟨_, ⟨⟩, hsubject⟩
        exact .inr ⟨by rw [hsubject], rfl⟩
    · rw [if_neg hkey]
      have hother : ∀ subject', ¬((issuer, subject) = (key.1, subject') ∧ sid = key.2) :=
        fun subject' ⟨hslot, hsid⟩ => hkey (Prod.ext (Prod.mk.inj hslot).1 hsid)
      constructor
      · rintro (⟨hin, -⟩ | hnew)
        · exact hin
        · exact absurd hnew (hother _)
      · intro hin
        exact .inl ⟨hin, fun ⟨_, _, _, hslot⟩ => hother _ hslot⟩
  order insertedAt key' := by
    rw [order_insert, lookup_entries_insert, h.order]
    by_cases hkey : key' = key
    · subst hkey
      rw [if_pos rfl]
      constructor
      · rintro (⟨⟨old, hold, hat⟩, hnot⟩ | ⟨hat, -⟩)
        · exact absurd ⟨old, hold, hat.symm, rfl⟩ hnot
        · exact ⟨stored, rfl, hat.symm⟩
      · rintro ⟨_, ⟨⟩, hat⟩
        exact .inr ⟨hat.symm, rfl⟩
    · simp [hkey]

theorem entries_remove : (s.remove key).2.entries = s.entries.erase key := by
  unfold remove
  cases hold : s.entries.lookup key with
  | none =>
    refine (AList.ext ?_).symm
    exact List.kerase_of_notMem_keys (AList.lookup_eq_none.mp hold)
  | some old => rfl

theorem subjectOf_remove : (s.remove key).2.subjectOf = s.subjectOf := by
  unfold remove
  cases s.entries.lookup key <;> rfl

theorem subjects_remove : (s.remove key).2.subjects = s.subjects := by
  unfold remove
  cases s.entries.lookup key <;> rfl

theorem fst_remove : (s.remove key).1 = s.entries.lookup key := by
  unfold remove
  cases s.entries.lookup key <;> rfl

theorem lookup_entries_remove : (s.remove key).2.entries.lookup key' =
    if key' = key then none else s.entries.lookup key' := by
  rw [entries_remove]
  split
  · next heq => rw [heq, AList.lookup_erase]
  · next hne => rw [AList.lookup_erase_ne hne]

theorem Indexed.remove (h : Indexed s) (key : SidKey) : Indexed (s.remove key).2 := by
  cases hold : s.entries.lookup key with
  | none =>
    have hsame : (s.remove key).2 = s := by
      unfold SidState.remove
      rw [hold]
    rw [hsame]
    exact h
  | some old =>
    have hremove : (s.remove key).2 = ((({ s with entries := s.entries.erase key } :
        SidState).unorder old.insertedAt key).unindex key.1 old.subject key.2).unlinkSession
          old.session key := by
      unfold SidState.remove
      rw [hold]
    constructor
    · intro session key'
      rw [lookup_entries_remove]
      have hkeys : key' ∈ (s.remove key).2.keysOfSession.values session ↔
          key' ∈ s.keysOfSession.values session ∧ ¬(session = old.session ∧ key' = key) := by
        rw [hremove]
        simp only [unlinkSession, unindex, unorder, MultiMap.mem_values_drop]
      rw [hkeys, h.keys]
      by_cases hkey : key' = key
      · subst hkey
        simp [hold, eq_comm]
      · simp [hkey]
    · intro issuer subject sid
      rw [lookup_entries_remove]
      have hsids : sid ∈ (s.remove key).2.bySubject.values (issuer, subject) ↔
          sid ∈ s.bySubject.values (issuer, subject) ∧
            ¬((issuer, subject) = (key.1, old.subject) ∧ sid = key.2) := by
        rw [hremove]
        simp only [unlinkSession, unindex, unorder, MultiMap.mem_values_drop]
      rw [hsids, h.bySubject]
      by_cases hkey : (issuer, sid) = key
      · subst hkey
        simp [hold, eq_comm]
      · rw [if_neg hkey]
        refine and_iff_left fun h => hkey (Prod.ext (Prod.mk.inj h.1).1 h.2)
    · intro insertedAt key'
      rw [lookup_entries_remove]
      have horder : (insertedAt, key') ∈ (s.remove key).2.order ↔
          (insertedAt, key') ∈ s.order ∧ ¬(insertedAt = old.insertedAt ∧ key' = key) := by
        rw [hremove]
        simp only [unlinkSession, unindex, unorder, List.mem_filter, decide_eq_true_eq, ne_eq,
          Prod.mk.injEq]
      rw [horder, h.order]
      by_cases hkey : key' = key
      · subst hkey
        simp [hold, eq_comm]
      · simp [hkey]

theorem subjectOf_removeKeys (keys : List SidKey) (s : SidState) :
    (removeKeys keys s).2.subjectOf = s.subjectOf := by
  induction keys generalizing s with
  | nil => rfl
  | cons key keys ih => exact (ih (s.remove key).2).trans subjectOf_remove

theorem subjects_removeKeys (keys : List SidKey) (s : SidState) :
    (removeKeys keys s).2.subjects = s.subjects := by
  induction keys generalizing s with
  | nil => rfl
  | cons key keys ih => exact (ih (s.remove key).2).trans subjects_remove

theorem Indexed.removeKeys (h : Indexed s) (keys : List SidKey) :
    Indexed (removeKeys keys s).2 := by
  induction keys generalizing s with
  | nil => exact h
  | cons key keys ih => exact ih (h.remove key)

theorem lookup_entries_removeKeys (keys : List SidKey) (s : SidState) :
    (removeKeys keys s).2.entries.lookup key' =
      if key' ∈ keys then none else s.entries.lookup key' := by
  induction keys generalizing s with
  | nil => rfl
  | cons key keys ih =>
    have hstep : (SidState.removeKeys (key :: keys) s).2.entries.lookup key' =
        if key' ∈ keys then none else (s.remove key).2.entries.lookup key' := ih (s.remove key).2
    rw [hstep, lookup_entries_remove]
    by_cases hin : key' ∈ keys
    · simp [hin]
    · simp [hin]

theorem lookup_subjectOf_forgetSubject :
    (s.forgetSubject issuer user session).2.subjectOf.lookup session' =
      if session' = session ∧ (s.subjectOf.lookup session).any
        (fun held => held.issuer = issuer ∧ held.user = user) = true then none
      else s.subjectOf.lookup session' := by
  unfold forgetSubject
  cases hheld : s.subjectOf.lookup session with
  | none => simp
  | some held =>
    simp only [Option.any_some, decide_eq_true_eq]
    by_cases hsame : held.issuer = issuer ∧ held.user = user
    · rw [if_pos hsame]
      by_cases hsession : session' = session
      · rw [if_pos ⟨hsession, hsame⟩, hsession]
        exact AList.lookup_erase session s.subjectOf
      · rw [if_neg fun h => hsession h.1]
        exact AList.lookup_erase_ne hsession
    · rw [if_neg hsame, if_neg fun h => hsame h.2]

theorem entries_forgetSubject :
    (s.forgetSubject issuer user session).2.entries = s.entries := by
  unfold forgetSubject
  cases s.subjectOf.lookup session with
  | none => rfl
  | some held =>
    simp only
    split <;> rfl

theorem Indexed.forgetSubject (h : Indexed s) (issuer : String) (user : UserId)
    (session : SessionId) : Indexed (s.forgetSubject issuer user session).2 := by
  unfold SidState.forgetSubject
  cases s.subjectOf.lookup session with
  | none => exact h
  | some held =>
    simp only
    split
    · exact ⟨h.keys, h.bySubject, h.order⟩
    · exact h

theorem Recorded.forgetSubject (h : Recorded s) (issuer : String) (user : UserId)
    (session : SessionId) : Recorded (s.forgetSubject issuer user session).2 := by
  unfold SidState.forgetSubject
  cases hheld : s.subjectOf.lookup session with
  | none => exact h
  | some held =>
    simp only
    split
    · refine ⟨fun issuer' subject' user' session' => ?_, fun slot =>
        MultiMap.nodup_drop (h.nodup slot)⟩
      rw [MultiMap.mem_values_drop, h.subjects]
      by_cases hsession : session' = session
      · subst hsession
        rw [hheld, AList.lookup_erase]
        constructor
        · rintro ⟨hrecord, hnot⟩
          obtain rfl := Option.some.inj hrecord
          exact absurd ⟨rfl, rfl⟩ hnot
        · nofun
      · rw [AList.lookup_erase_ne hsession]
        exact and_iff_left fun ⟨_, hpair⟩ => hsession (Prod.mk.inj hpair).2
    · exact h

theorem compact_eq : ∃ queue, s.compact = { s with subjectOrder := queue } := by
  unfold compact
  split
  · exact ⟨_, rfl⟩
  · exact ⟨s.subjectOrder, rfl⟩

theorem Indexed.requeue (h : Indexed s) (queue : List (String × UserId × SessionId)) :
    Indexed { s with subjectOrder := queue } :=
  ⟨h.keys, h.bySubject, h.order⟩

theorem Recorded.requeue (h : Recorded s) (queue : List (String × UserId × SessionId)) :
    Recorded { s with subjectOrder := queue } :=
  ⟨h.subjects, h.nodup⟩

theorem Recorded.record (h : Recorded s) (issuer subject : String) (user : UserId)
    (hnone : s.subjectOf.lookup session = none) :
    Recorded (s.record issuer subject user session) := by
  refine ⟨fun issuer' subject' user' session' => ?_, fun slot =>
    MultiMap.nodup_add (h.nodup slot)⟩
  unfold SidState.record
  rw [MultiMap.mem_values_add, h.subjects]
  by_cases hsession : session' = session
  · subst hsession
    rw [AList.lookup_insert, hnone]
    constructor
    · rintro (hrecord | ⟨hslot, hpair⟩)
      · cases hrecord
      · obtain ⟨rfl, rfl⟩ := Prod.mk.inj hslot
        obtain ⟨rfl, -⟩ := Prod.mk.inj hpair
        rfl
    · intro hrecord
      cases hrecord
      exact .inr ⟨rfl, rfl⟩
  · rw [AList.lookup_insert_ne hsession]
    exact or_iff_left fun ⟨_, hpair⟩ => hsession (Prod.mk.inj hpair).2

structure RegisteredAs (s s' : SidState) (issuer subject : String) (user : UserId)
    (session : SessionId) : Prop where
  entries : s'.entries = s.entries
  indexed : Indexed s → Indexed s'
  recorded : Recorded s → Recorded s'
  lookup : ∀ session', s'.subjectOf.lookup session' =
    if session' = session then some ⟨issuer, subject, user⟩ else s.subjectOf.lookup session'

theorem registeredAs_record (issuer subject : String) (user : UserId)
    (hnone : s.subjectOf.lookup session = none) : RegisteredAs s
      (s.record issuer subject user session).compact issuer subject user session := by
  obtain ⟨queue, heq⟩ := compact_eq (s := s.record issuer subject user session)
  rw [heq]
  refine ⟨rfl, fun h => ⟨h.keys, h.bySubject, h.order⟩,
    fun h => (h.record issuer subject user hnone).requeue queue, fun session' => ?_⟩
  show (s.subjectOf.insert session ⟨issuer, subject, user⟩).lookup session' = _
  split
  · next hsession => rw [hsession, AList.lookup_insert]
  · next hsession => rw [AList.lookup_insert_ne hsession]

theorem registeredAs_registerSubject (s : SidState) (issuer subject : String) (user : UserId)
    (session : SessionId) : RegisteredAs s (s.registerSubject issuer subject user session) issuer
      subject user session := by
  unfold registerSubject
  cases hheld : s.subjectOf.lookup session with
  | none => exact registeredAs_record issuer subject user hheld
  | some held =>
    simp only
    split
    · next hsame =>
      refine ⟨rfl, id, id, fun session' => ?_⟩
      split
      · next hsession => rw [hsession, hheld, hsame]
      · rfl
    · have hforgot (session' : SessionId) :
          (s.forgetSubject held.issuer held.user session).2.subjectOf.lookup session' =
            if session' = session then none else s.subjectOf.lookup session' := by
        rw [lookup_subjectOf_forgetSubject, hheld]
        simp
      have hnone : (s.forgetSubject held.issuer held.user session).2.subjectOf.lookup session =
          none := by rw [hforgot, if_pos rfl]
      have hrecord := registeredAs_record issuer subject user hnone
      refine ⟨hrecord.entries.trans entries_forgetSubject,
        fun h => hrecord.indexed (h.forgetSubject _ _ _),
        fun h => hrecord.recorded (h.forgetSubject _ _ _), fun session' => ?_⟩
      rw [hrecord.lookup, hforgot]
      split <;> simp_all

/-! ## Ending a session -/

/-- What a step that unmaps the keys in `gone` and forgets the sessions in `forgotten` leaves. -/
structure Dropped (s s' : SidState) (gone : SidKey → Prop) (forgotten : SessionId → Prop) :
    Prop where
  indexed : Indexed s → Indexed s'
  recorded : Recorded s → Recorded s'
  unmapped : ∀ key, gone key → s'.entries.lookup key = none
  mapped : ∀ key, ¬gone key → s'.entries.lookup key = s.entries.lookup key
  unrecorded : ∀ session, forgotten session → s'.subjectOf.lookup session = none
  kept : ∀ session, ¬forgotten session →
    s'.subjectOf.lookup session = s.subjectOf.lookup session

theorem dropped_forgetSubject (s : SidState) (issuer : String) (user : UserId)
    (session : SessionId) : Dropped s (s.forgetSubject issuer user session).2 (fun _ => False)
      fun session' => session' = session ∧ (s.subjectOf.lookup session).any
        (fun held => held.issuer = issuer ∧ held.user = user) = true where
  indexed h := h.forgetSubject issuer user session
  recorded h := h.forgetSubject issuer user session
  unmapped _ h := h.elim
  mapped key _ := by rw [entries_forgetSubject]
  unrecorded session' h := by rw [lookup_subjectOf_forgetSubject, if_pos h]
  kept session' h := by rw [lookup_subjectOf_forgetSubject, if_neg h]

theorem dropped_removeSession (h : Indexed s) (session : SessionId) :
    Dropped s (s.removeSession session).2
      (fun key => ∃ stored, s.entries.lookup key = some stored ∧ stored.session = session)
      (· = session) := by
  have hsubjects := subjectOf_removeKeys (s.keysOfSession.values session) s
  have hgone (key : SidKey) : (removeKeys (s.keysOfSession.values session) s).2.entries.lookup key =
      if ∃ stored, s.entries.lookup key = some stored ∧ stored.session = session then none
      else s.entries.lookup key := by
    rw [lookup_entries_removeKeys]
    simp only [h.keys]
  have hrecorded (hr : Recorded s) : Recorded (removeKeys (s.keysOfSession.values session) s).2 := by
    refine ⟨fun issuer subject user session' => ?_, fun slot => ?_⟩
    · rw [subjects_removeKeys, hsubjects]
      exact hr.subjects issuer subject user session'
    · rw [subjects_removeKeys]
      exact hr.nodup slot
  unfold removeSession
  simp only [hsubjects]
  cases hheld : s.subjectOf.lookup session with
  | none =>
    refine ⟨fun h => h.removeKeys _, hrecorded, fun key hkey => ?_, fun key hkey => ?_, ?_, ?_⟩
    · rw [hgone, if_pos hkey]
    · rw [hgone, if_neg hkey]
    · rintro session' rfl
      rw [hsubjects, hheld]
    · intro session' _
      rw [hsubjects]
  | some held =>
    have hforgot := dropped_forgetSubject (removeKeys (s.keysOfSession.values session) s).2
      held.issuer held.user session
    have hmatch : ((removeKeys (s.keysOfSession.values session) s).2.subjectOf.lookup session).any
        (fun held' => held'.issuer = held.issuer ∧ held'.user = held.user) = true := by
      rw [hsubjects, hheld]
      simp
    refine ⟨fun h => hforgot.indexed (h.removeKeys _), fun hr => hforgot.recorded (hrecorded hr),
      fun key hkey => ?_, fun key hkey => ?_, ?_, ?_⟩
    · rw [hforgot.mapped key id, hgone, if_pos hkey]
    · rw [hforgot.mapped key id, hgone, if_neg hkey]
    · rintro session' rfl
      exact hforgot.unrecorded _ ⟨rfl, hmatch⟩
    · intro session' hne
      rw [hforgot.kept session' fun hsame => hne hsame.1, hsubjects]

theorem dropped_remove (s : SidState) (key : SidKey) :
    Dropped s (s.remove key).2 (· = key) fun _ => False where
  indexed h := h.remove key
  recorded h := by
    refine ⟨fun issuer subject user session => ?_, fun slot => ?_⟩
    · rw [subjects_remove, subjectOf_remove]
      exact h.subjects issuer subject user session
    · rw [subjects_remove]
      exact h.nodup slot
  unmapped key' h := by rw [lookup_entries_remove, if_pos h]
  mapped key' h := by rw [lookup_entries_remove, if_neg h]
  unrecorded _ h := h.elim
  kept session _ := by rw [subjectOf_remove]

theorem Dropped.refl (s : SidState) : Dropped s s (fun _ => False) fun _ => False :=
  ⟨id, id, fun _ h => h.elim, fun _ _ => rfl, fun _ h => h.elim, fun _ _ => rfl⟩

variable {gone : SidKey → Prop} {forgotten : SessionId → Prop}

theorem Dropped.trans {s₁ s₂ s₃ : SidState} {gone' : SidKey → Prop} {forgotten' : SessionId → Prop}
    (h : Dropped s₁ s₂ gone forgotten) (h' : Dropped s₂ s₃ gone' forgotten') :
    Dropped s₁ s₃ (fun key => gone key ∨ gone' key)
      fun session => forgotten session ∨ forgotten' session where
  indexed hi := h'.indexed (h.indexed hi)
  recorded hr := h'.recorded (h.recorded hr)
  unmapped key hkey := by
    by_cases hlater : gone' key
    · exact h'.unmapped key hlater
    · rw [h'.mapped key hlater]
      exact h.unmapped key (hkey.resolve_right hlater)
  mapped key hkey := (h'.mapped key fun hg => hkey (.inr hg)).trans
    (h.mapped key fun hg => hkey (.inl hg))
  unrecorded session hsession := by
    by_cases hlater : forgotten' session
    · exact h'.unrecorded session hlater
    · rw [h'.kept session hlater]
      exact h.unrecorded session (hsession.resolve_right hlater)
  kept session hsession := (h'.kept session fun hf => hsession (.inr hf)).trans
    (h.kept session fun hf => hsession (.inl hf))

variable {s s' : SidState}

theorem Dropped.congr {gone' : SidKey → Prop} {forgotten' : SessionId → Prop}
    (h : Dropped s s' gone forgotten) (hgone : ∀ key, gone' key ↔ gone key)
    (hforgotten : ∀ session, forgotten' session ↔ forgotten session) :
    Dropped s s' gone' forgotten' := by
  obtain rfl : gone' = gone := funext fun key => propext (hgone key)
  obtain rfl : forgotten' = forgotten := funext fun session => propext (hforgotten session)
  exact h

theorem Dropped.lookup (h : Dropped s s' gone forgotten) {key : SidKey} {stored : StoredSid}
    (hkey : s'.entries.lookup key = some stored) : s.entries.lookup key = some stored := by
  by_cases hgone : gone key
  · rw [h.unmapped key hgone] at hkey
    cases hkey
  · rw [← h.mapped key hgone]
    exact hkey

theorem Dropped.lookup_subjectOf (h : Dropped s s' gone forgotten) {held : SubjectOf}
    (hheld : s'.subjectOf.lookup session = some held) : s.subjectOf.lookup session = some held := by
  by_cases hforgotten : forgotten session
  · rw [h.unrecorded session hforgotten] at hheld
    cases hheld
  · rw [← h.kept session hforgotten]
    exact hheld

/-- A key that maps to what is expected is unmapped, and its session is forgotten if it is recorded
under the key's issuer. -/
theorem dropped_removeIf {expected : StoredSid → Bool} (hold : s.entries.lookup key = some stored)
    (hexpected : expected stored = true) :
    Dropped s (s.removeIf key expected).2 (· = key) fun session => session = stored.session ∧
      (s.subjectOf.lookup stored.session).any
        (fun held => held.issuer = key.1 ∧ held.user = stored.user) = true := by
  have hremove : s.remove key = (some stored, (s.remove key).2) :=
    Prod.ext (fst_remove.trans hold) rfl
  have hif : (s.removeIf key expected).2 =
      ((s.remove key).2.forgetSubject key.1 stored.user stored.session).2 := by
    unfold removeIf
    rw [if_pos (by rw [hold]; exact hexpected), hremove]
  rw [hif]
  have hforgot := dropped_forgetSubject (s.remove key).2 key.1 stored.user stored.session
  rw [subjectOf_remove] at hforgot
  exact ((dropped_remove s key).trans hforgot).congr (fun _ => (or_false _).symm ▸ Iff.rfl)
    fun _ => (false_or _).symm ▸ Iff.rfl

/-- The item that is popped is of a mapping, which is then removed. -/
theorem remove_popped (h : Indexed s) {insertedAt : Instant} {order : List (Instant × SidKey)}
    (horder : s.order = (insertedAt, key) :: order) :
    ∃ stored, s.entries.lookup key = some stored ∧ stored.insertedAt = insertedAt ∧
      ({ s with order := order } : SidState).remove key = (some stored, (s.remove key).2) := by
  obtain ⟨stored, hstored, rfl⟩ := (h.order insertedAt key).mp (horder ▸ List.mem_cons_self)
  refine ⟨stored, hstored, rfl, ?_⟩
  unfold remove
  simp only [hstored, unorder, horder]
  rw [List.filter_cons_of_neg (by simp)]

theorem evictFrom_spec (due : Instant → Bool) (n max : Nat) (h : Indexed s) :
    (∀ p ∈ (evictFrom due n max s).1, s.entries.lookup p.1 = some p.2 ∧
      due p.2.insertedAt = true) ∧
    Dropped s (evictFrom due n max s).2
      (fun key => ∃ stored, (key, stored) ∈ (evictFrom due n max s).1) fun _ => False := by
  fun_induction evictFrom due n max s with
  | case2 _ _ _ _ _ _ horder _ _ hremove =>
    obtain ⟨_, -, -, hpopped⟩ := remove_popped h horder
    cases hpopped.symm.trans hremove
  | case3 n max s insertedAt key order horder hdue stored left hremove evicted last hrest ih =>
    obtain ⟨stored, hstored, rfl, hpopped⟩ := remove_popped h horder
    obtain ⟨⟨⟩, rfl⟩ := Prod.mk.inj (hpopped.symm.trans hremove)
    obtain ⟨hevicted, hdropped⟩ := ih (h.remove key)
    rw [hrest] at hevicted hdropped
    simp only [List.mem_cons, forall_eq_or_imp]
    refine ⟨⟨⟨hstored, hdue⟩, fun p hp => ?_⟩, ?_⟩
    · obtain ⟨hlookup, hpdue⟩ := hevicted p hp
      rw [lookup_entries_remove] at hlookup
      split at hlookup
      · cases hlookup
      · exact ⟨hlookup, hpdue⟩
    · refine ((dropped_remove s key).trans hdropped).congr (fun key' => ?_) fun _ => by simp
      constructor
      · rintro ⟨stored', heq | hmem⟩
        · exact .inl (Prod.mk.inj heq).1
        · exact .inr ⟨stored', hmem⟩
      · rintro (rfl | ⟨stored', hmem⟩)
        · exact ⟨stored, .inl rfl⟩
        · exact ⟨stored', .inr hmem⟩
  | _ => exact ⟨nofun, (Dropped.refl _).congr (fun _ => by simp) fun _ => Iff.rfl⟩

theorem sweepFrom_eq (n : Nat) (named : List SessionId) (s : SidState) :
    ∃ queue, (sweepFrom n named s).2 = { s with subjectOrder := queue } := by
  induction n generalizing named s with
  | zero => exact ⟨s.subjectOrder, rfl⟩
  | succ n ih =>
    unfold sweepFrom
    cases horder : s.subjectOrder with
    | nil => exact ⟨s.subjectOrder, rfl⟩
    | cons item queue =>
      simp only
      split
      · obtain ⟨queue', heq⟩ := ih (item.2.2 :: named) { s with subjectOrder := queue ++ [item] }
        exact ⟨queue', heq⟩
      · obtain ⟨queue', heq⟩ := ih named { s with subjectOrder := queue }
        exact ⟨queue', heq⟩

theorem dropped_requeue (s : SidState) (queue : List (String × UserId × SessionId)) :
    Dropped s { s with subjectOrder := queue } (fun _ => False) fun _ => False :=
  ⟨fun h => h.requeue queue, fun h => h.requeue queue, nofun, fun _ _ => rfl, nofun, fun _ _ => rfl⟩

theorem recorded_of_mem_sweepFrom {n : Nat} {named : List SessionId}
    {item : String × UserId × SessionId} (h : item ∈ (sweepFrom n named s).1) :
    s.recorded item = true := by
  induction n generalizing named s with
  | zero => cases h
  | succ n ih =>
    unfold sweepFrom at h
    cases horder : s.subjectOrder with
    | nil =>
      simp only [horder] at h
      cases h
    | cons first queue =>
      simp only [horder] at h
      split at h
      · next hfirst =>
        rcases List.mem_cons.mp h with rfl | hrest
        · exact hfirst.1
        · exact ih (s := { s with subjectOrder := queue ++ [first] }) hrest
      · exact ih (s := { s with subjectOrder := queue }) h

def Under (s : SidState) (issuer subject : String) (user : UserId) (session : SessionId) : Prop :=
  s.subjectOf.lookup session = some ⟨issuer, subject, user⟩ ∨
    ∃ sid stored, s.entries.lookup (issuer, sid) = some stored ∧ stored.subject = subject ∧
      stored.user = user ∧ stored.session = session

theorem foldl_collect (mapped out : List (UserId × SessionId)) :
    (∀ p, p ∈ mapped.foldl (fun out pair => if pair ∈ out then out else out ++ [pair]) out ↔
      p ∈ out ∨ p ∈ mapped) ∧
    (out.Nodup →
      (mapped.foldl (fun out pair => if pair ∈ out then out else out ++ [pair]) out).Nodup) := by
  induction mapped generalizing out with
  | nil => exact ⟨fun p => by simp, id⟩
  | cons pair mapped ih =>
    simp only [List.foldl_cons]
    split
    · next hin =>
      refine ⟨fun p => ?_, (ih out).2⟩
      rw [(ih out).1, List.mem_cons]
      constructor
      · exact fun h => h.imp_right .inr
      · rintro (hout | rfl | hmapped)
        · exact .inl hout
        · exact .inl hin
        · exact .inr hmapped
    · next hnew =>
      refine ⟨fun p => ?_, fun h => (ih _).2 ?_⟩
      · rw [(ih _).1, List.mem_append, List.mem_singleton, List.mem_cons, or_assoc]
      · rw [List.nodup_append]
        refine ⟨h, List.nodup_singleton _, fun a ha b hb => ?_⟩
        rw [List.mem_singleton.mp hb]
        rintro rfl
        exact hnew ha

theorem mem_subjectSessions (hi : Indexed s) (hr : Recorded s) :
    (user, session) ∈ s.subjectSessions issuer subject ↔ s.Under issuer subject user session := by
  unfold subjectSessions Under
  simp only
  rw [List.mem_insertionSort, (foldl_collect _ _).1, hr.subjects]
  refine or_congr Iff.rfl ?_
  rw [List.mem_filterMap]
  constructor
  · rintro ⟨sid, hsid, hpair⟩
    obtain ⟨stored, hstored, hsubject⟩ := (hi.bySubject issuer subject sid).mp hsid
    rw [hstored] at hpair
    obtain ⟨huser, hsession⟩ := Prod.mk.inj (Option.some.inj hpair)
    exact ⟨sid, stored, hstored, hsubject, huser, hsession⟩
  · rintro ⟨sid, stored, hstored, hsubject, huser, hsession⟩
    refine ⟨sid, (hi.bySubject issuer subject sid).mpr ⟨stored, hstored, hsubject⟩, ?_⟩
    rw [hstored, ← huser, ← hsession]
    rfl

theorem nodup_subjectSessions (hr : Recorded s) : (s.subjectSessions issuer subject).Nodup := by
  unfold subjectSessions
  rw [(List.perm_insertionSort _ _).nodup_iff]
  exact (foldl_collect _ _).2 (hr.nodup _)

inductive Step (s : SidState) : SidState → Prop where
  | insert (key : SidKey) (stored : StoredSid) : Step s (s.insert key stored).2
  | restoreIfVacant (key : SidKey) (displaced : StoredSid) :
      Step s (s.restoreIfVacant key displaced).2
  | removeIf (key : SidKey) (expected : StoredSid → Bool) : Step s (s.removeIf key expected).2
  | registerSubject (issuer subject : String) (user : UserId) (session : SessionId) :
      Step s (s.registerSubject issuer subject user session)
  | forgetSubject (issuer : String) (user : UserId) (session : SessionId) :
      Step s (s.forgetSubject issuer user session).2
  | sweep (max : Nat) : Step s (s.sweepSubjectCandidates max).2
  | removeSession (session : SessionId) : Step s (s.removeSession session).2
  | evictInsertedBefore (cutoff : Instant) (max : Nat) : Step s (s.evictInsertedBefore cutoff max).2
  | evictOldest (max : Nat) : Step s (s.evictOldest max).2

def Reachable : SidState → Prop := Relation.ReflTransGen Step empty

structure Sound (s : SidState) : Prop where
  indexed : Indexed s
  recorded : Recorded s

theorem Sound.insert (h : Sound s) (key : SidKey) (stored : StoredSid) :
    Sound (s.insert key stored).2 := by
  refine ⟨h.indexed.insert key stored, ⟨fun issuer subject user session => ?_, fun slot => ?_⟩⟩
  · rw [subjects_insert, subjectOf_insert]
    exact h.recorded.subjects issuer subject user session
  · rw [subjects_insert]
    exact h.recorded.nodup slot

theorem Dropped.sound (h : Dropped s s' gone forgotten) (hs : Sound s) : Sound s' :=
  ⟨h.indexed hs.indexed, h.recorded hs.recorded⟩

structure Kept (P : SidState → Prop) : Prop where
  insert : ∀ s key stored, P s → P (s.insert key stored).2
  remove : ∀ s key, P s → P (s.remove key).2
  forget : ∀ s issuer user session, P s → P (s.forgetSubject issuer user session).2
  record : ∀ s issuer subject user session, s.subjectOf.lookup session = none → P s →
    P (s.record issuer subject user session).compact
  sweep : ∀ s max, P s → P (s.sweepSubjectCandidates max).2

namespace Kept

variable {P : SidState → Prop} {s' : SidState}

theorem removeKeys (hP : Kept P) (keys : List SidKey) (h : P s) :
    P (SidState.removeKeys keys s).2 := by
  induction keys generalizing s with
  | nil => exact h
  | cons key keys ih => exact ih (hP.remove s key h)

theorem evictFrom (hP : Kept P) (due : Instant → Bool) (n max : Nat) (hi : Indexed s) (h : P s) :
    P (SidState.evictFrom due n max s).2 := by
  fun_induction SidState.evictFrom due n max s with
  | case2 _ _ _ _ _ _ horder _ _ hremove =>
    obtain ⟨_, -, -, hpopped⟩ := remove_popped hi horder
    cases hpopped.symm.trans hremove
  | case3 _ _ s _ key _ horder _ _ _ hremove _ _ hrest ih =>
    obtain ⟨_, -, -, hpopped⟩ := remove_popped hi horder
    obtain ⟨-, rfl⟩ := Prod.mk.inj (hpopped.symm.trans hremove)
    rw [hrest] at ih
    exact ih (hi.remove key) (hP.remove s key h)
  | _ => exact h

theorem registerSubject (hP : Kept P) (issuer subject : String) (user : UserId)
    (session : SessionId) (h : P s) : P (s.registerSubject issuer subject user session) := by
  unfold SidState.registerSubject
  cases hheld : s.subjectOf.lookup session with
  | none => exact hP.record s issuer subject user session hheld h
  | some held =>
    dsimp only
    split
    · exact h
    · refine hP.record _ issuer subject user session ?_ (hP.forget s _ _ _ h)
      rw [lookup_subjectOf_forgetSubject, hheld]
      simp

theorem step (hP : Kept P) (hi : Indexed s) (h : P s) (hstep : Step s s') : P s' := by
  cases hstep with
  | insert key stored => exact hP.insert s key stored h
  | restoreIfVacant key displaced =>
    unfold restoreIfVacant
    split
    · exact h
    · exact hP.insert s key displaced h
  | removeIf key expected =>
    have hremoved := hP.remove s key h
    unfold removeIf
    split
    · cases hremove : s.remove key with
      | mk removed left =>
        rw [hremove] at hremoved
        cases removed with
        | none => exact hremoved
        | some stored => exact hP.forget left _ _ _ hremoved
    · exact h
  | registerSubject issuer subject user session =>
    exact hP.registerSubject issuer subject user session h
  | forgetSubject issuer user session => exact hP.forget s issuer user session h
  | sweep max => exact hP.sweep s max h
  | removeSession session =>
    have hkeys := hP.removeKeys (s.keysOfSession.values session) h
    unfold removeSession
    dsimp only
    split
    · exact hkeys
    · exact hP.forget _ _ _ _ hkeys
  | evictInsertedBefore cutoff max => exact hP.evictFrom _ _ max hi h
  | evictOldest max => exact hP.evictFrom _ _ max hi h

end Kept

theorem kept_sound : Kept Sound where
  insert _ key stored h := h.insert key stored
  remove s key h := (dropped_remove s key).sound h
  forget s issuer user session h := (dropped_forgetSubject s issuer user session).sound h
  record s issuer subject user session hnone h := by
    have hrecord := registeredAs_record issuer subject user hnone
    exact ⟨hrecord.indexed h.indexed, hrecord.recorded h.recorded⟩
  sweep s max h := by
    obtain ⟨queue, heq⟩ := sweepFrom_eq (min max s.subjectOrder.length) [] s
    show Sound (sweepFrom _ [] s).2
    rw [heq]
    exact (dropped_requeue s queue).sound h

theorem Reachable.sound (h : Reachable s) : Sound s := by
  induction h with
  | refl => exact ⟨indexed_empty, recorded_empty⟩
  | tail _ hstep ih => exact kept_sound.step ih.indexed ih hstep

theorem Kept.reachable {P : SidState → Prop} (hP : Kept P) (hempty : P empty) (h : Reachable s) : P s := by
  induction h with
  | refl => exact hempty
  | tail hbefore hstep ih => exact hP.step (Reachable.sound hbefore).indexed ih hstep

end SidState

end Axess
