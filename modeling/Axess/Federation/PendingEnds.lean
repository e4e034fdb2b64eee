import Axess.Calls.Pool
import Axess.Federation.Indexes
import Axess.Federation.OAuthLogin

/-!
# What a login takes out of the sid map is settled

Any number of logins, each standing, refused or abandoned, over one map and one registry. A session
whose mapping a login displaced or aged out is owed: it is to be ended or, when the login is
refused, put back under its key. The registry answers, and others may end sessions at any time.

A displaced mapping is put back only if its key is vacant. While another login has the key, the
mapping is dropped and its session is not ended.
-/

namespace Axess

open Calls

variable {ι : Type}

/-- An end that a login still owes. A session with a key was displaced there, and may be put back
instead of being ended. -/
structure Debt (ι : Type) where
  who : ι
  key : Option SidKey
  session : SessionId
  deriving DecidableEq

structure OAuthRun (ι : Type) where
  map : SidState
  registry : Registry
  owner : SessionId → Option UserId
  taken : List (SidKey × SessionId)
  owed : List (Debt ι)

namespace OAuthRun

def empty : OAuthRun ι := ⟨.empty, fun _ => [], fun _ => none, [], []⟩

def Ended (s : OAuthRun ι) (session : SessionId) : Prop :=
  ∀ user, s.registry.holds user session = false

def Mapped (s : OAuthRun ι) (key : SidKey) (session : SessionId) : Prop :=
  ∃ stored, s.map.entries.lookup key = some stored ∧ stored.session = session

/-- What was mapped so far is owed its end. -/
abbrev aged (s : OAuthRun ι) (i : ι) (cutoff : Instant) (max : Nat) : OAuthRun ι :=
  let evicted := s.map.evictInsertedBefore cutoff max
  { s with
    map := evicted.2
    taken := s.taken ++ evicted.1.map fun p => (p.1, p.2.session)
    owed := s.owed ++ evicted.1.map fun p => ⟨i, none, p.2.session⟩ }

abbrev displaced (s : OAuthRun ι) (i : ι) (key : SidKey) (stored : StoredSid) : OAuthRun ι :=
  { s with
    map := (s.map.insert key stored).2
    taken := s.taken ++ (s.map.entries.lookup key).toList.map (key, ·.session)
    owed := s.owed ++ (s.map.entries.lookup key).toList.map fun old =>
      ⟨i, some key, old.session⟩ }

open OAuthCall in
def answer [DecidableEq ι] (i : ι) : Sem OAuthCall OAuthCall.Answer (OAuthRun ι)
  | clock, s, _, s' => s' = s
  | register user, s, (session : SessionId), s' => s.owner session = none ∧ s' = { s with
      registry := s.registry.register user session
      owner := Function.update s.owner session (some user) }
  | registerSubject issuer subject user session, s, _, s' =>
    s' = { s with map := s.map.registerSubject issuer subject user session }
  | sweepSubjectCandidates max, s, a, s' => a = (s.map.sweepSubjectCandidates max).1 ∧
      s' = { s with map := (s.map.sweepSubjectCandidates max).2 }
  | liveness user session, s, (a : Option SessionLiveness), s' =>
    (a = some .gone → s.registry.holds user session = false) ∧ s' = s
  | forgetSubject item, s, _, s' =>
    s' = { s with map := (s.map.forgetSubject item.1 item.2.1 item.2.2).2 }
  | evictInsertedBefore cutoff max, s, a, s' => a = (s.map.evictInsertedBefore cutoff max).1 ∧
      s' = s.aged i cutoff max
  | len, s, (a : Nat), s' => a = s.map.len ∧ s' = s
  | evictOldest max, s, a, s' => a = (s.map.evictOldest max).1 ∧
      s' = { s with map := (s.map.evictOldest max).2 }
  | insertDisplacing key subject user session insertedAt, s, a, s' =>
    a = (s.map.insertDisplacing key subject user session insertedAt).1 ∧ s' = { s with
      map := (s.map.insertDisplacing key subject user session insertedAt).2
      taken := s.taken ++
        (s.map.insertDisplacing key subject user session insertedAt).1.toList.map (key, ·.session)
      owed := s.owed ++ (s.map.insertDisplacing key subject user session insertedAt).1.toList.map
        fun displaced => ⟨i, some key, displaced.session⟩ }
  | emitAudit, s, _, s' => s' = s
  -- a refused login owes the end of its own session from here on
  | removeSession session, s, _, s' => s' = { s with
      map := (s.map.removeSession session).2
      owed := s.owed ++ [⟨i, none, session⟩] }
  | restoreIfVacant key displaced, s, a, s' => a = (s.map.restoreIfVacant key displaced).1 ∧
      s' = { s with
        map := (s.map.restoreIfVacant key displaced).2
        owed := s.owed.filter (· ≠ ⟨i, some key, displaced.session⟩) }
  | invalidateSession user session, s, (a : Except RevocationError Unit), s' => a = .ok () ∧
      s' = { s with registry := s.registry.invalidateSession user session }
  | awaitEnds, s, _, s' => s' = s

/-- Others may have ended sessions before the call. -/
def sem [DecidableEq ι] (i : ι) : Sem OAuthCall OAuthCall.Answer (OAuthRun ι) := fun e s a s' =>
  ∃ registry : Registry, (∀ user session, registry.holds user session = true →
    s.registry.holds user session = true) ∧ answer i e { s with registry := registry } a s'

open OAuthCall in
/-- A mapping is put back at a vacant key; a full map does not lose a mapping that was put back; and
a refused login is not abandoned before it has ended its own session. -/
def Careful : (e : OAuthCall) → OAuthRun ι → e.Answer → Prop
  | restoreIfVacant key displaced, s, _ =>
    s.map.entries.lookup key = none ∨ s.Ended displaced.session
  | evictOldest max, s, _ => ∀ p ∈ (s.map.evictOldest max).1, (p.1, p.2.session) ∈ s.taken →
    s.Ended p.2.session
  | awaitEnds, _, (a : Option Unit) => a = some ()
  | _, _, _ => True

def careful [DecidableEq ι] (i : ι) : Sem OAuthCall OAuthCall.Answer (OAuthRun ι) :=
  fun e s a s' => sem i e s a s' ∧ Careful e s a

variable {s s' s'' : OAuthRun ι} {i j : ι} {key : SidKey} {session : SessionId} {user : UserId}

def Sure (s : OAuthRun ι) (session : SessionId) : Prop :=
  s.Ended session ∨ ∃ d ∈ s.owed, d.key = none ∧ d.session = session

def Held (s : OAuthRun ι) (session : SessionId) : Prop :=
  (s.map.subjectOf.lookup session).isSome ∨ s.Sure session

def Covered (s : OAuthRun ι) (key : SidKey) (session : SessionId) : Prop :=
  s.Mapped key session ∨ s.Sure session ∨ ∃ d ∈ s.owed, d.key = some key ∧ d.session = session

structure Inv (s : OAuthRun ι) : Prop where
  sound : s.map.Sound
  registered : ∀ user session, s.registry.holds user session = true → s.owner session = some user
  recorded : ∀ session held, s.map.subjectOf.lookup session = some held →
    s.owner session = some held.user
  mapped : ∀ key stored, s.map.entries.lookup key = some stored →
    s.owner stored.session = some stored.user ∧ s.Held stored.session
  covered : ∀ t ∈ s.taken, (s.owner t.2).isSome ∧ s.Covered t.1 t.2

structure Keeps (i : ι) (s s' : OAuthRun ι) : Prop where
  owner : ∀ session user, s.owner session = some user → s'.owner session = some user
  ended : ∀ session, (s.owner session).isSome → s.Ended session → s'.Ended session
  held : ∀ session, (s.owner session).isSome → s.Held session → s'.Held session
  owed : ∀ d ∈ s'.owed, d.who ≠ i → d ∈ s.owed

def Guarantee (i : ι) (s s' : OAuthRun ι) : Prop := s.Inv → s'.Inv ∧ Keeps i s s'

theorem Keeps.refl (i : ι) (s : OAuthRun ι) : Keeps i s s :=
  ⟨fun _ _ h => h, fun _ _ h => h, fun _ _ h => h, fun _ h _ => h⟩

theorem Keeps.isSome (h : Keeps i s s') (hs : (s.owner session).isSome) :
    (s'.owner session).isSome := by
  obtain ⟨user, huser⟩ := Option.isSome_iff_exists.mp hs
  rw [h.owner session user huser]
  rfl

theorem Keeps.trans (h : Keeps i s s') (h' : Keeps i s' s'') : Keeps i s s'' where
  owner session user huser := h'.owner session user (h.owner session user huser)
  ended session hs hended := h'.ended session (h.isSome hs) (h.ended session hs hended)
  held session hs hheld := h'.held session (h.isSome hs) (h.held session hs hheld)
  owed d hd hwho := h.owed d (h'.owed d hd hwho) hwho

theorem inv_empty : (empty : OAuthRun ι).Inv where
  sound := ⟨SidState.indexed_empty, SidState.recorded_empty⟩
  registered _ _ h := by simp [empty, Registry.holds] at h
  recorded _ _ h := by simp [empty, SidState.empty] at h
  mapped _ _ h := by simp [empty, SidState.empty] at h
  covered _ h := by simp [empty] at h

/-! ## What a step can do -/

theorem Sure.mono (h : s.Sure session) (s' : OAuthRun ι)
    (hended : s.Ended session → s'.Ended session)
    (howed : ∀ d ∈ s.owed, d.key = none → d ∈ s'.owed) : s'.Sure session := by
  rcases h with hend | ⟨d, hd, hkey, hsession⟩
  · exact .inl (hended hend)
  · exact .inr ⟨d, howed d hd hkey, hkey, hsession⟩

theorem Ended.shrink {registry : Registry} (h : s.Ended session)
    (hsub : ∀ user session, registry.holds user session = true →
      s.registry.holds user session = true) :
    Ended { s with registry := registry } session := by
  intro user
  rw [Bool.eq_false_iff]
  intro hholds
  exact Bool.false_ne_true ((h user).symm.trans (hsub user session hholds))

theorem Inv.shrink (h : s.Inv) (i : ι) (registry : Registry)
    (hsub : ∀ user session, registry.holds user session = true →
      s.registry.holds user session = true) :
    Inv { s with registry := registry } ∧ Keeps i s { s with registry := registry } := by
  have hended (session : SessionId) (hend : s.Ended session) :
      Ended { s with registry := registry } session := hend.shrink hsub
  have hsure (session : SessionId) (hs : s.Sure session) :
      Sure { s with registry := registry } session := hs.mono _ (hended session) fun _ hd _ => hd
  have hheld (session : SessionId) (hs : s.Held session) :
      Held { s with registry := registry } session := hs.imp_right (hsure session)
  constructor
  · exact {
      sound := h.sound
      registered := fun user session hholds => h.registered user session (hsub user session hholds)
      recorded := h.recorded
      mapped := fun key stored hkey => (h.mapped key stored hkey).imp_right (hheld _)
      covered := fun t ht =>
        (h.covered t ht).imp_right fun hc => hc.imp_right (Or.imp_left (hsure _)) }
  · exact ⟨fun _ _ huser => huser, fun session _ => hended session, fun session _ => hheld session,
      fun _ hd _ => hd⟩

theorem Inv.register (h : s.Inv) (i : ι) (user : UserId) (hfresh : s.owner session = none) :
    Inv { s with
      registry := s.registry.register user session
      owner := Function.update s.owner session (some user) } ∧
    Keeps i s { s with
      registry := s.registry.register user session
      owner := Function.update s.owner session (some user) } := by
  set s' : OAuthRun ι := { s with
    registry := s.registry.register user session
    owner := Function.update s.owner session (some user) } with hs'
  -- what has an owner is not the new id
  have howner (other : SessionId) (user' : UserId) (ho : s.owner other = some user') :
      s'.owner other = some user' := by
    have hne : other ≠ session := by
      rintro rfl
      rw [hfresh] at ho
      cases ho
    exact (Function.update_of_ne hne _ _).trans ho
  have hended (other : SessionId) (ho : (s.owner other).isSome) (hend : s.Ended other) :
      s'.Ended other := by
    intro user'
    have hne : session ≠ other := by
      rintro rfl
      rw [hfresh] at ho
      cases ho
    simp [hs', hend user', hne]
  have hsure (other : SessionId) (ho : (s.owner other).isSome) (hs : s.Sure other) :
      s'.Sure other := hs.mono s' (hended other ho) fun _ hd _ => hd
  have hheld (other : SessionId) (ho : (s.owner other).isSome) (hs : s.Held other) :
      s'.Held other := hs.imp_right (hsure other ho)
  have hkeeps : Keeps i s s' := ⟨howner, hended, hheld, fun _ hd _ => hd⟩
  refine ⟨⟨h.sound, fun user' other hholds => ?_, fun other held hrecord =>
    howner other _ (h.recorded other held hrecord), fun key stored hkey => ?_, fun t ht => ?_⟩,
    hkeeps⟩
  · rw [hs', Registry.holds_register, Bool.or_eq_true] at hholds
    rcases hholds with hold | hnew
    · exact howner other user' (h.registered user' other hold)
    · simp only [Bool.and_eq_true, beq_iff_eq] at hnew
      rw [← hnew.1, ← hnew.2]
      exact Function.update_self ..
  · obtain ⟨ho, hk⟩ := h.mapped key stored hkey
    exact ⟨howner _ _ ho, hheld _ (by rw [ho]; rfl) hk⟩
  · obtain ⟨ho, hc⟩ := h.covered t ht
    exact ⟨hkeeps.isSome ho, hc.imp_right (Or.imp_left (hsure _ ho))⟩

theorem Inv.record (h : s.Inv) (i : ι) (issuer subject : String)
    (howner : s.owner session = some user) :
    Inv { s with map := s.map.registerSubject issuer subject user session } ∧
    Keeps i s { s with map := s.map.registerSubject issuer subject user session } ∧
    Held { s with map := s.map.registerSubject issuer subject user session } session := by
  have hreg := SidState.registeredAs_registerSubject s.map issuer subject user session
  have hown : ((s.map.registerSubject issuer subject user session).subjectOf.lookup
      session).isSome := by
    rw [hreg.lookup, if_pos rfl]
    rfl
  have hheld (other : SessionId) (hs : s.Held other) :
      Held { s with map := s.map.registerSubject issuer subject user session } other := by
    refine hs.imp_left fun hrecord => ?_
    show ((s.map.registerSubject issuer subject user session).subjectOf.lookup other).isSome
    rw [hreg.lookup]
    split
    · rfl
    · exact hrecord
  refine ⟨⟨⟨hreg.indexed h.sound.indexed, hreg.recorded h.sound.recorded⟩, h.registered,
    fun other held hrecord => ?_, fun key stored hkey => ?_, fun t ht => ?_⟩,
    ⟨fun _ _ huser => huser, fun _ _ hend => hend, fun other _ => hheld other, fun _ hd _ => hd⟩,
    .inl hown⟩
  · rw [hreg.lookup] at hrecord
    split at hrecord
    · next heq =>
      cases hrecord
      rw [heq]
      exact howner
    · exact h.recorded other held hrecord
  · rw [hreg.entries] at hkey
    exact (h.mapped key stored hkey).imp_right (hheld _)
  · refine (h.covered t ht).imp_right fun hc => hc.imp_left ?_
    rintro ⟨stored, hkey, hsession⟩
    exact ⟨stored, by rw [hreg.entries]; exact hkey, hsession⟩

/-- Mappings and records go. What had been taken out before, or is now, is bound to end, and so is
every session that is forgotten. -/
theorem Inv.drop (h : s.Inv) {m : SidState} {gone : SidKey → Prop} {forgotten : SessionId → Prop}
    (hd : s.map.Dropped m gone forgotten) (taken : List (SidKey × SessionId))
    (owed : List (Debt ι)) (howed : ∀ d ∈ owed, d.who = i)
    (hforgotten : ∀ session, forgotten session →
      Sure { s with owed := s.owed ++ owed } session)
    (hgone : ∀ key session, gone key → s.Mapped key session → (key, session) ∈ s.taken ++ taken →
      Sure { s with owed := s.owed ++ owed } session)
    (htaken : ∀ t ∈ taken, s.Mapped t.1 t.2) :
    Inv { s with map := m, taken := s.taken ++ taken, owed := s.owed ++ owed } ∧
    Keeps i s { s with map := m, taken := s.taken ++ taken, owed := s.owed ++ owed } := by
  set s' : OAuthRun ι := { s with map := m, taken := s.taken ++ taken, owed := s.owed ++ owed }
  have hsure (session : SessionId) (hs : s.Sure session) : s'.Sure session :=
    hs.mono s' id fun d hd _ => List.mem_append_left owed hd
  have hheld (session : SessionId) (hs : s.Held session) : s'.Held session := by
    by_cases hf : forgotten session
    · exact .inr (hforgotten session hf)
    · refine hs.imp (fun hrecord => ?_) (hsure session)
      show (m.subjectOf.lookup session).isSome
      rw [hd.kept session hf]
      exact hrecord
  -- a mapping that stays covers as before, and one that goes is sure to end
  have hmapped (key : SidKey) (session : SessionId) (hm : s.Mapped key session)
      (ht : (key, session) ∈ s.taken ++ taken) : s'.Covered key session := by
    by_cases hg : gone key
    · exact .inr (.inl (hgone key session hg hm ht))
    · obtain ⟨stored, hkey, hsession⟩ := hm
      exact .inl ⟨stored, (hd.mapped key hg).trans hkey, hsession⟩
  refine ⟨⟨hd.sound h.sound, h.registered, fun session held hrecord =>
    h.recorded session held (hd.lookup_subjectOf hrecord), fun key stored hkey =>
    (h.mapped key stored (hd.lookup hkey)).imp_right (hheld _), fun t ht => ?_⟩,
    ⟨fun _ _ huser => huser, fun _ _ hend => hend, fun session _ => hheld session, fun d hd hwho =>
      (List.mem_append.mp hd).resolve_right fun hnew => hwho (howed d hnew)⟩⟩
  rcases List.mem_append.mp ht with hold | hnew
  · refine (h.covered t hold).imp_right fun hc => ?_
    rcases hc with hm | hs | ⟨d, hd, hdebt⟩
    · exact hmapped t.1 t.2 hm ht
    · exact .inr (.inl (hsure _ hs))
    · exact .inr (.inr ⟨d, List.mem_append_left owed hd, hdebt⟩)
  · obtain ⟨stored, hkey, hsession⟩ := htaken t hnew
    refine ⟨?_, hmapped t.1 t.2 ⟨stored, hkey, hsession⟩ ht⟩
    show (s.owner t.2).isSome
    rw [← hsession, (h.mapped _ _ hkey).1]
    rfl

theorem Inv.insert (h : s.Inv) (i : ι) (key : SidKey) {stored : StoredSid}
    (howner : s.owner stored.session = some stored.user) (hheld : s.Held stored.session) :
    Inv (s.displaced i key stored) ∧ Keeps i s (s.displaced i key stored) := by
  set s' : OAuthRun ι := s.displaced i key stored with hs'
  have hsure (session : SessionId) (hs : s.Sure session) : s'.Sure session :=
    hs.mono s' id fun d hd _ => List.mem_append_left _ hd
  have hrecords (session : SessionId) :
      s'.map.subjectOf.lookup session = s.map.subjectOf.lookup session :=
    congrArg (AList.lookup session) SidState.subjectOf_insert
  have hkept (session : SessionId) (hs : s.Held session) : s'.Held session :=
    hs.imp (fun hrecord => by rw [hrecords]; exact hrecord) (hsure session)
  have hlookup (key' : SidKey) : s'.map.entries.lookup key' =
      if key' = key then some stored else s.map.entries.lookup key' :=
    SidState.lookup_entries_insert
  -- what was mapped at the key is a debt now
  have hmapped (key' : SidKey) (session : SessionId) (hm : s.Mapped key' session) :
      s'.Covered key' session := by
    obtain ⟨old, hold, rfl⟩ := hm
    by_cases heq : key' = key
    · subst heq
      refine .inr (.inr ⟨⟨i, some key', old.session⟩, List.mem_append_right _ ?_, rfl, rfl⟩)
      rw [hold]
      exact List.mem_singleton_self _
    · exact .inl ⟨old, by rw [hlookup, if_neg heq]; exact hold, rfl⟩
  refine ⟨⟨h.sound.insert key stored, h.registered, fun session held hrecord =>
    h.recorded session held (by rw [← hrecords]; exact hrecord), fun key' stored' hkey => ?_,
    fun t ht => ?_⟩, ⟨fun _ _ huser => huser, fun _ _ hend => hend, fun session _ => hkept session,
    fun d hd hwho => (List.mem_append.mp hd).resolve_right fun hnew => hwho ?_⟩⟩
  · rw [hlookup] at hkey
    split at hkey
    · cases hkey
      exact ⟨howner, hkept _ hheld⟩
    · exact (h.mapped key' stored' hkey).imp_right (hkept _)
  · rcases List.mem_append.mp ht with hold | hnew
    · refine (h.covered t hold).imp_right fun hc => ?_
      rcases hc with hm | hs | ⟨d, hd, hdebt⟩
      · exact hmapped t.1 t.2 hm
      · exact .inr (.inl (hsure _ hs))
      · exact .inr (.inr ⟨d, List.mem_append_left _ hd, hdebt⟩)
    · obtain ⟨old, hold, rfl⟩ := List.mem_map.mp hnew
      have hkey : s.map.entries.lookup key = some old := Option.mem_toList.mp hold
      refine ⟨?_, hmapped key old.session ⟨old, hkey, rfl⟩⟩
      show (s.owner old.session).isSome
      rw [(h.mapped _ _ hkey).1]
      rfl
  · obtain ⟨old, _, rfl⟩ := List.mem_map.mp hnew
    rfl

theorem Inv.settle [DecidableEq ι] (h : s.Inv) (i : ι)
    (hsettled : s.Mapped key session ∨ s.Sure session) :
    Inv { s with owed := s.owed.filter (· ≠ ⟨i, some key, session⟩) } ∧
    Keeps i s { s with owed := s.owed.filter (· ≠ ⟨i, some key, session⟩) } := by
  set s' : OAuthRun ι := { s with owed := s.owed.filter (· ≠ ⟨i, some key, session⟩) }
  have hmem (d : Debt ι) (hd : d ∈ s.owed) (hne : d ≠ ⟨i, some key, session⟩) : d ∈ s'.owed :=
    List.mem_filter.mpr ⟨hd, decide_eq_true hne⟩
  have hsure (other : SessionId) (hs : s.Sure other) : s'.Sure other :=
    hs.mono s' id fun d hd hkey => hmem d hd (by rintro rfl; cases hkey)
  have hheld (other : SessionId) (hs : s.Held other) : s'.Held other := hs.imp_right (hsure other)
  refine ⟨⟨h.sound, h.registered, h.recorded, fun key' stored hkey =>
    (h.mapped key' stored hkey).imp_right (hheld _), fun t ht => ?_⟩,
    ⟨fun _ _ huser => huser, fun _ _ hend => hend, fun other _ => hheld other,
      fun d hd _ => (List.mem_filter.mp hd).1⟩⟩
  refine (h.covered t ht).imp_right fun hc => ?_
  rcases hc with hm | hs | ⟨d, hd, hdkey, hdsession⟩
  · exact .inl hm
  · exact .inr (.inl (hsure _ hs))
  · by_cases heq : d = ⟨i, some key, session⟩
    · subst heq
      obtain rfl := Option.some.inj hdkey
      rw [← hdsession]
      exact hsettled.imp_right fun hs => .inl (hsure _ hs)
    · exact .inr (.inr ⟨d, hmem d hd heq, hdkey, hdsession⟩)

/-! ## The calls of one login -/

structure At (i : ι) (debts : List (Option SidKey × SessionId)) (s : OAuthRun ι) : Prop where
  inv : s.Inv
  owed : ∀ d ∈ s.owed, d.who = i → (d.key, d.session) ∈ debts

/-- What a login knows goes on holding, whoever makes the next step. -/
def Lasting (K : OAuthRun ι → Prop) : Prop := ∀ j s s', Keeps j s s' → K s → K s'

def Owned (items : List SubjectSession) (s : OAuthRun ι) : Prop :=
  ∀ item ∈ items, s.owner item.2.2 = some item.2.1

def AllEnded (items : List SubjectSession) (s : OAuthRun ι) : Prop :=
  Owned items s ∧ ∀ item ∈ items, s.Ended item.2.2

variable {debts : List (Option SidKey × SessionId)} {K : OAuthRun ι → Prop}
  {items : List SubjectSession} {item : SubjectSession}

theorem at_stable (hK : Lasting K) :
    Stable (Pool.others Guarantee i) fun s => At i debts s ∧ K s := by
  rintro s s' ⟨hat, hk⟩ ⟨j, hj, hG⟩
  obtain ⟨hinv, hkeeps⟩ := hG hat.inv
  refine ⟨⟨hinv, fun d hd hwho => hat.owed d (hkeeps.owed d hd ?_) hwho⟩, hK j s s' hkeeps hk⟩
  rw [hwho]
  exact Ne.symm hj

theorem Lasting.and {K' : OAuthRun ι → Prop} (h : Lasting K) (h' : Lasting K') :
    Lasting fun s => K s ∧ K' s :=
  fun j s s' hkeeps hk => ⟨h j s s' hkeeps hk.1, h' j s s' hkeeps hk.2⟩

theorem lasting_imp (p : Prop) (h : Lasting K) : Lasting fun s => p → K s :=
  fun j s s' hkeeps hk hp => h j s s' hkeeps (hk hp)

theorem lasting_owned (items : List SubjectSession) : Lasting (ι := ι) (Owned items) :=
  fun _ _ _ hkeeps h item hitem => hkeeps.owner _ _ (h item hitem)

theorem lasting_allEnded (items : List SubjectSession) : Lasting (ι := ι) (AllEnded items) := by
  refine fun j s s' hkeeps h => ⟨lasting_owned items j s s' hkeeps h.1, fun item hitem => ?_⟩
  exact hkeeps.ended _ (by rw [h.1 item hitem]; rfl) (h.2 item hitem)

theorem AllEnded.mono (h : AllEnded items s) {items' : List SubjectSession}
    (hsub : ∀ item ∈ items', item ∈ items) : AllEnded items' s :=
  ⟨fun item hitem => h.1 item (hsub item hitem), fun item hitem => h.2 item (hsub item hitem)⟩

theorem AllEnded.cons (h : AllEnded [item] s) (hrest : AllEnded items s) :
    AllEnded (item :: items) s := by
  constructor
  · intro x hx
    rcases List.mem_cons.mp hx with rfl | hx
    · exact h.1 x (List.mem_singleton_self x)
    · exact hrest.1 x hx
  · intro x hx
    rcases List.mem_cons.mp hx with rfl | hx
    · exact h.2 x (List.mem_singleton_self x)
    · exact hrest.2 x hx

theorem Inv.allEnded (h : s.Inv) (howner : s.owner item.2.2 = some item.2.1)
    (hnot : s.registry.holds item.2.1 item.2.2 = false) : AllEnded [item] s := by
  constructor
  · intro x hx
    rw [List.mem_singleton.mp hx]
    exact howner
  · intro x hx other
    rw [List.mem_singleton.mp hx, Bool.eq_false_iff]
    intro hholds
    obtain heq := Option.some.inj (howner.symm.trans (h.registered other _ hholds))
    rw [← heq, hnot] at hholds
    cases hholds

theorem Careful.shrink {e : OAuthCall} {a : e.Answer} (h : Careful e s a) {registry : Registry}
    (hended : ∀ session, s.Ended session → Ended { s with registry := registry } session) :
    Careful e { s with registry := registry } a := by
  cases e with
  | restoreIfVacant key displaced => exact h.imp_right (hended _)
  | evictOldest max => exact fun p hp ht => hended _ (h p hp ht)
  | _ => exact h

theorem At.drop (h : At i debts s) {m : SidState} {gone : SidKey → Prop}
    {forgotten : SessionId → Prop} (hd : s.map.Dropped m gone forgotten)
    (hforgotten : ∀ session, forgotten session → s.Ended session)
    (hgone : ∀ key session, gone key → s.Mapped key session → (key, session) ∈ s.taken →
      s.Ended session) :
    At i debts { s with map := m } ∧ Keeps i s { s with map := m } := by
  obtain ⟨hinv, hkeeps⟩ := h.inv.drop (i := i) hd [] [] nofun
    (fun session hf => .inl (hforgotten session hf))
    (fun key session hg hm ht => .inl (hgone key session hg hm (by rwa [List.append_nil] at ht)))
    nofun
  simp only [List.append_nil] at hinv hkeeps
  exact ⟨⟨hinv, h.owed⟩, hkeeps⟩

section

variable [DecidableEq ι]

theorem perform_safe {α : Type} {Q : α → OAuthRun ι → Prop} {e : OAuthCall}
    {f : e.Answer → OAuthProg α} (debts' : e.Answer → List (Option SidKey × SessionId))
    (K' : e.Answer → OAuthRun ι → Prop) (hK : Lasting K) (hs : At i debts s ∧ K s)
    (hstep : ∀ s a s', At i debts s → K s → answer i e s a s' → Careful e s a →
      At i (debts' a) s' ∧ Keeps i s s' ∧ K' a s')
    (hrest : ∀ a s, At i (debts' a) s ∧ K' a s →
      (f a).SafeAmong careful Guarantee i Q s) :
    (Prog.perform e >>= f).SafeAmong careful Guarantee i Q s := by
  refine Prog.Safe.perform_bind _ (at_stable hK) hs ?_
  rintro s a s' ⟨hat, hk⟩ ⟨⟨registry, hsub, hanswer⟩, hcareful⟩
  obtain ⟨hinv, hkeeps⟩ := hat.inv.shrink i registry hsub
  obtain ⟨hat', hkeeps', hk'⟩ := hstep { s with registry := registry } a s' ⟨hinv, hat.owed⟩
    (hK i _ _ hkeeps hk) hanswer (hcareful.shrink fun _ hend => hend.shrink hsub)
  exact ⟨fun _ => ⟨hat'.inv, hkeeps.trans hkeeps'⟩, hrest a s' ⟨hat', hk'⟩⟩

theorem ret_safe {α : Type} {Q : α → OAuthRun ι → Prop} {a : α} (hK : Lasting K)
    (hs : At i debts s ∧ K s) (hQ : ∀ s, At i debts s ∧ K s → Q a s) :
    (Prog.ret a : OAuthProg α).SafeAmong careful Guarantee i Q s :=
  Prog.Safe.ret _ (at_stable hK) hs hQ

theorem forgetWhere_safe {β : Type} {ended : β → Bool} (answers : List (SubjectSession × β))
    (hK : Lasting K) (hs : At i debts s ∧ K s ∧
      AllEnded ((answers.filter fun p => ended p.2).map (·.1)) s) :
    (forgetWhere ended answers).SafeAmong careful Guarantee i
      (fun _ s => At i debts s ∧ K s) s := by
  induction answers generalizing s with
  | nil => exact ret_safe hK ⟨hs.1, hs.2.1⟩ fun _ h => h
  | cons head answers ih =>
    obtain ⟨item, answer⟩ := head
    unfold forgetWhere
    rw [List.filter_cons] at hs
    by_cases hend : ended answer = true
    · rw [if_pos hend] at hs ⊢
      refine perform_safe _ _ (hK.and (lasting_allEnded _)) hs ?_ fun _ s h => ih h
      rintro s _ s' hat ⟨hk, hall⟩ rfl -
      obtain ⟨hat', hkeeps⟩ := hat.drop
        (SidState.dropped_forgetSubject s.map item.1 item.2.1 item.2.2)
        (fun session hf => by rw [hf.1]; exact hall.2 item List.mem_cons_self) fun _ _ hg => hg.elim
      exact ⟨hat', hkeeps, hK i _ _ hkeeps hk,
        (lasting_allEnded _ i _ _ hkeeps hall).mono fun x hx => List.mem_cons_of_mem _ hx⟩
    · rw [if_neg hend] at hs ⊢
      exact ih hs

theorem livenessOf_safe (items : List SubjectSession) (hK : Lasting K)
    (hs : At i debts s ∧ K s ∧ Owned items s) :
    (livenessOf items).SafeAmong careful Guarantee i
      (fun r s => At i debts s ∧ K s ∧ ∀ answers, r = some answers →
        AllEnded ((answers.filter fun p => p.2 == .gone).map (·.1)) s) s := by
  induction items generalizing s K with
  | nil =>
    refine ret_safe hK ⟨hs.1, hs.2.1⟩ fun s h => ⟨h.1, h.2, ?_⟩
    rintro answers ⟨⟩
    exact ⟨nofun, nofun⟩
  | cons item items ih =>
    refine perform_safe (fun _ => debts)
      (fun (a : Option SessionLiveness) s => K s ∧ (a = some .gone → AllEnded [item] s) ∧
        Owned items s) (hK.and (lasting_owned _)) hs ?_ fun a s h => ?_
    · rintro s a s' hat ⟨hk, howned⟩ ⟨hgone, rfl⟩ -
      exact ⟨hat, .refl i _, hk,
        fun ha => hat.inv.allEnded (howned item List.mem_cons_self) (hgone ha),
        fun x hx => howned x (List.mem_cons_of_mem _ hx)⟩
    · have hfirst : Lasting (ι := ι) fun s => K s ∧ (a = some .gone → AllEnded [item] s) :=
        hK.and (lasting_imp _ (lasting_allEnded _))
      cases a with
      | none =>
        refine ret_safe hfirst ⟨h.1, h.2.1, h.2.2.1⟩ fun s h => ⟨h.1, h.2.1, nofun⟩
      | some answer =>
        refine (ih hfirst ⟨h.1, ⟨h.2.1, h.2.2.1⟩, h.2.2.2⟩).bind fun r s hr => ?_
        cases r with
        | none => exact ret_safe hK ⟨hr.1, hr.2.1.1⟩ fun s h => ⟨h.1, h.2, nofun⟩
        | some answers =>
          refine ret_safe (hK.and (lasting_allEnded
            ((((item, answer) :: answers).filter fun p => p.2 == .gone).map (·.1))))
            ⟨hr.1, hr.2.1.1, ?_⟩ fun s h => ⟨h.1, h.2.1, ?_⟩
          · have hrest := hr.2.2 answers rfl
            rw [List.filter_cons]
            split
            · next hgone => exact (hr.2.1.2 (congrArg some (beq_iff_eq.mp hgone))).cons hrest
            · exact hrest
          · rintro _ ⟨⟩
            exact h.2.2

theorem forgetGoneSubjectSessions_safe (items : List SubjectSession) (hK : Lasting K)
    (hs : At i debts s ∧ K s ∧ Owned items s) :
    (forgetGoneSubjectSessions items).SafeAmong careful Guarantee i
      (fun _ s => At i debts s ∧ K s) s := by
  refine (livenessOf_safe items hK hs).bind fun r s hr => ?_
  cases r with
  | none => exact ret_safe hK ⟨hr.1, hr.2.1⟩ fun _ h => h
  | some answers =>
    refine (forgetWhere_safe answers hK ⟨hr.1, hr.2.1, hr.2.2 answers rfl⟩).bind fun _ s h => ?_
    exact ret_safe hK h fun _ h => h

theorem sweepSubjectRegistry_safe (hK : Lasting K) (hs : At i debts s ∧ K s) :
    sweepSubjectRegistry.SafeAmong careful Guarantee i
      (fun _ s => At i debts s ∧ K s) s := by
  refine perform_safe _ _ hK hs ?_ fun items s h => forgetGoneSubjectSessions_safe items hK h
  rintro s items s' hat hk ⟨rfl, rfl⟩ -
  obtain ⟨queue, hqueue⟩ := SidState.sweepFrom_eq (min sweepBatch s.map.subjectOrder.length) [] s.map
  have hmap : (s.map.sweepSubjectCandidates sweepBatch).2 = { s.map with subjectOrder := queue } :=
    hqueue
  rw [hmap]
  obtain ⟨hat', hkeeps⟩ := hat.drop (SidState.dropped_requeue s.map queue) (fun _ hf => hf.elim)
    fun _ _ hg => hg.elim
  refine ⟨hat', hkeeps, hK i _ _ hkeeps hk, fun item hitem => ?_⟩
  -- a candidate is recorded, and its record names its owner
  have hrecorded := SidState.recorded_of_mem_sweepFrom hitem
  unfold SidState.recorded at hrecorded
  rw [Option.any_eq_true] at hrecorded
  obtain ⟨held, hheld, hmatch⟩ := hrecorded
  rw [← (of_decide_eq_true hmatch).2]
  exact hat.inv.recorded _ held hheld

theorem invalidateAll_safe (items : List SubjectSession) (hK : Lasting K)
    (hs : At i debts s ∧ K s ∧ Owned items s) :
    (invalidateAll items).SafeAmong careful Guarantee i
      (fun outcomes s => At i debts s ∧ (K s ∧ AllEnded items s) ∧
        ∀ p ∈ outcomes, p.1 ∈ items) s := by
  induction items generalizing s K with
  | nil =>
    exact ret_safe hK ⟨hs.1, hs.2.1⟩ fun s h => ⟨h.1, ⟨h.2, nofun, nofun⟩, nofun⟩
  | cons item items ih =>
    have hK' : Lasting (ι := ι) fun s => K s ∧ AllEnded [item] s := hK.and (lasting_allEnded _)
    refine perform_safe (fun _ => debts)
      (fun _ s => (K s ∧ AllEnded [item] s) ∧ Owned items s) (hK.and (lasting_owned _)) hs ?_
      fun outcome s h => ?_
    · rintro s _ s' hat ⟨hk, howned⟩ ⟨-, rfl⟩ -
      obtain ⟨hinv, hkeeps⟩ := hat.inv.shrink i
        (s.registry.invalidateSession item.2.1 item.2.2) (fun user session hholds => by
          rw [Registry.holds_invalidateSession, Bool.and_eq_true] at hholds
          exact hholds.1)
      have howner := howned item List.mem_cons_self
      refine ⟨⟨hinv, hat.owed⟩, hkeeps, ⟨hK i _ _ hkeeps hk, hinv.allEnded howner ?_⟩,
        fun x hx => howned x (List.mem_cons_of_mem _ hx)⟩
      simp
    · refine (ih hK' h).bind fun outcomes s hr => ?_
      refine ret_safe (hK.and (lasting_allEnded (item :: items)))
        ⟨hr.1, hr.2.1.1.1, hr.2.1.1.2.cons hr.2.1.2⟩ fun s h => ⟨h.1, h.2, ?_⟩
      intro p hp
      rcases List.mem_cons.mp hp with rfl | hp
      · exact List.mem_cons_self
      · exact List.mem_cons_of_mem _ (hr.2.2 p hp)

theorem endSessions_safe (items : List SubjectSession) (hK : Lasting K)
    (hs : At i debts s ∧ K s ∧ Owned items s) :
    (endSessions items).SafeAmong careful Guarantee i
      (fun _ s => At i debts s ∧ K s ∧ AllEnded items s) s := by
  refine (invalidateAll_safe items hK hs).bind fun outcomes s h => ?_
  refine forgetWhere_safe outcomes (hK.and (lasting_allEnded items)) ⟨h.1, h.2.1, ?_⟩
  refine h.2.1.2.mono fun item hitem => ?_
  obtain ⟨p, hp, rfl⟩ := List.mem_map.mp hitem
  exact h.2.2 p (List.mem_filter.mp hp).1

theorem evictForCapacity_safe (capacity : Nat) (hK : Lasting K) (hs : At i debts s ∧ K s) :
    (evictForCapacity capacity).SafeAmong careful Guarantee i
      (fun _ s => At i debts s ∧ K s) s := by
  refine perform_safe (fun _ => debts) (fun _ => K) hK hs ?_ fun size s h => ?_
  · rintro s a s' hat hk ⟨-, rfl⟩ -
    exact ⟨hat, .refl i _, hk⟩
  · split
    · refine perform_safe _ _ hK h ?_ fun evicted s h =>
        forgetGoneSubjectSessions_safe (sessionsOf evicted) hK h
      rintro s evicted s' hat hk ⟨rfl, rfl⟩ hcareful
      have hspec := SidState.evictFrom_spec (fun _ => true) s.map.order.length evictBatch
        hat.inv.sound.indexed
      obtain ⟨hat', hkeeps⟩ := hat.drop hspec.2 (fun _ hf => hf.elim) (by
        rintro key session ⟨stored, hmem⟩ ⟨stored', hkey, rfl⟩ ht
        have hstored := (hspec.1 _ hmem).1
        obtain rfl := Option.some.inj (hstored.symm.trans hkey)
        exact hcareful _ hmem ht)
      refine ⟨hat', hkeeps, hK i _ _ hkeeps hk, fun item hitem => ?_⟩
      obtain ⟨p, hp, rfl⟩ := List.mem_map.mp hitem
      exact (hat.inv.mapped p.1 p.2 (hspec.1 p hp).1).1
    · exact ret_safe hK h fun _ h => h

end

/-! ## The login -/

def debtsOf (pending : PendingEnds) : List (Option SidKey × SessionId) :=
  pending.aged.map (fun item => (none, item.2.2)) ++
    pending.displaced.toList.map fun p => (some p.1, p.2.session)

structure Pending (user : UserId) (session : SessionId) (pending : PendingEnds) (s : OAuthRun ι) :
    Prop where
  owner : s.owner session = some user
  owned : Owned pending.owed s
  held : ∀ p ∈ pending.displaced, s.Held p.2.session

theorem lasting_pending (user : UserId) (session : SessionId) (pending : PendingEnds) :
    Lasting (ι := ι) (Pending user session pending) := by
  refine fun j s s' hkeeps h => ⟨hkeeps.owner _ _ h.owner, lasting_owned _ j s s' hkeeps h.owned,
    fun p hp => hkeeps.held _ ?_ (h.held p hp)⟩
  have hmem : (p.1.1, p.2.user, p.2.session) ∈ pending.owed :=
    List.mem_append_right _ (List.mem_map.mpr ⟨p, Option.mem_toList.mpr hp, rfl⟩)
  rw [h.owned _ hmem]
  rfl

/-- The session of the login is its user's, and it can be put back if another login displaces it. -/
def Mine (user : UserId) (session : SessionId) (s : OAuthRun ι) : Prop :=
  s.owner session = some user ∧ s.Held session

theorem lasting_mine (user : UserId) (session : SessionId) :
    Lasting (ι := ι) (Mine user session) :=
  fun _ _ _ hkeeps h => ⟨hkeeps.owner _ _ h.1, hkeeps.held _ (by rw [h.1]; rfl) h.2⟩

theorem Mine.pending (h : Mine user session s) : Pending user session ⟨[], none⟩ s :=
  ⟨h.1, nofun, nofun⟩

def Settled (i : ι) (s : OAuthRun ι) : Prop := ∀ d ∈ s.owed, d.who = i → s.Ended d.session

theorem At.settled (h : At i debts s) (hall : ∀ p ∈ debts, s.Ended p.2) : Settled i s :=
  fun d hd hwho => hall _ (h.owed d hd hwho)

theorem AllEnded.debtsOf {pending : PendingEnds} (h : AllEnded pending.owed s) :
    ∀ p ∈ OAuthRun.debtsOf pending, s.Ended p.2 := by
  intro p hp
  rcases List.mem_append.mp hp with haged | hdisplaced
  · obtain ⟨item, hitem, rfl⟩ := List.mem_map.mp haged
    exact h.2 item (List.mem_append_left _ hitem)
  · obtain ⟨q, hq, rfl⟩ := List.mem_map.mp hdisplaced
    exact h.2 (q.1.1, q.2.user, q.2.session) (List.mem_append_right _ (List.mem_map.mpr ⟨q, hq, rfl⟩))

theorem At.age (h : At i [] s) (cutoff : Instant) (max : Nat) :
    At i (debtsOf ⟨sessionsOf (s.map.evictInsertedBefore cutoff max).1, none⟩) (s.aged i cutoff max) ∧
    Keeps i s (s.aged i cutoff max) ∧
    Owned (sessionsOf (s.map.evictInsertedBefore cutoff max).1) s := by
  have hspec := SidState.evictFrom_spec (· < cutoff) s.map.order.length max h.inv.sound.indexed
  set evicted := (s.map.evictInsertedBefore cutoff max).1
  have hmapped : ∀ p ∈ evicted, s.map.entries.lookup p.1 = some p.2 := fun p hp => (hspec.1 p hp).1
  obtain ⟨hinv, hkeeps⟩ := h.inv.drop (i := i) hspec.2
    (evicted.map fun p => (p.1, p.2.session)) (evicted.map fun p => ⟨i, none, p.2.session⟩)
    (fun d hd => by obtain ⟨p, _, rfl⟩ := List.mem_map.mp hd; rfl) (fun _ hf => hf.elim)
    (by
      rintro key session ⟨stored, hmem⟩ ⟨stored', hkey, rfl⟩ -
      obtain rfl := Option.some.inj ((hmapped _ hmem).symm.trans hkey)
      exact .inr ⟨⟨i, none, stored.session⟩,
        List.mem_append_right _ (List.mem_map.mpr ⟨_, hmem, rfl⟩), rfl, rfl⟩)
    (by
      intro t ht
      obtain ⟨p, hp, rfl⟩ := List.mem_map.mp ht
      exact ⟨p.2, hmapped p hp, rfl⟩)
  refine ⟨⟨hinv, fun d hd hwho => ?_⟩, hkeeps, fun item hitem => ?_⟩
  · rcases List.mem_append.mp hd with hold | hnew
    · exact absurd (h.owed d hold hwho) List.not_mem_nil
    · obtain ⟨p, hp, rfl⟩ := List.mem_map.mp hnew
      exact List.mem_append_left _ (List.mem_map.mpr
        ⟨(p.1.1, p.2.user, p.2.session), List.mem_map.mpr ⟨p, hp, rfl⟩, rfl⟩)
  · obtain ⟨p, hp, rfl⟩ := List.mem_map.mp hitem
    exact (h.inv.mapped p.1 p.2 (hmapped p hp)).1

theorem At.displace {aged : List SubjectSession} (h : At i (debtsOf ⟨aged, none⟩) s) (key : SidKey)
    (stored : StoredSid) (hm : Mine stored.user stored.session s) (howned : Owned aged s) :
    At i (debtsOf ⟨aged, (s.map.entries.lookup key).map (key, ·)⟩) (s.displaced i key stored) ∧
    Keeps i s (s.displaced i key stored) ∧
    Pending stored.user stored.session ⟨aged, (s.map.entries.lookup key).map (key, ·)⟩ s := by
  obtain ⟨hinv, hkeeps⟩ := h.inv.insert i key hm.1 hm.2
  refine ⟨⟨hinv, fun d hd hwho => ?_⟩, hkeeps, hm.1, fun item hitem => ?_, fun p hp => ?_⟩
  · rcases List.mem_append.mp hd with hold | hnew
    · have haged := h.owed d hold hwho
      rw [debtsOf, Option.toList_none, List.map_nil, List.append_nil] at haged
      exact List.mem_append_left _ haged
    · obtain ⟨old, hold, rfl⟩ := List.mem_map.mp hnew
      refine List.mem_append_right _ (List.mem_map.mpr ⟨(key, old), ?_, rfl⟩)
      rw [Option.mem_toList.mp hold]
      exact List.mem_singleton_self _
  · rcases List.mem_append.mp hitem with haged | hold
    · exact howned item haged
    · obtain ⟨p, hp, rfl⟩ := List.mem_map.mp hold
      obtain ⟨old, hkey, rfl⟩ := Option.map_eq_some_iff.mp (Option.mem_toList.mp hp)
      exact (h.inv.mapped key old hkey).1
  · obtain ⟨old, hkey, rfl⟩ := Option.map_eq_some_iff.mp hp
    exact (h.inv.mapped key old hkey).2

theorem At.removeOwn (h : At i debts s) (session : SessionId) :
    At i (debts ++ [(none, session)]) { s with
      map := (s.map.removeSession session).2
      owed := s.owed ++ [⟨i, none, session⟩] } ∧
    Keeps i s { s with
      map := (s.map.removeSession session).2
      owed := s.owed ++ [⟨i, none, session⟩] } := by
  have hsure : Sure { s with owed := s.owed ++ [⟨i, none, session⟩] } session :=
    .inr ⟨⟨i, none, session⟩, List.mem_append_right _ (List.mem_singleton_self _), rfl, rfl⟩
  obtain ⟨hinv, hkeeps⟩ := h.inv.drop (i := i)
    (SidState.dropped_removeSession h.inv.sound.indexed session) [] [⟨i, none, session⟩]
    (fun d hd => by rw [List.mem_singleton.mp hd]) (fun other hf => by rw [hf]; exact hsure)
    (by
      rintro key other ⟨stored, hkey, rfl⟩ ⟨stored', hkey', rfl⟩ -
      obtain rfl := Option.some.inj (hkey.symm.trans hkey')
      exact hsure)
    nofun
  simp only [List.append_nil] at hinv hkeeps
  refine ⟨⟨hinv, fun d hd hwho => ?_⟩, hkeeps⟩
  rcases List.mem_append.mp hd with hold | hnew
  · exact List.mem_append_left _ (h.owed d hold hwho)
  · rw [List.mem_singleton.mp hnew]
    exact List.mem_append_right _ (List.mem_singleton_self _)

theorem Inv.restore (h : s.Inv) (i : ι) {displaced : StoredSid}
    (howner : s.owner displaced.session = some displaced.user) (hheld : s.Held displaced.session)
    (hvacant : s.map.entries.lookup key = none ∨ s.Ended displaced.session) :
    Inv { s with map := (s.map.restoreIfVacant key displaced).2 } ∧
    Keeps i s { s with map := (s.map.restoreIfVacant key displaced).2 } ∧
    (Mapped { s with map := (s.map.restoreIfVacant key displaced).2 } key displaced.session ∨
      Sure { s with map := (s.map.restoreIfVacant key displaced).2 } displaced.session) := by
  unfold SidState.restoreIfVacant
  split
  · next hnot =>
    refine ⟨h, .refl i s, .inr ?_⟩
    rcases hvacant with hnone | hend
    · rw [hnone] at hnot
      rcases hnot with hsome | hunrecorded
      · cases hsome
      · refine hheld.resolve_left fun hrecord => ?_
        rw [Option.isNone_iff_eq_none.mp hunrecorded] at hrecord
        cases hrecord
    · exact .inl hend
  · next hcan =>
    rw [not_or, Bool.not_eq_true, Option.isSome_eq_false_iff, Option.isNone_iff_eq_none] at hcan
    obtain ⟨hinv, hkeeps⟩ := h.insert i key howner hheld
    simp only [OAuthRun.displaced, hcan.1, Option.toList_none, List.map_nil, List.append_nil]
      at hinv hkeeps
    refine ⟨hinv, hkeeps, .inl ⟨displaced, ?_, rfl⟩⟩
    exact SidState.lookup_entries_insert.trans (if_pos rfl)

section

variable [DecidableEq ι]

theorem At.restore {aged : List SubjectSession} {displaced : StoredSid}
    (h : At i (debtsOf ⟨aged, some (key, displaced)⟩ ++ [(none, session)]) s)
    (hp : Pending user session ⟨aged, some (key, displaced)⟩ s)
    (hvacant : s.map.entries.lookup key = none ∨ s.Ended displaced.session) :
    At i (debtsOf ⟨aged, none⟩ ++ [(none, session)]) { s with
      map := (s.map.restoreIfVacant key displaced).2
      owed := s.owed.filter (· ≠ ⟨i, some key, displaced.session⟩) } ∧
    Keeps i s { s with
      map := (s.map.restoreIfVacant key displaced).2
      owed := s.owed.filter (· ≠ ⟨i, some key, displaced.session⟩) } := by
  have howner : s.owner displaced.session = some displaced.user :=
    hp.owned (key.1, displaced.user, displaced.session)
      (List.mem_append_right _ (List.mem_singleton_self _))
  obtain ⟨hinv, hkeeps, hback⟩ := h.inv.restore i howner (hp.held _ rfl) hvacant
  obtain ⟨hinv', hkeeps'⟩ := hinv.settle i hback
  refine ⟨⟨hinv', fun d hd hwho => ?_⟩, hkeeps.trans hkeeps'⟩
  obtain ⟨hold, hne⟩ := List.mem_filter.mp hd
  have hdebt := h.owed d hold hwho
  simp only [debtsOf, Option.toList_some, Option.toList_none, List.map_cons, List.map_nil,
    List.append_nil, List.append_assoc, List.mem_append, List.mem_cons, List.not_mem_nil,
    or_false] at hdebt ⊢
  -- the debt that is left is not the displaced one
  refine hdebt.imp_right fun hrest => hrest.resolve_left fun heq => ?_
  obtain ⟨who, dkey, dsession⟩ := d
  obtain ⟨rfl, rfl⟩ := Prod.mk.inj heq
  exact of_decide_eq_true hne (by rw [← hwho])

theorem maintainOidcSidMap_safe (capacity : Nat) (login : OAuthLogin) {session : SessionId}
    (now : Instant) (hs : At i [] s ∧ s.owner session = some login.user) :
    (maintainOidcSidMap capacity login session now).SafeAmong careful Guarantee i
      (fun r s => ∃ pending, (r = .error pending ∨ r = .ok pending) ∧
        At i (debtsOf pending) s ∧ Pending login.user session pending s) s := by
  have howner : Lasting (ι := ι) fun s => s.owner session = some login.user :=
    fun _ _ _ hkeeps h => hkeeps.owner _ _ h
  have hmine := lasting_mine (ι := ι) login.user session
  have hnone := lasting_pending (ι := ι) login.user session ⟨[], none⟩
  refine perform_safe (fun _ => []) (fun _ => Mine login.user session) howner hs ?_ fun _ s h => ?_
  · rintro s _ s' hat ho rfl -
    obtain ⟨hinv, hkeeps, hheld⟩ := hat.inv.record i login.issuer login.subject ho
    exact ⟨⟨hinv, hat.owed⟩, hkeeps, ho, hheld⟩
  refine (sweepSubjectRegistry_safe hmine h).bind fun r s h => ?_
  cases r with
  | none => exact ret_safe hnone ⟨h.1, h.2.pending⟩ fun s h => ⟨_, .inl rfl, h⟩
  | some =>
    cases hkey : login.sidKey with
    | none => exact ret_safe hnone ⟨h.1, h.2.pending⟩ fun s h => ⟨_, .inr rfl, h⟩
    | some key =>
      refine perform_safe (fun aged => debtsOf ⟨sessionsOf aged, none⟩)
        (fun aged s => Mine login.user session s ∧ Owned (sessionsOf aged) s) hmine h ?_
        fun aged s h => ?_
      · rintro s aged s' hat hm ⟨rfl, rfl⟩ -
        obtain ⟨hat', hkeeps, howned⟩ := hat.age (now - sidMapTtl) pruneBatch
        exact ⟨hat', hkeeps, hmine i _ _ hkeeps hm, howned⟩
      refine (evictForCapacity_safe capacity (hmine.and (lasting_owned _)) h).bind fun r s h => ?_
      cases r with
      | none =>
        refine ret_safe (lasting_pending login.user session ⟨sessionsOf aged, none⟩) ⟨h.1, ?_⟩
          fun s h => ⟨_, .inl rfl, h⟩
        refine ⟨h.2.1.1, ?_, nofun⟩
        unfold PendingEnds.owed
        simpa [sessionsOf] using h.2.2
      | some =>
        refine perform_safe (fun displaced => debtsOf ⟨sessionsOf aged, displaced.map (key, ·)⟩)
          (fun displaced => Pending login.user session ⟨sessionsOf aged, displaced.map (key, ·)⟩)
          (hmine.and (lasting_owned _)) h ?_ fun displaced s h =>
            ret_safe (lasting_pending _ _ _) h fun s h => ⟨_, .inr rfl, h⟩
        rintro s _ s' hat ⟨hm, howned⟩ ⟨rfl, rfl⟩ -
        obtain ⟨hat', hkeeps, hp⟩ := hat.displace key ⟨login.subject, login.user, session, now⟩ hm
          howned
        exact ⟨hat', hkeeps, lasting_pending _ _ _ i _ _ hkeeps hp⟩

theorem refuse_safe (pending : PendingEnds)
    (hs : At i (debtsOf pending ++ [(none, session)]) s ∧ Pending user session pending s) :
    pending.refuse.SafeAmong careful Guarantee i
      (fun _ s => At i (debtsOf ⟨pending.aged, none⟩ ++ [(none, session)]) s ∧
        s.owner session = some user ∧ AllEnded pending.aged s) s := by
  have howner : Lasting (ι := ι) fun s => s.owner session = some user :=
    fun _ _ _ hkeeps h => hkeeps.owner _ _ h
  have haged (s : OAuthRun ι) (hp : Pending user session pending s) : Owned pending.aged s :=
    fun item hitem => hp.owned item (List.mem_append_left _ hitem)
  obtain ⟨aged, displaced⟩ := pending
  cases displaced with
  | none => exact endSessions_safe aged howner ⟨hs.1, hs.2.owner, haged s hs.2⟩
  | some p =>
    refine perform_safe (fun _ => debtsOf ⟨aged, none⟩ ++ [(none, session)])
      (fun _ s => s.owner session = some user ∧ Owned aged s) (lasting_pending _ _ _) hs ?_
      fun _ s h => endSessions_safe aged howner h
    rintro s _ s' hat hp ⟨-, rfl⟩ hvacant
    obtain ⟨hat', hkeeps⟩ := hat.restore hp hvacant
    exact ⟨hat', hkeeps, hp.owner, haged s hp⟩

theorem settle_safe {α : Type} {r : α} {pending : PendingEnds}
    (hs : At i (debtsOf pending) s ∧ Pending user session pending s) :
    (do let () ← endSessions pending.owed; pure r : OAuthProg α).SafeAmong careful Guarantee i
      (fun _ => Settled i) s := by
  have hends := endSessions_safe pending.owed (lasting_pending user session pending)
    ⟨hs.1, hs.2, hs.2.owned⟩
  refine hends.bind fun _ s h => ?_
  exact ret_safe ((lasting_pending _ _ _).and (lasting_allEnded _)) h fun s h =>
    h.1.settled h.2.2.debtsOf

theorem refuseOauthLogin_safe (login : OAuthLogin) (pending : PendingEnds)
    (hs : At i (debtsOf pending) s ∧ Pending login.user session pending s) :
    (refuseOauthLogin login session pending).SafeAmong careful Guarantee i
      (fun _ => Settled i) s := by
  have hp := lasting_pending (ι := ι) login.user session pending
  refine perform_safe (fun _ => debtsOf pending ++ [(none, session)])
    (fun _ => Pending login.user session pending) hp hs ?_ fun _ s h => ?_
  · rintro s _ s' hat hk rfl -
    obtain ⟨hat', hkeeps⟩ := hat.removeOwn session
    exact ⟨hat', hkeeps, hp i _ _ hkeeps hk⟩
  refine (refuse_safe pending h).bind fun _ s h => ?_
  set debts := debtsOf ⟨pending.aged, none⟩ ++ [(none, session)]
  have howner : Lasting (ι := ι) fun s => s.owner session = some login.user :=
    fun _ _ _ hkeeps h => hkeeps.owner _ _ h
  have hK := howner.and (lasting_allEnded pending.aged)
  refine perform_safe (fun _ => debts) (fun (a : Option Unit) s => a = some () ∧
    s.owner session = some login.user ∧ AllEnded pending.aged s) hK h ?_ fun a s h => ?_
  · rintro s a s' hat hk rfl ha
    exact ⟨hat, .refl i _, ha, hk⟩
  obtain ⟨hat, rfl, hk⟩ := h
  have hown : Lasting (ι := ι) fun s => AllEnded pending.aged s ∧
      AllEnded [(login.issuer, login.user, session)] s :=
    (lasting_allEnded _).and (lasting_allEnded _)
  refine perform_safe (fun _ => debts) (fun _ s => AllEnded pending.aged s ∧
    AllEnded [(login.issuer, login.user, session)] s) hK ⟨hat, hk⟩ ?_ fun _ s h =>
      ret_safe hown h fun s h => h.1.settled fun p hp => ?_
  · rintro s _ s' hat ⟨ho, haged⟩ ⟨-, rfl⟩ -
    obtain ⟨hinv, hkeeps⟩ := hat.inv.shrink i (s.registry.invalidateSession login.user session)
      (fun user other hholds => by
        rw [Registry.holds_invalidateSession, Bool.and_eq_true] at hholds
        exact hholds.1)
    refine ⟨⟨hinv, hat.owed⟩, hkeeps, lasting_allEnded _ i _ _ hkeeps haged, ?_⟩
    have hnot : (s.registry.invalidateSession login.user session).holds login.user session = false := by
      simp
    exact Inv.allEnded hinv ho hnot
  · rcases List.mem_append.mp hp with haged | hmine
    · rw [debtsOf, Option.toList_none, List.map_nil, List.append_nil] at haged
      obtain ⟨item, hitem, rfl⟩ := List.mem_map.mp haged
      exact h.2.1.2 item hitem
    · rw [List.mem_singleton.mp hmine]
      exact h.2.2.2 _ (List.mem_singleton_self _)

theorem completeOauthLogin_safe (capacity : Nat) (login : OAuthLogin) (hs : At i [] s) :
    (completeOauthLogin capacity login).SafeAmong careful Guarantee i
      (fun _ => Settled i) s := by
  have htrue : Lasting (ι := ι) fun _ => True := fun _ _ _ _ _ => trivial
  refine perform_safe (fun _ => []) (fun _ _ => True) htrue ⟨hs, trivial⟩ ?_ fun now s h => ?_
  · rintro s _ s' hat - rfl -
    exact ⟨hat, .refl i _, trivial⟩
  refine perform_safe (fun _ => []) (fun session s => s.owner session = some login.user) htrue h ?_
    fun session s h => ?_
  · rintro s session s' hat - ⟨hfresh, rfl⟩ -
    obtain ⟨hinv, hkeeps⟩ := hat.inv.register i login.user hfresh
    exact ⟨⟨hinv, hat.owed⟩, hkeeps, Function.update_self ..⟩
  refine (maintainOidcSidMap_safe capacity login now h).bind fun r s h => ?_
  obtain ⟨pending, rfl | rfl, h⟩ := h
  · exact settle_safe h
  · have hp := lasting_pending (ι := ι) login.user session pending
    refine perform_safe (fun _ => debtsOf pending) (fun _ => Pending login.user session pending) hp
      h ?_ fun r s h => ?_
    · rintro s _ s' hat hk rfl -
      exact ⟨hat, .refl i _, hk⟩
    · match r with
      | none => exact settle_safe h
      | some (.ok ()) => exact settle_safe h
      | some (.error ()) => exact refuseOauthLogin_safe login pending h

end

end OAuthRun

open OAuthRun in
/-- In every run in which a refused login finds the key it displaced vacant, a full map does not
lose a mapping that was put back, and no refused login is abandoned before it has ended its own
session: once every login that has begun has returned, each session that one of them displaced or
aged out has been ended or is mapped at its key again. -/
theorem displaced_sessions_settled [DecidableEq ι] {capacity : Nat} {login : ι → OAuthLogin}
    {s : Pool ι OAuthCall OAuthCall.Answer (Option (Except Unit Unit)) (OAuthRun ι)}
    (hrun : Pool.Reaches careful ⟨fun i => completeOauthLogin capacity (login i), .empty⟩ s)
    (hdone : ∀ i, (∃ r, s.prog i = .ret r) ∨ s.prog i = completeOauthLogin capacity (login i)) :
    ∀ t ∈ s.state.taken, s.state.Ended t.2 ∨ s.state.Mapped t.1 t.2 := by
  have hstart (i : ι) : At i [] (OAuthRun.empty : OAuthRun ι) := ⟨inv_empty, nofun⟩
  have hsafe : Pool.AllSafe careful Guarantee (fun i _ => Settled i)
      ⟨fun i => completeOauthLogin capacity (login i), OAuthRun.empty⟩ :=
    fun i => completeOauthLogin_safe capacity (login i) (hstart i)
  have hinv : s.state.Inv := hrun.invariant hsafe (fun _ _ _ hG h => (hG h).1) inv_empty
  have hsettled (i : ι) : Settled i s.state := by
    rcases hdone i with ⟨r, hret⟩ | hidle
    · exact hrun.post hsafe hret
    · have hlasting : Lasting (ι := ι) fun _ => True := fun _ _ _ _ _ => trivial
      have hat := hrun.idle hsafe (at_stable hlasting) ⟨hstart i, trivial⟩ hidle
      exact hat.1.settled nofun
  intro t ht
  rcases (hinv.covered t ht).2 with hmapped | (hend | ⟨d, hd, -, hsession⟩) | ⟨d, hd, -, hsession⟩
  · exact .inr hmapped
  · exact .inl hend
  · exact .inl (hsession ▸ hsettled d.who d hd rfl)
  · exact .inl (hsession ▸ hsettled d.who d hd rfl)

namespace Displacing

def login (i : Fin 3) : OAuthLogin where
  user := ⟨i⟩
  provider := "op"
  subject := "ada"
  oidcSid := some "s1"
  iss := some "https://op"
  tenantProvider := false
  globalIssuer := none

def key : SidKey := ("https://op", "s1")

open OAuthCall in
def answering : Pool.Answerer (Fin 3) (Option (Except Unit Unit)) OAuthCall OAuthCall.Answer
    (OAuthRun (Fin 3))
  | _, _, clock, s => (0, s)
  | i, _, register user, s => (⟨i⟩, { s with
      registry := s.registry.register user ⟨i⟩
      owner := Function.update s.owner ⟨i⟩ (some user) })
  | _, _, registerSubject issuer subject user session, s =>
    ((), { s with map := s.map.registerSubject issuer subject user session })
  | _, _, sweepSubjectCandidates max, s => ((s.map.sweepSubjectCandidates max).1,
      { s with map := (s.map.sweepSubjectCandidates max).2 })
  | _, _, liveness user session, s => (some (s.registry.liveness user session), s)
  | _, _, forgetSubject item, s =>
    ((), { s with map := (s.map.forgetSubject item.1 item.2.1 item.2.2).2 })
  | i, _, evictInsertedBefore cutoff max, s =>
    let r := s.map.evictInsertedBefore cutoff max
    (r.1, { s with
      map := r.2
      taken := s.taken ++ r.1.map fun p => (p.1, p.2.session)
      owed := s.owed ++ r.1.map fun p => ⟨i, none, p.2.session⟩ })
  | _, _, len, s => (s.map.len, s)
  | _, _, evictOldest max, s =>
    ((s.map.evictOldest max).1, { s with map := (s.map.evictOldest max).2 })
  | i, _, insertDisplacing key subject user session insertedAt, s =>
    let r := s.map.insertDisplacing key subject user session insertedAt
    (r.1, { s with
      map := r.2
      taken := s.taken ++ r.1.toList.map (key, ·.session)
      owed := s.owed ++ r.1.toList.map fun displaced => ⟨i, some key, displaced.session⟩ })
  | _, row, emitAudit, s => (row, s)
  | i, _, removeSession session, s => ((), { s with
      map := (s.map.removeSession session).2
      owed := s.owed ++ [⟨i, none, session⟩] })
  | i, _, restoreIfVacant key displaced, s => ((s.map.restoreIfVacant key displaced).1, { s with
      map := (s.map.restoreIfVacant key displaced).2
      owed := s.owed.filter (· ≠ ⟨i, some key, displaced.session⟩) })
  | _, _, invalidateSession user session, s =>
    (.ok (), { s with registry := s.registry.invalidateSession user session })
  | _, _, awaitEnds, s => (some (), s)

def unused (i : Fin 3) (_ : Option (Except Unit Unit)) : OAuthCall → OAuthRun (Fin 3) → Bool
  | .register _, s => (s.owner ⟨i⟩).isNone
  | _, _ => true

def vacant (i : Fin 3) (row : Option (Except Unit Unit)) : OAuthCall → OAuthRun (Fin 3) → Bool
  | .restoreIfVacant key _, s => (s.map.entries.lookup key).isNone
  | .evictOldest _, _ => false
  | e, s => unused i row e s

theorem sem_answering (i : Fin 3) (row : Option (Except Unit Unit)) (e : OAuthCall)
    (s : OAuthRun (Fin 3)) (hunused : unused i row e s = true) :
    OAuthRun.sem i e s (answering i row e s).1 (answering i row e s).2 := by
  refine ⟨s.registry, fun _ _ h => h, ?_⟩
  cases e with
  | register user => exact ⟨Option.isNone_iff_eq_none.mp hunused, rfl⟩
  | liveness user session =>
    exact ⟨fun ha => Registry.liveness_eq_gone.mp (Option.some.inj ha), rfl⟩
  | clock => rfl
  | registerSubject => rfl
  | forgetSubject => rfl
  | emitAudit => rfl
  | removeSession => rfl
  | awaitEnds => rfl
  | _ => exact ⟨rfl, rfl⟩

theorem careful_answering (i : Fin 3) (row : Option (Except Unit Unit)) (e : OAuthCall)
    (s : OAuthRun (Fin 3)) (hvacant : vacant i row e s = true) :
    OAuthRun.careful i e s (answering i row e s).1 (answering i row e s).2 := by
  cases e with
  | restoreIfVacant key displaced =>
    exact ⟨sem_answering i row _ s rfl, .inl (Option.isNone_iff_eq_none.mp hvacant)⟩
  | evictOldest => cases hvacant
  | awaitEnds => exact ⟨sem_answering i row _ s rfl, rfl⟩
  | _ => exact ⟨sem_answering i row _ s hvacant, trivial⟩

def start : Pool (Fin 3) OAuthCall OAuthCall.Answer (Option (Except Unit Unit))
    (OAuthRun (Fin 3)) :=
  ⟨fun i => completeOauthLogin 10000 (login i), .empty⟩

/-- The second login displaces the first one's mapping, and is refused. -/
def refused : List (Fin 3 × Option (Except Unit Unit)) :=
  Pool.turns [(12, 0, some (.ok ())), (16, 1, some (.error ()))]

/-- The third login displaces the second one's mapping before that is refused. -/
def overtaken : List (Fin 3 × Option (Except Unit Unit)) :=
  Pool.turns [(12, 0, some (.ok ())), (9, 1, some (.error ())), (10, 2, some (.ok ())),
    (8, 1, some (.error ())), (6, 2, some (.ok ()))]

end Displacing

open Displacing in
theorem displaced_sessions_settled_refused :
    let s := Pool.replay answering refused start
    (key, ⟨0⟩) ∈ s.state.taken ∧ (s.state.Ended ⟨0⟩ ∨ s.state.Mapped key ⟨0⟩) := by
  intro s
  have hrun : Pool.Reaches OAuthRun.careful start s :=
    Pool.reaches_replay_of_admits careful_answering refused start (by decide +kernel)
  have htaken : (key, ⟨0⟩) ∈ s.state.taken := by decide +kernel
  refine ⟨htaken, displaced_sessions_settled hrun (fun i => ?_) _ htaken⟩
  match i with
  | 0 => exact .inl ⟨some (.ok ()), Prog.eq_ret_of_returned rfl⟩
  | 1 => exact .inl ⟨some (.error ()), Prog.eq_ret_of_returned rfl⟩
  | 2 => exact .inr (Pool.replay_prog_of_notMem answering refused start (by decide))

open Displacing in
/-- The first session is neither ended nor mapped: the second login finds the key taken when it
puts the first one's mapping back, and the third login ends the second one's session. -/
theorem displaced_session_lost :
    ∃ s, Pool.Reaches OAuthRun.sem start s ∧ (∀ i, ∃ r, s.prog i = .ret r) ∧
      ∃ t ∈ s.state.taken, ¬s.state.Ended t.2 ∧ ¬s.state.Mapped t.1 t.2 := by
  refine ⟨Pool.replay answering overtaken start,
    Pool.reaches_replay_of_admits sem_answering overtaken start (by decide +kernel), fun i => ?_,
    (key, ⟨0⟩), by decide +kernel, fun hended => ?_, ?_⟩
  · match i with
    | 0 => exact ⟨some (.ok ()), Prog.eq_ret_of_returned rfl⟩
    | 1 => exact ⟨some (.error ()), Prog.eq_ret_of_returned rfl⟩
    | 2 => exact ⟨some (.ok ()), Prog.eq_ret_of_returned rfl⟩
  · have hholds : (Pool.replay answering overtaken start).state.registry.holds ⟨0⟩ ⟨0⟩ = true := by
      decide +kernel
    rw [hended ⟨0⟩] at hholds
    cases hholds
  · rintro ⟨stored, hstored, hsession⟩
    have hother : ((Pool.replay answering overtaken start).state.map.entries.lookup key).map
        (·.session) = some ⟨2⟩ := by
      decide +kernel
    rw [hstored] at hother
    rw [Option.map_some, hsession] at hother
    exact absurd hother (by decide)

end Axess
