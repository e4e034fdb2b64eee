import Axess.Federation.Indexes
import Axess.Federation.Validate

/-!
# A token ends its own sessions

Any number of deliveries of one token, each run to its end, possibly overlapping, while no login
and no other token comes in between. A call of the registry fails or not. The clock is within the
retention of the log for all of them, so the pair of the token is never expired: it is in flight
while one delivery acts, and the others leave the map alone.
-/

namespace Axess

open Calls Maps

variable {ι P : Type}

namespace SidState

variable {m m' m'' : SidState} {gone : SidKey → Prop} {forgotten : SessionId → Prop}
  {user : UserId} {session : SessionId} {issuer subject : String}

def Belongs (m : SidState) (user : UserId) (session : SessionId) : Prop :=
  (∃ key stored, m.entries.lookup key = some stored ∧ stored.session = session ∧
    stored.user = user) ∨ ∃ held, m.subjectOf.lookup session = some held ∧ held.user = user

def OneUser (m : SidState) : Prop :=
  ∀ session user user', m.Belongs user session → m.Belongs user' session → user = user'

def Gone (m : SidState) (session : SessionId) : Prop := ∀ user, ¬m.Belongs user session

/-- Every mapping of the session, and its record, is as it was. -/
def Keeps (m m' : SidState) (session : SessionId) : Prop :=
  (∀ key stored, m.entries.lookup key = some stored → stored.session = session →
    m'.entries.lookup key = some stored) ∧
  m'.subjectOf.lookup session = m.subjectOf.lookup session

theorem Under.belongs (h : m.Under issuer subject user session) : m.Belongs user session := by
  rcases h with hheld | ⟨sid, stored, hstored, -, huser, hsession⟩
  · exact .inr ⟨_, hheld, rfl⟩
  · exact .inl ⟨_, stored, hstored, hsession, huser⟩

theorem Dropped.belongs (h : Dropped m m' gone forgotten) (hb : m'.Belongs user session) :
    m.Belongs user session := by
  rcases hb with ⟨key, stored, hkey, hsession, huser⟩ | ⟨held, hheld, huser⟩
  · exact .inl ⟨key, stored, h.lookup hkey, hsession, huser⟩
  · exact .inr ⟨held, h.lookup_subjectOf hheld, huser⟩

theorem Dropped.under (h : Dropped m m' gone forgotten) (hu : m'.Under issuer subject user session) :
    m.Under issuer subject user session := by
  rcases hu with hheld | ⟨sid, stored, hstored, hrest⟩
  · exact .inl (h.lookup_subjectOf hheld)
  · exact .inr ⟨sid, stored, h.lookup hstored, hrest⟩

theorem Dropped.oneUser (h : Dropped m m' gone forgotten) (hone : m.OneUser) : m'.OneUser :=
  fun session user user' hu hu' => hone session user user' (h.belongs hu) (h.belongs hu')

def Cleared (m m' : SidState) (ended : SessionId → Prop) : Prop :=
  Dropped m m' (fun key => ∃ stored, m.entries.lookup key = some stored ∧ ended stored.session)
    ended

namespace Cleared

variable {ended ended' : SessionId → Prop}

theorem refl (m : SidState) : Cleared m m fun _ => False :=
  (Dropped.refl m).congr (fun _ => by simp) fun _ => Iff.rfl

theorem trans (h : Cleared m m' ended) (h' : Cleared m' m'' ended') :
    Cleared m m'' fun session => ended session ∨ ended' session := by
  refine (Dropped.trans h h').congr (fun key => ?_) fun _ => Iff.rfl
  constructor
  · rintro ⟨stored, hkey, hended | hended⟩
    · exact .inl ⟨stored, hkey, hended⟩
    · by_cases hgone : ∃ stored, m.entries.lookup key = some stored ∧ ended stored.session
      · exact .inl hgone
      · exact .inr ⟨stored, by rw [h.mapped key hgone]; exact hkey, hended⟩
  · rintro (⟨stored, hkey, hended⟩ | ⟨stored, hkey, hended⟩)
    · exact ⟨stored, hkey, .inl hended⟩
    · exact ⟨stored, h.lookup hkey, .inr hended⟩

theorem gone_of (h : Cleared m m' ended) (hended : ended session) : m'.Gone session := by
  rintro user (⟨key, stored, hkey, rfl, -⟩ | ⟨held, hheld, -⟩)
  · have hgone := h.unmapped key ⟨stored, h.lookup hkey, hended⟩
    rw [hgone] at hkey
    cases hkey
  · rw [h.unrecorded session hended] at hheld
    cases hheld

theorem keeps (h : Cleared m m' ended) (hnot : ¬ended session) : m.Keeps m' session := by
  refine ⟨fun key stored hkey hsession => ?_, h.kept session hnot⟩
  rw [h.mapped key]
  · exact hkey
  · rintro ⟨stored', hkey', hended⟩
    obtain rfl := Option.some.inj (hkey.symm.trans hkey')
    exact hnot (hsession ▸ hended)

theorem under (h : Cleared m m' ended) (hnot : ¬ended session)
    (hu : m.Under issuer subject user session) : m'.Under issuer subject user session := by
  obtain ⟨hmappings, hrecord⟩ := h.keeps hnot
  rcases hu with hheld | ⟨sid, stored, hstored, hsubject, huser, hsession⟩
  · exact .inl (hrecord.trans hheld)
  · exact .inr ⟨sid, stored, hmappings _ stored hstored hsession, hsubject, huser, hsession⟩

end Cleared

theorem cleared_removeSession (h : Sound m) (session : SessionId) :
    Cleared m (m.removeSession session).2 (· = session) :=
  dropped_removeSession h.indexed session

theorem nodup_sessions (h : Sound m) (hone : m.OneUser) (issuer subject : String) :
    ((m.subjectSessions issuer subject).map (·.2)).Nodup := by
  refine List.Nodup.map_on (fun p hp q hq heq => ?_) (nodup_subjectSessions h.recorded)
  have hp' := ((mem_subjectSessions h.indexed h.recorded).mp hp).belongs
  have hq' := ((mem_subjectSessions h.indexed h.recorded).mp hq).belongs
  exact Prod.ext (hone _ _ _ hp' (heq ▸ hq')) heq

end SidState

namespace LogoutTokenClaims

variable (claims : LogoutTokenClaims) {m m' : SidState} {gone : SidKey → Prop}
  {forgotten : SessionId → Prop}

def Unmapped (m : SidState) : Prop :=
  ∀ sid, claims.sid = some sid → m.entries.lookup (claims.iss, sid) = none

/-- The session that the token's `sid` maps to; if it maps to nothing, a session of its subject. -/
def Names (m : SidState) (user : UserId) (session : SessionId) : Prop :=
  (∃ sid stored, claims.sid = some sid ∧ m.entries.lookup (claims.iss, sid) = some stored ∧
    stored.user = user ∧ stored.session = session) ∨
  claims.Unmapped m ∧ ∃ sub, claims.sub = some sub ∧ m.Under claims.iss sub user session

def NoneLeft (m : SidState) : Prop :=
  ∀ sub, claims.sub = some sub → ∀ user session, ¬m.Under claims.iss sub user session

variable {claims}

theorem Unmapped.dropped (h : claims.Unmapped m) (hd : m.Dropped m' gone forgotten) :
    claims.Unmapped m' := by
  intro sid hsid
  cases hkey : m'.entries.lookup (claims.iss, sid) with
  | none => rfl
  | some stored =>
    have hbefore := hd.lookup hkey
    rw [h sid hsid] at hbefore
    cases hbefore

end LogoutTokenClaims

inductive LogoutEvent (ι : Type) where
  | admitted (i : ι) (map : SidState)
  | asked (i : ι) (user : UserId) (session : SessionId) (ended : Bool) (map : SidState)
  | reported (i : ι) (session : SessionId)
  | closed (i : ι) (map : SidState) (log : JtiLog)

def LogoutEvent.who : LogoutEvent ι → ι
  | admitted i _ => i
  | asked i .. => i
  | reported i _ => i
  | closed i .. => i

def reportedIn (events : List (LogoutEvent ι)) : List SessionId :=
  events.filterMap fun
    | .reported _ session => some session
    | _ => none

inductive Turn (ι : Type) where
  | free
  | acting (i : ι)
  | done

def Turn.inFlight : Turn ι → Option Bool
  | free => none
  | acting _ => some true
  | done => some false

structure LogoutRun (ι : Type) where
  map : SidState
  log : JtiLog
  turn : Turn ι
  events : List (LogoutEvent ι)

namespace LogoutRun

variable (handler : LogoutHandler P) (opened : Instant)

/-- No request is dropped. The clock is within one retention from `opened`. A provider that
verifies a token returns the token's payload. -/
def sem (i : ι) : Sem (LogoutCall P) LogoutCall.Answer (LogoutRun ι)
  | .providersForIssuer _, s, (a : Option (Except Unit (IssuerProviders P))), s' =>
    a.isSome = true ∧ s' = s
  | .verifyLogoutJwt _ token, s, (a : Except VerifyError Json), s' =>
    (∀ payload, a = .ok payload → decodeJwtPayload handler.parseJson token = some payload) ∧ s' = s
  | .refreshJwks _, s, (a : Option (Except Unit Unit)), s' => a.isSome = true ∧ s' = s
  | .clock, s, (a : Instant), s' =>
    opened ≤ a ∧ a ≤ opened + jtiRetentionSecs * second ∧ s' = s
  | .record pair now cutoff, s, (a : Recorded), s' =>
    a = (s.log.record handler.jtiCacheMax pair now cutoff).1 ∧
      s' = { s with
        log := (s.log.record handler.jtiCacheMax pair now cutoff).2
        turn := if a = .new then .acting i else s.turn
        events := if a = .new then s.events ++ [.admitted i s.map] else s.events }
  | .settle pair, s, _, s' =>
    s' = ⟨s.map, s.log.settle pair, .done, s.events ++ [.closed i s.map (s.log.settle pair)]⟩
  | .forget pair, s, _, s' =>
    s' = ⟨s.map, (s.log.forget pair).2, .free, s.events ++ [.closed i s.map (s.log.forget pair).2]⟩
  | .sidGet key, s, (a : Option StoredSid), s' => a = s.map.entries.lookup key ∧ s' = s
  | .sidRemoveIf key session, s, _, s' =>
    s' = { s with map := (s.map.removeIf key (·.session = session)).2 }
  | .subjectSessions iss sub, s, (a : List (UserId × SessionId)), s' =>
    a = s.map.subjectSessions iss sub ∧ s' = s
  | .removeSession session, s, _, s' => s' = { s with map := (s.map.removeSession session).2 }
  | .invalidateSession user session, s, (a : Option (Except Unit Unit)), s' =>
    ∃ r, a = some r ∧ s' = { s with events := s.events ++ [.asked i user session r.isOk s.map] }
  | .reportEnded _ _ session, s, (a : Option Unit), s' =>
    a = some () ∧ s' = { s with events := s.events ++ [.reported i session] }

/-! ## What every run keeps -/

structure History (claims : LogoutTokenClaims) (events : List (LogoutEvent ι)) : Prop where
  named : ∀ i user session ended m, .asked i user session ended m ∈ events →
    claims.Names m user session
  kept : ∀ i user session m m' log, .asked i user session false m ∈ events →
    .closed i m' log ∈ events → m.Keeps m' session ∧ log.entries.lookup claims.pair = none
  once : (reportedIn events).Nodup

structure Held (claims : LogoutTokenClaims) (opened : Instant) (turn : Turn ι) (log : JtiLog) :
    Prop where
  ordered : log.Ordered
  inFlight : (log.entries.lookup claims.pair).map JtiEntry.inFlight = turn.inFlight
  since : ∀ entry, log.entries.lookup claims.pair = some entry → opened ≤ entry.seenAt

structure Inv (claims : LogoutTokenClaims) (opened : Instant) (s : LogoutRun ι) : Prop where
  sound : s.map.Sound
  oneUser : s.map.OneUser
  held : Held claims opened s.turn s.log
  history : History claims s.events
  clean : s.turn = .free → ∀ session ∈ reportedIn s.events,
    claims.Unmapped s.map ∧ s.map.Gone session
  done : s.turn = .done → claims.Unmapped s.map

/-- What a step of one delivery does: nothing while another acts or when the token is done. -/
structure Frame (i : ι) (s s' : LogoutRun ι) : Prop where
  events : ∀ e, e ∈ s.events → e ∈ s'.events
  own : ∀ e, e ∈ s'.events → e.who ≠ i → e ∈ s.events
  still : s.turn ≠ .free → s.turn ≠ .acting i →
    s'.map = s.map ∧ s'.turn = s.turn ∧ s'.events = s.events

def Guarantee (claims : LogoutTokenClaims) (opened : Instant) (i : ι) (s s' : LogoutRun ι) : Prop :=
  Inv claims opened s → Inv claims opened s' ∧ Frame i s s'

structure At (claims : LogoutTokenClaims) (opened : Instant) (i : ι) (m : SidState)
    (events : List (LogoutEvent ι)) (s : LogoutRun ι) : Prop where
  inv : Inv claims opened s
  turn : s.turn = .acting i
  map : s.map = m
  history : s.events = events

structure Silent (claims : LogoutTokenClaims) (opened : Instant) (i : ι) (s : LogoutRun ι) :
    Prop where
  inv : Inv claims opened s
  nothing : ∀ e ∈ s.events, e.who ≠ i

variable {handler opened} {claims : LogoutTokenClaims} {i j : ι} {s s' : LogoutRun ι}
  {m m' : SidState} {events new : List (LogoutEvent ι)} {user : UserId} {session : SessionId}

theorem Frame.refl (i : ι) (s : LogoutRun ι) : Frame i s s :=
  ⟨fun _ h => h, fun _ h _ => h, fun _ _ => ⟨rfl, rfl, rfl⟩⟩

theorem Guarantee.refl (claims : LogoutTokenClaims) (opened : Instant) (i : ι) (s : LogoutRun ι) :
    Guarantee claims opened i s s :=
  fun h => ⟨h, .refl i s⟩

theorem at_stable : Stable (Pool.others (Guarantee claims opened) i)
    (At claims opened i m events) := by
  rintro s s' ⟨hinv, hturn, hmap, hevents⟩ ⟨j, hne, hg⟩
  obtain ⟨hinv', hframe⟩ := hg hinv
  obtain ⟨hmap', hturn', hevents'⟩ := hframe.still (by rw [hturn]; nofun)
    (by rw [hturn]; exact fun h => hne (Turn.acting.inj h).symm)
  exact ⟨hinv', hturn'.trans hturn, hmap'.trans hmap, hevents'.trans hevents⟩

theorem silent_stable : Stable (Pool.others (Guarantee claims opened) i)
    (Silent claims opened i) := by
  rintro s s' ⟨hinv, hnothing⟩ ⟨j, hne, hg⟩
  obtain ⟨hinv', hframe⟩ := hg hinv
  refine ⟨hinv', fun e he hwho => ?_⟩
  exact hnothing e (hframe.own e he fun hj => hne (hj.symm.trans hwho)) hwho

/-! The history grows by one event. -/

theorem History.admitted (h : History claims events) (i : ι) (m : SidState) :
    History claims (events ++ [.admitted i m]) where
  named j user session ended m₁ hmem := h.named j user session ended m₁ (by simpa using hmem)
  kept j user session m₁ m' log hasked hclosed :=
    h.kept j user session m₁ m' log (by simpa using hasked) (by simpa using hclosed)
  once := by simpa [reportedIn] using h.once

theorem History.asked (h : History claims events) (hnamed : claims.Names m user session)
    (hopen : ∀ m' log, .closed i m' log ∉ events) (ended : Bool) :
    History claims (events ++ [.asked i user session ended m]) where
  named j user' session' ended' m₁ hmem := by
    rcases List.mem_append.mp hmem with hmem | hmem
    · exact h.named j user' session' ended' m₁ hmem
    · cases List.mem_singleton.mp hmem
      exact hnamed
  kept j user' session' m₁ m' log hasked hclosed := by
    have hbefore : .closed j m' log ∈ events := by simpa using hclosed
    rcases List.mem_append.mp hasked with hasked | hasked
    · exact h.kept j user' session' m₁ m' log hasked hbefore
    · cases List.mem_singleton.mp hasked
      exact absurd hbefore (hopen m' log)
  once := by simpa [reportedIn] using h.once

theorem reportedIn_append (events new : List (LogoutEvent ι)) :
    reportedIn (events ++ new) = reportedIn events ++ reportedIn new :=
  List.filterMap_append

theorem History.reported (h : History claims events) (hnew : session ∉ reportedIn events) (i : ι) :
    History claims (events ++ [.reported i session]) where
  named j user session ended m₁ hmem := h.named j user session ended m₁ (by simpa using hmem)
  kept j user session m₁ m' log hasked hclosed :=
    h.kept j user session m₁ m' log (by simpa using hasked) (by simpa using hclosed)
  once := by
    rw [reportedIn_append, List.nodup_append]
    refine ⟨h.once, List.nodup_singleton _, fun a ha b hb => ?_⟩
    obtain rfl := List.mem_singleton.mp hb
    rintro rfl
    exact hnew ha

theorem History.closed (h : History claims events) {log : JtiLog}
    (hkept : ∀ user session m₁, .asked i user session false m₁ ∈ events →
      m₁.Keeps m session ∧ log.entries.lookup claims.pair = none) :
    History claims (events ++ [.closed i m log]) where
  named j user session ended m₁ hmem := h.named j user session ended m₁ (by simpa using hmem)
  kept j user session m₁ m' log' hasked hclosed := by
    have hasked : .asked j user session false m₁ ∈ events := by simpa using hasked
    rcases List.mem_append.mp hclosed with hclosed | hclosed
    · exact h.kept j user session m₁ m' log' hasked hclosed
    · cases List.mem_singleton.mp hclosed
      exact hkept user session m₁ hasked
  once := by simpa [reportedIn] using h.once

theorem At.act (h : At claims opened i m events s)
    (hwho : ∀ e ∈ new, e.who = i) (hsound : m'.Sound) (hone : m'.OneUser)
    (hhistory : History claims (events ++ new)) :
    Guarantee claims opened i s { s with map := m', events := s.events ++ new } ∧
      At claims opened i m' (events ++ new) { s with map := m', events := s.events ++ new } := by
  obtain ⟨hinv, hturn, -, rfl⟩ := h
  have hinv' : Inv claims opened { s with map := m', events := s.events ++ new } :=
    { sound := hsound
      oneUser := hone
      held := hinv.held
      history := hhistory
      clean := fun hfree => by rw [hturn] at hfree; cases hfree
      done := fun hdone => by rw [hturn] at hdone; cases hdone }
  refine ⟨fun _ => ⟨hinv', fun e he => List.mem_append_left _ he, fun e he hne => ?_,
    fun _ hnot => absurd hturn hnot⟩, hinv', hturn, rfl, rfl⟩
  exact (List.mem_append.mp he).resolve_right fun hnew => hne (hwho e hnew)

theorem At.tell (h : At claims opened i m events s) {e : LogoutEvent ι} (hwho : e.who = i)
    (hhistory : History claims (events ++ [e])) :
    Guarantee claims opened i s { s with events := s.events ++ [e] } ∧
      At claims opened i m (events ++ [e]) { s with events := s.events ++ [e] } := by
  obtain rfl := h.map
  refine h.act (fun e' he' => ?_) h.inv.sound h.inv.oneUser hhistory
  rw [List.mem_singleton.mp he']
  exact hwho

theorem At.drop (h : At claims opened i m events s) {gone : SidKey → Prop}
    {forgotten : SessionId → Prop} (hdrop : m.Dropped m' gone forgotten) :
    Guarantee claims opened i s { s with map := m' } ∧
      At claims opened i m' events { s with map := m' } := by
  obtain rfl := h.map
  obtain rfl := h.history
  have hact := h.act (fun _ he => absurd he List.not_mem_nil) (hdrop.sound h.inv.sound)
    (hdrop.oneUser h.inv.oneUser) (by rw [List.append_nil]; exact h.inv.history)
  rw [List.append_nil] at hact
  exact hact

variable {turn : Turn ι} {log : JtiLog}

theorem Held.expire (h : Held claims opened turn log) {now : Instant}
    (hnow : now ≤ opened + jtiRetentionSecs * second) :
    Held claims opened turn (log.expireBefore (now - jtiRetentionSecs * second)) ∧
      (log.expireBefore (now - jtiRetentionSecs * second)).entries.lookup claims.pair =
        log.entries.lookup claims.pair := by
  have hsame : (log.expireBefore (now - jtiRetentionSecs * second)).entries.lookup claims.pair =
      log.entries.lookup claims.pair := by
    cases hentry : log.entries.lookup claims.pair with
    | none => exact JtiLog.lookup_expireBefore_none hentry
    | some entry =>
      refine h.ordered.lookup_expireBefore hentry ?_
      exact Int.le_trans (Int.sub_right_le_of_le_add hnow) (h.since entry hentry)
  refine ⟨⟨h.ordered.expireBefore _, ?_, ?_⟩, hsame⟩
  · rw [hsame]
    exact h.inFlight
  · rw [hsame]
    exact h.since

theorem Held.free (h : Held claims opened turn log)
    (hnone : log.entries.lookup claims.pair = none) : turn = .free := by
  have hturn := h.inFlight
  rw [hnone] at hturn
  cases turn with
  | free => rfl
  | acting i => cases hturn
  | done => cases hturn

structure Begun (claims : LogoutTokenClaims) (i : ι) (m : SidState)
    (events : List (LogoutEvent ι)) : Prop where
  entered : .admitted i m ∈ events
  own : ∀ e ∈ events, e.who = i → e = .admitted i m
  clean : ∀ session ∈ reportedIn events, claims.Unmapped m ∧ m.Gone session

def Entered (claims : LogoutTokenClaims) (opened : Instant) (i : ι) (s : LogoutRun ι) : Prop :=
  ∃ m events, At claims opened i m events s ∧ Begun claims i m events

theorem entered_stable :
    Stable (Pool.others (Guarantee claims opened) i) (Entered claims opened i) := by
  rintro s s' ⟨m, events, hat, hbegun⟩ hR
  exact ⟨m, events, at_stable hat hR, hbegun⟩

theorem record_step (hs : Silent claims opened i s) {now : Instant} (hopened : opened ≤ now)
    (hnow : now ≤ opened + jtiRetentionSecs * second) {recorded : Recorded}
    (hX : sem handler opened i (.record claims.pair now (now - jtiRetentionSecs * second)) s recorded
      s') : Guarantee claims opened i s s' ∧
      if recorded = .new then Entered claims opened i s' else Silent claims opened i s' := by
  obtain ⟨hinv, hnothing⟩ := hs
  obtain ⟨hrecorded, rfl⟩ := hX
  obtain ⟨hheld, hsame⟩ := hinv.held.expire hnow
  rcases JtiLog.record_cases s.log handler.jtiCacheMax claims.pair now
    (now - jtiRetentionSecs * second) with ⟨r, hr, heq⟩ | ⟨hnone, heq⟩
  · rw [heq] at hrecorded ⊢
    obtain rfl : recorded = r := hrecorded
    simp only [if_neg hr]
    have hinv' : Inv claims opened
        { s with log := s.log.expireBefore (now - jtiRetentionSecs * second) } :=
      { hinv with held := hheld }
    exact ⟨fun _ => ⟨hinv', fun _ h => h, fun _ h _ => h, fun _ _ => ⟨rfl, rfl, rfl⟩⟩, hinv',
      hnothing⟩
  · rw [heq] at hrecorded ⊢
    obtain rfl : recorded = .new := hrecorded
    simp only [if_true]
    have hfree := hheld.free hnone
    have hinv' : Inv claims opened (⟨s.map,
        ⟨(s.log.expireBefore (now - jtiRetentionSecs * second)).entries.insert claims.pair
          ⟨now, true⟩, (s.log.expireBefore (now - jtiRetentionSecs * second)).order ++
          [(now, claims.pair)]⟩, .acting i, s.events ++ [.admitted i s.map]⟩ : LogoutRun ι) :=
      { sound := hinv.sound
        oneUser := hinv.oneUser
        held :=
          { ordered := hheld.ordered.insert (AList.lookup_eq_none.mp hnone) ⟨now, true⟩
              (List.perm_append_singleton _ _)
            inFlight := by rw [AList.lookup_insert]; rfl
            since := fun entry hentry => by
              rw [AList.lookup_insert] at hentry
              cases hentry
              exact hopened }
        history := hinv.history.admitted i s.map
        clean := nofun
        done := nofun }
    refine ⟨fun _ => ⟨hinv', fun _ h => List.mem_append_left _ h, fun e he hne => ?_,
      fun hnot => absurd hfree hnot⟩, s.map, _, ⟨hinv', rfl, rfl, rfl⟩,
      List.mem_append_right _ (List.mem_singleton_self _), fun e he hwho => ?_, ?_⟩
    · refine (List.mem_append.mp he).resolve_right fun hnew => hne ?_
      rw [List.mem_singleton.mp hnew]
      rfl
    · rcases List.mem_append.mp he with he | he
      · exact absurd hwho (hnothing e he)
      · exact List.mem_singleton.mp he
    · simpa [reportedIn] using hinv.clean hfree

theorem admitJti_safe (hs : Silent claims opened i s) :
    (LogoutHandler.admitJti (P := P) claims.pair).SafeAmong
      (sem handler opened) (Guarantee claims opened) i
      (fun r s => if r = .ok () then Entered claims opened i s else Silent claims opened i s) s := by
  refine Prog.Safe.perform_bind (Silent claims opened i) silent_stable hs ?_
  rintro s (now : Instant) s' hs ⟨hopened, hnow, rfl⟩
  refine ⟨.refl claims opened i s', ?_⟩
  refine Prog.Safe.perform_bind (Silent claims opened i) silent_stable hs ?_
  rintro s (recorded : Recorded) s' hs hX
  obtain ⟨hg, hpost⟩ := record_step hs hopened hnow hX
  refine ⟨hg, ?_⟩
  cases recorded with
  | new => exact Prog.Safe.ret (Entered claims opened i) entered_stable hpost fun _ h => h
  | replay => exact Prog.Safe.ret (Silent claims opened i) silent_stable hpost fun _ h => h
  | inFlight => exact Prog.Safe.ret (Silent claims opened i) silent_stable hpost fun _ h => h
  | full => exact Prog.Safe.ret (Silent claims opened i) silent_stable hpost fun _ h => h

/-! ## Ending sessions -/

def Open (i : ι) (events : List (LogoutEvent ι)) : Prop := ∀ m log, .closed i m log ∉ events

theorem Open.append (h : Open i events) (hnew : Open i new) : Open i (events ++ new) := by
  intro m log hmem
  rcases List.mem_append.mp hmem with hmem | hmem
  · exact h m log hmem
  · exact hnew m log hmem

def reports (handler : LogoutHandler P) (i : ι) (session : SessionId) : List (LogoutEvent ι) :=
  if handler.audit then [.reported i session] else []

theorem eq_of_mem_reports {e : LogoutEvent ι} (h : e ∈ reports handler i session) :
    e = .reported i session := by
  unfold reports at h
  split at h
  · exact List.mem_singleton.mp h
  · exact absurd h List.not_mem_nil

theorem at_safe {α : Type} {a : α} {Q : α → LogoutRun ι → Prop}
    (hs : At claims opened i m events s) (hQ : ∀ s, At claims opened i m events s → Q a s) :
    (pure a : LogoutProg P α).SafeAmong (sem handler opened) (Guarantee claims opened) i Q s :=
  Prog.Safe.ret (At claims opened i m events) at_stable hs hQ

theorem endOne_safe {dropMapping : LogoutProg P Unit} (hs : At claims opened i m events s)
    (hnamed : claims.Names m user session) (hopen : Open i events)
    (hnew : session ∉ reportedIn events)
    (hdrop : ∀ {events s}, At claims opened i m events s → dropMapping.SafeAmong
      (sem handler opened) (Guarantee claims opened) i (fun _ => At claims opened i m' events) s) :
    (handler.endOne claims.iss user session dropMapping).SafeAmong
      (sem handler opened) (Guarantee claims opened) i (fun r s =>
        r = some true ∧ At claims opened i m'
          (events ++ .asked i user session true m :: reports handler i session) s ∨
        r = some false ∧ At claims opened i m
          (events ++ [.asked i user session false m]) s) s := by
  refine Prog.Safe.perform_bind _ at_stable hs ?_
  rintro s (answer : Option (Except Unit Unit)) s' hs ⟨r, rfl, rfl⟩
  obtain rfl := hs.map
  obtain ⟨hg, hs⟩ := hs.tell rfl ((hs.history ▸ hs.inv.history).asked hnamed hopen r.isOk)
  refine ⟨hg, ?_⟩
  cases r with
  | error e => exact at_safe hs fun s hs => .inr ⟨rfl, hs⟩
  | ok _ =>
    refine Prog.Safe.bind (hdrop hs) fun _ s hs => ?_
    unfold reports
    by_cases haudit : handler.audit = true
    · rw [if_pos haudit, if_pos haudit]
      refine Prog.Safe.perform_bind _ at_stable hs ?_
      rintro s (answer : Option Unit) s' hs ⟨rfl, rfl⟩
      have hfresh : session ∉ reportedIn s.events := by
        rw [hs.history]
        simpa [reportedIn] using hnew
      obtain ⟨hg, hs⟩ := hs.tell rfl (hs.history ▸ hs.inv.history.reported hfresh i)
      refine ⟨hg, at_safe hs fun s hs => .inl ⟨rfl, ?_⟩⟩
      rw [List.append_assoc] at hs
      exact hs
    · rw [if_neg haudit, if_neg haudit]
      exact at_safe hs fun s hs => .inl ⟨rfl, hs⟩

def Outcome (i : ι) (ended : SessionId → Prop) (failed : Bool) (m' : SidState) :
    LogoutEvent ι → Prop
  | .asked j _ session ok m => j = i ∧ (ok = false → failed = true ∧ m.Keeps m' session)
  | .reported j session => j = i ∧ ended session
  | _ => False

structure Ended (i : ι) (owned : List (UserId × SessionId)) (m : SidState)
    (events : List (LogoutEvent ι)) (failed : Bool) (m' : SidState)
    (events' : List (LogoutEvent ι)) (ended : SessionId → Prop) : Prop where
  cleared : m.Cleared m' ended
  among : ∀ session, ended session → session ∈ owned.map (·.2)
  all : failed = false → ∀ p ∈ owned, ended p.2 ∧ ∃ m₁, .asked i p.1 p.2 true m₁ ∈ events'
  grown : ∃ new, events' = events ++ new ∧ ∀ e ∈ new, Outcome i ended failed m' e

variable {owned : List (UserId × SessionId)} {failed : Bool} {events' : List (LogoutEvent ι)}
  {ended : SessionId → Prop}

theorem ended_nil (i : ι) (m : SidState) (events : List (LogoutEvent ι)) :
    Ended i [] m events false m events fun _ => False :=
  ⟨.refl m, nofun, nofun, [], (List.append_nil events).symm, nofun⟩

theorem Ended.cons_true {m₁ : SidState} (hm₁ : m.Cleared m₁ (· = session))
    (h : Ended i owned m₁ (events ++ .asked i user session true m :: reports handler i session)
      failed m' events' ended) :
    Ended i ((user, session) :: owned) m events failed m' events'
      (fun other => other = session ∨ ended other) where
  cleared := hm₁.trans h.cleared
  among other hother := by
    rcases hother with rfl | hother
    · exact List.mem_cons_self
    · exact List.mem_cons_of_mem _ (h.among other hother)
  all hfailed p hp := by
    rcases List.mem_cons.mp hp with rfl | hp
    · obtain ⟨new, rfl, -⟩ := h.grown
      exact ⟨.inl rfl, m, by simp⟩
    · exact (h.all hfailed p hp).imp_left .inr
  grown := by
    obtain ⟨new, rfl, hnew⟩ := h.grown
    refine ⟨.asked i user session true m :: reports handler i session ++ new,
      List.append_assoc _ _ _, fun e he => ?_⟩
    rcases List.mem_append.mp he with he | he
    · rcases List.mem_cons.mp he with rfl | he
      · exact ⟨rfl, nofun⟩
      · rw [eq_of_mem_reports he]
        exact ⟨rfl, .inl rfl⟩
    · have houtcome := hnew e he
      cases e with
      | admitted => exact houtcome
      | closed => exact houtcome
      | asked => exact houtcome
      | reported j other => exact ⟨houtcome.1, .inr houtcome.2⟩

theorem Ended.cons_false (hnot : session ∉ owned.map (·.2))
    (h : Ended i owned m (events ++ [.asked i user session false m]) failed m' events' ended) :
    Ended i ((user, session) :: owned) m events true m' events' ended where
  cleared := h.cleared
  among other hother := List.mem_cons_of_mem _ (h.among other hother)
  all := nofun
  grown := by
    obtain ⟨new, rfl, hnew⟩ := h.grown
    refine ⟨.asked i user session false m :: new, List.append_assoc _ _ _, fun e he => ?_⟩
    rcases List.mem_cons.mp he with rfl | he
    · -- what goes later is of other sessions
      exact ⟨rfl, fun _ => ⟨rfl, h.cleared.keeps fun hended => hnot (h.among session hended)⟩⟩
    · have houtcome := hnew e he
      cases e with
      | admitted => exact houtcome
      | closed => exact houtcome
      | asked => exact ⟨houtcome.1, fun hok => ⟨rfl, (houtcome.2 hok).2⟩⟩
      | reported => exact houtcome

structure Owned (claims : LogoutTokenClaims) (sub : String) (m : SidState)
    (events : List (LogoutEvent ι)) (owned : List (UserId × SessionId)) : Prop where
  nodup : (owned.map (·.2)).Nodup
  under : ∀ p ∈ owned, m.Under claims.iss sub p.1 p.2
  new : ∀ p ∈ owned, p.2 ∉ reportedIn events

theorem mem_reports {other : SessionId} (h : other ∈ reportedIn (reports handler i session)) :
    other = session := by
  obtain ⟨e, he, hother⟩ := List.mem_filterMap.mp h
  rw [eq_of_mem_reports he] at hother
  exact (Option.some.inj hother).symm

theorem Owned.tail {sub : String} {m₁ : SidState}
    (h : Owned claims sub m events ((user, session) :: owned)) {ok : Bool}
    {gone : SessionId → Prop} (hm₁ : m.Cleared m₁ gone) (hgone : ∀ other, gone other → other = session)
    (hnew : ∀ other ∈ reportedIn new, other = session) :
    Owned claims sub m₁ (events ++ .asked i user session ok m :: new) owned := by
  obtain ⟨hhead, hnodup⟩ := List.nodup_cons.mp h.nodup
  have hne (p : UserId × SessionId) (hp : p ∈ owned) : p.2 ≠ session := by
    rintro rfl
    exact hhead (List.mem_map.mpr ⟨p, hp, rfl⟩)
  refine ⟨hnodup, fun p hp => ?_, fun p hp hmem => ?_⟩
  · exact hm₁.under (fun hg => hne p hp (hgone _ hg)) (h.under p (List.mem_cons_of_mem _ hp))
  · rw [reportedIn_append] at hmem
    rcases List.mem_append.mp hmem with hmem | hmem
    · exact h.new p (List.mem_cons_of_mem _ hp) hmem
    · exact hne p hp (hnew _ hmem)

theorem open_asked (h : Open i events) {ok : Bool} (hnew : ∀ m log, .closed i m log ∉ new) :
    Open i (events ++ .asked i user session ok m :: new) := by
  refine h.append fun m' log hmem => ?_
  rcases List.mem_cons.mp hmem with heq | hmem
  · cases heq
  · exact hnew m' log hmem

theorem drop_safe {e : LogoutCall P} {gone : SidKey → Prop} {forgotten : SessionId → Prop}
    (hdrop : m.Dropped m' gone forgotten)
    (he : ∀ s a s', s.map = m → sem handler opened i e s a s' → s' = { s with map := m' })
    (hs : At claims opened i m events s) :
    (LogoutHandler.call e).SafeAmong (sem handler opened) (Guarantee claims opened) i
      (fun _ => At claims opened i m' events) s := by
  refine Prog.Safe.call _ at_stable hs fun s a s' hs hX => ?_
  obtain rfl := he s a s' hs.map hX
  obtain ⟨hg, hs⟩ := hs.drop hdrop
  exact ⟨hg, at_safe hs fun _ hs => hs⟩

theorem endAll_safe {sub : String} (hsub : claims.sub = some sub)
    (owned : List (UserId × SessionId)) (hs : At claims opened i m events s)
    (hopen : Open i events) (hunmapped : claims.Unmapped m)
    (howned : Owned claims sub m events owned) :
    (handler.endAll claims.iss owned).SafeAmong (sem handler opened) (Guarantee claims opened) i
      (fun r s => ∃ failed m' events' ended, r = some failed ∧ At claims opened i m' events' s ∧
        Ended i owned m events failed m' events' ended) s := by
  -- over the sessions left; the map and the history are those at this turn of the loop
  induction owned generalizing m events s with
  | nil =>
    exact at_safe hs fun s hs => ⟨false, m, events, _, rfl, hs, ended_nil i m events⟩
  | cons p owned ih =>
    obtain ⟨user, session⟩ := p
    have hcleared := SidState.cleared_removeSession (hs.map ▸ hs.inv.sound) session
    have hnamed : claims.Names m user session :=
      .inr ⟨hunmapped, sub, hsub, howned.under _ List.mem_cons_self⟩
    have hnot : session ∉ owned.map (·.2) := (List.nodup_cons.mp howned.nodup).1
    refine Prog.Safe.bind (endOne_safe hs hnamed hopen (howned.new _ List.mem_cons_self)
      (drop_safe hcleared fun s _ s' hm hX => by rw [← hm]; exact hX)) fun r s hr => ?_
    rcases hr with ⟨rfl, hs⟩ | ⟨rfl, hs⟩
    · refine Prog.Safe.bind (ih hs (open_asked hopen fun _ _ hmem => nomatch eq_of_mem_reports hmem) (hunmapped.dropped hcleared)
        (howned.tail hcleared (fun _ h => h) fun _ => mem_reports)) fun r s hr => ?_
      obtain ⟨failed, m', events', ended, rfl, hs, hended⟩ := hr
      exact at_safe hs fun s hs => ⟨failed, m', events', _, rfl, hs, hended.cons_true hcleared⟩
    · refine Prog.Safe.bind (ih hs (open_asked hopen fun _ _ => List.not_mem_nil) hunmapped
        (howned.tail (.refl m) nofun (fun _ h => absurd h List.not_mem_nil))) fun r s hr => ?_
      obtain ⟨failed, m', events', ended, rfl, hs, hended⟩ := hr
      exact at_safe hs fun s hs => ⟨true, m', events', _, rfl, hs, hended.cons_false hnot⟩

structure Acted (claims : LogoutTokenClaims) (i : ι) (m : SidState) (failed : Bool) (m' : SidState)
    (events : List (LogoutEvent ι)) : Prop where
  isOpen : Open i events
  entered : .admitted i m ∈ events
  admitted : ∀ m₁, .admitted i m₁ ∈ events → m₁ = m
  failures : ∀ user session m₁, .asked i user session false m₁ ∈ events →
    failed = true ∧ m₁.Keeps m' session
  ended : failed = false → claims.Unmapped m' ∧ (claims.Unmapped m → claims.NoneLeft m') ∧
    ∀ user session, claims.Names m user session → ∃ m₁, .asked i user session true m₁ ∈ events
  clean : failed = true → ∀ session ∈ reportedIn events, claims.Unmapped m' ∧ m'.Gone session

theorem Begun.acted (h : Begun claims i m events) (hopen : ∀ m log, .closed i m log ∉ new)
    (hadmitted : ∀ m₁, .admitted i m₁ ∉ new)
    (hfailures : ∀ user session m₁, .asked i user session false m₁ ∈ new →
      failed = true ∧ m₁.Keeps m' session)
    (hended : failed = false → claims.Unmapped m' ∧ (claims.Unmapped m → claims.NoneLeft m') ∧
      ∀ user session, claims.Names m user session →
        ∃ m₁, .asked i user session true m₁ ∈ events ++ new)
    (hclean : failed = true → ∀ session ∈ reportedIn (events ++ new),
      claims.Unmapped m' ∧ m'.Gone session) : Acted claims i m failed m' (events ++ new) where
  isOpen m₁ log hmem := by
    rcases List.mem_append.mp hmem with hmem | hmem
    · cases h.own _ hmem rfl
    · exact hopen m₁ log hmem
  entered := List.mem_append_left _ h.entered
  admitted m₁ hmem := by
    rcases List.mem_append.mp hmem with hmem | hmem
    · exact (LogoutEvent.admitted.inj (h.own _ hmem rfl)).2
    · exact absurd hmem (hadmitted m₁)
  failures user session m₁ hmem := by
    rcases List.mem_append.mp hmem with hmem | hmem
    · cases h.own _ hmem rfl
    · exact hfailures user session m₁ hmem
  ended := hended
  clean := hclean

theorem Begun.isOpen (h : Begun claims i m events) : Open i events :=
  fun _ _ hmem => nomatch h.own _ hmem rfl

theorem Begun.of_ended {sub : String} (h : Begun claims i m events) (hsub : claims.sub = some sub)
    (hunmapped : claims.Unmapped m) (hsound : m.Sound)
    (hended : Ended i (m.subjectSessions claims.iss sub) m events failed m' events' ended) :
    Acted claims i m failed m' events' := by
  obtain ⟨new, rfl, hnew⟩ := hended.grown
  have hunmapped' := hunmapped.dropped hended.cleared
  refine h.acted (fun m₁ log hmem => hnew _ hmem) (fun m₁ hmem => hnew _ hmem)
    (fun user session m₁ hmem => (hnew _ hmem).2 rfl)
    (fun hfailed => ⟨hunmapped', fun _ => ?_, fun user session hnames => ?_⟩)
    fun _ session hmem => ⟨hunmapped', ?_⟩
  · intro sub' hsub' user session hunder
    obtain rfl := Option.some.inj (hsub.symm.trans hsub')
    have hbefore := SidState.Dropped.under hended.cleared hunder
    have hmem := (SidState.mem_subjectSessions hsound.indexed hsound.recorded).mpr hbefore
    exact hended.cleared.gone_of (hended.all hfailed _ hmem).1 user hunder.belongs
  · rcases hnames with ⟨sid, stored, hsid, hkey, -⟩ | ⟨-, sub', hsub', hunder⟩
    · cases (hunmapped sid hsid).symm.trans hkey
    · obtain rfl := Option.some.inj (hsub.symm.trans hsub')
      exact (hended.all hfailed _
        ((SidState.mem_subjectSessions hsound.indexed hsound.recorded).mpr hunder)).2
  · rw [reportedIn_append] at hmem
    rcases List.mem_append.mp hmem with hmem | hmem
    · exact fun user hb => (h.clean session hmem).2 user (SidState.Dropped.belongs hended.cleared hb)
    · obtain ⟨e, he, hreported⟩ := List.mem_filterMap.mp hmem
      cases e with
      | reported j other =>
        obtain rfl := Option.some.inj hreported
        exact hended.cleared.gone_of (hnew _ he).2
      | admitted => cases hreported
      | asked => cases hreported
      | closed => cases hreported

def Acts (claims : LogoutTokenClaims) (opened : Instant) (i : ι) (m : SidState) (r : Option Bool)
    (s : LogoutRun ι) : Prop :=
  ∃ failed m' events, r = some failed ∧ At claims opened i m' events s ∧
    Acted claims i m failed m' events

theorem endBySub_safe (hs : At claims opened i m events s) (hbegun : Begun claims i m events)
    (hunmapped : claims.Unmapped m) :
    (handler.endBySub claims).SafeAmong (sem handler opened) (Guarantee claims opened) i
      (Acts claims opened i m) s := by
  unfold LogoutHandler.endBySub
  cases hsub : claims.sub with
  | none =>
    have hnone : claims.NoneLeft m := fun sub hsub' => nomatch hsub.symm.trans hsub'
    refine at_safe hs fun s hs => ⟨false, m, events, rfl, hs, ?_⟩
    rw [← List.append_nil events]
    refine hbegun.acted (fun _ _ => List.not_mem_nil) (fun _ => List.not_mem_nil) nofun
      (fun _ => ⟨hunmapped, fun _ => hnone, fun user session hnames => ?_⟩) nofun
    rcases hnames with ⟨sid, stored, hsid, hkey, -⟩ | ⟨-, sub', hsub', -⟩
    · cases (hunmapped sid hsid).symm.trans hkey
    · cases hsub.symm.trans hsub'
  | some sub =>
    refine Prog.Safe.perform_bind _ at_stable hs ?_
    rintro s (owned : List (UserId × SessionId)) s' hs ⟨rfl, rfl⟩
    refine ⟨.refl claims opened i s', ?_⟩
    have hsound : m.Sound := hs.map ▸ hs.inv.sound
    have hunder (p : UserId × SessionId) (hp : p ∈ m.subjectSessions claims.iss sub) :
        m.Under claims.iss sub p.1 p.2 :=
      (SidState.mem_subjectSessions hsound.indexed hsound.recorded).mp hp
    have howned : Owned claims sub m events (m.subjectSessions claims.iss sub) :=
      { nodup := SidState.nodup_sessions hsound (hs.map ▸ hs.inv.oneUser) claims.iss sub
        under := hunder
        new := fun p hp hmem => (hbegun.clean p.2 hmem).2 p.1 (hunder p hp).belongs }
    rw [hs.map]
    refine (endAll_safe hsub _ hs hbegun.isOpen hunmapped howned).conseq fun r s hr => ?_
    obtain ⟨failed, m', events', ended, rfl, hs, hended⟩ := hr
    exact ⟨failed, m', events', rfl, hs, hbegun.of_ended hsub hunmapped hsound hended⟩

theorem Begun.mapped (h : Begun claims i m events) {sid : String} {stored : StoredSid}
    (hsid : claims.sid = some sid) (hkey : m.entries.lookup (claims.iss, sid) = some stored) :
    (∀ session, session ∉ reportedIn events) ∧ ¬claims.Unmapped m := by
  have hmapped : ¬claims.Unmapped m := fun hunmapped => by
    rw [hunmapped sid hsid] at hkey
    cases hkey
  exact ⟨fun session hmem => hmapped (h.clean session hmem).1, hmapped⟩

/-- The outcome of the `sid`, and what it leaves. -/
theorem endBySid_safe (hs : At claims opened i m events s) (hbegun : Begun claims i m events) :
    (handler.endBySid claims).SafeAmong (sem handler opened) (Guarantee claims opened) i
      (fun r s => r = some .unmapped ∧ claims.Unmapped m ∧ At claims opened i m events s ∨
        ∃ failed m' events', r = some (if failed then .failed else .ended) ∧
          At claims opened i m' events' s ∧ Acted claims i m failed m' events') s := by
  unfold LogoutHandler.endBySid
  cases hsid : claims.sid with
  | none =>
    exact at_safe hs fun s hs => .inl ⟨rfl, fun sid hsid' => (nomatch hsid.symm.trans hsid'), hs⟩
  | some sid =>
    refine Prog.Safe.perform_bind _ at_stable hs ?_
    rintro s (mapped : Option StoredSid) s' hs ⟨rfl, rfl⟩
    refine ⟨.refl claims opened i s', ?_⟩
    rw [hs.map]
    cases hkey : m.entries.lookup (claims.iss, sid) with
    | none =>
      refine at_safe hs fun s hs => .inl ⟨rfl, fun sid' hsid' => ?_, hs⟩
      obtain rfl := Option.some.inj (hsid.symm.trans hsid')
      exact hkey
    | some stored =>
      obtain ⟨hunreported, hmapped⟩ := hbegun.mapped hsid hkey
      have hdrop : m.Dropped (m.removeIf (claims.iss, sid) (·.session = stored.session)).2 _ _ :=
        SidState.dropped_removeIf hkey (decide_eq_true rfl)
      refine Prog.Safe.bind (endOne_safe hs (.inl ⟨sid, stored, hsid, hkey, rfl, rfl⟩)
        hbegun.isOpen (hunreported _)
        (drop_safe hdrop fun s _ s' hm hX => by rw [← hm]; exact hX)) fun r s hr => ?_
      rcases hr with ⟨rfl, hs⟩ | ⟨rfl, hs⟩
      · refine at_safe hs fun s hs => .inr ⟨false, _, _, rfl, hs, ?_⟩
        have hnew (e : LogoutEvent ι) (he : e ∈ .asked i stored.user stored.session true m ::
            reports handler i stored.session) :
            e = .asked i stored.user stored.session true m ∨ e = .reported i stored.session :=
          (List.mem_cons.mp he).imp_right eq_of_mem_reports
        refine hbegun.acted (fun m₁ log hmem => ?_) (fun m₁ hmem => ?_)
          (fun user session m₁ hmem => ?_) (fun _ => ⟨fun sid' hsid' => ?_, (absurd · hmapped),
            fun user session hnames => ?_⟩) nofun
        · rcases hnew _ hmem with heq | heq <;> cases heq
        · rcases hnew _ hmem with heq | heq <;> cases heq
        · rcases hnew _ hmem with heq | heq <;> cases heq
        · obtain rfl := Option.some.inj (hsid.symm.trans hsid')
          exact hdrop.unmapped _ rfl
        · rcases hnames with ⟨sid', stored', hsid', hkey', rfl, rfl⟩ | ⟨hunmapped, -⟩
          · obtain rfl := Option.some.inj (hsid.symm.trans hsid')
            obtain rfl := Option.some.inj (hkey.symm.trans hkey')
            exact ⟨m, by simp⟩
          · exact absurd hunmapped hmapped
      · refine at_safe hs fun s hs => .inr ⟨true, _, _, rfl, hs, ?_⟩
        refine hbegun.acted (fun m₁ log hmem => ?_) (fun m₁ hmem => ?_)
          (fun user session m₁ hmem => ?_) nofun fun _ session hmem => ?_
        · cases List.mem_singleton.mp hmem
        · cases List.mem_singleton.mp hmem
        · cases List.mem_singleton.mp hmem
          exact ⟨rfl, fun _ _ hkey _ => hkey, rfl⟩
        · exact hbegun.clean session (by simpa [reportedIn] using hmem)

theorem actOn_safe (hs : At claims opened i m events s) (hbegun : Begun claims i m events) :
    (handler.actOn claims).SafeAmong (sem handler opened) (Guarantee claims opened) i
      (Acts claims opened i m) s := by
  refine Prog.Safe.bind (endBySid_safe hs hbegun) fun r s hr => ?_
  rcases hr with ⟨rfl, hunmapped, hs⟩ | ⟨failed, m', events', rfl, hs, hacted⟩
  · exact endBySub_safe hs hbegun hunmapped
  · cases failed with
    | false => exact at_safe hs fun s hs => ⟨false, m', events', rfl, hs, hacted⟩
    | true => exact at_safe hs fun s hs => ⟨true, m', events', rfl, hs, hacted⟩

/-! ## The end of a delivery -/

theorem Held.acting (h : Held claims opened (.acting i) log) :
    ∃ entry, log.entries.lookup claims.pair = some entry ∧ opened ≤ entry.seenAt := by
  have hflight := h.inFlight
  cases hentry : log.entries.lookup claims.pair with
  | none =>
    rw [hentry] at hflight
    cases hflight
  | some entry => exact ⟨entry, rfl, h.since entry hentry⟩

theorem Held.settle (h : Held claims opened (.acting i) log) :
    Held claims opened (.done : Turn ι) (log.settle claims.pair) := by
  obtain ⟨entry, hentry, hsince⟩ := h.acting
  have hlookup : (log.settle claims.pair).entries.lookup claims.pair =
      some { entry with inFlight := false } := by
    rw [JtiLog.lookup_settle, if_pos rfl, hentry]
    rfl
  refine ⟨h.ordered.settle _, ?_, fun entry' hentry' => ?_⟩
  · rw [hlookup]
    rfl
  · rw [hlookup] at hentry'
    cases hentry'
    exact hsince

theorem Held.forget (h : Held claims opened (.acting i) log) :
    Held claims opened (.free : Turn ι) (log.forget claims.pair).2 := by
  have hlookup : (log.forget claims.pair).2.entries.lookup claims.pair = none := by
    rw [JtiLog.lookup_forget, if_pos rfl]
  refine ⟨h.ordered.forget _, ?_, fun entry hentry => ?_⟩
  · rw [hlookup]
    rfl
  · rw [hlookup] at hentry
    cases hentry

structure Returned (claims : LogoutTokenClaims) (opened : Instant) (i : ι)
    (r : Option (Except Status Status)) (s : LogoutRun ι) : Prop where
  inv : Inv claims opened s
  failed : ∀ user session m, .asked i user session false m ∈ s.events →
    r = some (.error .serviceUnavailable) ∧ ∃ m' log, .closed i m' log ∈ s.events
  ok : r = some (.ok .ok) → s.turn = .done ∧ (∃ m, .admitted i m ∈ s.events) ∧
    ∀ m, .admitted i m ∈ s.events → (claims.Unmapped m → claims.NoneLeft s.map) ∧
      ∀ user session, claims.Names m user session → ∃ m₁, .asked i user session true m₁ ∈ s.events

theorem returned_stable (r : Option (Except Status Status)) :
    Stable (Pool.others (Guarantee claims opened) i) (Returned claims opened i r) := by
  rintro s s' ⟨hinv, hfailed, hok⟩ ⟨j, hne, hg⟩
  obtain ⟨hinv', hframe⟩ := hg hinv
  refine ⟨hinv', fun user session m hmem => ?_, fun hr => ?_⟩
  · obtain ⟨hr, m', log, hclosed⟩ := hfailed user session m (hframe.own _ hmem hne.symm)
    exact ⟨hr, m', log, hframe.events _ hclosed⟩
  · obtain ⟨hdone, hnone⟩ := hok hr
    obtain ⟨hmap, hturn, hevents⟩ := hframe.still (by rw [hdone]; nofun) (by rw [hdone]; nofun)
    rw [hmap, hturn, hevents]
    exact ⟨hdone, hnone⟩

theorem returned_safe {r : Option (Except Status Status)} (h : Returned claims opened i r s) :
    (pure r : LogoutProg P _).SafeAmong (sem handler opened) (Guarantee claims opened) i
      (Returned claims opened i) s :=
  Prog.Safe.ret (Returned claims opened i r) (returned_stable r) h fun _ h => h

theorem Silent.returned (h : Silent claims opened i s) {r : Option (Except Status Status)}
    (hr : r ≠ some (.ok .ok)) : Returned claims opened i r s :=
  ⟨h.inv, fun _ _ _ hmem => absurd rfl (h.nothing _ hmem), (absurd · hr)⟩

theorem At.close (h : At claims opened i m events s) {turn : Turn ι}
    (hheld : Held claims opened turn log)
    (hhistory : History claims (events ++ [.closed i m log]))
    (hclean : turn = .free → ∀ session ∈ reportedIn events, claims.Unmapped m ∧ m.Gone session)
    (hdone : turn = .done → claims.Unmapped m) :
    Guarantee claims opened i s ⟨s.map, log, turn, s.events ++ [.closed i s.map log]⟩ ∧
      Inv claims opened ⟨s.map, log, turn, s.events ++ [.closed i s.map log]⟩ := by
  obtain ⟨hinv, hturn, rfl, rfl⟩ := h
  have hinv' : Inv claims opened ⟨s.map, log, turn, s.events ++ [.closed i s.map log]⟩ :=
    { sound := hinv.sound
      oneUser := hinv.oneUser
      held := hheld
      history := hhistory
      clean := by simpa [reportedIn] using hclean
      done := hdone }
  refine ⟨fun _ => ⟨hinv', fun e he => List.mem_append_left _ he, fun e he hne => ?_,
    fun _ hnot => absurd hturn hnot⟩, hinv'⟩
  refine (List.mem_append.mp he).resolve_right fun hnew => hne ?_
  rw [List.mem_singleton.mp hnew]
  rfl

theorem acting_safe (hs : Entered claims opened i s) :
    (handler.acting claims).SafeAmong (sem handler opened) (Guarantee claims opened) i
      (Returned claims opened i) s := by
  obtain ⟨m, events, hs, hbegun⟩ := hs
  refine Prog.Safe.bind (actOn_safe hs hbegun) fun r s hr => ?_
  obtain ⟨failed, m', events', rfl, hs, hacted⟩ := hr
  cases failed with
  | false =>
    refine Prog.Safe.perform_bind _ at_stable hs ?_
    rintro s _ s' hs rfl
    obtain ⟨hunmapped, hnone, hasked⟩ := hacted.ended rfl
    have hfailures (user : UserId) (session : SessionId) (m₁ : SidState) :
        .asked i user session false m₁ ∉ events' :=
      fun hmem => nomatch (hacted.failures user session m₁ hmem).1
    have hheld := Held.settle (hs.turn ▸ hs.inv.held)
    obtain ⟨hg, hinv⟩ := hs.close hheld
      ((hs.history ▸ hs.inv.history).closed fun user session m₁ hmem =>
        absurd hmem (hfailures user session m₁)) nofun fun _ => hunmapped
    refine ⟨hg, returned_safe ⟨hinv, fun user session m₁ hmem => ?_, fun _ => ⟨rfl, ?_⟩⟩⟩
    · rw [hs.history] at hmem
      exact absurd (by simpa using hmem) (hfailures user session m₁)
    · refine ⟨⟨m, List.mem_append_left _ (hs.history ▸ hacted.entered)⟩, fun m₁ hmem => ?_⟩
      rw [hs.history] at hmem ⊢
      rw [hacted.admitted m₁ (by simpa using hmem)]
      refine ⟨?_, fun user session hnames =>
        (hasked user session hnames).imp fun _ => List.mem_append_left _⟩
      show _ → claims.NoneLeft s.map
      rw [hs.map]
      exact hnone
  | true =>
    refine Prog.Safe.perform_bind _ at_stable hs ?_
    rintro s _ s' hs rfl
    have hforgot : (s.log.forget claims.pair).2.entries.lookup claims.pair = none := by
      rw [JtiLog.lookup_forget, if_pos rfl]
    have hheld := Held.forget (hs.turn ▸ hs.inv.held)
    obtain ⟨hg, hinv⟩ := hs.close hheld
      ((hs.history ▸ hs.inv.history).closed fun user session m₁ hmem =>
        ⟨(hacted.failures user session m₁ hmem).2, hforgot⟩) (fun _ => hacted.clean rfl) nofun
    exact ⟨hg, returned_safe ⟨hinv, fun _ _ _ _ => ⟨rfl, _, _,
      List.mem_append_right _ (List.mem_singleton_self _)⟩, nofun⟩⟩

theorem handleOutcome_safe {token : List Char} {iat : Int}
    (hclaims : handler.claimsOf token = some (claims, iat)) (hs : Silent claims opened i s) :
    (handler.handleOutcome token).SafeAmong (sem handler opened) (Guarantee claims opened) i
      (Returned claims opened i) s := by
  have hvalidating : Validating handler token (sem handler opened i)
      (Pool.others (Guarantee claims opened) i) (Guarantee claims opened i)
      (Silent claims opened i) (fun _ _ => True) :=
    { stable := silent_stable
      read_stable := fun _ _ _ _ _ => trivial
      call := fun e s a s' he hX hs => by
        have hsame : s' = s := by
          cases e with
          | providersForIssuer => exact hX.2
          | verifyLogoutJwt => exact hX.2
          | refreshJwks => exact hX.2
          | clock => exact hX.2.2
          | _ => exact he.elim
        subst hsame
        exact ⟨.refl claims opened i s', hs⟩
      verified := fun _ _ payload _ hX => hX.1 payload rfl
      clock := fun _ _ _ _ _ => trivial }
  refine Prog.Safe.bind (hvalidating.validateLogoutToken_safe hs) fun validated s hvalidated => ?_
  obtain ⟨hs, hvalid⟩ := hvalidated
  rcases validated with - | - | claims'
  · exact returned_safe (hs.returned nofun)
  · exact returned_safe (hs.returned nofun)
  obtain ⟨-, iat', -, hclaims', -⟩ := hvalid claims' rfl
  obtain ⟨rfl, -⟩ := Prod.mk.inj (Option.some.inj (hclaims.symm.trans hclaims'))
  refine Prog.Safe.bind (admitJti_safe hs) fun admitted s hadmitted => ?_
  cases admitted with
  | error status => exact returned_safe (hadmitted.returned nofun)
  | ok _ => exact acting_safe hadmitted

end LogoutRun

/-! ## Its own sessions, and the rest on a retry -/

/-- The sessions asked to end are the token's; one that did not end keeps its mappings, and the
token is not spent; none is reported twice; and when a delivery answers success the token is
spent, every session that it named was ended and nothing that it names is left. -/
theorem logout_token_ends_its_sessions [DecidableEq ι] {handler : LogoutHandler P}
    {token : List Char} {claims : LogoutTokenClaims} {iat : Int}
    (hclaims : handler.claimsOf token = some (claims, iat)) {map : SidState}
    (hmap : map.Reachable) (hone : map.OneUser) {log : JtiLog} (hlog : log.Ordered)
    (hnew : log.entries.lookup claims.pair = none) {opened : Instant}
    {pool : Pool ι (LogoutCall P) LogoutCall.Answer (Option (Except Status Status)) (LogoutRun ι)}
    (hrun : Pool.Reaches (LogoutRun.sem handler opened)
      ⟨fun _ => handler.handleOutcome token, ⟨map, log, .free, []⟩⟩ pool) :
    (∀ i user session ended m, .asked i user session ended m ∈ pool.state.events →
      claims.Names m user session) ∧
    (∀ i user session m, .asked i user session false m ∈ pool.state.events →
      (∀ r, pool.prog i = .ret r → r = some (.error .serviceUnavailable) ∧
        ∃ m' log', .closed i m' log' ∈ pool.state.events) ∧
      ∀ m' log', .closed i m' log' ∈ pool.state.events →
        m.Keeps m' session ∧ log'.entries.lookup claims.pair = none) ∧
    (reportedIn pool.state.events).Nodup ∧
    ∀ i, pool.prog i = .ret (some (.ok .ok)) →
      (∃ entry, pool.state.log.entries.lookup claims.pair = some entry ∧
        entry.inFlight = false) ∧
      claims.Unmapped pool.state.map ∧ (∃ m, .admitted i m ∈ pool.state.events) ∧
      ∀ m, .admitted i m ∈ pool.state.events →
        (claims.Unmapped m → claims.NoneLeft pool.state.map) ∧
        ∀ user session, claims.Names m user session →
          ∃ m', .asked i user session true m' ∈ pool.state.events := by
  have hstart : LogoutRun.Inv claims opened (⟨map, log, .free, []⟩ : LogoutRun ι) :=
    { sound := hmap.sound
      oneUser := hone
      held := ⟨hlog, by rw [hnew]; rfl, fun entry hentry => nomatch hnew.symm.trans hentry⟩
      history := ⟨nofun, nofun, List.nodup_nil⟩
      clean := fun _ => nofun
      done := nofun }
  have hsafe : Pool.AllSafe (LogoutRun.sem handler opened) (LogoutRun.Guarantee claims opened)
      (LogoutRun.Returned claims opened)
      ⟨fun _ => handler.handleOutcome token, ⟨map, log, .free, []⟩⟩ :=
    fun _ => LogoutRun.handleOutcome_safe hclaims ⟨hstart, nofun⟩
  have hinv : LogoutRun.Inv claims opened pool.state :=
    hrun.invariant hsafe (fun _ _ _ hg h => (hg h).1) hstart
  refine ⟨hinv.history.named, fun i user session m hmem => ⟨fun r hr => ?_,
    fun m' log' => hinv.history.kept i user session m m' log' hmem⟩, hinv.history.once,
    fun i hi => ?_⟩
  · exact (hrun.post hsafe hr).failed user session m hmem
  · obtain ⟨hdone, hnone⟩ := (hrun.post hsafe hi).ok rfl
    refine ⟨?_, hinv.done hdone, hnone⟩
    have hflight := hinv.held.inFlight
    rw [hdone] at hflight
    exact Option.map_eq_some_iff.mp hflight

namespace Retried

open SampleToken

def claims : LogoutTokenClaims := ⟨some "ada", none, "https://op", "t1"⟩

def map : SidState :=
  (SidState.empty.registerSubject "https://op" "ada" ⟨7⟩ ⟨1⟩).registerSubject "https://op" "ada"
    ⟨7⟩ ⟨2⟩

theorem reachable_map : map.Reachable :=
  .tail (.tail .refl (.registerSubject "https://op" "ada" ⟨7⟩ ⟨1⟩))
    (.registerSubject "https://op" "ada" ⟨7⟩ ⟨2⟩)

theorem oneUser_map : map.OneUser := by
  have huser (user : UserId) (session : SessionId) (h : map.Belongs user session) :
      user = ⟨7⟩ := by
    rcases h with ⟨key, stored, hkey, -⟩ | ⟨held, hheld, rfl⟩
    · cases hkey
    · have hentries : ∀ e ∈ map.subjectOf.entries, e.2.user = ⟨7⟩ := by decide
      exact hentries _ (AList.mem_lookup_iff.mp hheld)
  intro session user user' h h'
  rw [huser user session h, huser user' session h']

def answering : Pool.Answerer (Fin 3) Bool (LogoutCall Unit) LogoutCall.Answer
    (LogoutRun (Fin 3))
  | _, _, .providersForIssuer _, s => (some (.error ()), s)
  | _, _, .verifyLogoutJwt _ token, s =>
    (verified token, s)
  | _, _, .refreshJwks _, s => (some (.ok ()), s)
  | _, _, .clock, s => (1000 * second, s)
  | i, _, .record pair now cutoff, s =>
    let r := s.log.record handler.jtiCacheMax pair now cutoff
    (r.1, { s with
      log := r.2
      turn := if r.1 = .new then .acting i else s.turn
      events := if r.1 = .new then s.events ++ [.admitted i s.map] else s.events })
  | i, _, .settle pair, s =>
    ((), ⟨s.map, s.log.settle pair, .done, s.events ++ [.closed i s.map (s.log.settle pair)]⟩)
  | i, _, .forget pair, s =>
    ((), ⟨s.map, (s.log.forget pair).2, .free,
      s.events ++ [.closed i s.map (s.log.forget pair).2]⟩)
  | _, _, .sidGet key, s => (s.map.entries.lookup key, s)
  | _, _, .sidRemoveIf key session, s =>
    ((), { s with map := (s.map.removeIf key (·.session = session)).2 })
  | _, _, .subjectSessions iss sub, s => (s.map.subjectSessions iss sub, s)
  | _, _, .removeSession session, s => ((), { s with map := (s.map.removeSession session).2 })
  | i, ends, .invalidateSession user session, s =>
    (some (if ends then .ok () else .error ()),
      { s with events := s.events ++ [.asked i user session ends s.map] })
  | i, _, .reportEnded _ _ session, s =>
    (some (), { s with events := s.events ++ [.reported i session] })

theorem sem_answering (i : Fin 3) (ends : Bool) (e : LogoutCall Unit) (s : LogoutRun (Fin 3)) :
    LogoutRun.sem handler (1000 * second) i e s (answering i ends e s).1
      (answering i ends e s).2 := by
  cases e with
  | verifyLogoutJwt provider token =>
    exact ⟨fun payload => payload_of_verified, rfl⟩
  | clock =>
    have hwithin : (1000 * second : Int) ≤ 1000 * second + jtiRetentionSecs * second := by decide
    exact ⟨Int.le_refl _, hwithin, rfl⟩
  | invalidateSession user session => cases ends <;> exact ⟨_, rfl, rfl⟩
  | settle => rfl
  | forget => rfl
  | sidRemoveIf => rfl
  | removeSession => rfl
  | _ => exact ⟨rfl, rfl⟩

/-- The registry ends one of the sessions and not the other; a second delivery comes before that is
over, and a third one after it. -/
def run : Pool (Fin 3) (LogoutCall Unit) LogoutCall.Answer (Option (Except Status Status))
    (LogoutRun (Fin 3)) :=
  Pool.replay answering
    (Pool.turns [(8, 0, true), (4, 1, true), (2, 0, false), (9, 2, true)])
    ⟨fun _ => handler.handleOutcome token, ⟨map, .empty, .free, []⟩⟩

end Retried

open Retried

open SampleToken in
theorem logout_token_ends_the_rest_on_retry :
    run.prog 0 = .ret (some (.error .serviceUnavailable)) ∧
    run.prog 1 = .ret (some (.error .serviceUnavailable)) ∧
    run.prog 2 = .ret (some (.ok .ok)) ∧
    reportedIn run.state.events = [⟨1⟩, ⟨2⟩] ∧
    claims.NoneLeft run.state.map ∧
    ∃ m, .asked 2 ⟨7⟩ ⟨2⟩ true m ∈ run.state.events := by
  have hthird : run.prog 2 = .ret (some (.ok .ok)) := Prog.eq_ret_of_returned rfl
  have hrun : Pool.Reaches (LogoutRun.sem handler (1000 * second))
      ⟨fun _ : Fin 3 => handler.handleOutcome token, ⟨map, .empty, .free, []⟩⟩ run :=
    Pool.reaches_replay sem_answering _ _
  have hclaims : handler.claimsOf token = some (claims, 1000) := by decide +kernel
  have hadmitted : .admitted 2 (map.removeSession ⟨1⟩).2 ∈ run.state.events :=
    List.mem_of_getElem? (i := 5) rfl
  obtain ⟨hnone, hended⟩ := ((logout_token_ends_its_sessions hclaims reachable_map
    oneUser_map JtiLog.ordered_empty rfl hrun).2.2.2 2 hthird).2.2.2 _ hadmitted
  exact ⟨Prog.eq_ret_of_returned rfl, Prog.eq_ret_of_returned rfl, hthird, by decide +kernel,
    hnone nofun, hended _ _ (.inr ⟨nofun, "ada", rfl, .inl rfl⟩)⟩

end Axess
