import Axess.Federation.Validate

/-!
# A logout token is acted on once

A token is acceptable while the whole seconds of the clock are within 60 before and 300 after its
issue, which is 361 seconds less one tick. Its pair is kept for 360 seconds from when it was seen,
by the instant. In the last second the pair can be gone while the token is still acceptable.

Any number of deliveries share one log. Time passes at any call and never runs back. The other calls
of a delivery are answered in any way.
-/

namespace Axess

open Calls

variable {ι P : Type}

inductive LogEvent (ι : Type) where
  | admitted (i : ι)
  | settled (i : ι)
  | forgotten (i : ι)
  deriving DecidableEq

def LogEvent.who : LogEvent ι → ι
  | admitted i => i
  | settled i => i
  | forgotten i => i

structure LogRun (ι : Type) where
  log : JtiLog
  now : Instant
  events : List (LogEvent ι)

def LogoutHandler.tokenOf (handler : LogoutHandler P) (token : List Char) :
    Option ((String × String) × Int) :=
  (handler.claimsOf token).map fun (claims, iat) => (claims.pair, iat)

namespace Retaining

variable (handler : LogoutHandler P) (token : ι → List Char)

def Quiet (s s' : LogRun ι) : Prop := s.now ≤ s'.now ∧ s'.log = s.log ∧ s'.events = s.events

def sem (i : ι) : Sem (LogoutCall P) LogoutCall.Answer (LogRun ι)
  | .clock, s, (a : Instant), s' => a = s'.now ∧ Quiet s s'
  | .verifyLogoutJwt _ token, s, (a : Except VerifyError Json), s' =>
    (∀ payload, a = .ok payload → decodeJwtPayload handler.parseJson token = some payload) ∧
      Quiet s s'
  | .record pair now cutoff, s, (a : Recorded), s' => s.now ≤ s'.now ∧
      a = (s.log.record handler.jtiCacheMax pair now cutoff).1 ∧
      s'.log = (s.log.record handler.jtiCacheMax pair now cutoff).2 ∧
      s'.events = if a = .new then s.events ++ [.admitted i] else s.events
  | .settle pair, s, _, s' =>
    s.now ≤ s'.now ∧ s'.log = s.log.settle pair ∧ s'.events = s.events ++ [.settled i]
  | .forget pair, s, _, s' =>
    s.now ≤ s'.now ∧ s'.log = (s.log.forget pair).2 ∧ s'.events = s.events ++ [.forgotten i]
  | _, s, _, s' => Quiet s s'

/-- The time of issue is behind by more than a token may be. -/
def Overdue (iat : Int) (s : LogRun ι) : Prop := (iat + maxIatAgeSecs) * second < s.now

/-- The same, and a delivery reaches the log while its token is not overdue. -/
def prompt (i : ι) : Sem (LogoutCall P) LogoutCall.Answer (LogRun ι) := fun e s a s' =>
  sem handler i e s a s' ∧
    match e with
    | .record .. => ∀ pair iat, handler.tokenOf (token i) = some (pair, iat) → ¬Overdue iat s'
    | _ => True

/-! ## What every run keeps -/

def Silent (i : ι) (s : LogRun ι) : Prop :=
  .admitted i ∉ s.events ∧ .settled i ∉ s.events ∧ .forgotten i ∉ s.events

def Acting (i : ι) (s : LogRun ι) : Prop :=
  .admitted i ∈ s.events ∧ .settled i ∉ s.events ∧ .forgotten i ∉ s.events

/-- The pair is held since the token became acceptable. -/
def Held (pair : String × String) (iat : Int) (inFlight : Bool) (s : LogRun ι) : Prop :=
  ∃ entry, s.log.entries.lookup pair = some entry ∧ entry.inFlight = inFlight ∧
    (iat - maxIatFutureSecs) * second ≤ entry.seenAt

structure Inv (s : LogRun ι) : Prop where
  ordered : s.log.Ordered
  acting : ∀ i pair iat, handler.tokenOf (token i) = some (pair, iat) → Acting i s →
    Overdue iat s ∨ Held pair iat true s
  settled : ∀ i pair iat, handler.tokenOf (token i) = some (pair, iat) → .settled i ∈ s.events →
    Overdue iat s ∨ Held pair iat false s
  alone : ∀ i j pair iat, handler.tokenOf (token i) = some (pair, iat) →
    handler.tokenOf (token j) = some (pair, iat) → Acting i s → Acting j s → i ≠ j →
    Overdue iat s
  final : ∀ earlier later j, s.events = earlier ++ .admitted j :: later → ∀ i,
    .settled i ∈ earlier → ∀ pair iat, handler.tokenOf (token i) = some (pair, iat) →
    handler.tokenOf (token j) ≠ some (pair, iat)

inductive Guarantee (i : ι) (s s' : LogRun ι) : Prop where
  | quiet : Quiet s s' → Guarantee i s s'
  | record (pair : String × String) (iat : Int) (now : Instant) :
      handler.tokenOf (token i) = some (pair, iat) → Silent i s → s.now ≤ s'.now →
      (iat - maxIatFutureSecs) * second ≤ now → now ≤ s.now → ¬Overdue iat s' →
      s'.log = (s.log.record handler.jtiCacheMax pair now (now - jtiRetentionSecs * second)).2 →
      s'.events = (if (s.log.record handler.jtiCacheMax pair now
        (now - jtiRetentionSecs * second)).1 = .new then s.events ++ [.admitted i] else s.events) →
      Guarantee i s s'
  | settle (pair : String × String) (iat : Int) :
      handler.tokenOf (token i) = some (pair, iat) → Acting i s → s.now ≤ s'.now →
      s'.log = s.log.settle pair → s'.events = s.events ++ [.settled i] → Guarantee i s s'
  | forget (pair : String × String) (iat : Int) :
      handler.tokenOf (token i) = some (pair, iat) → Acting i s → s.now ≤ s'.now →
      s'.log = (s.log.forget pair).2 → s'.events = s.events ++ [.forgotten i] → Guarantee i s s'

variable {handler token} {i j : ι} {s s' : LogRun ι} {pair : String × String} {iat : Int}

theorem inv_start (now : Instant) : Inv handler token (⟨.empty, now, []⟩ : LogRun ι) where
  ordered := JtiLog.ordered_empty
  acting _ _ _ _ h := absurd h.1 List.not_mem_nil
  settled _ _ _ _ h := absurd h List.not_mem_nil
  alone _ _ _ _ _ _ h := absurd h.1 List.not_mem_nil
  final earlier later j h := by simp at h

theorem Overdue.mono (h : Overdue iat s) (hnow : s.now ≤ s'.now) : Overdue iat s' :=
  lt_of_lt_of_le h hnow

theorem Held.expire {b : Bool} (h : Held pair iat b s) (hordered : s.log.Ordered) {now : Instant}
    (hnow : ¬(iat + maxIatAgeSecs) * second < now) :
    ∃ entry, (s.log.expireBefore (now - jtiRetentionSecs * second)).entries.lookup pair =
      some entry ∧ entry.inFlight = b ∧ (iat - maxIatFutureSecs) * second ≤ entry.seenAt := by
  obtain ⟨entry, hentry, hflight, hfresh⟩ := h
  refine ⟨entry, hordered.lookup_expireBefore hentry ?_, hflight, hfresh⟩
  have hspan : (iat + maxIatAgeSecs) * second - jtiRetentionSecs * second =
      (iat - maxIatFutureSecs) * second := by
    unfold jtiRetentionSecs
    ring
  have hle : now ≤ (iat + maxIatAgeSecs) * second := not_lt.mp hnow
  calc now - jtiRetentionSecs * second
      ≤ (iat + maxIatAgeSecs) * second - jtiRetentionSecs * second := sub_le_sub_right hle _
    _ = (iat - maxIatFutureSecs) * second := hspan
    _ ≤ entry.seenAt := hfresh

theorem Held.of_lookup {b : Bool} (h : Held pair iat b s)
    (hlookup : s'.log.entries.lookup pair = s.log.entries.lookup pair) : Held pair iat b s' := by
  unfold Held
  rw [hlookup]
  exact h

theorem Held.flag {b b' : Bool} {iat' : Int} (h : Held pair iat b s) (h' : Held pair iat' b' s) :
    b = b' := by
  obtain ⟨entry, hentry, rfl, -⟩ := h
  obtain ⟨entry', hentry', rfl, -⟩ := h'
  rw [Option.some.inj (hentry.symm.trans hentry')]

theorem admitted_of_snoc {events earlier later : List (LogEvent ι)} {e : LogEvent ι}
    (h : events ++ [e] = earlier ++ .admitted j :: later) (he : e ≠ .admitted j) :
    ∃ later', events = earlier ++ .admitted j :: later' := by
  rcases List.eq_nil_or_concat' later with rfl | ⟨later', x, rfl⟩
  · exact absurd (List.append_inj_right' h rfl) fun heq => he (List.cons.inj heq).1
  · rw [← List.cons_append, ← List.append_assoc] at h
    exact ⟨later', List.append_inj_left' h rfl⟩

section Step

variable (hunique : ∀ i j pair iat iat', handler.tokenOf (token i) = some (pair, iat) →
  handler.tokenOf (token j) = some (pair, iat') → iat = iat')

theorem Inv.of_events (h : Inv handler token s) (hnow : s.now ≤ s'.now) (hordered : s'.log.Ordered)
    (hheld : ∀ {b : Bool} {pair : String × String} {iat : Int}, Overdue iat s ∨ Held pair iat b s →
      Overdue iat s' ∨ Held pair iat b s')
    (hevents : s'.events = s.events) : Inv handler token s' := by
  have hacting {i : ι} (hi : Acting i s') : Acting i s := by
    unfold Acting at hi
    rw [hevents] at hi
    exact hi
  exact
    { ordered := hordered
      acting := fun i pair iat hi ha => hheld (h.acting i pair iat hi (hacting ha))
      settled := fun i pair iat hi hs => hheld (h.settled i pair iat hi (hevents ▸ hs))
      alone := fun i j pair iat hi hj ha ha' hne =>
        (h.alone i j pair iat hi hj (hacting ha) (hacting ha') hne).mono hnow
      final := by rw [hevents]; exact h.final }

theorem Inv.quiet (h : Inv handler token s) (hq : Quiet s s') : Inv handler token s' := by
  obtain ⟨hnow, hlog, hevents⟩ := hq
  exact h.of_events hnow (hlog ▸ h.ordered)
    (fun hs => hs.imp (·.mono hnow) (·.of_lookup (by rw [hlog]))) hevents

theorem Inv.expired (h : Inv handler token s) {b : Bool} {now : Instant} (hnow : now ≤ s'.now)
    (hle : s.now ≤ s'.now) (hs : Overdue iat s ∨ Held pair iat b s) :
    Overdue iat s' ∨
      ∃ entry, (s.log.expireBefore (now - jtiRetentionSecs * second)).entries.lookup pair =
        some entry ∧ entry.inFlight = b ∧ (iat - maxIatFutureSecs) * second ≤ entry.seenAt := by
  rcases hs with hover | hheld
  · exact .inl (hover.mono hle)
  · by_cases hover : Overdue iat s'
    · exact .inl hover
    · exact .inr (hheld.expire h.ordered fun hlt => hover (lt_of_lt_of_le hlt hnow))

theorem Inv.refused (h : Inv handler token s) {now : Instant} (hnow : now ≤ s'.now)
    (hle : s.now ≤ s'.now) (hlog : s'.log = s.log.expireBefore (now - jtiRetentionSecs * second))
    (hevents : s'.events = s.events) : Inv handler token s' := by
  refine h.of_events hle (hlog ▸ h.ordered.expireBefore _) (fun hs => ?_) hevents
  refine (h.expired hnow hle hs).imp_right fun hentry => ?_
  unfold Held
  rw [hlog]
  exact hentry

include hunique in
theorem Inv.admitted (h : Inv handler token s) {now : Instant}
    (hkey : handler.tokenOf (token i) = some (pair, iat)) (hfresh : (iat - maxIatFutureSecs) * second ≤ now)
    (hnow : now ≤ s'.now) (hle : s.now ≤ s'.now) (hprompt : ¬Overdue iat s')
    (hnone : (s.log.expireBefore (now - jtiRetentionSecs * second)).entries.lookup pair = none)
    (hlog : s'.log = ⟨(s.log.expireBefore (now - jtiRetentionSecs * second)).entries.insert pair
      ⟨now, true⟩, (s.log.expireBefore (now - jtiRetentionSecs * second)).order ++ [(now, pair)]⟩)
    (hevents : s'.events = s.events ++ [.admitted i]) : Inv handler token s' := by
  -- nothing that is not overdue holds the pair
  have hfree {b : Bool} (hs : Overdue iat s ∨ Held pair iat b s) : False := by
    rcases h.expired hnow hle hs with hover | ⟨entry, hentry, -⟩
    · exact hprompt hover
    · rw [hnone] at hentry
      cases hentry
  have hother {b : Bool} {pair' : String × String} {iat' : Int} (hne : pair' ≠ pair)
      (hs : Overdue iat' s ∨ Held pair' iat' b s) : Overdue iat' s' ∨ Held pair' iat' b s' := by
    refine (h.expired hnow hle hs).imp_right fun hentry => ?_
    unfold Held
    rw [hlog]
    show ∃ entry, ((s.log.expireBefore _).entries.insert pair _).lookup pair' = some entry ∧ _
    rw [AList.lookup_insert_ne hne]
    exact hentry
  have hacting {k : ι} (hne : k ≠ i) (hk : Acting k s') : Acting k s := by
    unfold Acting at hk
    rw [hevents] at hk
    simp only [List.mem_append, List.mem_singleton, LogEvent.admitted.injEq, hne, or_false,
      reduceCtorEq] at hk
    exact hk
  have hsettled {k : ι} (hk : .settled k ∈ s'.events) : .settled k ∈ s.events := by
    rw [hevents] at hk
    simpa using hk
  have hpair {k : ι} {b : Bool} {pair' : String × String} {iat' : Int}
      (hk : handler.tokenOf (token k) = some (pair', iat'))
      (hs : Overdue iat' s ∨ Held pair' iat' b s) : pair' ≠ pair := by
    rintro rfl
    obtain rfl := hunique k i pair' iat' iat hk hkey
    exact hfree hs
  refine ⟨?_, fun k pair' iat' hk ha => ?_, fun k pair' iat' hk hs => ?_,
    fun k l pair' iat' hk hl ha ha' hne => ?_, fun earlier later k heq l hl pair' iat' hk hk' => ?_⟩
  · rw [hlog]
    exact (h.ordered.expireBefore _).insert (AList.lookup_eq_none.mp hnone) ⟨now, true⟩
      (List.perm_append_singleton _ _)
  · by_cases hki : k = i
    · subst hki
      obtain ⟨rfl, rfl⟩ := Prod.mk.inj (Option.some.inj (hkey.symm.trans hk))
      refine .inr ⟨⟨now, true⟩, ?_, rfl, hfresh⟩
      rw [hlog]
      exact AList.lookup_insert _
    · have hs := h.acting k pair' iat' hk (hacting hki ha)
      exact hother (hpair hk hs) hs
  · have hs := h.settled k pair' iat' hk (hsettled hs)
    exact hother (hpair hk hs) hs
  · by_cases hki : k = i
    · subst hki
      obtain ⟨rfl, rfl⟩ := Prod.mk.inj (Option.some.inj (hkey.symm.trans hk))
      exact (hfree (h.acting l pair iat hl (hacting hne.symm ha'))).elim
    · by_cases hli : l = i
      · subst hli
        obtain ⟨rfl, rfl⟩ := Prod.mk.inj (Option.some.inj (hkey.symm.trans hl))
        exact (hfree (h.acting k pair iat hk (hacting hki ha))).elim
      · exact (h.alone k l pair' iat' hk hl (hacting hki ha) (hacting hli ha') hne).mono hle
  · rw [hevents] at heq
    rcases List.eq_nil_or_concat' later with rfl | ⟨later', x, rfl⟩
    · -- the new event is this one
      obtain ⟨hold, hnew⟩ := List.append_inj' heq rfl
      obtain rfl : i = k := LogEvent.admitted.inj (List.cons.inj hnew).1
      obtain ⟨rfl, rfl⟩ := Prod.mk.inj (Option.some.inj (hkey.symm.trans hk'))
      exact hfree (h.settled l pair iat hk (hold ▸ hl))
    · rw [← List.cons_append, ← List.append_assoc] at heq
      exact h.final earlier later' k (List.append_inj_left' heq rfl) l hl pair' iat' hk hk'

theorem acting_of_ended {e : LogEvent ι} (he : e = .settled i ∨ e = .forgotten i)
    (hevents : s'.events = s.events ++ [e]) {k : ι} (hk : Acting k s') : k ≠ i ∧ Acting k s := by
  unfold Acting at hk ⊢
  rw [hevents] at hk
  rcases he with rfl | rfl
  · simp only [List.mem_append, List.mem_singleton, reduceCtorEq, or_false, LogEvent.settled.injEq,
      not_or] at hk
    exact ⟨hk.2.1.2, hk.1, hk.2.1.1, hk.2.2⟩
  · simp only [List.mem_append, List.mem_singleton, reduceCtorEq, or_false,
      LogEvent.forgotten.injEq, not_or] at hk
    exact ⟨hk.2.2.2, hk.1, hk.2.1, hk.2.2.1⟩

theorem Inv.ended (h : Inv handler token s) {e : LogEvent ι}
    (he : e = .settled i ∨ e = .forgotten i) (hle : s.now ≤ s'.now) (hordered : s'.log.Ordered)
    (hevents : s'.events = s.events ++ [e])
    (hacting : ∀ k pair iat, handler.tokenOf (token k) = some (pair, iat) → k ≠ i → Acting k s →
      Overdue iat s' ∨ Held pair iat true s')
    (hsettled : ∀ k pair iat, handler.tokenOf (token k) = some (pair, iat) →
      .settled k ∈ s'.events → Overdue iat s' ∨ Held pair iat false s') :
    Inv handler token s' where
  ordered := hordered
  acting k pair iat hk ha := by
    obtain ⟨hne, ha⟩ := acting_of_ended he hevents ha
    exact hacting k pair iat hk hne ha
  settled := hsettled
  alone k l pair iat hk hl ha ha' hne := by
    have hk' := (acting_of_ended he hevents ha).2
    have hl' := (acting_of_ended he hevents ha').2
    exact (h.alone k l pair iat hk hl hk' hl' hne).mono hle
  final earlier later k heq := by
    rw [hevents] at heq
    have hnew : e ≠ .admitted k := by
      rcases he with rfl | rfl <;> exact nofun
    obtain ⟨later', hold⟩ := admitted_of_snoc heq hnew
    exact h.final earlier later' k hold

include hunique in
theorem Inv.settle (h : Inv handler token s) (hkey : handler.tokenOf (token i) = some (pair, iat))
    (hi : Acting i s) (hle : s.now ≤ s'.now) (hlog : s'.log = s.log.settle pair)
    (hevents : s'.events = s.events ++ [.settled i]) : Inv handler token s' := by
  have hsame {iat' : Int} {b : Bool} (hs : Held pair iat' b s) : Held pair iat' false s' := by
    obtain ⟨entry, hentry, -, hseen⟩ := hs
    refine ⟨{ entry with inFlight := false }, ?_, rfl, hseen⟩
    rw [hlog, JtiLog.lookup_settle, if_pos rfl, hentry]
    rfl
  have hother {pair' : String × String} (hne : pair' ≠ pair) :
      s'.log.entries.lookup pair' = s.log.entries.lookup pair' := by
    rw [hlog, JtiLog.lookup_settle, if_neg hne]
  refine h.ended (.inl rfl) hle (hlog ▸ h.ordered.settle pair) hevents
    (fun k pair' iat' hk hne ha => ?_) fun k pair' iat' hk hs => ?_
  · by_cases hpair : pair' = pair
    · subst hpair
      obtain rfl := hunique k i pair' iat' iat hk hkey
      exact .inl ((h.alone k i pair' iat' hk hkey ha hi hne).mono hle)
    · exact (h.acting k pair' iat' hk ha).imp (·.mono hle) (·.of_lookup (hother hpair))
  · have hbefore : ∃ b, Overdue iat' s ∨ Held pair' iat' b s ∧ (pair' ≠ pair → b = false) := by
      rw [hevents] at hs
      rcases List.mem_append.mp hs with hs | hs
      · exact ⟨false, (h.settled k pair' iat' hk hs).imp_right fun hheld => ⟨hheld, fun _ => rfl⟩⟩
      · obtain rfl : k = i := LogEvent.settled.inj (List.mem_singleton.mp hs)
        obtain ⟨rfl, rfl⟩ := Prod.mk.inj (Option.some.inj (hkey.symm.trans hk))
        exact ⟨true, (h.acting k pair iat hk hi).imp_right fun hheld => ⟨hheld, (absurd rfl ·)⟩⟩
    obtain ⟨b, hover | ⟨hheld, hflag⟩⟩ := hbefore
    · exact .inl (hover.mono hle)
    · by_cases hpair : pair' = pair
      · subst hpair
        exact .inr (hsame hheld)
      · rw [hflag hpair] at hheld
        exact .inr (hheld.of_lookup (hother hpair))

include hunique in
theorem Inv.forget (h : Inv handler token s) (hkey : handler.tokenOf (token i) = some (pair, iat))
    (hi : Acting i s) (hle : s.now ≤ s'.now) (hlog : s'.log = (s.log.forget pair).2)
    (hevents : s'.events = s.events ++ [.forgotten i]) : Inv handler token s' := by
  have hother {pair' : String × String} (hne : pair' ≠ pair) :
      s'.log.entries.lookup pair' = s.log.entries.lookup pair' := by
    rw [hlog, JtiLog.lookup_forget, if_neg hne]
  refine h.ended (.inr rfl) hle (hlog ▸ h.ordered.forget pair) hevents
    (fun k pair' iat' hk hne ha => ?_) fun k pair' iat' hk hs => ?_
  · by_cases hpair : pair' = pair
    · subst hpair
      obtain rfl := hunique k i pair' iat' iat hk hkey
      exact .inl ((h.alone k i pair' iat' hk hkey ha hi hne).mono hle)
    · exact (h.acting k pair' iat' hk ha).imp (·.mono hle) (·.of_lookup (hother hpair))
  · have hs : .settled k ∈ s.events := by
      rw [hevents] at hs
      simpa using hs
    by_cases hpair : pair' = pair
    · -- the entry that goes is in flight, so it is not the settled token's
      subst hpair
      obtain rfl := hunique k i pair' iat' iat hk hkey
      rcases h.settled k pair' iat' hk hs, h.acting i pair' iat' hkey hi with ⟨hover | hheld, hi'⟩
      · exact .inl (hover.mono hle)
      · rcases hi' with hover | hheld'
        · exact .inl (hover.mono hle)
        · exact absurd (hheld.flag hheld') Bool.false_ne_true
    · exact (h.settled k pair' iat' hk hs).imp (·.mono hle) (·.of_lookup (hother hpair))

include hunique in
theorem Inv.step (h : Inv handler token s) (hg : Guarantee handler token i s s') :
    Inv handler token s' := by
  cases hg with
  | quiet hq => exact h.quiet hq
  | record pair iat now hkey _ hle hfresh hnow hprompt hlog hevents =>
    have hnow := Int.le_trans hnow hle
    rcases JtiLog.record_cases s.log handler.jtiCacheMax pair now (now - jtiRetentionSecs * second)
      with ⟨r, hr, heq⟩ | ⟨hnone, heq⟩
    · rw [heq] at hlog hevents
      exact h.refused hnow hle hlog (hevents.trans (if_neg hr))
    · rw [heq] at hlog hevents
      exact h.admitted hunique hkey hfresh hnow hle hprompt hnone hlog hevents
  | settle pair iat hkey hi hle hlog hevents => exact h.settle hunique hkey hi hle hlog hevents
  | forget pair iat hkey hi hle hlog hevents => exact h.forget hunique hkey hi hle hlog hevents

end Step

/-! ## What one delivery does -/

theorem Guarantee.now_le (hg : Guarantee handler token i s s') : s.now ≤ s'.now := by
  cases hg with
  | quiet hq => exact hq.1
  | record _ _ _ _ _ hle => exact hle
  | settle _ _ _ _ hle => exact hle
  | forget _ _ _ _ hle => exact hle

theorem Guarantee.mem_events (hg : Guarantee handler token i s s') (e : LogEvent ι)
    (he : e.who ≠ i) : e ∈ s'.events ↔ e ∈ s.events := by
  have hsnoc {e' : LogEvent ι} (he' : e'.who = i) : e ∈ s.events ++ [e'] ↔ e ∈ s.events := by
    have hne : e ≠ e' := by
      rintro rfl
      exact he he'
    simp [hne]
  cases hg with
  | quiet hq => rw [hq.2.2]
  | record _ _ _ _ _ _ _ _ _ _ hevents =>
    rw [hevents]
    split
    · exact hsnoc rfl
    · exact Iff.rfl
  | settle _ _ _ _ _ _ hevents =>
    rw [hevents]
    exact hsnoc rfl
  | forget _ _ _ _ _ _ hevents =>
    rw [hevents]
    exact hsnoc rfl

theorem silent_stable : Stable (Pool.others (Guarantee handler token) i) (Silent i) := by
  rintro s s' ⟨hadmitted, hsettled, hforgotten⟩ ⟨j, hne, hg⟩
  exact ⟨mt (hg.mem_events (.admitted i) hne.symm).mp hadmitted,
    mt (hg.mem_events (.settled i) hne.symm).mp hsettled,
    mt (hg.mem_events (.forgotten i) hne.symm).mp hforgotten⟩

theorem acting_stable : Stable (Pool.others (Guarantee handler token) i) (Acting i) := by
  rintro s s' ⟨hadmitted, hsettled, hforgotten⟩ ⟨j, hne, hg⟩
  exact ⟨(hg.mem_events (.admitted i) hne.symm).mpr hadmitted,
    mt (hg.mem_events (.settled i) hne.symm).mp hsettled,
    mt (hg.mem_events (.forgotten i) hne.symm).mp hforgotten⟩

def Aside : LogoutCall P → Prop
  | .record .. => False
  | .settle _ => False
  | .forget _ => False
  | _ => True

theorem quiet_of_aside {e : LogoutCall P} {a : e.Answer} (he : Aside e)
    (hX : prompt handler token i e s a s') : Quiet s s' := by
  cases e with
  | record => exact he.elim
  | settle => exact he.elim
  | forget => exact he.elim
  | clock => exact hX.1.2
  | verifyLogoutJwt => exact hX.1.2
  | _ => exact hX.1

theorem Quiet.silent (hq : Quiet s s') (h : Silent i s) : Silent i s' := by
  unfold Silent
  rw [hq.2.2]
  exact h

theorem Quiet.acting (hq : Quiet s s') (h : Acting i s) : Acting i s' := by
  unfold Acting
  rw [hq.2.2]
  exact h

section Safe

def Safe (handler : LogoutHandler P) (token : ι → List Char) (i : ι) {α : Type}
    (p : LogoutProg P α) (Q : α → LogRun ι → Prop) (s : LogRun ι) : Prop :=
  p.Safe (prompt handler token i) (Pool.others (Guarantee handler token) i)
    (Guarantee handler token i) Q s

theorem safe_of_aside {α : Type} {p : LogoutProg P α} {T : α → Prop} {I : LogRun ι → Prop}
    (hp : p.Within Aside T) (hI : Stable (Pool.others (Guarantee handler token) i) I)
    (hquiet : ∀ s s', Quiet s s' → I s → I s') (hs : I s) :
    Safe handler token i p (fun a s => T a ∧ I s) s :=
  hp.safe hI (fun _ s _ s' he hX hw =>
    ⟨.quiet (quiet_of_aside he hX), hquiet s s' (quiet_of_aside he hX) hw⟩) hs

theorem call_aside (e : LogoutCall P) (he : Aside e) : (LogoutHandler.call e).Only Aside :=
  ⟨he, fun _ => trivial⟩

theorem endOne_aside (iss : String) (user : UserId) (session : SessionId)
    {dropMapping : LogoutProg P Unit} (hdrop : dropMapping.Only Aside) :
    (handler.endOne iss user session dropMapping).Only Aside := by
  refine ⟨trivial, fun answer => ?_⟩
  rcases answer with - | - | -
  · exact trivial
  · exact trivial
  · refine hdrop.bind fun _ => ?_
    split
    · refine ⟨trivial, fun reported => ?_⟩
      rcases reported with - | - <;> exact trivial
    · exact trivial

theorem endAll_aside (iss : String) (owned : List (UserId × SessionId)) :
    (handler.endAll iss owned).Only Aside := by
  induction owned with
  | nil => exact trivial
  | cons entry owned ih =>
    refine (endOne_aside iss entry.1 entry.2 (call_aside (.removeSession _) trivial)).bind fun ended => ?_
    cases ended with
    | none => exact trivial
    | some ended => exact ih.bind fun _ => trivial

theorem actOn_aside (claims : LogoutTokenClaims) : (handler.actOn claims).Only Aside := by
  have hsub : (handler.endBySub claims).Only Aside := by
    unfold LogoutHandler.endBySub
    cases claims.sub with
    | none => exact trivial
    | some sub => exact ⟨trivial, fun owned => endAll_aside claims.iss owned⟩
  have hsid : (handler.endBySid claims).Only Aside := by
    unfold LogoutHandler.endBySid
    cases claims.sid with
    | none => exact trivial
    | some sid =>
      refine ⟨trivial, fun mapped => ?_⟩
      cases mapped with
      | none => exact trivial
      | some stored =>
        exact (endOne_aside _ _ _ (call_aside (.sidRemoveIf _ _) trivial)).bind fun _ => trivial
  refine hsid.bind fun outcome => ?_
  rcases outcome with - | - | - | -
  · exact trivial
  · exact hsub
  · exact trivial
  · exact trivial

theorem validating : Validating handler (token i) (prompt handler token i)
    (Pool.others (Guarantee handler token) i) (Guarantee handler token i) (Silent i)
    (fun t s => t ≤ s.now) where
  stable := silent_stable
  read_stable t s s' ht hR := by
    obtain ⟨j, -, hg⟩ := hR
    exact Int.le_trans ht hg.now_le
  call e s a s' he hX hs := by
    have haside : Aside e := by
      cases e <;> first | exact he.elim | exact trivial
    have hquiet := quiet_of_aside haside hX
    exact ⟨.quiet hquiet, hquiet.silent hs⟩
  verified _ _ payload _ hX := hX.1.1 payload rfl
  clock _ _ _ hX _ := le_of_eq hX.1.1

theorem since_stable (now : Instant) : Stable (Pool.others (Guarantee handler token) i)
    fun s => Silent i s ∧ now ≤ s.now := by
  rintro s s' ⟨hs, hnow⟩ ⟨j, hne, hg⟩
  exact ⟨silent_stable hs ⟨j, hne, hg⟩, Int.le_trans hnow hg.now_le⟩

theorem admitJti_safe {claims : LogoutTokenClaims} (hs : Silent i s)
    (hkey : handler.tokenOf (token i) = some (claims.pair, iat))
    (hfresh : (iat - maxIatFutureSecs) * second ≤ s.now) :
    Safe handler token i (LogoutHandler.admitJti claims.pair)
      (fun r s => r = .ok () → Acting i s) s := by
  have hret {r : Except Status Unit} {s : LogRun ι} (h : r = .ok () → Acting i s) :
      Safe handler token i (pure r) (fun r s => r = .ok () → Acting i s) s :=
    Prog.Safe.ret (fun s => r = .ok () → Acting i s)
      (fun _ _ hw hR hr => acting_stable (hw hr) hR) h fun _ hw => hw
  refine Prog.Safe.perform_bind _ (since_stable _) ⟨hs, hfresh⟩ ?_
  rintro s (now : Instant) s' ⟨hs, hfresh⟩ hX
  have hquiet : Quiet s s' := quiet_of_aside (e := .clock) trivial hX
  obtain rfl : now = s'.now := hX.1.1
  have hfresh := Int.le_trans hfresh hquiet.1
  refine ⟨.quiet hquiet, Prog.Safe.perform_bind _ (since_stable s'.now)
    ⟨hquiet.silent hs, Int.le_refl _⟩ ?_⟩
  rintro w (recorded : Recorded) w' ⟨hw, hnow⟩ ⟨⟨hle, hrecorded, hlog, hevents⟩, hprompt⟩
  refine ⟨.record claims.pair iat s'.now hkey hw hle hfresh hnow (hprompt _ _ hkey) hlog
    (hrecorded ▸ hevents), ?_⟩
  cases recorded with
  | new =>
    refine hret fun _ => ?_
    unfold Acting
    rw [hevents, if_pos rfl]
    simp [hw.2.1, hw.2.2]
  | replay => exact hret nofun
  | inFlight => exact hret nofun
  | full => exact hret nofun

theorem acting_safe {claims : LogoutTokenClaims}
    (hkey : handler.tokenOf (token i) = some (claims.pair, iat)) (hs : Acting i s) :
    Safe handler token i (handler.acting claims) (fun _ _ => True) s := by
  have hend {r : Option (Except Status Status)} {s : LogRun ι} :
      Safe handler token i (pure r) (fun _ _ => True) s := fun _ _ => trivial
  refine Prog.Safe.bind (safe_of_aside (actOn_aside claims) acting_stable
    (fun _ _ hq => hq.acting) hs) fun outcome s hs => ?_
  rcases outcome with - | failed
  · refine Prog.Safe.perform_bind (Acting i) acting_stable hs.2 fun w _ w' hw hX => ?_
    exact ⟨.forget claims.pair iat hkey hw hX.1.1 hX.1.2.1 hX.1.2.2, hend⟩
  · cases failed with
    | false =>
      refine Prog.Safe.perform_bind (Acting i) acting_stable hs.2 fun w _ w' hw hX => ?_
      exact ⟨.settle claims.pair iat hkey hw hX.1.1 hX.1.2.1 hX.1.2.2, hend⟩
    | true =>
      refine Prog.Safe.perform_bind (Acting i) acting_stable hs.2 fun w _ w' hw hX => ?_
      exact ⟨.forget claims.pair iat hkey hw hX.1.1 hX.1.2.1 hX.1.2.2, hend⟩

theorem handleOutcome_safe (hs : Silent i s) :
    Safe handler token i (handler.handleOutcome (token i)) (fun _ _ => True) s := by
  have hend {r : Option (Except Status Status)} {s : LogRun ι} :
      Safe handler token i (pure r) (fun _ _ => True) s := fun _ _ => trivial
  refine Prog.Safe.bind (validating.validateLogoutToken_safe hs) fun validated s hvalidated => ?_
  obtain ⟨hs, hvalid⟩ := hvalidated
  rcases validated with - | - | claims
  · exact hend
  · exact hend
  obtain ⟨t, iat, hread, hclaims, hfresh⟩ := hvalid claims rfl
  have hkey : handler.tokenOf (token i) = some (claims.pair, iat) := by
    unfold LogoutHandler.tokenOf
    rw [hclaims]
    rfl
  refine Prog.Safe.bind (admitJti_safe hs hkey (Int.le_trans hfresh hread))
    fun admitted s hadmitted => ?_
  cases admitted with
  | error status => exact hend
  | ok _ => exact acting_safe hkey (hadmitted rfl)

end Safe

/-- The answer that admits a delivery. -/
def Admits : (e : LogoutCall P) → e.Answer → Prop
  | .record .., (a : Recorded) => a = .new
  | _, _ => False

theorem handleWith_same (act act' : LogoutTokenClaims → LogoutProg P (Option (Except Status Status)))
    (token : List Char) :
    (handler.handleWith act token).SameUntil Admits (handler.handleWith act' token) := by
  refine .bind _ fun validated => ?_
  rcases validated with - | - | claims
  · exact .refl _
  · exact .refl _
  refine ⟨_, rfl, fun now _ => ⟨_, rfl, fun recorded hnot => ?_⟩⟩
  cases recorded with
  | new => exact absurd rfl hnot
  | _ => exact .refl _

end Retaining

/-- If every delivery reaches the log before its token is overdue, no delivery is admitted once one
of the same pair is settled; and only one that is admitted acts, since up to then anything could stand
in the place of acting. -/
theorem logout_token_not_admitted_again [DecidableEq ι] {handler : LogoutHandler P}
    {token : ι → List Char} (hunique : ∀ i j pair iat iat',
      handler.tokenOf (token i) = some (pair, iat) →
      handler.tokenOf (token j) = some (pair, iat') → iat = iat') {now : Instant}
    {pool : Pool ι (LogoutCall P) LogoutCall.Answer (Option (Except Status Status)) (LogRun ι)}
    (hrun : Pool.Reaches (Retaining.prompt handler token)
      ⟨fun i => handler.handleOutcome (token i), ⟨.empty, now, []⟩⟩ pool) :
    (∀ i j pair iat iat', handler.tokenOf (token i) = some (pair, iat) →
      handler.tokenOf (token j) = some (pair, iat') → ∀ earlier later,
      pool.state.events = earlier ++ .admitted j :: later → .settled i ∉ earlier) ∧
    ∀ i act, (handler.handleOutcome (token i)).SameUntil Retaining.Admits
      (handler.handleWith act (token i)) := by
  have hsafe : Pool.AllSafe (Retaining.prompt handler token) (Retaining.Guarantee handler token)
      (fun _ _ _ => True) ⟨fun i => handler.handleOutcome (token i), ⟨.empty, now, []⟩⟩ :=
    fun _ => Retaining.handleOutcome_safe
      ⟨List.not_mem_nil, List.not_mem_nil, List.not_mem_nil⟩
  have hinv : Retaining.Inv handler token pool.state :=
    hrun.invariant hsafe (fun _ _ _ hg h => h.step hunique hg) (Retaining.inv_start now)
  refine ⟨fun i j pair iat iat' hi hj earlier later hevents hsettled => ?_,
    fun i act => Retaining.handleWith_same handler.acting act (token i)⟩
  obtain rfl := hunique i j pair iat iat' hi hj
  exact hinv.final earlier later j hevents i hsettled pair iat hi hj

namespace LastSecond

open SampleToken

def answering : Pool.Answerer (Fin 2) Instant (LogoutCall Unit) LogoutCall.Answer (LogRun (Fin 2))
  | _, t, .clock, s => (t, { s with now := t })
  | _, t, .verifyLogoutJwt _ token, s =>
    (verified token, { s with now := t })
  | i, t, .record pair now cutoff, s =>
    let r := s.log.record handler.jtiCacheMax pair now cutoff
    (r.1, ⟨r.2, t, if r.1 = .new then s.events ++ [.admitted i] else s.events⟩)
  | i, t, .settle pair, s => ((), ⟨s.log.settle pair, t, s.events ++ [.settled i]⟩)
  | i, t, .forget pair, s => ((), ⟨(s.log.forget pair).2, t, s.events ++ [.forgotten i]⟩)
  | _, t, .providersForIssuer _, s => (none, { s with now := t })
  | _, t, .refreshJwks _, s => (none, { s with now := t })
  | _, t, .sidGet _, s => (none, { s with now := t })
  | _, t, .sidRemoveIf .., s => ((), { s with now := t })
  | _, t, .subjectSessions .., s => ([], { s with now := t })
  | _, t, .removeSession _, s => ((), { s with now := t })
  | _, t, .invalidateSession .., s => (none, { s with now := t })
  | _, t, .reportEnded .., s => (none, { s with now := t })

theorem sem_answering (i : Fin 2) (t : Instant) (e : LogoutCall Unit) (s : LogRun (Fin 2))
    (h : s.now ≤ t) :
    Retaining.sem handler i e s (answering i t e s).1 (answering i t e s).2 := by
  cases e with
  | clock => exact ⟨rfl, h, rfl, rfl⟩
  | record => exact ⟨h, rfl, rfl, rfl⟩
  | settle => exact ⟨h, rfl, rfl⟩
  | forget => exact ⟨h, rfl, rfl⟩
  | verifyLogoutJwt provider token =>
    exact ⟨fun payload => payload_of_verified, h, rfl, rfl⟩
  | _ => exact ⟨h, rfl, rfl⟩

theorem tokenOf_token : handler.tokenOf token = some (("https://op", "t1"), 1000) := by
  decide +kernel

def promptly (_ : Fin 2) (t : Instant) (_ : LogoutCall Unit) (s : LogRun (Fin 2)) : Bool :=
  s.now ≤ t && t ≤ (1000 + maxIatAgeSecs) * second

theorem prompt_answering (i : Fin 2) (t : Instant) (e : LogoutCall Unit) (s : LogRun (Fin 2))
    (h : promptly i t e s = true) : Retaining.prompt handler (fun _ => token) i e s
      (answering i t e s).1 (answering i t e s).2 := by
  obtain ⟨hnow, hbefore⟩ := (Bool.and_eq_true _ _).mp h
  refine ⟨sem_answering i t e s (of_decide_eq_true hnow), ?_⟩
  cases e with
  | record pair now cutoff =>
    intro pair' iat hkey
    obtain ⟨-, rfl⟩ := Prod.mk.inj (Option.some.inj (tokenOf_token.symm.trans hkey))
    exact not_lt.mpr (of_decide_eq_true hbefore)
  | _ => trivial

def run (late : Instant) : Pool (Fin 2) (LogoutCall Unit) LogoutCall.Answer
    (Option (Except Status Status)) (LogRun (Fin 2)) :=
  Pool.replay answering (Pool.turns [(6, 0, 940 * second), (6, 1, late)])
    ⟨fun _ => handler.handleOutcome token, ⟨.empty, 0, []⟩⟩

end LastSecond

/-- A token is acted on 60 seconds before its issue, and again half a second after it is overdue. -/
theorem logout_token_admitted_again :
    ∃ pool, Pool.Reaches (Retaining.sem SampleToken.handler)
        ⟨fun _ : Fin 2 => SampleToken.handler.handleOutcome SampleToken.token, ⟨.empty, 0, []⟩⟩
        pool ∧
      pool.state.events = [.admitted 0, .settled 0, .admitted 1, .settled 1] ∧
      pool.prog 0 = .ret (some (.ok .ok)) ∧ pool.prog 1 = .ret (some (.ok .ok)) := by
  refine ⟨LastSecond.run (1300500 * 1000000), Pool.reaches_replay_of_admits
    (fun i t e s h => LastSecond.sem_answering i t e s (of_decide_eq_true h)) _ _
    (by decide +kernel), ?_, Prog.eq_ret_of_returned rfl, Prog.eq_ret_of_returned rfl⟩
  decide +kernel

theorem logout_token_not_admitted_again_redelivered :
    (LastSecond.run (1300 * second)).state.events = [.admitted 0, .settled 0] ∧
      (LastSecond.run (1300 * second)).prog 1 = .ret (some (.error .badRequest)) ∧
      ∀ i j earlier later, (LastSecond.run (1300 * second)).state.events =
        earlier ++ .admitted j :: later → .settled i ∉ earlier := by
  have hrun : Pool.Reaches (Retaining.prompt SampleToken.handler fun _ => SampleToken.token)
      ⟨fun _ : Fin 2 => SampleToken.handler.handleOutcome SampleToken.token, ⟨.empty, 0, []⟩⟩
      (LastSecond.run (1300 * second)) :=
    Pool.reaches_replay_of_admits LastSecond.prompt_answering _ _ (by decide +kernel)
  refine ⟨by decide +kernel, Prog.eq_ret_of_returned rfl, fun i j => ?_⟩
  refine (logout_token_not_admitted_again (fun _ _ pair iat iat' h h' => ?_) hrun).1 i j _ _ _
    LastSecond.tokenOf_token LastSecond.tokenOf_token
  exact (Prod.mk.inj (Option.some.inj (h.symm.trans h'))).2

end Axess
