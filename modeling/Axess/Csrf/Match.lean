import Axess.Csrf.Middleware
import Axess.Session.Created
import Axess.Session.Trust

/-!
# The token of a response and the session of a response

The middleware binds the token it hands out to the id the handler leaves behind. The session
layer keeps that id, unless the request was reset by the binding check and its handler rotated
nothing: then the layer draws another one at the end, and the token names a session that is never
stored.
-/

namespace Axess

open Calls

variable {V : Type}

section Issuing

variable (hmac : HmacSha256) (config : CsrfConfig)

def Binds (token : List Char) (id : SessionId) : Prop :=
  validateToken hmac token id.asBytes config.signingKey = true

/-- What the issuer keeps for an id is a token of that id. -/
structure CsrfIssuer.Honest (issuer : CsrfIssuer) : Prop where
  entry : ∀ id token, issuer.entry = some (id, token) → Binds hmac config token id
  rotated : ∀ id token, issuer.rotated = some (id, token) → Binds hmac config token id

variable {hmac config}

variable {issuer : CsrfIssuer}

theorem CsrfIssuer.Honest.tokenForRotated (h : issuer.Honest hmac config) (current : SessionId) :
    Binds hmac config (issuer.tokenForRotated hmac config current).1 current ∧
      (issuer.tokenForRotated hmac config current).2.Honest hmac config := by
  have hmint : Binds hmac config (issuer.mintFor hmac config current).1 current ∧
      (issuer.mintFor hmac config current).2.Honest hmac config := by
    have hbinds := validateToken_mintToken hmac current.asBytes config.signingKey
      issuer.nonces.head
    refine ⟨hbinds, h.entry, ?_⟩
    rintro id token ⟨⟩
    exact hbinds
  unfold CsrfIssuer.tokenForRotated
  split
  next id token hrotated =>
    split
    next heq => exact ⟨heq ▸ h.rotated id token hrotated, h⟩
    next => exact hmint
  next => exact hmint

theorem CsrfIssuer.Honest.tokenFor (h : issuer.Honest hmac config) (current : SessionId) :
    Binds hmac config (issuer.tokenFor hmac config current).1 current ∧
      (issuer.tokenFor hmac config current).2.Honest hmac config := by
  unfold CsrfIssuer.tokenFor
  split
  next id token hentry =>
    split
    next heq => exact ⟨heq ▸ h.entry id token hentry, h⟩
    next => exact h.tokenForRotated current
  next => exact h.tokenForRotated current

theorem CsrfIssuer.tokenFor_read (issuer : CsrfIssuer) (current : SessionId) :
    (issuer.tokenFor hmac config current).2.read = issuer.read := by
  unfold CsrfIssuer.tokenFor CsrfIssuer.tokenForRotated
  split
  next =>
    split
    next => rfl
    next =>
      split
      next => split <;> rfl
      next => rfl
  next =>
    split
    next => split <;> rfl
    next => rfl

theorem binds_entryToken (cookieToken : Option (List Char)) (id : SessionId)
    (nonces : Stream' Nonce) :
    Binds hmac config (entryToken hmac config cookieToken (some id) nonces).1.extensionToken
      id := by
  unfold entryToken
  cases husable : usableCookie hmac config cookieToken (some id) with
  | some c =>
    have hc := (Option.filter_eq_some_iff.mp husable).2
    rw [Bool.and_eq_true, Option.any_some] at hc
    exact hc.2
  | none => exact validateToken_mintToken hmac id.asBytes config.signingKey nonces.head

theorem binds_replacementToken (h : issuer.Honest hmac config)
    {provisionalMint cookieToken : Option (List Char)} {id : SessionId} {token : List Char}
    (htoken : (replacementToken hmac config issuer provisionalMint cookieToken (some id)).1 =
      some token) : Binds hmac config token id := by
  unfold replacementToken at htoken
  simp only at htoken
  split at htoken
  next hvalid =>
    -- the token minted at entry is the one that was just checked
    cases htoken
    rw [Option.some_or, Option.any_eq_true] at hvalid
    obtain ⟨c, hc, hbinds⟩ := hvalid
    cases (Option.filter_eq_some_iff.mp hc).1
    exact hbinds
  next =>
    cases htoken
    exact (h.tokenFor id).1

variable (hmac config)

/-- The issuer is honest, and what the handler has drawn since it last rotated are tokens of the
id it has now. -/
structure Handling.Issued (s : Handling V) : Prop where
  issuer : s.issuer.Honest hmac config
  drawn : ∀ token ∈ s.drawn, Binds hmac config token s.session.id

def HandlerStep.rotates : HandlerStep V → Bool
  | .op (.transition (.advanceFactor ..)) => false
  | .op (.transition _) => true
  | _ => false

def HandlerStep.usesToken : HandlerStep V → Bool
  | .op _ => false
  | .readToken => true
  | .drawToken => true

structure Handling.Follows (s : Handling V) (steps : List (HandlerStep V)) (t : Handling V) :
    Prop where
  moves : t.session.preCycleId = none → s.session.Stays t.session ∧
    ∀ step ∈ steps, step.rotates = false
  read : t.issuer.read = (s.issuer.read || steps.any HandlerStep.usesToken)
  issued : s.Issued hmac config → t.Issued hmac config

variable [BEq V] [JsonSize V]

omit [BEq V] [JsonSize V] in
theorem Transition.rotates_of_ne (t : Transition) (s : SessionInner V)
    (h : (HandlerStep.op (.transition t) : HandlerStep V).rotates = true) :
    s.Rotates (t.apply s) := by
  cases t with
  | advanceFactor kind now preserved => cases h
  | setIdentifying u tenant => exact SessionInner.rotates_bindFingerprint s _
  | beginAuthenticating u tenant method steps => exact SessionInner.rotates_bindFingerprint s _
  | setAuthenticated u tenant now preserved =>
    exact ((SessionInner.keepsId_retainAcrossLogin s _ preserved).trans
      (SessionInner.keepsId_touch _)).rotateId
  | setPendingWorkflow u tenant workflow => exact SessionInner.rotates_bindFingerprint s _
  | clear => exact ⟨rfl, rfl, rfl, rfl, rfl, rfl⟩
  | regenerate =>
    exact (SessionInner.KeepsId.refl s).rotateId.keeps (SessionInner.keepsId_touch _)

theorem op_follows (o : Op V) (s : SessionInner V) :
    (o.run s).Within Call.CreatesNone fun t =>
      s.Stays t ∧ (HandlerStep.op o).rotates = false ∨ s.Rotates t := by
  cases hrotates : (HandlerStep.op o).rotates with
  | false => exact (op_moves o s).mono (fun _ he => he.createsNone) fun t ht => ht.imp (⟨·, rfl⟩) id
  | true =>
    cases o with
    | transition t => exact .inr (t.rotates_of_ne s hrotates)
    | _ => cases hrotates

theorem handlerStep_follows (s : Handling V) (step : HandlerStep V) :
    (HandlerStep.run hmac config s step).Within Call.CreatesNone
      (s.Follows hmac config [step]) := by
  cases step with
  | op o =>
    refine Prog.Within.bind (op_follows o s.session) fun t ht => ?_
    refine ⟨fun hnone => ?_, by simp [HandlerStep.usesToken], fun h => ⟨h.issuer, ?_⟩⟩
    · rcases ht with ⟨hstays, hrotates⟩ | hrot
      · exact ⟨hstays, by simpa using hrotates⟩
      · cases hrot.preCycleId.symm.trans hnone
    · intro token htoken
      by_cases hid : t.id = s.session.id
      · simp only [hid, if_true] at htoken ⊢
        exact h.drawn token htoken
      · simp [hid] at htoken
  | readToken =>
    refine ⟨fun _ => ⟨.refl _, by simp [HandlerStep.rotates]⟩, by simp [HandlerStep.usesToken],
      fun h => ⟨⟨h.issuer.entry, h.issuer.rotated⟩, h.drawn⟩⟩
  | drawToken =>
    refine ⟨fun _ => ⟨.refl _, by simp [HandlerStep.rotates]⟩, ?_, fun h => ?_⟩
    · rw [List.any_cons, HandlerStep.usesToken, Bool.true_or, Bool.or_true]
      exact CsrfIssuer.tokenFor_read { s.issuer with read := true } s.session.id
    · have hhonest : CsrfIssuer.Honest hmac config { s.issuer with read := true } :=
        ⟨h.issuer.entry, h.issuer.rotated⟩
      obtain ⟨hbinds, hnext⟩ := hhonest.tokenFor s.session.id
      refine ⟨hnext, fun token htoken => ?_⟩
      rcases List.mem_append.mp htoken with hold | hnew
      · exact h.drawn token hold
      · rw [List.mem_singleton.mp hnew]
        exact hbinds

theorem runHandler_follows (steps : List (HandlerStep V)) (s : Handling V) :
    (runHandler hmac config steps s).Within Call.CreatesNone (s.Follows hmac config steps) := by
  induction steps generalizing s with
  | nil => exact ⟨fun _ => ⟨.refl _, by simp⟩, by simp, fun h => h⟩
  | cons step steps ih =>
    refine Prog.Within.bind (handlerStep_follows hmac config s step) fun t ht => ?_
    refine (ih t).mono (fun _ he => he) fun u hu => ⟨fun hnone => ?_, ?_, hu.issued ∘ ht.issued⟩
    · obtain ⟨hstays, hsteps⟩ := hu.moves hnone
      obtain ⟨hstays', hstep⟩ := ht.moves (hstays.preCycleId.symm.trans hnone)
      exact ⟨hstays'.trans hstays, List.forall_mem_cons.mpr
        ⟨hstep step (List.mem_singleton.mpr rfl), hsteps⟩⟩
    · rw [hu.read, ht.read]
      simp [Bool.or_assoc]

end Issuing

section Finish

variable [BEq V] [JsonSize V]

theorem finishRequest_cookie (layer : SessionLayer) (req : Request) (s : SessionInner V)
    (existingId : Option SessionId) :
    (finishRequest layer req s existingId).Within (fun _ => True) fun cookie =>
      ∀ i, cookie = some i → i = s.finalId := by
  refine Prog.Within.bind ((finalizeSession_onRows layer.config req.finishedAt s existingId).mono
    (fun _ _ => trivial) fun _ hr => hr.1) fun r hr => ?_
  refine Prog.Within.bind (Prog.only_true _) fun registered _ => ?_
  intro i hi
  simp only [Option.ite_none_right_eq_some, Bool.and_eq_true, Option.some.injEq] at hi
  exact hi.2.symm.trans (hr hi.1.1)

end Finish

/-! ## A request that the binding check resets -/

def Resets (layer : SessionLayer) (req : Request) (w : World V) : Prop :=
  ∃ cookie row, req.cookie = some cookie ∧ w.rows cookie.id = some row ∧
    ((authenticatedSessionVerdict row.migrate.1 layer.config (layer.policy req.loadedAt)
      cookie.id).eval World.perform w).1 = .keep ∧
    ¬(layer.fingerprints req).Match row

theorem SessionLayer.fingerprints_paired (layer : SessionLayer) (req : Request)
    (h : (layer.fingerprints req).current = none) : (layer.fingerprints req).previous = none := by
  unfold SessionLayer.fingerprints requestFingerprints at h ⊢
  cases hbinding : layer.binding with
  | none => rfl
  | some binding => simp [hbinding] at h

theorem checkBinding_invalidated_iff {fingerprints : Fingerprints}
    (hpaired : fingerprints.current = none → fingerprints.previous = none)
    (data : SessionData V) :
    (checkBinding data fingerprints).invalidated = true ↔ ¬fingerprints.Match data := by
  rcases checkBinding_cases data fingerprints with ⟨hkept, hmatch⟩ | ⟨hreset, -⟩
  · simp [hkept, hmatch]
  · refine ⟨fun _ hmatch => ?_, fun _ => hreset⟩
    obtain ⟨current, previous⟩ := fingerprints
    unfold checkBinding at hreset
    cases hstored : data.fingerprint with
    | none =>
      rw [hstored] at hreset
      cases current with
      | none => cases hreset
      | some current =>
        simp only at hreset
        split at hreset <;> cases hreset
    | some stored =>
      rw [hstored] at hreset
      rcases hmatch stored hstored with rfl | rfl
      · simp at hreset
      · cases current with
        | none => cases hpaired rfl
        | some current =>
          simp only [beq_self_eq_true, if_true] at hreset
          split at hreset <;> cases hreset

structure SessionInner.Blank (s : SessionInner V) : Prop where
  guest : s.data.authState = .guest
  unbacked : s.base = none

theorem resolveDevice_keeps (load : LoadOutcome V) (device : Option (Option DeviceId)) :
    let resolved := (resolveDevice load device).1
    resolved.id = load.id ∧ resolved.existingId = load.existingId ∧
      resolved.bindingInvalidated = load.bindingInvalidated ∧
      resolved.loadedRow = load.loadedRow ∧ resolved.data.authState = load.data.authState := by
  unfold resolveDevice
  split
  · split <;> exact ⟨rfl, rfl, rfl, rfl, rfl⟩
  · exact ⟨rfl, rfl, rfl, rfl, rfl⟩

theorem beginStored_regenerate (layer : SessionLayer) (req : Request) (stored : StoredSession V) :
    (beginStored layer req stored).1.regenerate =
      (checkBinding stored.data (layer.fingerprints req)).invalidated :=
  (resolveDevice_keeps _ req.device).2.2.1

/-- A reset request runs as a guest under the first id of its generator. -/
structure ResetStart (req : Request) (s : SessionInner V) (existingId : Option SessionId) :
    Prop where
  id : s.id = req.rng.get 0
  rng : s.rng = req.rng.tail
  existingId : existingId = none
  blank : s.Blank

theorem beginStored_reset {layer : SessionLayer} {req : Request} {stored : StoredSession V}
    (h : (checkBinding stored.data (layer.fingerprints req)).invalidated = true) :
    ResetStart req (beginStored layer req stored).1 (beginStored layer req stored).2 := by
  obtain ⟨hid, -, -, hrow, hstate⟩ := resolveDevice_keeps
    (loadOutcome req.cookie (layer.fingerprints req) req.rng stored).1 req.device
  have hdata : (checkBinding stored.data (layer.fingerprints req)).data = .default := by
    rcases checkBinding_cases stored.data (layer.fingerprints req) with ⟨hkept, -⟩ | ⟨-, hdata⟩
    · cases h.symm.trans hkept
    · exact hdata
  refine ⟨?_, ?_, ?_, ⟨?_, ?_⟩⟩
  · show (resolveDevice _ _).1.id = _
    rw [hid]
    simp [loadOutcome, h]
  · simp [beginStored, loadOutcome, h, seedRequest, seedSessionState]
  · simp [beginStored, loadOutcome, h]
  · show (resolveDevice _ _).1.data.authState = _
    rw [hstate]
    simp [loadOutcome, hdata, SessionData.default]
  · show (resolveDevice _ _).1.loadedRow = _
    rw [hrow]
    simp [loadOutcome, h]

theorem Fingerprints.match_default (fingerprints : Fingerprints) :
    fingerprints.Match (.default : SessionData V) := by
  intro stored hstored
  cases hstored

theorem Fingerprints.match_migrate (fingerprints : Fingerprints) (row : SessionData V) :
    fingerprints.Match row.migrate.1 ↔ fingerprints.Match row := by
  unfold Fingerprints.Match
  rw [SessionData.migrate_fingerprint]

theorem loadStoredSession_data (id : SessionId) (config : SessionConfig) (policy : LoadPolicy)
    (w : World V) :
    ((loadStoredSession id config policy).eval World.perform w).1.data =
      match w.rows id with
      | none => .default
      | some row =>
        match ((authenticatedSessionVerdict row.migrate.1 config policy id).eval
          World.perform w).1 with
        | .keep => row.migrate.1
        | _ => .default := by
  unfold loadStoredSession
  rw [Prog.eval_bind, Store.eval_load]
  cases hrow : w.rows id with
  | none => rfl
  | some row =>
    simp only [Prog.eval_bind]
    cases ((authenticatedSessionVerdict row.migrate.1 config policy id).eval
      World.perform w).1 <;> rfl

theorem match_loadStoredSession (layer : SessionLayer) {req : Request} {cookie : VerifiedCookie}
    (hcookie : req.cookie = some cookie) (w : World V) :
    ¬(layer.fingerprints req).Match ((loadStoredSession cookie.id layer.config
      (layer.policy req.loadedAt)).eval World.perform w).1.data ↔ Resets layer req w := by
  rw [loadStoredSession_data]
  unfold Resets
  rw [hcookie]
  simp only [Option.some.injEq, ↓existsAndEq, true_and]
  cases hrow : w.rows cookie.id with
  | none => simp [Fingerprints.match_default]
  | some row =>
    simp only [Option.some.injEq, ↓existsAndEq, true_and]
    cases ((authenticatedSessionVerdict row.migrate.1 layer.config (layer.policy req.loadedAt)
        cookie.id).eval World.perform w).1 with
    | keep => simp [Fingerprints.match_migrate]
    | ended => simp [Fingerprints.match_default]
    | distrust => simp [Fingerprints.match_default]

theorem beginRequest_reset [BEq V] [JsonSize V] (layer : SessionLayer) (req : Request)
    (w : World V) :
    let b := ((beginRequest layer req).eval World.perform w).1
    b.1.preCycleId = none ∧ (b.1.regenerate = true ↔ Resets layer req w) ∧
      (b.1.regenerate = true → ResetStart req b.1 b.2) := by
  intro b
  -- the load of a cookie's row, or of none, comes down to what it found
  have hstored : ∀ stored : StoredSession V, b.1 = (beginStored layer req stored).1 →
      b.2 = (beginStored layer req stored).2 →
      ((checkBinding stored.data (layer.fingerprints req)).invalidated = true ↔
        Resets layer req w) →
      b.1.preCycleId = none ∧ (b.1.regenerate = true ↔ Resets layer req w) ∧
        (b.1.regenerate = true → ResetStart req b.1 b.2) := by
    intro stored hs hexisting hresets
    rw [hs, hexisting, beginStored_regenerate]
    exact ⟨rfl, hresets, beginStored_reset⟩
  cases hcookie : req.cookie with
  | none =>
    refine hstored .fresh ?_ ?_ ?_
    · simp [b, beginRequest_of_none layer hcookie]
    · simp [b, beginRequest_of_none layer hcookie]
    · rw [checkBinding_invalidated_iff (layer.fingerprints_paired req)]
      refine ⟨fun h => absurd (Fingerprints.match_default _) h, ?_⟩
      rintro ⟨cookie, -, hsome, -⟩
      cases hcookie.symm.trans hsome
  | some cookie =>
    refine hstored ((loadStoredSession cookie.id layer.config
      (layer.policy req.loadedAt)).eval World.perform w).1 ?_ ?_ ?_
    · simp [b, beginRequest_of_cookie layer hcookie]
    · simp [b, beginRequest_of_cookie layer hcookie]
    · rw [checkBinding_invalidated_iff (layer.fingerprints_paired req)]
      exact match_loadStoredSession layer hcookie w

section Reset

variable [BEq V] [JsonSize V]

theorem takeCustom_blank {s : SessionInner V} (h : s.Blank) (key : String) :
    (AuthSession.takeCustom key s).Within (fun _ => True) fun r => s.Stays r.2 ∧ r.2.Blank := by
  have hconsume : (s.consumeCustom key).Within (fun _ => True) fun r =>
      s.Stays r.2 ∧ r.2.Blank := by
    unfold SessionInner.consumeCustom
    split
    · exact ⟨.refl s, h⟩
    · simp only
      split
      next base hbase =>
        have hnone : s.base = some base := congrArg (·.bind ConsumeTarget.loaded) hbase
        cases h.unbacked.symm.trans hnone
      next => exact ⟨⟨rfl, rfl, rfl, rfl⟩, h.guest, h.unbacked⟩
  refine Prog.Within.bind hconsume fun r hr => ?_
  obtain ⟨taken, t⟩ := r
  cases taken with
  | none => exact hr
  | some value => exact ⟨trivial, fun _ => hr⟩

theorem op_blank (o : Op V) {s : SessionInner V} (h : s.Blank)
    (hrotates : (HandlerStep.op o).rotates = false) :
    (o.run s).Within (fun _ => True) fun t => s.Stays t ∧ t.Blank := by
  cases o with
  | transition t =>
    cases t with
    | advanceFactor kind now preserved =>
      have hsame : AuthSession.advanceFactor kind now preserved s = s := by
        unfold AuthSession.advanceFactor
        rw [h.guest]
        rfl
      show s.Stays (AuthSession.advanceFactor kind now preserved s) ∧
        (AuthSession.advanceFactor kind now preserved s).Blank
      rw [hsame]
      exact ⟨.refl s, h⟩
    | _ => cases hrotates
  | custom c =>
    have hkeep := c.apply_keepsId s
    refine ⟨hkeep.1.stays, hkeep.2.trans h.guest, ?_⟩
    rw [SessionInner.base, hkeep.1.consume]
    exact h.unbacked
  | takeCustom key => exact Prog.Within.bind (takeCustom_blank h key) fun r hr => hr
  | beginStepUp steps stamp =>
    have hsame : (AuthSession.beginStepUp steps stamp s).1 = s := by
      unfold AuthSession.beginStepUp
      rw [h.guest]
      rfl
    show s.Stays (AuthSession.beginStepUp steps stamp s).1 ∧ _
    rw [hsame]
    exact ⟨.refl s, h⟩
  | setImpersonator admin since =>
    have hsame : (AuthSession.setImpersonator admin since s).1 = s := by
      unfold AuthSession.setImpersonator
      rw [h.guest]
      rfl
    show s.Stays (AuthSession.setImpersonator admin since s).1 ∧ _
    rw [hsame]
    exact ⟨.refl s, h⟩
  | recordAttemptAt now =>
    refine ⟨⟨rfl, rfl, rfl, rfl⟩, ?_, h.unbacked⟩
    show s.data.authState.recordAttemptAt now = .guest
    rw [h.guest]
    rfl
  | sessionId => exact ⟨⟨rfl, rfl, rfl, rfl⟩, h.guest, h.unbacked⟩

theorem runHandler_blank (hmac : HmacSha256) (config : CsrfConfig)
    (steps : List (HandlerStep V)) :
    ∀ {s : Handling V}, s.session.Blank → (∀ step ∈ steps, step.rotates = false) →
      (runHandler hmac config steps s).Within (fun _ => True) fun t =>
        s.session.Stays t.session ∧ t.session.Blank := by
  induction steps with
  | nil => exact fun h _ => ⟨.refl _, h⟩
  | cons step steps ih =>
    intro s h hsteps
    obtain ⟨hstep, hrest⟩ := List.forall_mem_cons.mp hsteps
    have hrun : (HandlerStep.run hmac config s step).Within (fun _ => True) fun t =>
        s.session.Stays t.session ∧ t.session.Blank := by
      cases step with
      | op o => exact Prog.Within.bind (op_blank o h hstep) fun t ht => ht
      | readToken => exact ⟨.refl _, h⟩
      | drawToken => exact ⟨.refl _, h⟩
    refine Prog.Within.bind hrun fun t ht => ?_
    exact (ih ht.2 hrest).mono (fun _ he => he) fun u hu => ⟨ht.1.trans hu.1, hu.2⟩

theorem cycleSession_blank {config : SessionConfig} {s : SessionInner V}
    (hguest : s.data.authState = .guest) (w : World V) :
    ((cycleSession config s none).eval World.perform w).1.1 = ⟨s.moved.id, none, true⟩ := by
  have httl : config.ttl ≠ 0 := Nat.ne_of_gt config.ttl_pos
  simp [cycleSession, cycleLoop, cycleAttempts, cycleOnce, mergeExisting, cycleAt, Rows.cycle,
    httl, rotationOf, AuthState.authenticatedUserId, hguest]

theorem finishRequest_blank (layer : SessionLayer) (req : Request) {s : SessionInner V}
    (h : s.Blank) (hregen : s.regenerate = true) (hpre : s.preCycleId = none) (w : World V) :
    ((finishRequest layer req s none).eval World.perform w).1 = some s.rng.head := by
  have hmoved : (s.stamped layer.config req.finishedAt).moved.id = s.rng.head := by
    simp [SessionInner.moved, SessionInner.stamped, hpre]
  have hregen' : (s.stamped layer.config req.finishedAt).regenerate = true := hregen
  have hguest : (s.stamped layer.config req.finishedAt).data.authState = .guest := h.guest
  simp [finishRequest, finalizeSession, persist, hregen, hregen', cycleSession_blank hguest,
    hmoved, settleRegistry]

end Reset

/-! ## The token and the session of a response -/

section Response

variable (hmac : HmacSha256) (config : CsrfConfig) [BEq V] [JsonSize V]

variable {cookieToken : Option (List Char)}

/-- A cookie that is the session's is the one the response would replace, and it still is the
session's: nothing replaces it. -/
theorem replacementToken_usable {issuer : CsrfIssuer} {id : SessionId} {c : List Char}
    (h : usableCookie hmac config cookieToken (some id) = some c) :
    (replacementToken hmac config issuer none cookieToken (some id)).1 = none := by
  obtain ⟨rfl, hc⟩ := Option.filter_eq_some_iff.mp h
  rw [Bool.and_eq_true, Option.any_some] at hc
  have heffective : (Option.or none (some c)).filter (!·.isEmpty) = some c := by
    simpa using hc.1
  unfold replacementToken
  simp only [heffective, Option.any_some, hc.2, if_true]

theorem replacementToken_minted {issuer : CsrfIssuer} {id : SessionId} {token : List Char}
    (h : Binds hmac config token id) :
    (replacementToken hmac config issuer (some token) cookieToken (some id)) =
      (some token, issuer) := by
  have hne : token.isEmpty = false := by
    cases token with
    | nil => cases h
    | cons c token => rfl
  have hvalid : validateToken hmac token id.asBytes config.signingKey = true := h
  unfold replacementToken
  simp [Option.filter, hne, hvalid]

structure Mints (req : CsrfRequest) (id : SessionId) : Prop where
  admitted : gate hmac config req (some id) (extractCookieToken config req) = .ok ()
  unusable : usableCookie hmac config (extractCookieToken config req) (some id) = none

/-- The tokens a request hands out are those of the id it leaves behind; one that came with no
session and did not rotate sets a token only if somebody uses it. -/
structure Answered (req : CsrfRequest) (fresh : Bool) (steps : List (HandlerStep V))
    (s : SessionInner V) (r : CsrfResponse × SessionInner V) : Prop where
  set : ∀ token, r.1.setCookie = some token → Binds hmac config token r.2.id
  drawn : ∀ token ∈ r.1.drawn, Binds hmac config token r.2.id
  unrotated : r.2.preCycleId = none → s.Stays r.2 ∧
    (fresh = true → r.1.setCookie.isSome = true →
      Mints hmac config req s.id ∧ (∀ step ∈ steps, step.rotates = false) ∧
        (config.mintOnEveryRequest = true ∨ ∃ step ∈ steps, step.usesToken = true))

omit [BEq V] [JsonSize V] in
theorem handOut_session (entry : EntryToken) (cookieToken : Option (List Char)) (fresh : Bool)
    (entryId : SessionId) (t : Handling V) :
    t.session.Stays (handOut hmac config entry cookieToken fresh entryId t).2 := by
  have hmark : ∀ set : Bool,
      t.session.Stays (if set then markNeedsPersist t.session else t.session) := by
    intro set
    cases set with
    | false => exact .refl _
    | true => exact ⟨rfl, rfl, rfl, rfl⟩
  exact hmark _

variable {hmac config}

theorem replacementToken_read (issuer : CsrfIssuer) (provisionalMint cookieToken : Option (List Char))
    (id : SessionId) :
    (replacementToken hmac config issuer provisionalMint cookieToken (some id)).2.read =
      issuer.read := by
  unfold replacementToken
  simp only
  split
  · rfl
  · exact CsrfIssuer.tokenFor_read issuer id

omit [BEq V] [JsonSize V] in
theorem handOut_setCookie_eq_some_iff {entry : EntryToken} {fresh : Bool} {entryId : SessionId}
    {t : Handling V} {token : List Char} :
    (handOut hmac config entry cookieToken fresh entryId t).1.setCookie = some token ↔
      (fresh = true → t.session.id = entryId →
        config.mintOnEveryRequest = true ∨ t.issuer.read = true) ∧
      (replacementToken hmac config t.issuer entry.provisionalMint cookieToken
        (some t.session.id)).1 = some token := by
  simp only [handOut, replacementToken_read, Option.ite_none_left_eq_some, Bool.and_eq_true,
    Bool.not_eq_true', beq_iff_eq]
  refine and_congr_left fun _ => ?_
  cases fresh <;> cases config.mintOnEveryRequest <;> cases t.issuer.read <;> simp

theorem csrfCall_answered (req : CsrfRequest) (fresh : Bool) (steps : List (HandlerStep V))
    (s : SessionInner V) :
    (csrfCall hmac config req fresh steps s).Within (fun _ => True)
      (Answered hmac config req fresh steps s) := by
  unfold csrfCall
  simp only
  cases hgate : gate hmac config req (some s.id) (extractCookieToken config req) with
  | error reason =>
    refine ⟨?_, ?_, fun _ => ⟨.refl s, ?_⟩⟩
    · rintro token ⟨⟩
    · simp
    · rintro - ⟨⟩
  | ok =>
    refine Prog.Within.bind ((runHandler_follows hmac config steps _).mono (fun _ _ => trivial)
      fun _ h => h) fun t ht => ?_
    have hstart : Handling.Issued hmac config (V := V) ⟨s, ⟨some (s.id,
        (entryToken hmac config (extractCookieToken config req) (some s.id)
          req.nonces).1.extensionToken), none, false, (entryToken hmac config
        (extractCookieToken config req) (some s.id) req.nonces).2⟩, []⟩ := by
      refine ⟨⟨?_, ?_⟩, by simp⟩
      · rintro id token ⟨⟩
        exact binds_entryToken _ _ _
      · rintro id token ⟨⟩
    have hissued := ht.issued hstart
    have hstay := handOut_session hmac config
      (entryToken hmac config (extractCookieToken config req) (some s.id) req.nonces).1
      (extractCookieToken config req) fresh s.id t
    refine ⟨fun token htoken => ?_, fun token htoken => ?_, fun hnone => ?_⟩
    · rw [hstay.id]
      exact binds_replacementToken hissued.issuer (handOut_setCookie_eq_some_iff.mp htoken).2
    · rw [hstay.id]
      exact hissued.drawn token htoken
    · obtain ⟨hstays, hsteps⟩ := ht.moves (hstay.preCycleId.symm.trans hnone)
      refine ⟨hstays.trans hstay, fun hfresh hset => ?_⟩
      obtain ⟨token, htoken⟩ := Option.isSome_iff_exists.mp hset
      obtain ⟨hused, hreplaced⟩ := handOut_setCookie_eq_some_iff.mp htoken
      refine ⟨⟨hgate, ?_⟩, hsteps, ?_⟩
      · cases husable : usableCookie hmac config (extractCookieToken config req) (some s.id) with
        | none => rfl
        | some c =>
          have hsame : t.session.id = s.id := hstays.id
          simp only [entryToken, husable, hsame] at hreplaced
          cases (replacementToken_usable hmac config husable).symm.trans hreplaced
      · refine (hused hfresh hstays.id).imp id fun hread => ?_
        rw [ht.read, Bool.false_or, List.any_eq_true] at hread
        exact hread

/-- What the client presents next passes: the token the response sets is the token of the session
the response sets, and so is every token the handler drew after its last rotation. -/
def TokensMatch (hmac : HmacSha256) (config : CsrfConfig)
    (r : CsrfResponse × Option SessionId) : Prop :=
  ∀ i token, r.2 = some i → r.1.setCookie = some token →
    Binds hmac config token i ∧ ∀ drawn ∈ r.1.drawn, Binds hmac config drawn i

variable (hmac config)

/-- The request is reset, its handler uses the token and rotates nothing, and the layer draws
another id at the end. -/
structure Orphans (layer : SessionLayer) (req : Request) (csrfReq : CsrfRequest)
    (steps : List (HandlerStep V)) (w : World V) : Prop where
  resets : Resets layer req w
  mints : Mints hmac config csrfReq (req.rng.get 0)
  unrotated : ∀ step ∈ steps, step.rotates = false
  used : config.mintOnEveryRequest = true ∨ ∃ step ∈ steps, step.usesToken = true
  apart : req.rng.get 1 ≠ req.rng.get 0

theorem tokensMatch_of_not_orphans {layer : SessionLayer} {req : Request} {csrfReq : CsrfRequest}
    {steps : List (HandlerStep V)} {w : World V}
    (h : ¬Orphans hmac config layer req csrfReq steps w) :
    TokensMatch hmac config
      ((serveWithToken hmac config layer req csrfReq steps).eval World.perform w).1 := by
  obtain ⟨hpre, hresets, hreset⟩ := beginRequest_reset layer req w
  unfold serveWithToken
  simp only [Prog.eval_bind, Prog.pure_eq_ret, Prog.eval_ret]
  generalize ((beginRequest layer req).eval World.perform w).2 = w₁ at *
  generalize ((beginRequest layer req).eval World.perform w).1 = b at *
  have hanswered : Answered hmac config csrfReq b.2.isNone steps b.1
      ((csrfCall hmac config csrfReq b.2.isNone steps b.1).eval World.perform w₁).1 :=
    (csrfCall_answered csrfReq b.2.isNone steps b.1).eval World.perform w₁
  generalize ((csrfCall hmac config csrfReq b.2.isNone steps b.1).eval World.perform w₁).1 = r at *
  generalize ((csrfCall hmac config csrfReq b.2.isNone steps b.1).eval World.perform w₁).2 = w₂
  intro i token hcookie hset
  have hi := (finishRequest_cookie layer req r.2 b.2).eval World.perform w₂ i hcookie
  -- the layer keeps the id, unless it was told to change it and no handler did
  have hkept : i = r.2.id := by
    rw [hi, SessionInner.finalId]
    split
    next hregen =>
      cases hold : r.2.preCycleId with
      | some old => exact SessionInner.moved_id hold
      | none =>
        obtain ⟨hstays, hsets⟩ := hanswered.unrotated hold
        have hregen₀ : b.1.regenerate = true := hstays.regenerate.symm.trans hregen
        have hstart := hreset hregen₀
        obtain ⟨hmints, hunrotated, hused⟩ := hsets (by rw [hstart.existingId]; rfl)
          (by rw [hset]; rfl)
        rw [hstart.id] at hmints
        have hrng : r.2.rng = req.rng.tail := hstays.rng.trans hstart.rng
        have hmoved : r.2.moved.id = req.rng.get 1 := by
          rw [SessionInner.moved, hold, hrng]
          rfl
        rw [hmoved, hstays.id, hstart.id]
        by_contra hapart
        exact h ⟨hresets.mp hregen₀, hmints, hunrotated, hused, hapart⟩
    next => rfl
  rw [hkept]
  exact ⟨hanswered.set token hset, hanswered.drawn⟩

/-- A handler that leaves a reset session alone and uses the token: the response sets the token
that was minted at entry. -/
theorem csrfCall_orphan {csrfReq : CsrfRequest} {steps : List (HandlerStep V)}
    {s : SessionInner V} (hblank : s.Blank) (hmints : Mints hmac config csrfReq s.id)
    (hunrotated : ∀ step ∈ steps, step.rotates = false)
    (hused : config.mintOnEveryRequest = true ∨ ∃ step ∈ steps, step.usesToken = true) :
    (csrfCall hmac config csrfReq true steps s).Within (fun _ => True) fun r =>
      r.1.setCookie = some (mintToken hmac s.id.asBytes config.signingKey csrfReq.nonces.head) ∧
        s.Stays r.2 ∧ r.2.Blank := by
  have hentry : (entryToken hmac config (extractCookieToken config csrfReq) (some s.id)
      csrfReq.nonces).1 = ⟨some (mintToken hmac s.id.asBytes config.signingKey
        csrfReq.nonces.head), mintToken hmac s.id.asBytes config.signingKey
        csrfReq.nonces.head⟩ := by
    simp only [entryToken, hmints.unusable]
  unfold csrfCall
  simp only [hmints.admitted, hentry]
  refine Prog.Within.bind ((runHandler_blank hmac config steps hblank hunrotated).and
    (runHandler_follows hmac config steps _)) fun t ht => ?_
  obtain ⟨⟨hstays, ht⟩, hfollows⟩ := ht
  have hid : t.session.id = s.id := hstays.id
  have hread : config.mintOnEveryRequest = true ∨ t.issuer.read = true := by
    rw [hfollows.read, Bool.false_or, List.any_eq_true]
    exact hused
  refine ⟨handOut_setCookie_eq_some_iff.mpr ⟨fun _ _ => hread, ?_⟩,
    hstays.trans (handOut_session hmac config _ _ _ _ t), ?_⟩
  · rw [hid, replacementToken_minted hmac config
      (validateToken_mintToken hmac s.id.asBytes config.signingKey csrfReq.nonces.head)]
  · have hmark : ∀ set : Bool,
        (if set then markNeedsPersist t.session else t.session).Blank := by
      intro set
      cases set with
      | false => exact ht
      | true => exact ⟨ht.guest, ht.unbacked⟩
    exact hmark _

/-- The token of a response is the one of its session, but for a request that is reset. -/
theorem tokensMatch_iff_not_orphans (hsep : hmac.SeparatesIds) (layer : SessionLayer)
    (req : Request) (csrfReq : CsrfRequest) (steps : List (HandlerStep V)) (w : World V)
    (hfits : ∀ n, (req.rng.get n).Fits) :
    TokensMatch hmac config
        ((serveWithToken hmac config layer req csrfReq steps).eval World.perform w).1 ↔
      ¬Orphans hmac config layer req csrfReq steps w := by
  refine ⟨fun hmatch h => ?_, tokensMatch_of_not_orphans hmac config⟩
  obtain ⟨hpre, hresets, hreset⟩ := beginRequest_reset layer req w
  have hregen := hresets.mpr h.resets
  have hstart := hreset hregen
  unfold serveWithToken at hmatch
  simp only [Prog.eval_bind, Prog.pure_eq_ret, Prog.eval_ret, hstart.existingId,
    Option.isNone_none] at hmatch
  generalize ((beginRequest layer req).eval World.perform w).2 = w₁ at *
  generalize ((beginRequest layer req).eval World.perform w).1 = b at *
  have hcall := (csrfCall_orphan hmac config hstart.blank (hstart.id ▸ h.mints) h.unrotated
    h.used).eval World.perform w₁
  generalize ((csrfCall hmac config csrfReq true steps b.1).eval World.perform w₁).1 = r at *
  generalize ((csrfCall hmac config csrfReq true steps b.1).eval World.perform w₁).2 = w₂ at *
  obtain ⟨hset, hstays, hblank⟩ := hcall
  have hcookie := finishRequest_blank layer req hblank (hstays.regenerate.trans hregen)
    (hstays.preCycleId.trans hpre) w₂
  have hrng : r.2.rng.head = req.rng.get 1 := by
    rw [hstays.rng, hstart.rng]
    rfl
  rw [hrng] at hcookie
  have hbinds := (hmatch _ _ hcookie hset).1
  rw [hstart.id] at hbinds
  exact h.apart (eq_of_validateToken hsep (hfits 0) (hfits 1) hbinds).symm

end Response

namespace Csrf

def tailHmac : HmacSha256 where
  tag _ message := (message.drop (message.length - 16) ++ List.replicate 32 0).take 32
  length_tag _ message := by
    rw [List.length_take, List.length_append, List.length_replicate]
    omega

theorem tailHmac_separatesIds : tailHmac.SeparatesIds := by
  have htag : ∀ nonce i : List UInt8, i.length = 16 → ∀ key,
      tailHmac.tag key (nonce ++ i) = i ++ List.replicate 16 0 := by
    intro nonce i hi key
    have hdrop : (nonce ++ i).drop ((nonce ++ i).length - 16) = i := by
      rw [List.length_append, hi, Nat.add_sub_cancel, List.drop_left]
    show ((nonce ++ i).drop ((nonce ++ i).length - 16) ++ List.replicate 32 0).take 32 = _
    rw [hdrop, List.take_append, hi, List.take_of_length_le (by omega), List.take_replicate]
    rfl
  intro key nonce i j hi hj h
  rw [htag nonce i hi, htag nonce j hj] at h
  exact List.append_cancel_right h

def exampleConfig : CsrfConfig where
  signingKey := [1, 2, 3]
  cookieName := "csrf"
  formFieldName := "_csrf"
  formBodyLimit := 65536
  originsListed := false
  mintOnEveryRequest := false
  websocketOriginCheck := true

def zeroNonce : Nonce := ⟨List.replicate 32 0, by decide⟩

def pageFetch : CsrfRequest where
  method := .get
  websocketUpgrade := false
  originMatchesAllowed := false
  originIsOwnHost := true
  cookies := []
  header := none
  form := none
  nonces := fun _ => zeroNonce

def strangerRequest : Request where
  cookie := some ⟨⟨1⟩, false⟩
  material := some "stranger"
  device := none
  rng := fun n => ⟨2 + n % 2⟩
  loadedAt := 0
  finishedAt := 0

def boundLayer : SessionLayer := { SessionLayer.plain with binding := some ⟨id, none⟩ }

def boundWorld : World Nat :=
  { (World.empty : World Nat) with
    rows := fun i => if i = ⟨1⟩ then some { SessionData.default with fingerprint := some "home" }
      else none }

theorem strangerRequest_fits (n : Nat) : (strangerRequest.rng.get n).Fits := by
  have hlt : 2 + n % 2 < 256 ^ 16 := by omega
  exact ⟨hlt⟩

end Csrf

open Csrf in
/-- With nothing stored the same request is a new guest's: its handler rotates and draws. -/
theorem tokensMatch_iff_not_orphans_rotated :
    tailHmac.SeparatesIds ∧
      TokensMatch tailHmac exampleConfig
        ((serveWithToken tailHmac exampleConfig boundLayer strangerRequest pageFetch
          [.drawToken, .op (.transition .regenerate), .drawToken]).eval World.perform
            (World.empty : World Nat)).1 := by
  refine ⟨tailHmac_separatesIds, ?_⟩
  refine (tokensMatch_iff_not_orphans tailHmac exampleConfig tailHmac_separatesIds boundLayer
    strangerRequest pageFetch _ World.empty strangerRequest_fits).mpr fun h => ?_
  obtain ⟨cookie, row, -, hrow, -⟩ := h.resets
  cases hrow

open Csrf in
/-- The session of another client is reset, and the handler draws a token for its form: the
response sets the session 3 and a token of the session 2. -/
theorem reset_session_orphans_token :
    let r := ((serveWithToken tailHmac exampleConfig boundLayer strangerRequest pageFetch
      [.drawToken]).eval World.perform boundWorld).1
    let token := mintToken tailHmac (SessionId.asBytes ⟨2⟩) exampleConfig.signingKey zeroNonce
    r.2 = some ⟨3⟩ ∧ r.1.setCookie = some token ∧ r.1.drawn = [token] ∧
      validateToken tailHmac token (SessionId.asBytes ⟨3⟩) exampleConfig.signingKey = false := by
  intro r token
  decide +kernel

end Axess
