import Axess.Calls.Pool
import Axess.Federation.Logout

/-!
# What passes the validation

The claims that are acted on are those of the token, and the check of `iat` was made against one
reading of the clock. The run the delivery is part of is arbitrary.
-/

namespace Axess

open Calls

variable {P : Type}

def LogoutHandler.claimsOf (handler : LogoutHandler P) (token : List Char) :
    Option (LogoutTokenClaims × Int) := do
  let payload ← decodeJwtPayload handler.parseJson token
  let iss ← payload.getStr "iss"
  let jti ← LogoutToken.jti payload
  let iat ← LogoutToken.iat payload
  pure (⟨payload.getStr "sub", payload.getStr "sid", iss, jti⟩, iat)

theorem checkPayload_ok {iss clientId : String} {payload : Json} {now : Int}
    {claims : LogoutTokenClaims}
    (h : LogoutHandler.checkPayload iss clientId payload now = .ok claims) :
    LogoutToken.checkIat payload now = true ∧ ∃ jti, LogoutToken.jti payload = some jti ∧
      claims = ⟨payload.getStr "sub", payload.getStr "sid", iss, jti⟩ := by
  unfold LogoutHandler.checkPayload at h
  obtain ⟨-, h⟩ := passed h
  obtain ⟨-, h⟩ := passed h
  obtain ⟨hiat, h⟩ := passed h
  obtain ⟨-, h⟩ := passed h
  obtain ⟨-, h⟩ := passed h
  obtain ⟨-, h⟩ := passed h
  cases hjti : LogoutToken.jti payload with
  | none =>
    rw [hjti] at h
    cases h
  | some jti =>
    rw [hjti] at h
    exact ⟨by simpa using hiat, jti, rfl, (Except.ok.inj h).symm⟩

/-- A payload that passes its checks has claims, and was not issued too far ahead of the whole
seconds of the clock. -/
theorem claimsOf_of_checkPayload {handler : LogoutHandler P} {token : List Char}
    {iss clientId : String} {payload : Json} {now : Instant} {claims : LogoutTokenClaims}
    (hdecode : decodeJwtPayload handler.parseJson token = some payload)
    (hiss : payload.getStr "iss" = some iss)
    (h : LogoutHandler.checkPayload iss clientId payload (timestamp now) = .ok claims) :
    ∃ iat, handler.claimsOf token = some (claims, iat) ∧
      (iat - maxIatFutureSecs) * second ≤ now := by
  obtain ⟨hiat, jti, hjti, rfl⟩ := checkPayload_ok h
  unfold LogoutToken.checkIat at hiat
  cases hissued : LogoutToken.iat payload with
  | none =>
    rw [hissued] at hiat
    cases hiat
  | some iat =>
    rw [hissued] at hiat
    obtain ⟨-, -, hahead, -⟩ := of_decide_eq_true hiat
    refine ⟨iat, ?_, Int.mul_le_of_le_ediv (by decide) ?_⟩
    · unfold LogoutHandler.claimsOf
      simp [hdecode, hiss, hjti, hissued]
    · have hsecs : -maxIatFutureSecs ≤ now / second - iat := hahead
      exact Int.sub_left_le_of_le_add (by omega)

def LogoutCall.Validates : LogoutCall P → Prop
  | .providersForIssuer _ => True
  | .verifyLogoutJwt .. => True
  | .refreshJwks _ => True
  | .clock => True
  | _ => False

/-- How a run answers the validation's calls: `I` holds during it, and `Read t` from the moment the
clock has read `t`. -/
structure Validating {σ : Type} (handler : LogoutHandler P) (token : List Char)
    (X : Sem (LogoutCall P) LogoutCall.Answer σ) (R G : σ → σ → Prop) (I : σ → Prop)
    (Read : Instant → σ → Prop) : Prop where
  stable : Stable R I
  read_stable : ∀ t, Stable R (Read t)
  call : ∀ e w a w', e.Validates → X e w a w' → I w → G w w' ∧ I w'
  verified : ∀ provider w payload w', X (.verifyLogoutJwt provider token) w (.ok payload) w' →
    decodeJwtPayload handler.parseJson token = some payload
  clock : ∀ w t w', X .clock w t w' → I w → Read t w'

namespace Validating

variable {σ : Type} {handler : LogoutHandler P} {token : List Char}
  {X : Sem (LogoutCall P) LogoutCall.Answer σ} {R G : σ → σ → Prop} {I : σ → Prop}
  {Read : Instant → σ → Prop} {w : σ}

def Ended (handler : LogoutHandler P) (token : List Char) (I : σ → Prop)
    (Read : Instant → σ → Prop) (r : Option (Except Status LogoutTokenClaims)) (w : σ) : Prop :=
  I w ∧ ∀ claims, r = some (.ok claims) → ∃ t iat, Read t w ∧
    handler.claimsOf token = some (claims, iat) ∧ (iat - maxIatFutureSecs) * second ≤ t

def Decoded (handler : LogoutHandler P) (token : List Char) (I : σ → Prop)
    (r : Option (Except Status Json)) (w : σ) : Prop :=
  I w ∧ ∀ payload, r = some (.ok payload) →
    decodeJwtPayload handler.parseJson token = some payload

theorem call_bind (h : Validating handler token X R G I Read) {α : Type} {e : LogoutCall P}
    {f : e.Answer → LogoutProg P α} {Q : α → σ → Prop} (he : e.Validates) (hw : I w)
    (hnext : ∀ w a w', X e w a w' → I w → I w' → (f a).Safe X R G Q w') :
    (LogoutHandler.call e >>= f).Safe X R G Q w :=
  Prog.Safe.perform_bind I h.stable hw fun w a w' hI hX =>
    ⟨(h.call e w a w' he hX hI).1, hnext w a w' hX hI (h.call e w a w' he hX hI).2⟩

theorem decoded_safe (h : Validating handler token X R G I Read)
    {r : Option (Except Status Json)} (hr : Decoded handler token I r w) :
    (pure r : LogoutProg P _).Safe X R G (Decoded handler token I) w :=
  Prog.Safe.ret I h.stable hr.1 fun _ hI => ⟨hI, hr.2⟩

theorem verify_safe (h : Validating handler token X R G I Read) (provider : P) (hw : I w) :
    (LogoutHandler.verify provider token).Safe X R G (Decoded handler token I) w := by
  have hok {payload : Json} {w w' : σ}
      (hX : X (.verifyLogoutJwt provider token) w (.ok payload) w') (hw' : I w') :
      Decoded handler token I (some (.ok payload)) w' := by
    refine ⟨hw', ?_⟩
    rintro _ ⟨⟩
    exact h.verified provider w payload w' hX
  refine h.call_bind trivial hw fun _ verified w hX _ hw => ?_
  cases verified with
  | ok payload => exact h.decoded_safe (hok hX hw)
  | error e =>
    cases e
    case other => exact h.decoded_safe ⟨hw, nofun⟩
    -- a token that no known key verifies is tried again after a refresh
    all_goals
      refine h.call_bind trivial hw fun _ refreshed w _ _ hw => ?_
      cases refreshed with
      | none => exact h.decoded_safe ⟨hw, nofun⟩
      | some _ =>
        refine h.call_bind trivial hw fun _ verified w hX _ hw => ?_
        cases verified with
        | ok payload => exact h.decoded_safe (hok hX hw)
        | error e => exact h.decoded_safe ⟨hw, nofun⟩

theorem entryFor_validates (iss : String) (unverified : Json) :
    (handler.entryFor iss unverified).Only LogoutCall.Validates := by
  unfold LogoutHandler.entryFor
  split
  · exact trivial
  · refine ⟨trivial, fun found => ?_⟩
    rcases found with - | - | - <;> exact trivial

theorem ended_safe (h : Validating handler token X R G I Read)
    {r : Option (Except Status LogoutTokenClaims)} (hr : Ended handler token I Read r w) :
    (pure r : LogoutProg P _).Safe X R G (Ended handler token I Read) w := by
  refine Prog.Safe.ret (Ended handler token I Read r) (fun w w' hw hR => ?_) hr fun _ hw => hw
  refine ⟨h.stable hw.1 hR, fun claims hclaims => ?_⟩
  obtain ⟨t, iat, hread, htoken⟩ := hw.2 claims hclaims
  exact ⟨t, iat, h.read_stable t hread hR, htoken⟩

theorem validateLogoutToken_safe (h : Validating handler token X R G I Read) (hw : I w) :
    (handler.validateLogoutToken token).Safe X R G (Ended handler token I Read) w := by
  unfold LogoutHandler.validateLogoutToken
  split
  · exact h.ended_safe ⟨hw, nofun⟩
  next unverified hunverified =>
  split
  · exact h.ended_safe ⟨hw, nofun⟩
  next iss hiss =>
  refine Prog.Safe.bind (Prog.Within.safe (entryFor_validates iss unverified) h.stable h.call hw)
    fun found w hfound => ?_
  have hw := hfound.2
  rcases found with - | - | - | entry
  · exact h.ended_safe ⟨hw, nofun⟩
  · exact h.ended_safe ⟨hw, nofun⟩
  · exact h.ended_safe ⟨hw, nofun⟩
  refine Prog.Safe.bind (h.verify_safe entry.provider hw) fun verified w hverified => ?_
  obtain ⟨hw, hdecoded⟩ := hverified
  rcases verified with - | - | payload
  · exact h.ended_safe ⟨hw, nofun⟩
  · exact h.ended_safe ⟨hw, nofun⟩
  refine h.call_bind trivial hw fun w t w' hX hw hw' => h.ended_safe ⟨hw', fun claims hclaims => ?_⟩
  -- the verified payload is the one the issuer was read from
  have hpayload := hdecoded payload rfl
  obtain rfl := Option.some.inj (hunverified.symm.trans hpayload)
  obtain ⟨iat, hclaimsOf, hfresh⟩ :=
    claimsOf_of_checkPayload hpayload hiss (Option.some.inj hclaims)
  exact ⟨t, iat, h.clock w t w' hX hw, hclaimsOf, hfresh⟩

end Validating

/-! ## A token -/

namespace SampleToken

def payload : Json := .obj [("iss", .str "https://op"), ("aud", .str "rp"), ("iat", .int 1000),
  ("events", .obj [(backchannelLogoutEvent, .obj [])]), ("sub", .str "ada"), ("jti", .str "t1")]

def handler : LogoutHandler Unit where
  parseJson _ := some payload
  providersByIssuer _ := [⟨"rp", "op", (), none⟩]
  tenants := false
  audit := true
  jtiCacheMax := 8

def token : List Char := ['A', 'A', '.', 'A', 'A', '.', 'A', 'A']

def verified (token : List Char) : Except VerifyError Json :=
  ((decodeJwtPayload handler.parseJson token).map Except.ok).getD (.error .other)

theorem payload_of_verified {token : List Char} {payload : Json} (h : verified token = .ok payload) :
    decodeJwtPayload handler.parseJson token = some payload := by
  unfold verified at h
  cases hdecode : decodeJwtPayload handler.parseJson token with
  | none =>
    rw [hdecode] at h
    cases h
  | some decoded =>
    rw [hdecode] at h
    exact congrArg some (Except.ok.inj h)

end SampleToken

end Axess
