import Axess.Session.Cookie

/-!
# The CSRF middleware

Signed double submit (`middleware/csrf.rs`): a token is a nonce and a tag of the nonce and the
session id, a request that changes state has to present it twice, and the response hands out a
token for the session the handler leaves behind. The middleware runs inside the session layer, so
it sees the id before the session is finished.
-/

namespace Axess

open Bytes Calls

variable {V : Type}

def tokenNonceBytes : Nat := 32

structure Nonce where
  bytes : List UInt8
  length_bytes : bytes.length = tokenNonceBytes

section Token

variable (hmac : HmacSha256)

def computeTag (nonce sessionId signingKey : List UInt8) : List UInt8 :=
  hmac.tag signingKey (nonce ++ sessionId)

def mintToken (sessionId signingKey : List UInt8) (nonce : Nonce) : List Char :=
  Base64.encode (nonce.bytes ++ computeTag hmac nonce.bytes sessionId signingKey)

def validateToken (token : List Char) (sessionId signingKey : List UInt8) : Bool :=
  match Base64.decode token with
  | none => false
  | some bytes =>
    if bytes.length ≠ tokenNonceBytes + 32 then false
    else
      computeTag hmac (bytes.take tokenNonceBytes) sessionId signingKey ==
        bytes.drop tokenNonceBytes

def validatePair (cookieToken presented : Option (List Char))
    (sessionId signingKey : List UInt8) : Bool :=
  match cookieToken, presented with
  | some c, some p =>
    if c.isEmpty || p.isEmpty then false
    else c == p && validateToken hmac c sessionId signingKey
  | _, _ => false

theorem validateToken_mintToken (sessionId signingKey : List UInt8) (nonce : Nonce) :
    validateToken hmac (mintToken hmac sessionId signingKey nonce) sessionId signingKey = true := by
  have hlen := nonce.length_bytes
  simp only [validateToken, mintToken, Base64.decode_encode, List.length_append, computeTag,
    hmac.length_tag, hlen, ne_eq, not_true_eq_false, if_false]
  rw [← hlen, List.take_left, List.drop_left, beq_self_eq_true]

theorem validateToken_iff (token : List Char) (sessionId signingKey : List UInt8) :
    validateToken hmac token sessionId signingKey = true ↔
      ∃ nonce, token = mintToken hmac sessionId signingKey nonce := by
  constructor
  · intro h
    unfold validateToken at h
    split at h
    next => cases h
    next bytes hdecode =>
      split at h
      next => cases h
      next hlength =>
        have hlen : bytes.length = tokenNonceBytes + 32 := not_not.mp hlength
        refine ⟨⟨bytes.take tokenNonceBytes, by rw [List.length_take]; omega⟩, ?_⟩
        rw [mintToken, beq_iff_eq.mp h, List.take_append_drop]
        exact Base64.decode_eq_some_iff.mp hdecode
  · rintro ⟨nonce, rfl⟩
    exact validateToken_mintToken ..

theorem validatePair_iff (cookieToken presented : Option (List Char))
    (sessionId signingKey : List UInt8) :
    validatePair hmac cookieToken presented sessionId signingKey = true ↔
      ∃ nonce, cookieToken = some (mintToken hmac sessionId signingKey nonce) ∧
        presented = cookieToken := by
  constructor
  · intro h
    unfold validatePair at h
    split at h
    next c p =>
      rw [Bool.if_false_left, Bool.and_eq_true, Bool.and_eq_true, beq_iff_eq,
        validateToken_iff] at h
      obtain ⟨-, rfl, nonce, rfl⟩ := h
      exact ⟨nonce, rfl, rfl⟩
    next => cases h
  · rintro ⟨nonce, rfl, rfl⟩
    have hvalid := validateToken_mintToken hmac sessionId signingKey nonce
    -- the empty text is no token: it decodes to no bytes
    cases htoken : mintToken hmac sessionId signingKey nonce with
    | nil =>
      rw [htoken] at hvalid
      cases hvalid
    | cons c cs =>
      rw [htoken] at hvalid
      simp [validatePair, hvalid]

def HmacSha256.SeparatesIds : Prop :=
  ∀ key nonce i j : List UInt8, i.length = 16 → j.length = 16 →
    hmac.tag key (nonce ++ i) = hmac.tag key (nonce ++ j) → i = j

theorem eq_of_validateToken {hmac : HmacSha256} (hsep : hmac.SeparatesIds) {i j : SessionId}
    (hi : i.Fits) (hj : j.Fits) {signingKey : List UInt8} {nonce : Nonce}
    (h : validateToken hmac (mintToken hmac i.asBytes signingKey nonce) j.asBytes signingKey =
      true) : i = j := by
  have hlen := nonce.length_bytes
  simp only [validateToken, mintToken, Base64.decode_encode, List.length_append, computeTag,
    hmac.length_tag, hlen, ne_eq, not_true_eq_false, if_false] at h
  rw [← hlen, List.take_left, List.drop_left, beq_iff_eq] at h
  exact SessionId.asBytes_inj hi hj
    (hsep _ _ _ _ i.length_asBytes j.length_asBytes h.symm)

end Token

structure CsrfConfig where
  signingKey : List UInt8
  cookieName : String
  formFieldName : String
  formBodyLimit : Nat
  originsListed : Bool
  mintOnEveryRequest : Bool
  websocketOriginCheck : Bool

inductive Method where
  | get | head | options | trace
  | other (name : String)
  deriving DecidableEq

def Method.isStateChanging : Method → Bool
  | get | head | options | trace => false
  | other _ => true

structure FormBody where
  declared : Option Nat
  size : Nat
  fields : List (List Char × List Char)

structure CsrfRequest where
  method : Method
  websocketUpgrade : Bool
  originMatchesAllowed : Bool
  originIsOwnHost : Bool
  cookies : List HeaderValue
  header : Option HeaderValue
  form : Option FormBody
  nonces : Stream' Nonce

inductive CsrfRefusal where
  | webSocketOrigin | noSession | originMismatch | tokenUnreadable | tokenInvalid
  deriving DecidableEq, Repr

def extractCookieToken (config : CsrfConfig) (req : CsrfRequest) : Option (List Char) :=
  extractNamedCookie req.cookies config.cookieName maxCookieValueBytes

def extractPresentedToken (config : CsrfConfig) (req : CsrfRequest) :
    Except CsrfRefusal (Option (List Char)) :=
  match (req.header.bind HeaderValue.toStr).filter (!·.isEmpty) with
  | some token => .ok (some token)
  | none =>
    match req.form with
    | none => .ok none
    | some form =>
      if form.declared.any (· > config.formBodyLimit) then .error .tokenUnreadable
      else if form.size > config.formBodyLimit then .error .tokenUnreadable
      else
        .ok (((form.fields.find? fun field => field.1 == config.formFieldName.toList).map
          Prod.snd).filter (!·.isEmpty))

section Middleware

variable (hmac : HmacSha256) (config : CsrfConfig)

def validateStateChanging (req : CsrfRequest) (sessionId : Option SessionId)
    (cookieToken : Option (List Char)) : Except CsrfRefusal Unit :=
  match sessionId with
  | none => .error .noSession
  | some sessionId =>
    if config.originsListed && !req.originMatchesAllowed then .error .originMismatch
    else
      match extractPresentedToken config req with
      | .error reason => .error reason
      | .ok presented =>
        if validatePair hmac cookieToken presented sessionId.asBytes config.signingKey then .ok ()
        else .error .tokenInvalid

/-- A request that changes state passes exactly when its origin is admitted and it presents the
token of its cookie, minted for its session. -/
theorem validateStateChanging_ok_iff (req : CsrfRequest) (id : SessionId)
    (cookieToken : Option (List Char)) :
    validateStateChanging hmac config req (some id) cookieToken = .ok () ↔
      (config.originsListed = true → req.originMatchesAllowed = true) ∧
      ∃ nonce, cookieToken = some (mintToken hmac id.asBytes config.signingKey nonce) ∧
        extractPresentedToken config req = .ok cookieToken := by
  have hpair (presented : Option (List Char)) :=
    validatePair_iff hmac cookieToken presented id.asBytes config.signingKey
  cases hpresented : extractPresentedToken config req <;> grind [validateStateChanging]

def gate (req : CsrfRequest) (sessionId : Option SessionId)
    (cookieToken : Option (List Char)) : Except CsrfRefusal Unit :=
  let admitted :=
    if config.originsListed then req.originMatchesAllowed
    else if config.websocketOriginCheck then req.originIsOwnHost
    else true
  if req.websocketUpgrade && !admitted then .error .webSocketOrigin
  else if req.method.isStateChanging then
    validateStateChanging hmac config req sessionId cookieToken
  else .ok ()

structure EntryToken where
  provisionalMint : Option (List Char)
  extensionToken : List Char

def usableCookie (cookieToken : Option (List Char)) (sessionId : Option SessionId) :
    Option (List Char) :=
  cookieToken.filter fun c =>
    !c.isEmpty && sessionId.any fun sid => validateToken hmac c sid.asBytes config.signingKey

def entryToken (cookieToken : Option (List Char)) (sessionId : Option SessionId)
    (nonces : Stream' Nonce) : EntryToken × Stream' Nonce :=
  match usableCookie hmac config cookieToken sessionId, sessionId with
  | some c, _ => (⟨none, c⟩, nonces)
  | none, some sid =>
    let token := mintToken hmac sid.asBytes config.signingKey nonces.head
    (⟨some token, token⟩, nonces.tail)
  | none, none => (⟨none, []⟩, nonces)

structure CsrfIssuer where
  entry : Option (SessionId × List Char)
  rotated : Option (SessionId × List Char)
  read : Bool
  nonces : Stream' Nonce

def CsrfIssuer.mintFor (issuer : CsrfIssuer) (current : SessionId) : List Char × CsrfIssuer :=
  let token := mintToken hmac current.asBytes config.signingKey issuer.nonces.head
  (token, { issuer with rotated := some (current, token), nonces := issuer.nonces.tail })

def CsrfIssuer.tokenForRotated (issuer : CsrfIssuer) (current : SessionId) :
    List Char × CsrfIssuer :=
  match issuer.rotated with
  | some (id, token) => if id = current then (token, issuer) else issuer.mintFor hmac config current
  | none => issuer.mintFor hmac config current

def CsrfIssuer.tokenFor (issuer : CsrfIssuer) (current : SessionId) : List Char × CsrfIssuer :=
  match issuer.entry with
  | some (id, token) =>
    if id = current then (token, issuer) else issuer.tokenForRotated hmac config current
  | none => issuer.tokenForRotated hmac config current

def replacementToken (issuer : CsrfIssuer) (provisionalMint cookieToken : Option (List Char))
    (sessionIdAfter : Option SessionId) : Option (List Char) × CsrfIssuer :=
  let effectiveCookie := (provisionalMint.or cookieToken).filter (!·.isEmpty)
  match sessionIdAfter with
  | none => (none, issuer)
  | some sidAfter =>
    if effectiveCookie.any fun c => validateToken hmac c sidAfter.asBytes config.signingKey then
      (provisionalMint, issuer)
    else
      let (token, issuer) := issuer.tokenFor hmac config sidAfter
      (some token, issuer)

inductive HandlerStep (V : Type) where
  | op (o : Op V)
  | readToken
  | drawToken

/-- A handler part way: its session, the issuer, and the tokens it has drawn under the id it has
now. -/
structure Handling (V : Type) where
  session : SessionInner V
  issuer : CsrfIssuer
  drawn : List (List Char)

variable [BEq V] [JsonSize V]

def HandlerStep.run (s : Handling V) : HandlerStep V → Async V (Handling V)
  | .op o => do
    let session ← o.run s.session
    pure { s with session, drawn := if session.id = s.session.id then s.drawn else [] }
  | .readToken => pure { s with issuer := { s.issuer with read := true } }
  | .drawToken =>
    let (token, issuer) := CsrfIssuer.tokenFor hmac config { s.issuer with read := true } s.session.id
    pure { s with issuer, drawn := s.drawn ++ [token] }

def runHandler : List (HandlerStep V) → Handling V → Async V (Handling V)
  | [], s => pure s
  | step :: steps, s => do
    let s ← HandlerStep.run hmac config s step
    runHandler steps s

/-- What the middleware answers: why it refused, the token cookie it sets, and the tokens the
handler drew since its last rotation. -/
structure CsrfResponse where
  refused : Option CsrfRefusal
  setCookie : Option (List Char)
  drawn : List (List Char)

def markNeedsPersist (s : SessionInner V) : SessionInner V := { s with needsPersist := true }

def handOut (entry : EntryToken) (cookieToken : Option (List Char)) (fresh : Bool)
    (entryId : SessionId) (s : Handling V) : CsrfResponse × SessionInner V :=
  let (replacement, issuer) :=
    replacementToken hmac config s.issuer entry.provisionalMint cookieToken (some s.session.id)
  let tokenToSet :=
    if fresh && !config.mintOnEveryRequest && !issuer.read && s.session.id == entryId then none
    else replacement
  (⟨none, tokenToSet, s.drawn⟩,
    if tokenToSet.isSome then markNeedsPersist s.session else s.session)

def csrfCall (req : CsrfRequest) (fresh : Bool) (steps : List (HandlerStep V))
    (s : SessionInner V) : Async V (CsrfResponse × SessionInner V) :=
  let cookieToken := extractCookieToken config req
  match gate hmac config req (some s.id) cookieToken with
  | .error reason => pure (⟨some reason, none, []⟩, s)
  | .ok () => do
    let (entry, nonces) := entryToken hmac config cookieToken (some s.id) req.nonces
    let issuer : CsrfIssuer := ⟨some (s.id, entry.extensionToken), none, false, nonces⟩
    let handled ← runHandler hmac config steps ⟨s, issuer, []⟩
    pure (handOut hmac config entry cookieToken fresh s.id handled)

/-- A request through the session layer with the middleware inside it: what the middleware
answers, and the session cookie of the response. -/
def serveWithToken (layer : SessionLayer) (req : Request) (csrfReq : CsrfRequest)
    (steps : List (HandlerStep V)) : Async V (CsrfResponse × Option SessionId) := do
  let (s, existingId) ← beginRequest layer req
  let (response, s) ← csrfCall hmac config csrfReq existingId.isNone steps s
  let cookie ← finishRequest layer req s existingId
  pure (response, cookie)

end Middleware

end Axess
