import Axess.Bytes.Base64
import Axess.Authn.Flow

/-!
# The session cookie

How the layer finds its cookie in the header (`session/cookies.rs`), and how the cookie's value is
signed and verified (`session/layer/signing.rs`): the id and a tag of it, both in base64, under a
key derived from the current master key, or on the way in from the previous one.
-/

namespace Axess

open Bytes

abbrev HeaderValue := List UInt8

def isVisibleAscii (b : UInt8) : Bool := 32 ≤ b && b < 127 || b == 9

def HeaderValue.toStr (field : HeaderValue) : Option (List Char) :=
  if field.all isVisibleAscii then some (field.map fun b => Char.ofNat b.toNat) else none

def trim (text : List Char) : List Char :=
  (text.dropWhile Char.isWhitespace).rdropWhile Char.isWhitespace

def splitOnce (sep : Char) : List Char → Option (List Char × List Char)
  | [] => none
  | c :: text =>
    if c = sep then some ([], text)
    else (splitOnce sep text).map fun (before, after) => (c :: before, after)

def splitPair (pair : List Char) : Option (List Char × List Char) :=
  (splitOnce '=' (trim pair)).map fun (name, value) => (trim name, trim value)

def maxCookieValueBytes : Nat := 4096

def cookiePairs (fields : List HeaderValue) : List (List Char) :=
  (fields.filterMap HeaderValue.toStr).flatMap (List.splitOn ';')

def valueNamed (name : String) (maxValueBytes : Nat) (pair : List Char) : Option (List Char) :=
  match splitPair pair with
  | none => none
  | some (pairName, value) =>
    if pairName ≠ name.toList then none
    else if value.length > maxValueBytes then none
    else some value

def scanPair (name : String) (maxValueBytes : Nat) (found : Option (List Char))
    (pair : List Char) : Option (Option (List Char)) :=
  match valueNamed name maxValueBytes pair with
  | none => some found
  | some value =>
    match found with
    | none => some (some value)
    | some first => if first = value then some found else none

def extractNamedCookie (fields : List HeaderValue) (name : String) (maxValueBytes : Nat) :
    Option (List Char) :=
  ((cookiePairs fields).foldlM (scanPair name maxValueBytes) none).join

theorem splitOnce_eq_some_iff {sep : Char} {text before after : List Char} :
    splitOnce sep text = some (before, after) ↔ sep ∉ before ∧ text = before ++ sep :: after := by
  induction text generalizing before with
  | nil => simp [splitOnce]
  | cons c text ih =>
    rw [splitOnce]
    by_cases hc : c = sep
    · subst hc
      cases before with
      | nil => simp
      | cons d before => simpa using fun hd _ h => absurd h hd
    · rw [if_neg hc, Option.map_eq_some_iff]
      constructor
      · rintro ⟨⟨before', after'⟩, hsplit, heq⟩
        cases heq
        obtain ⟨hnot, rfl⟩ := ih.mp hsplit
        exact ⟨List.not_mem_cons_of_ne_of_not_mem (fun h => hc h.symm) hnot, rfl⟩
      · rintro ⟨hnot, htext⟩
        cases before with
        | nil => exact absurd (List.cons.inj htext).1 hc
        | cons d before =>
          obtain ⟨rfl, rfl⟩ := List.cons.inj htext
          exact ⟨(before, after), ih.mpr ⟨List.not_mem_of_not_mem_cons hnot, rfl⟩, rfl⟩

/-- The header gives the cookie this value, and no other value of the length allowed. -/
def Presents (fields : List HeaderValue) (name : String) (maxValueBytes : Nat)
    (value : List Char) : Prop :=
  (∃ pair ∈ cookiePairs fields, valueNamed name maxValueBytes pair = some value) ∧
    ∀ pair ∈ cookiePairs fields, ∀ v, valueNamed name maxValueBytes pair = some v → v = value

theorem foldlM_scanPair_some {name : String} {maxValueBytes : Nat} {pairs : List (List Char)}
    {first v : List Char} :
    pairs.foldlM (scanPair name maxValueBytes) (some first) = some (some v) ↔
      v = first ∧ ∀ pair ∈ pairs, ∀ v', valueNamed name maxValueBytes pair = some v' →
        v' = first := by
  induction pairs with
  | nil => simp [eq_comm]
  | cons pair pairs ih =>
    rw [List.foldlM_cons, Option.bind_eq_bind]
    cases hvalue : valueNamed name maxValueBytes pair with
    | none => simp [scanPair, hvalue, ih]
    | some value =>
      by_cases heq : first = value
      · subst heq
        simp [scanPair, hvalue, ih]
      · have hne : value ≠ first := fun h => heq h.symm
        simp [scanPair, hvalue, heq, hne]

theorem extractNamedCookie_eq_some_iff {fields : List HeaderValue} {name : String}
    {maxValueBytes : Nat} {v : List Char} :
    extractNamedCookie fields name maxValueBytes = some v ↔
      Presents fields name maxValueBytes v := by
  unfold extractNamedCookie Presents
  rw [Option.join_eq_some_iff]
  -- the scan has found nothing up to the first pair that names the cookie
  induction cookiePairs fields with
  | nil => simp
  | cons pair pairs ih =>
    rw [List.foldlM_cons, Option.bind_eq_bind]
    cases hvalue : valueNamed name maxValueBytes pair with
    | none => simp [scanPair, hvalue, ih]
    | some value =>
      simp only [scanPair, hvalue, Option.bind_some, foldlM_scanPair_some, List.mem_cons,
        exists_eq_or_imp, forall_eq_or_imp, Option.some.injEq, forall_eq']
      constructor
      · rintro ⟨rfl, hrest⟩
        exact ⟨.inl rfl, rfl, hrest⟩
      · rintro ⟨-, rfl, hrest⟩
        exact ⟨rfl, hrest⟩

structure HmacSha256 where
  tag : List UInt8 → List UInt8 → List UInt8
  length_tag : ∀ key message, (tag key message).length = 32

def SessionId.asBytes (id : SessionId) : List UInt8 := toBytes 16 id.uuid

def SessionId.fromBytes (bytes : List UInt8) : SessionId := ⟨ofBytes bytes⟩

/-- An id of 128 bits, as every id is that is drawn or read from a cookie. -/
structure SessionId.Fits (id : SessionId) : Prop where
  lt : id.uuid < 256 ^ 16

instance (id : SessionId) : Decidable id.Fits :=
  decidable_of_iff (id.uuid < 256 ^ 16) ⟨.mk, SessionId.Fits.lt⟩

@[simp] theorem SessionId.length_asBytes (id : SessionId) : id.asBytes.length = 16 :=
  length_toBytes 16 id.uuid

theorem SessionId.fromBytes_asBytes {id : SessionId} (h : id.Fits) : fromBytes id.asBytes = id := by
  rw [fromBytes, asBytes, ofBytes_toBytes h.lt]

theorem SessionId.asBytes_fromBytes {bytes : List UInt8} (h : bytes.length = 16) :
    (fromBytes bytes).asBytes = bytes := by
  have hbytes := toBytes_ofBytes bytes
  rwa [h] at hbytes

theorem SessionId.fits_fromBytes {bytes : List UInt8} (h : bytes.length = 16) :
    (fromBytes bytes).Fits := by
  have hlt := ofBytes_lt bytes
  rw [h] at hlt
  exact ⟨hlt⟩

theorem SessionId.asBytes_inj {i j : SessionId} (hi : i.Fits) (hj : j.Fits)
    (h : i.asBytes = j.asBytes) : i = j := by
  rw [← fromBytes_asBytes hi, ← fromBytes_asBytes hj, h]

section Signing

variable (hmac : HmacSha256)

def hkdfExpandSubkey (prk info : List UInt8) : List UInt8 := hmac.tag prk (info ++ [1])

def hkdfInfoCookie : String := "axess.v1.session.cookie.hmac"

def hkdfInfoFingerprint : String := "axess.v1.session.fingerprint.hmac"

structure SigningKeys where
  master : List UInt8
  cookie : List UInt8
  fingerprint : List UInt8

def SigningKeys.fromMaster (master : List UInt8) : SigningKeys where
  master := master
  cookie := hkdfExpandSubkey hmac master (utf8 hkdfInfoCookie)
  fingerprint := hkdfExpandSubkey hmac master (utf8 hkdfInfoFingerprint)

structure SigningKeyRing where
  current : SigningKeys
  previous : Option SigningKeys

def signBytes (bytes key : List UInt8) : List Char := Base64.encode (hmac.tag key bytes)

def signWithKey (id : SessionId) (key : List UInt8) : List Char :=
  Base64.encode id.asBytes ++ '.' :: signBytes hmac id.asBytes key

def SigningKeyRing.signCookie (ring : SigningKeyRing) (id : SessionId) : List Char :=
  signWithKey hmac id ring.current.cookie

def decodeCookieWithKey (value : List Char) (key : List UInt8) : Option SessionId := do
  let (idEnc, macEnc) ← splitOnce '.' value
  let idBytes ← Base64.decode idEnc
  if idBytes.length ≠ 16 then none
  else
    let macBytes ← Base64.decode macEnc
    if macBytes = hmac.tag key idBytes then some (.fromBytes idBytes) else none

def SigningKeyRing.decodeCookie (ring : SigningKeyRing) (value : List Char) :
    Option VerifiedCookie :=
  match decodeCookieWithKey hmac value ring.current.cookie with
  | some id => some ⟨id, false⟩
  | none =>
    match ring.previous with
    | some previous =>
      (decodeCookieWithKey hmac value previous.cookie).map fun id => ⟨id, true⟩
    | none => none

def SigningKeyRing.verified (ring : SigningKeyRing) (cookieName : String)
    (fields : List HeaderValue) : Option VerifiedCookie :=
  (extractNamedCookie fields cookieName maxCookieValueBytes).bind (ring.decodeCookie hmac)

theorem dot_notMem_encode (bytes : List UInt8) : '.' ∉ Base64.encode bytes := by
  intro h
  have hmem := Base64.encode_subset_alphabet bytes h
  revert hmem
  decide +kernel

theorem decodeCookieWithKey_eq_some_iff {value : List Char} {key : List UInt8} {id : SessionId} :
    decodeCookieWithKey hmac value key = some id ↔ id.Fits ∧ value = signWithKey hmac id key := by
  unfold decodeCookieWithKey
  simp only [Option.bind_eq_bind, Option.bind_eq_some_iff, Prod.exists, splitOnce_eq_some_iff,
    Base64.decode_eq_some_iff, Option.ite_none_left_eq_some, Option.ite_none_right_eq_some,
    Option.some.injEq, not_not]
  constructor
  · rintro ⟨idEnc, macEnc, ⟨-, rfl⟩, idBytes, rfl, hlen, macBytes, rfl, rfl, rfl⟩
    refine ⟨SessionId.fits_fromBytes hlen, ?_⟩
    rw [signWithKey, signBytes, SessionId.asBytes_fromBytes hlen]
  · rintro ⟨hfits, hvalue⟩
    rw [hvalue]
    exact ⟨Base64.encode id.asBytes, signBytes hmac id.asBytes key,
      ⟨dot_notMem_encode id.asBytes, rfl⟩, id.asBytes, rfl, id.length_asBytes,
      hmac.tag key id.asBytes, rfl, rfl, SessionId.fromBytes_asBytes hfits⟩

/-- The value is the cookie of `id`, signed with the current key or the previous one. -/
def SigningKeyRing.Verifies (ring : SigningKeyRing) (value : List Char) (id : SessionId) : Prop :=
  value = signWithKey hmac id ring.current.cookie ∨
    ∃ previous, ring.previous = some previous ∧ value = signWithKey hmac id previous.cookie

theorem SigningKeyRing.verifies_of_decodeCookie {ring : SigningKeyRing} {value : List Char}
    {cookie : VerifiedCookie} (h : ring.decodeCookie hmac value = some cookie) :
    ring.Verifies hmac value cookie.id := by
  unfold decodeCookie at h
  split at h
  next id hid =>
    cases h
    exact .inl ((decodeCookieWithKey_eq_some_iff hmac).mp hid).2
  next =>
    split at h
    next previous hprevious =>
      obtain ⟨id, hid, rfl⟩ := Option.map_eq_some_iff.mp h
      exact .inr ⟨previous, hprevious, ((decodeCookieWithKey_eq_some_iff hmac).mp hid).2⟩
    next => cases h

theorem signWithKey_id_inj {i j : SessionId} (hi : i.Fits) (hj : j.Fits) {k l : List UInt8}
    (h : signWithKey hmac i k = signWithKey hmac j l) : i = j := by
  rw [signWithKey, signWithKey, signBytes, List.append_cons_inj_of_notMem (dot_notMem_encode _)
    (dot_notMem_encode _)] at h
  have hbytes := congrArg Base64.decode h.1
  rw [Base64.decode_encode, Base64.decode_encode] at hbytes
  exact SessionId.asBytes_inj hi hj (Option.some.inj hbytes)

/-- A cookie is read as the id it was signed for, with the current key or else the previous one. -/
theorem SigningKeyRing.decodeCookie_eq_some_iff (ring : SigningKeyRing) (value : List Char)
    (id : SessionId) (old : Bool) :
    ring.decodeCookie hmac value = some ⟨id, old⟩ ↔
      id.Fits ∧ if old then
        value ≠ ring.signCookie hmac id ∧
          ∃ previous ∈ ring.previous, value = signWithKey hmac id previous.cookie
      else value = ring.signCookie hmac id := by
  have hread (key : List UInt8) := @decodeCookieWithKey_eq_some_iff hmac value key
  unfold decodeCookie signCookie
  cases hcurrent : decodeCookieWithKey hmac value ring.current.cookie with
  | some i =>
    obtain ⟨hi, hvalue⟩ := (hread _).mp hcurrent
    have hinj := @signWithKey_id_inj hmac i id hi
    grind
  | none =>
    grind [Option.map_eq_some_iff]

end Signing

def paddingHmac : HmacSha256 where
  tag key message := (key ++ message ++ List.replicate 32 0).take 32
  length_tag key message := by
    rw [List.length_take, List.length_append, List.length_replicate]
    omega

-- a cookie signed before the master key was replaced
example :
    let before := SigningKeyRing.mk (.fromMaster paddingHmac [7]) none
    let after := SigningKeyRing.mk (.fromMaster paddingHmac [8]) (some before.current)
    let field := ("a=b; sid=".toList ++ before.signCookie paddingHmac ⟨5⟩).map fun c =>
      UInt8.ofNat c.toNat
    ((after.verified paddingHmac "sid" [field]).map fun c => (c.id, c.verifiedByPrevious)) =
      some (⟨5⟩, true) := by
  intro before after field
  decide +kernel

end Axess
