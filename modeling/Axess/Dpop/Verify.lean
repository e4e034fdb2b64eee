import Axess.Bytes.Base64
import Axess.Bytes.Json
import Axess.Calls.Prog
import Axess.Maps.Expiring
import Axess.Session.Data

/-!
# Proofs of possession

A resource server checks a proof that the sender holds a key
(`oauth/provider/dpop_verify.rs`). The caller reads the clock and hands the reading in; the cache
that remembers the proofs reads the clock again.

The JSON parser, the keys, the signature check, SHA-256 and the range of dates are parameters.
-/

namespace Axess

open Calls Maps

abbrev JtiDigest := Vector UInt8 32

structure JtiStore where
  live : AList fun _ : JtiDigest => Instant
  byExpiry : List (Instant × JtiDigest)

namespace JtiStore

def empty : JtiStore := ⟨∅, []⟩

def evictExpired (store : JtiStore) (now : Instant) : Nat × JtiStore :=
  let left := popDue (fun expiresAt => expiresAt ≤ now) store.live store.byExpiry
  (store.byExpiry.length - left.2.length, ⟨left.1, left.2⟩)

end JtiStore

def tryInsertAt (store : JtiStore) (digest : JtiDigest) (expiresAt now : Instant)
    (capacity : Nat) : Bool × JtiStore :=
  let store := (store.evictExpired now).2
  if digest ∈ store.live ∨ capacity ≤ store.live.keys.length then (false, store)
  else (true, ⟨store.live.insert digest expiresAt,
    store.byExpiry.orderedInsert (fun a b => a.1 ≤ b.1) (expiresAt, digest)⟩)

structure DpopPrimitives (Jwk Key : Type) where
  base64Error : List Char → String
  parseJson : List UInt8 → Except String Json
  parseJwk : Json → Except String Jwk
  decodingKey : Jwk → Except String Key
  verify : List Char → List Char → Key → Except String Bool
  sha256 : String → JtiDigest
  isDate : Instant → Bool

structure DpopVerifyRequest where
  proofJwt : List Char
  htm : String
  htu : String
  accessToken : Option String
  maxIatSkewSecs : Int

inductive DpopError where
  | skewSetting (skew : Int)
  | tooLong
  | segments
  | headerBase64 (e : String)
  | headerJson (e : String)
  | typ (found : String)
  | alg (found : String)
  | jwkMissing
  | jwkNotObject
  | jwkPrivate
  | jwkInvalid (e : String)
  | keyBuild (e : String)
  | verify (e : String)
  | signature
  | payloadBase64 (e : String)
  | payloadJson (e : String)
  | htm (found expected : String)
  | htu (found expected : String)
  | iatMissing
  | iatRange
  | iatSkew (skew max : Int)
  | athMissing
  | athMismatch
  | jtiMissing
  | jtiLength
  | windowOverflow
  | replayed
  | thumbprint (member : String)
  deriving DecidableEq, Repr

def maxIatSkewSecs : Int := 86400

def maxProofBytes : Nat := 8 * 1024

def maxJtiBytes : Nat := 256

def numSeconds (span : Int) : Int := span.tdiv second

def privateJwkMembers : List String := ["d", "p", "q", "dp", "dq", "qi", "oth", "k"]

def refusePrivateKeyMaterial (jwk : Json) : Except DpopError Unit :=
  match jwk.asObject with
  | none => .error .jwkNotObject
  | some members =>
    if privateJwkMembers.any fun member => members.any (·.1 == member) then .error .jwkPrivate
    else .ok ()

namespace DpopPrimitives

variable {Jwk Key : Type} (prims : DpopPrimitives Jwk Key)

def decode (error : String → DpopError) (text : List Char) : Except DpopError (List UInt8) :=
  match Bytes.Base64.decode text with
  | some bytes => .ok bytes
  | none => .error (error (prims.base64Error text))

def dpopReplayWindowExpiry (iat : Instant) (maxIatSkewSecs : Int) : Option Instant :=
  let expiresAt := iat + (maxIatSkewSecs * 2 + 1) * second
  if prims.isDate expiresAt then some expiresAt else none

def jwkThumbprintEs256 (jwk : Json) : Except DpopError (List Char) := do
  let member (key : String) : Except DpopError String :=
    match jwk.getStr key with
    | some value => .ok value
    | none => .error (.thumbprint key)
  let crv ← member "crv"
  let kty ← member "kty"
  let x ← member "x"
  let y ← member "y"
  let canonical := "\x7b\"crv\":\"" ++ crv ++ "\",\"kty\":\"" ++ kty ++ "\",\"x\":\"" ++ x ++
    "\",\"y\":\"" ++ y ++ "\"\x7d"
  pure (Bytes.Base64.encode (prims.sha256 canonical).toList)

def signedClaims (proofJwt : List Char) : Except DpopError (Json × Json) := do
  if maxProofBytes < (proofJwt.map Char.utf8Size).sum then throw .tooLong
  match proofJwt.splitOn '.' with
  | [header, payload, signature] => do
    let headerBytes ← prims.decode .headerBase64 header
    let parsed ← (prims.parseJson headerBytes).mapError .headerJson
    let typ := (parsed.getStr "typ").getD ""
    if typ ≠ "dpop+jwt" then throw (.typ typ)
    let alg := (parsed.getStr "alg").getD ""
    if alg ≠ "ES256" then throw (.alg alg)
    match parsed.get "jwk" with
    | none => throw .jwkMissing
    | some jwkValue => do
      refusePrivateKeyMaterial jwkValue
      let jwk ← (prims.parseJwk jwkValue).mapError .jwkInvalid
      let key ← (prims.decodingKey jwk).mapError .keyBuild
      let signatureOk ← (prims.verify signature (header ++ '.' :: payload) key).mapError .verify
      if !signatureOk then throw .signature
      let payloadBytes ← prims.decode .payloadBase64 payload
      let claims ← (prims.parseJson payloadBytes).mapError .payloadJson
      pure (jwkValue, claims)
  | _ => throw .segments

def checkClaims (req : DpopVerifyRequest) (now : Instant) (claims : Json) :
    Except DpopError Instant := do
  let htm := (claims.getStr "htm").getD ""
  if htm ≠ req.htm then throw (.htm htm req.htm)
  let htu := (claims.getStr "htu").getD ""
  if htu ≠ req.htu then throw (.htu htu req.htu)
  match (claims.get "iat").bind Json.asI64 with
  | none => throw .iatMissing
  | some iatSecs => do
    let iat : Instant := iatSecs * second
    if !prims.isDate iat then throw .iatRange
    let skew := |numSeconds (now - iat)|
    if req.maxIatSkewSecs < skew then throw (.iatSkew skew req.maxIatSkewSecs)
    match req.accessToken with
    | none => pure iat
    | some accessToken =>
      match claims.getStr "ath" with
      | none => throw .athMissing
      | some ath =>
        if ath.toList = Bytes.Base64.encode (prims.sha256 accessToken).toList then pure iat
        else throw .athMismatch

def examine (req : DpopVerifyRequest) (now : Instant) :
    Except DpopError (Json × JtiDigest × Instant) := do
  if ¬(0 ≤ req.maxIatSkewSecs ∧ req.maxIatSkewSecs ≤ maxIatSkewSecs) then
    throw (.skewSetting req.maxIatSkewSecs)
  let (jwkValue, claims) ← prims.signedClaims req.proofJwt
  let iat ← prims.checkClaims req now claims
  match claims.getStr "jti" with
  | none => throw .jtiMissing
  | some jti => do
    if jti.isEmpty ∨ maxJtiBytes < jti.utf8ByteSize then throw .jtiLength
    match prims.dpopReplayWindowExpiry iat req.maxIatSkewSecs with
    | none => throw .windowOverflow
    | some expiresAt => pure (jwkValue, prims.sha256 jti, expiresAt)

end DpopPrimitives

inductive DpopCall where
  | clock
  | tryInsert (digest : JtiDigest) (expiresAt : Instant)

def DpopCall.Answer : DpopCall → Type
  | clock => Instant
  | tryInsert .. => Bool

namespace DpopPrimitives

variable {Jwk Key : Type} (prims : DpopPrimitives Jwk Key)

def verifyDpopProof (req : DpopVerifyRequest) (now : Instant) :
    Prog DpopCall DpopCall.Answer (Except DpopError (List Char)) :=
  match prims.examine req now with
  | .error e => pure (.error e)
  | .ok (jwkValue, digest, expiresAt) => do
    let fresh : Bool ← Prog.perform (A := DpopCall.Answer) (.tryInsert digest expiresAt)
    if fresh then pure (prims.jwkThumbprintEs256 jwkValue) else pure (.error .replayed)

def present (req : DpopVerifyRequest) :
    Prog DpopCall DpopCall.Answer (Except DpopError (List Char)) := do
  let now ← Prog.perform (A := DpopCall.Answer) .clock
  prims.verifyDpopProof req now

end DpopPrimitives

end Axess
