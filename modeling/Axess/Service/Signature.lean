import Axess.Session.Cookie

/-!
# Signed service requests

A caller proves that it holds a secret by a keyed hash over its request
(`middleware/service_secret/signature.rs`). The header carries the time of signing and one tag per
scheme; a route reads the highest scheme it enables. Accepted tags are remembered so that a request
is not accepted twice.

The keyed hash and the digest of a header are parameters. The memory is under a lock; the claim on
the next sweep is not, so a check makes three calls: it reads the clock, claims a sweep, and takes
the lock.
-/

namespace Axess

open Calls

abbrev Tag := Vector UInt8 32

structure Tags where
  v1 : Option Tag
  v2 : Option Tag
  v3 : Option Tag
  deriving DecidableEq

def nibble (c : Char) : Option UInt8 :=
  if '0' ≤ c ∧ c ≤ '9' then some (UInt8.ofNat (c.toNat - '0'.toNat))
  else if 'a' ≤ c ∧ c ≤ 'f' then some (UInt8.ofNat (c.toNat - 'a'.toNat + 10))
  else if 'A' ≤ c ∧ c ≤ 'F' then some (UInt8.ofNat (c.toNat - 'A'.toNat + 10))
  else none

def decodePairs : List Char → Option (List UInt8)
  | [] => some []
  | [_] => none
  | high :: low :: rest => do
    let high ← nibble high
    let low ← nibble low
    let bytes ← decodePairs rest
    pure ((high <<< 4 ||| low) :: bytes)

def decodeHex (hex : List Char) : Option Tag :=
  (decodePairs hex).bind fun bytes =>
    if h : bytes.toArray.size = 32 then some ⟨bytes.toArray, h⟩ else none

def hexDigits : List Char := "0123456789abcdef".toList

def hexChar (n : UInt8) : Char := hexDigits.getD n.toNat '0'

def encodeHex (tag : Tag) : List Char :=
  tag.toList.flatMap fun byte : UInt8 => [hexChar (byte >>> 4), hexChar (byte &&& 15)]

theorem nibble_hexChar (byte : UInt8) :
    nibble (hexChar (byte >>> 4)) = some (byte >>> 4) ∧
      nibble (hexChar (byte &&& 15)) = some (byte &&& 15) ∧
      byte >>> 4 <<< 4 ||| byte &&& 15 = byte := by
  have hall : ∀ n : Fin 256,
      nibble (hexChar (UInt8.ofNat n >>> 4)) = some (UInt8.ofNat n >>> 4) ∧
        nibble (hexChar (UInt8.ofNat n &&& 15)) = some (UInt8.ofNat n &&& 15) ∧
        UInt8.ofNat n >>> 4 <<< 4 ||| UInt8.ofNat n &&& 15 = UInt8.ofNat n := by
    decide +kernel
  simpa using hall ⟨byte.toNat, byte.toNat_lt⟩

theorem decodePairs_hex (bytes : List UInt8) :
    decodePairs (bytes.flatMap fun byte : UInt8 => [hexChar (byte >>> 4), hexChar (byte &&& 15)]) =
      some bytes := by
  induction bytes with
  | nil => rfl
  | cons byte bytes ih =>
    obtain ⟨hhigh, hlow, hbyte⟩ := nibble_hexChar byte
    rw [List.flatMap_cons, List.cons_append, List.cons_append, List.nil_append, decodePairs, ih,
      hhigh, hlow]
    show some ((byte >>> 4 <<< 4 ||| byte &&& 15) :: bytes) = _
    rw [hbyte]

theorem encodeHex_injective : Function.Injective encodeHex := by
  intro tag tag' h
  have hbytes := congrArg decodePairs h
  rw [encodeHex, encodeHex, decodePairs_hex, decodePairs_hex] at hbytes
  exact Vector.toList_inj.mp (Option.some.inj hbytes)

theorem hexChar_mem (n : UInt8) : hexChar n ∈ hexDigits := by
  unfold hexChar
  rw [List.getD_eq_getElem?_getD]
  cases h : hexDigits[n.toNat]? with
  | none => exact List.mem_cons_self
  | some c => exact List.mem_of_getElem? h

theorem utf8Size_hexChar (n : UInt8) : (hexChar n).utf8Size = 1 := by
  have hall : ∀ c ∈ hexDigits, c.utf8Size = 1 := List.all_iff_forall_prop.mp (by decide +kernel)
  exact hall _ (hexChar_mem n)

def natDigits (n : Nat) : List Char :=
  if n = 0 then ['0'] else ((Nat.digits 10 n).map fun d => hexDigits.getD d '0').reverse

def intDigits (n : Int) : List Char :=
  if n < 0 then '-' :: natDigits n.natAbs else natDigits n.natAbs

def parseDigits (digits : List Char) : Option Nat :=
  if digits.isEmpty || !digits.all Char.isDigit then none
  else some (digits.foldl (fun n d => 10 * n + (d.toNat - '0'.toNat)) 0)

def parseI64 (text : List Char) : Option Int :=
  let value : Option Int := match text with
    | '-' :: digits => (parseDigits digits).map fun n => -(n : Int)
    | '+' :: digits => (parseDigits digits).map (↑)
    | digits => (parseDigits digits).map (↑)
  value.filter fun n => -(2 ^ 63) ≤ n ∧ n < 2 ^ 63

def parsePair (read : Option Int × Tags) (pair : List Char) : Option (Option Int × Tags) :=
  (splitOnce '=' (trim pair)).bind fun (key, value) =>
    if key = ['t'] then (parseI64 value).map fun stamp => (some stamp, read.2)
    else if key = ['v', '1'] then
      (decodeHex value).map fun tag => (read.1, { read.2 with v1 := some tag })
    else if key = ['v', '2'] then
      (decodeHex value).map fun tag => (read.1, { read.2 with v2 := some tag })
    else if key = ['v', '3'] then
      (decodeHex value).map fun tag => (read.1, { read.2 with v3 := some tag })
    else some read

def parseHeader (value : List Char) : Option (Int × Tags) :=
  ((value.splitOn ',').foldlM parsePair (none, ⟨none, none, none⟩)).bind fun (stamp, tags) =>
    stamp.map (·, tags)

structure SignedRequest where
  method : String
  target : String
  contentType : List String
  contentEncoding : List String
  declaredLength : Option Nat
  body : List UInt8
  signature : Option HeaderValue

/-- The keyed hash over some lines, each ended by a newline, and a body; and the digest of a
header's value in hex. -/
structure ServiceMac where
  hmac : Tag → List String → List UInt8 → Tag
  sha256 : String → String

namespace ServiceMac

variable (mac : ServiceMac)

def headerDigest (values : List String) : String := mac.sha256 (", ".intercalate values)

def signBytesV3 (key : Tag) (unixSeconds : Int) (req : SignedRequest) (audience : String) : Tag :=
  mac.hmac key ["v3", String.ofList (intDigits unixSeconds), req.method, req.target, audience,
    mac.headerDigest req.contentType, mac.headerDigest req.contentEncoding] req.body

def signBytesV2 (key : Tag) (unixSeconds : Int) (req : SignedRequest) (audience : String) : Tag :=
  mac.hmac key ["v2", String.ofList (intDigits unixSeconds), req.method, req.target, audience]
    req.body

def signBytes (key : Tag) (unixSeconds : Int) (req : SignedRequest) : Tag :=
  mac.hmac key ["v1", String.ofList (intDigits unixSeconds), req.method, req.target] req.body

def signedParts (key : Tag) (audience : String) (unixSeconds : Int) (req : SignedRequest) :
    List (List Char) :=
  ['t' :: '=' :: intDigits unixSeconds,
    'v' :: '2' :: '=' :: encodeHex (mac.signBytesV2 key unixSeconds req audience),
    'v' :: '3' :: '=' :: encodeHex (mac.signBytesV3 key unixSeconds req audience)]

def signFor (key : Tag) (audience : String) (unixSeconds : Int) (req : SignedRequest) :
    List Char :=
  [','].intercalate (mac.signedParts key audience unixSeconds req)

end ServiceMac

abbrev TagMap := AList fun _ : Tag => Int

namespace TagMap

def retain (m : TagMap) (keep : Int → Bool) : TagMap :=
  ⟨m.entries.filter fun e => keep e.2, m.nodupKeys.sublist List.filter_sublist⟩

end TagMap

/-- The accepted tags, by the stamp each was signed with. -/
structure Remembered where
  live : TagMap
  /-- Stamped further ahead of the clock than the tolerance when a sweep ran. -/
  ahead : TagMap
  /-- The newest stamp ever forgotten for age. -/
  forgottenThrough : Option Int

namespace Remembered

def empty : Remembered := ⟨∅, ∅, none⟩

def aged (now : Int) (window : Nat) (stamp : Int) : Bool :=
  stamp < now && window < (now - stamp).natAbs

def early (now : Int) (window : Nat) (stamp : Int) : Bool :=
  now < stamp && window < (stamp - now).natAbs

def raise (mark : Option Int) (stamp : Int) : Option Int :=
  some (mark.elim stamp fun m => max m stamp)

variable (seen : Remembered) (now : Int) (window : Nat)

def back : TagMap := TagMap.retain seen.ahead fun s => !aged now window s && !early now window s

def forgets : List Int :=
  ((seen.ahead.entries ++ (seen.back now window ∪ seen.live).entries).filter
    fun e => aged now window e.2).map (·.2)

/-- Forget what is older than the window, set aside what is further ahead than it, and count again
what was set aside and is within the window. -/
def sweep : Remembered where
  live := TagMap.retain (seen.back now window ∪ seen.live) fun s =>
    !aged now window s && !early now window s
  ahead := TagMap.retain (seen.back now window ∪ seen.live)
      (fun s => !aged now window s && early now window s) ∪
    TagMap.retain seen.ahead fun s => !aged now window s && early now window s
  forgottenThrough := (seen.forgets now window).foldl raise seen.forgottenThrough

end Remembered

/-- How a route checks signatures: the tolerance in whole seconds. -/
structure SignedRequests where
  tolerance : Nat
  maxBodyBytes : Nat
  maxRemembered : Nat
  audience : Option String
  unaddressedUntil : Option Instant
  v2Until : Option Instant

def SignedRequests.window (config : SignedRequests) : Nat := min config.tolerance (2 ^ 63 - 1)

inductive Rejection where
  | malformed
  | staleStamp
  | tooLarge
  | badSignature
  | replay (caller : String)
  | cacheFull
  deriving DecidableEq, Repr

inductive MemoryRefusal where
  | staleStamp | replay | cacheFull
  deriving DecidableEq, Repr

structure VerifierState where
  seen : Remembered
  lastSweep : Nat

/-- The claim on the next sweep, and the stamp it leaves. -/
def claimSweep (now : Int) (interval last : Nat) : Bool × Nat :=
  if now.toNat < last ∨ interval ≤ now.toNat - last then (true, now.toNat) else (false, last)

namespace VerifierState

variable (config : SignedRequests) (now : Int)

/-- A full memory is swept once more, if this request wins the claim; `lost` says that another one
moved the stamp meanwhile. -/
def makeRoom (lost : Bool) (s : VerifierState) : VerifierState :=
  if config.maxRemembered ≤ s.seen.live.keys.length ∧ lost = false then
    let (won, last) := claimSweep now 1 s.lastSweep
    ⟨if won then s.seen.sweep now config.window else s.seen, last⟩
  else s

def remember (sweepDue lost : Bool) (tag : Tag) (stamp : Int) (s : VerifierState) :
    Except MemoryRefusal Unit × VerifierState :=
  let s := if sweepDue then { s with seen := s.seen.sweep now config.window } else s
  if s.seen.forgottenThrough.any (stamp ≤ ·) then (.error .staleStamp, s)
  else if tag ∈ s.seen.live ∨ tag ∈ s.seen.ahead then (.error .replay, s)
  else
    let s := s.makeRoom config now lost
    if config.maxRemembered ≤ s.seen.live.keys.length then (.error .cacheFull, s)
    else (.ok (), { s with seen := { s.seen with live := s.seen.live.insert tag stamp } })

end VerifierState

inductive VerifierCall where
  | clock
  | claimSweep (now : Int) (interval : Nat)
  | remember (now : Int) (sweepDue : Bool) (tag : Tag) (stamp : Int)

def VerifierCall.Answer : VerifierCall → Type
  | clock => Instant
  | claimSweep .. => Bool
  | remember .. => Except MemoryRefusal Unit

inductive Scheme where
  | v1 (tag : Tag)
  | v2 (tag : Tag)
  | v3 (tag : Tag)
  deriving DecidableEq

def Scheme.bytes : Scheme → Tag
  | v1 tag => tag
  | v2 tag => tag
  | v3 tag => tag

structure ServiceSecret where
  name : String
  signingKey : Tag

def ServiceSecret.outcome (caller : ServiceSecret) :
    Except MemoryRefusal Unit → Except Rejection String
  | .ok () => .ok caller.name
  | .error .staleStamp => .error .staleStamp
  | .error .replay => .error (.replay caller.name)
  | .error .cacheFull => .error .cacheFull

namespace SignedRequests

variable (config : SignedRequests)

def isOpen (instant : Instant) (stop : Option Instant) : Bool := stop.any (instant < ·)

def scheme (instant : Instant) (tags : Tags) : Option Scheme :=
  match if config.audience.isSome then tags.v3 else none with
  | some v3 => some (.v3 v3)
  | none =>
    match if config.audience.isSome && isOpen instant config.v2Until then tags.v2 else none with
    | some v2 => some (.v2 v2)
    | none => (if isOpen instant config.unaddressedUntil then tags.v1 else none).map .v1

def signedWith (mac : ServiceMac) (req : SignedRequest) (stamp : Int) (tag : Scheme)
    (secret : ServiceSecret) : Bool :=
  match tag, config.audience with
  | .v3 presented, some audience =>
    mac.signBytesV3 secret.signingKey stamp req audience == presented
  | .v2 presented, some audience =>
    mac.signBytesV2 secret.signingKey stamp req audience == presented
  | .v1 presented, _ => mac.signBytes secret.signingKey stamp req == presented
  | _, none => false

def check (mac : ServiceMac) (secrets : List ServiceSecret) (req : SignedRequest) :
    Prog VerifierCall VerifierCall.Answer (Except Rejection String) :=
  match (req.signature.bind HeaderValue.toStr).bind parseHeader with
  | none => pure (.error .malformed)
  | some (stamp, tags) => do
    let instant ← Prog.perform (A := VerifierCall.Answer) .clock
    let now := timestamp instant
    match config.scheme instant tags with
    | none => pure (.error .malformed)
    | some tag =>
      if config.window < (now - stamp).natAbs then pure (.error .staleStamp)
      else if req.declaredLength.any (config.maxBodyBytes < ·) then pure (.error .tooLarge)
      else if config.maxBodyBytes < req.body.length then pure (.error .tooLarge)
      else
        match secrets.find? (config.signedWith mac req stamp tag) with
        | none => pure (.error .badSignature)
        | some caller => do
          let sweepDue ← Prog.perform (A := VerifierCall.Answer)
            (.claimSweep now (max (config.window / 8) 1))
          let remembered ← Prog.perform (A := VerifierCall.Answer)
            (.remember now sweepDue tag.bytes stamp)
          pure (caller.outcome remembered)

end SignedRequests

end Axess
