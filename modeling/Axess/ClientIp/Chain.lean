import Axess.ClientIp.Proxies

/-!
# The client's address

The forwarded chain is walked from the right, past the proxies that are trusted, to the first address
that is not (`client_ip.rs`). What a client writes to the left of that address is not looked at; but
all field lines are decoded before the walk begins, and a byte that is no ASCII, wherever it is, ends
it without an answer.
-/

namespace Axess

open IpAddr

structure ForwardedHeaders where
  forwardedFor : List HeaderValue
  realIp : List HeaderValue

inductive Source where
  | unknown | peer | forwarded | supplied
  deriving DecidableEq

structure ClientIp where
  addr : Option IpAddr
  source : Source
  deriving DecidableEq

def ClientIp.default : ClientIp := ⟨none, .unknown⟩

inductive ChainOutcome where
  | client (addr : IpAddr)
  | noAnswer
  deriving DecidableEq

namespace TrustedProxies

variable (parseIp : List Char → Option IpAddr) (trusted : TrustedProxies)

def entryAddr (entry : List Char) : Option IpAddr := (parseIp (trim entry)).map toCanonical

def decodeEntries : List HeaderValue → Option (List (List Char))
  | [] => some []
  | line :: lines =>
    match line.toStr with
    | none => none
    | some text => (decodeEntries lines).map fun entries => text.splitOn ',' ++ entries

def walk : List (List Char) → ChainOutcome
  | [] => .noAnswer
  | entry :: entries =>
    match entryAddr parseIp entry with
    | none => .noAnswer
    | some addr => if trusted.trustsHop addr then walk entries else .client addr

def clientFromChain (headers : ForwardedHeaders) : ChainOutcome :=
  if headers.forwardedFor ≠ [] then
    match decodeEntries headers.forwardedFor with
    | none => .noAnswer
    | some entries => trusted.walk parseIp entries.reverse
  else if trusted.realIp = false then .noAnswer
  else
    match headers.realIp with
    | [value] =>
      match value.toStr.bind (entryAddr parseIp) with
      | some addr => .client addr
      | none => .noAnswer
    | _ => .noAnswer

def clientIp (headers : ForwardedHeaders) (peer : Option IpAddr) : ClientIp :=
  match peer.map toCanonical with
  | some peer =>
    if trusted.trustsPeer peer = false then ⟨some peer, .peer⟩
    else
      match trusted.clientFromChain parseIp headers with
      | .client addr => ⟨some addr, .forwarded⟩
      | .noAnswer => ⟨some peer, .peer⟩
  | none =>
    if trusted.peer ≠ .anyPeer then .default
    else
      match trusted.clientFromChain parseIp headers with
      | .client addr => ⟨some addr, .forwarded⟩
      | .noAnswer => .default

variable {parseIp trusted}

def Hop (parseIp : List Char → Option IpAddr) (trusted : TrustedProxies) (entry : List Char) :
    Prop :=
  ∃ addr, entryAddr parseIp entry = some addr ∧ trusted.trustsHop addr = true

theorem walk_append {hops entries : List (List Char)}
    (hhops : ∀ entry ∈ hops, Hop parseIp trusted entry) :
    trusted.walk parseIp (hops ++ entries) = trusted.walk parseIp entries := by
  induction hops with
  | nil => rfl
  | cons entry hops ih =>
    obtain ⟨addr, haddr, htrusted⟩ := hhops entry List.mem_cons_self
    rw [List.cons_append, walk, haddr]
    simp only [htrusted, if_true]
    exact ih fun other hother => hhops other (List.mem_cons_of_mem _ hother)

theorem walk_reverse {left right : List (List Char)} {entry : List Char} {addr : IpAddr}
    (hright : ∀ other ∈ right, Hop parseIp trusted other)
    (haddr : entryAddr parseIp entry = some addr) (hclient : trusted.trustsHop addr = false) :
    trusted.walk parseIp (left ++ entry :: right).reverse = .client addr := by
  rw [List.reverse_append, List.reverse_cons, List.append_assoc]
  rw [walk_append fun other hother => hright other (List.mem_reverse.mp hother)]
  rw [List.singleton_append, walk, haddr]
  simp [hclient]

def lineText (line : HeaderValue) : List Char := line.map fun b => Char.ofNat b.toNat

def entriesOf (lines : List HeaderValue) : List (List Char) :=
  lines.flatMap fun line => (lineText line).splitOn ','

def HeaderLegal (line : HeaderValue) : Prop := ∀ b ∈ line, b = 9 ∨ 32 ≤ b ∧ b ≠ 127

def Ascii (line : HeaderValue) : Prop := ∀ b ∈ line, b < 128

instance (line : HeaderValue) : Decidable (HeaderLegal line) :=
  List.decidableBAll (fun b : UInt8 => b = 9 ∨ 32 ≤ b ∧ b ≠ 127) line

instance (line : HeaderValue) : Decidable (Ascii line) :=
  List.decidableBAll (fun b : UInt8 => b < 128) line

theorem isVisibleAscii_iff {b : UInt8} (hb : b = 9 ∨ 32 ≤ b ∧ b ≠ 127) :
    isVisibleAscii b = true ↔ b < 128 := by
  simp only [isVisibleAscii, Bool.or_eq_true, Bool.and_eq_true, decide_eq_true_eq, beq_iff_eq,
    UInt8.lt_iff_toNat_lt, UInt8.le_iff_toNat_le, ← UInt8.toNat_inj, ne_eq] at hb ⊢
  simp only [UInt8.reduceToNat] at hb ⊢
  omega

theorem toStr_eq {line : HeaderValue} (hlegal : HeaderLegal line) :
    line.toStr = if Ascii line then some (lineText line) else none := by
  have hiff : line.all isVisibleAscii = true ↔ Ascii line := by
    rw [List.all_eq_true]
    exact forall₂_congr fun b hb => isVisibleAscii_iff (hlegal b hb)
  unfold HeaderValue.toStr
  by_cases hascii : Ascii line
  · rw [if_pos (hiff.mpr hascii), if_pos hascii]
    rfl
  · rw [if_neg (mt hiff.mp hascii), if_neg hascii]

theorem decodeEntries_eq {lines : List HeaderValue} (hlegal : ∀ line ∈ lines, HeaderLegal line) :
    decodeEntries lines = if ∀ line ∈ lines, Ascii line then some (entriesOf lines) else none := by
  induction lines with
  | nil => rfl
  | cons line lines ih =>
    rw [decodeEntries, toStr_eq (hlegal line List.mem_cons_self)]
    by_cases hascii : Ascii line
    · rw [if_pos hascii]
      rw [ih fun other hother => hlegal other (List.mem_cons_of_mem _ hother)]
      by_cases hrest : ∀ other ∈ lines, Ascii other
      · rw [if_pos hrest, if_pos (List.forall_mem_cons.mpr ⟨hascii, hrest⟩)]
        rfl
      · rw [if_neg hrest, if_neg fun hall => hrest (List.forall_mem_cons.mp hall).2]
        rfl
    · rw [if_neg hascii, if_neg fun hall => hascii (List.forall_mem_cons.mp hall).1]

/-- With `addr` the rightmost address that is no proxy of ours, the answer is `addr` just if no byte
of the field lines, also of those the client wrote, is outside ASCII; but for a peer that is `addr`
itself. -/
theorem client_address_iff_ascii {lines realIp : List HeaderValue} {peer addr : IpAddr}
    {left right : List (List Char)} {entry : List Char}
    (hlegal : ∀ line ∈ lines, HeaderLegal line) (hpeer : trusted.trustsPeer peer = true)
    (hentries : entriesOf lines = left ++ entry :: right)
    (haddr : entryAddr parseIp entry = some addr) (hclient : trusted.trustsHop addr = false)
    (hright : ∀ other ∈ right, Hop parseIp trusted other) :
    (trusted.clientIp parseIp ⟨lines, realIp⟩ (some peer)).addr = some addr ↔
      (∀ line ∈ lines, Ascii line) ∨ peer.toCanonical = addr := by
  have hlines : lines ≠ [] := by
    rintro rfl
    simp [entriesOf] at hentries
  have hcanonical : trusted.trustsPeer peer.toCanonical = true := by
    simpa [trustsPeer] using hpeer
  have hchain : trusted.clientFromChain parseIp ⟨lines, realIp⟩ =
      if ∀ line ∈ lines, Ascii line then .client addr else .noAnswer := by
    unfold clientFromChain
    rw [if_pos hlines]
    simp only [decodeEntries_eq hlegal]
    by_cases hascii : ∀ line ∈ lines, Ascii line
    · rw [if_pos hascii, if_pos hascii]
      simp only [hentries]
      exact walk_reverse hright haddr hclient
    · rw [if_neg hascii, if_neg hascii]
  unfold clientIp
  simp only [Option.map_some, hcanonical, Bool.true_eq_false, if_false, hchain]
  by_cases hascii : ∀ line ∈ lines, Ascii line
  · rw [if_pos hascii]
    exact iff_of_true rfl (.inl hascii)
  · rw [if_neg hascii]
    simp [hascii]

section Sample

def octet (digits : List Char) : Option Nat :=
  if digits = [] ∨ 3 < digits.length ∨ digits.any (fun c => !c.isDigit) ∨
    (1 < digits.length ∧ digits.head? = some '0') then none
  else
    let value := digits.foldl (fun value c => 10 * value + (c.toNat - 48)) 0
    if value < 256 then some value else none

def dotted (text : List Char) : Option IpAddr :=
  match (text.splitOn '.').mapM octet with
  | some [a, b, c, d] => some (.v4 (BitVec.ofNat 32 (((a * 256 + b) * 256 + c) * 256 + d)))
  | _ => none

def bytesOf (text : String) : HeaderValue := text.toList.map fun c => UInt8.ofNat c.toNat

def oneProxy : TrustedProxies := new [.v4 0x0a000001#32]

def forwardedClient : IpAddr := .v4 0xcb007109#32

/-- The client sends one byte outside ASCII, and the proxy appends the client's address to it. -/
theorem byte_hides_client :
    oneProxy.trustsPeer (.v4 0x0a000001#32) = true ∧
      entriesOf [0xe9 :: bytesOf ", 203.0.113.9"] = [[Char.ofNat 0xe9]] ++ [" 203.0.113.9".toList] ∧
      entryAddr dotted " 203.0.113.9".toList = some forwardedClient ∧
      oneProxy.trustsHop forwardedClient = false ∧
      (∀ line ∈ [0xe9 :: bytesOf ", 203.0.113.9"], HeaderLegal line) ∧
      (oneProxy.clientIp dotted ⟨[bytesOf "x, 203.0.113.9"], []⟩ (some (.v4 0x0a000001#32))).addr =
        some forwardedClient ∧
      oneProxy.clientIp dotted ⟨[0xe9 :: bytesOf ", 203.0.113.9"], []⟩
        (some (.v4 0x0a000001#32)) = ⟨some (.v4 0x0a000001#32), .peer⟩ := by
  refine ⟨by decide, by decide, by decide, by decide, by decide, by decide, by decide⟩

def twoProxies : TrustedProxies := new [.v4 0x0a000001#32, .v4 0x0a000002#32]

theorem client_address_behind_two_proxies :
    (twoProxies.clientIp dotted
      ⟨[bytesOf "10.0.0.1, x", bytesOf "9, 203.0.113.9", bytesOf "10.0.0.2"], []⟩
      (some (.v4 0x0a000001#32))).addr = some forwardedClient := by
  have hlegal : ∀ line ∈ [bytesOf "10.0.0.1, x", bytesOf "9, 203.0.113.9", bytesOf "10.0.0.2"],
      HeaderLegal line := by
    decide
  have hright : ∀ other ∈ ["10.0.0.2".toList], Hop dotted twoProxies other := by
    intro other hother
    rw [List.mem_singleton.mp hother]
    exact ⟨.v4 0x0a000002#32, by decide, by decide⟩
  have hentries : entriesOf [bytesOf "10.0.0.1, x", bytesOf "9, 203.0.113.9", bytesOf "10.0.0.2"] =
      ["10.0.0.1".toList, " x".toList, "9".toList] ++ " 203.0.113.9".toList :: ["10.0.0.2".toList] := by
    decide
  refine (client_address_iff_ascii hlegal (by decide) hentries (by decide) (by decide)
    hright).mpr (.inl ?_)
  decide

end Sample

end TrustedProxies

end Axess
