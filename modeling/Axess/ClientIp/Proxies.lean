import Axess.Session.Cookie

/-!
# Trusted proxies

The addresses and address blocks whose forwarded headers are believed (`client_ip.rs`). An address is
compared in its version 4 form where it maps one, and so is a block.
-/

namespace Axess

inductive IpAddr where
  | v4 (bits : BitVec 32)
  | v6 (bits : BitVec 128)
  deriving DecidableEq

namespace IpAddr

def width : IpAddr → Nat
  | v4 _ => 32
  | v6 _ => 128

def toIpv4Mapped (bits : BitVec 128) : Option (BitVec 32) :=
  if bits >>> 32 = 0xffff#128 then some (bits.setWidth 32) else none

def toCanonical : IpAddr → IpAddr
  | v4 bits => v4 bits
  | v6 bits =>
    match toIpv4Mapped bits with
    | some mapped => v4 mapped
    | none => v6 bits

@[simp] theorem toCanonical_toCanonical (addr : IpAddr) :
    addr.toCanonical.toCanonical = addr.toCanonical := by
  cases addr with
  | v4 bits => rfl
  | v6 bits =>
    cases hmapped : toIpv4Mapped bits with
    | none => simp [toCanonical, hmapped]
    | some mapped => simp [toCanonical, hmapped]

end IpAddr

open IpAddr

def bitsClear {w : Nat} (bits : BitVec w) (len : Nat) : Bool :=
  len = w || bits &&& (BitVec.allOnes w >>> len) = 0

def hostBitsClear : IpAddr → Nat → Bool
  | .v4 bits, len => bitsClear bits len
  | .v6 bits, len => bitsClear bits len

/-- The first `len` bits are the same. Prefix 0 is handled before the shift. -/
def bitsMatch {w : Nat} (bits net : BitVec w) (len : Nat) : Bool :=
  len = 0 || bits >>> (w - len) = net >>> (w - len)

def inNetwork : IpAddr → IpAddr → Nat → Bool
  | .v4 bits, .v4 net, len => bitsMatch bits net len
  | .v6 bits, .v6 net, len => bitsMatch bits net len
  | _, _, _ => false

theorem bitsMatch_iff {w len : Nat} (bits net : BitVec w) (hlen : len ≤ w) :
    bitsMatch bits net len = true ↔ ∀ i, i < len → bits.getMsbD i = net.getMsbD i := by
  unfold bitsMatch
  rw [Bool.or_eq_true, decide_eq_true_eq, decide_eq_true_eq]
  constructor
  · rintro (rfl | hsame) i hi
    · omega
    · have hbit := congrArg (fun b => b.getLsbD (len - 1 - i)) hsame
      simp only [BitVec.getLsbD_ushiftRight] at hbit
      rw [BitVec.getMsbD_eq_getLsbD, BitVec.getMsbD_eq_getLsbD,
        show w - 1 - i = w - len + (len - 1 - i) by omega, hbit]
  · intro hbits
    right
    apply BitVec.eq_of_getLsbD_eq
    intro i hi
    simp only [BitVec.getLsbD_ushiftRight]
    by_cases hin : w - len + i < w
    · have hbit := hbits (len - 1 - i) (by omega)
      rw [BitVec.getMsbD_eq_getLsbD, BitVec.getMsbD_eq_getLsbD,
        show w - 1 - (len - 1 - i) = w - len + i by omega] at hbit
      simpa [show len - 1 - i < w by omega] using hbit
    · rw [BitVec.getLsbD_of_ge _ _ (by omega), BitVec.getLsbD_of_ge _ _ (by omega)]

theorem getLsbD_of_mapped {bits : BitVec 128} {mapped : BitVec 32}
    (h : toIpv4Mapped bits = some mapped) :
    (∀ i, bits.getLsbD (32 + i) = (0xffff#128).getLsbD i) ∧
      ∀ i, i < 32 → mapped.getLsbD i = bits.getLsbD i := by
  unfold toIpv4Mapped at h
  split at h
  · rename_i hmark
    obtain rfl := Option.some.inj h
    constructor
    · intro i
      rw [← hmark, BitVec.getLsbD_ushiftRight]
    · intro i hi
      simp [hi]
  · cases h

theorem bitsMatch_mapped {bits net : BitVec 128} {mapped mappedNet : BitVec 32} {len : Nat}
    (hbits : toIpv4Mapped bits = some mapped) (hnet : toIpv4Mapped net = some mappedNet)
    (hlen : 96 ≤ len) (hle : len ≤ 128) :
    bitsMatch mapped mappedNet (len - 96) = bitsMatch bits net len := by
  obtain ⟨hmark, hlow⟩ := getLsbD_of_mapped hbits
  obtain ⟨hmark', hlow'⟩ := getLsbD_of_mapped hnet
  rw [Bool.eq_iff_iff, bitsMatch_iff _ _ (by omega), bitsMatch_iff _ _ hle]
  simp only [BitVec.getMsbD_eq_getLsbD]
  constructor
  · intro h i hi
    by_cases hhigh : i < 96
    · -- above the version 4 part both have the mark
      rw [show 128 - 1 - i = 32 + (95 - i) by omega, hmark, hmark']
    · have hbit := h (i - 96) (by omega)
      rw [hlow _ (by omega), hlow' _ (by omega)] at hbit
      simpa [show i - 96 < 32 by omega, show i < 128 by omega,
        show 32 - 1 - (i - 96) = 128 - 1 - i by omega] using hbit
  · intro h i hi
    have hbit := h (i + 96) (by omega)
    rw [hlow _ (by omega), hlow' _ (by omega)]
    simpa [show i < 32 by omega, show i + 96 < 128 by omega,
      show 128 - 1 - (i + 96) = 32 - 1 - i by omega] using hbit

structure Network where
  addr : IpAddr
  len : Nat
  len_le : len ≤ addr.width
  canonical : addr.toCanonical = addr
  clear : hostBitsClear addr len = true

inductive TrustedEntry where
  | exact (addr : IpAddr)
  | net (network : Network)

inductive PeerTrust where
  | enumerated | anyPeer
  deriving DecidableEq

structure TrustedProxies where
  entries : List TrustedEntry
  peer : PeerTrust
  realIp : Bool

namespace TrustedProxies

def new (addrs : List IpAddr) : TrustedProxies := ⟨addrs.map .exact, .enumerated, false⟩

variable (trusted : TrustedProxies)

def trustsHop (addr : IpAddr) : Bool :=
  trusted.entries.any fun
    | .exact address => address.toCanonical = addr.toCanonical
    | .net network => inNetwork addr.toCanonical network.addr network.len

def trustsPeer (peer : IpAddr) : Bool :=
  match trusted.peer with
  | .anyPeer => true
  | .enumerated => trusted.trustsHop peer

@[simp] theorem trustsHop_toCanonical (addr : IpAddr) :
    trusted.trustsHop addr.toCanonical = trusted.trustsHop addr := by
  simp [trustsHop]

end TrustedProxies

end Axess
