import Axess.ClientIp.Proxies

/-!
# The IP policy of a tenant

`IpPolicy` (`authn/types/ip_policy.rs`). An entry and an address are each brought into version 4 form
where they have one, and compared under a mask. What that decides is membership in the block of 128
bit addresses that the entry writes, with a version 4 address standing for its mapped form.
-/

namespace Axess

open IpAddr

structure IpPolicy where
  allow : List (List Char)
  deny : List (List Char)

namespace IpPolicy

def toIpv6Mapped (bits : BitVec 32) : BitVec 128 := 0xffff#96 ++ bits

section Parse

variable (parseIp : List Char → Option IpAddr) (parseU32 : List Char → Option (Fin (2 ^ 32)))

def split (entry : List Char) : Option (IpAddr × Option Nat) :=
  match splitOnce '/' entry with
  | some (addrText, lenText) => do
    let len ← parseU32 lenText
    let addr ← parseIp addrText
    pure (addr, some len.val)
  | none => (parseIp entry).map fun addr => (addr, none)

def parseEntry (entry : List Char) : Option (IpAddr × Nat) := do
  match ← split parseIp parseU32 entry with
  | (.v4 bits, len) => if len.getD 32 ≤ 32 then some (.v4 bits, len.getD 32) else none
  | (.v6 bits, len) =>
    if len.getD 128 > 128 then none
    else
      match toIpv4Mapped bits with
      | some mapped =>
        if len.getD 128 ≥ 96 then some (.v4 mapped, len.getD 128 - 96)
        else some (.v6 bits, len.getD 128)
      | none => some (.v6 bits, len.getD 128)

end Parse

def mask (w len : Nat) : BitVec w := if len = 0 then 0 else BitVec.allOnes w <<< (w - len)

def cidrContains : IpAddr → Nat → IpAddr → Bool
  | .v4 net, len, .v4 addr => len ≤ 32 && net &&& mask 32 len = addr &&& mask 32 len
  | .v6 net, len, .v6 addr => len ≤ 128 && net &&& mask 128 len = addr &&& mask 128 len
  | _, _, _ => false

def entryContains (net : IpAddr) (len : Nat) (ip : IpAddr) : Bool :=
  match net, ip with
  | .v6 _, .v4 bits => cidrContains net len (.v6 (toIpv6Mapped bits))
  | _, _ => cidrContains net len ip

variable (parseIp : List Char → Option IpAddr) (parseU32 : List Char → Option (Fin (2 ^ 32)))

def isAllowed (policy : IpPolicy) (ip : IpAddr) : Bool :=
  let contains (entry : List Char) : Option Bool :=
    (parseEntry parseIp parseU32 entry).map fun net => entryContains net.1 net.2 ip.toCanonical
  if policy.allow ≠ [] then policy.allow.any fun entry => contains entry = some true
  else if policy.deny ≠ [] then policy.deny.all fun entry => contains entry = some false
  else true

def address : IpAddr → BitVec 128
  | .v4 bits => toIpv6Mapped bits
  | .v6 bits => bits

structure Block where
  net : BitVec 128
  len : Nat

def Block.Has (block : Block) (address : BitVec 128) : Prop :=
  ∀ i, i < block.len → address.getMsbD i = block.net.getMsbD i

def blockOf (entry : List Char) : Option Block := do
  match ← split parseIp parseU32 entry with
  | (.v4 bits, len) => if len.getD 32 ≤ 32 then some ⟨address (.v4 bits), 96 + len.getD 32⟩ else none
  | (.v6 bits, len) => if len.getD 128 ≤ 128 then some ⟨bits, len.getD 128⟩ else none

theorem getMsbD_mask {w len : Nat} (hlen : len ≤ w) (i : Nat) :
    (mask w len).getMsbD i = decide (i < len) := by
  unfold mask
  split
  · simp_all
  · rw [BitVec.getMsbD_eq_getLsbD]
    by_cases hi : i < len
    · simp [hi, show i < w by omega, show w - 1 - i - (w - len) < w by omega]
      omega
    · simp [hi]
      omega

theorem masked_eq_iff {w len : Nat} (net addr : BitVec w) (hlen : len ≤ w) :
    net &&& mask w len = addr &&& mask w len ↔ ∀ i, i < len → addr.getMsbD i = net.getMsbD i := by
  constructor
  · intro hsame i hi
    have hbit := congrArg (fun bits => bits.getMsbD i) hsame
    simpa [getMsbD_mask hlen, hi] using hbit.symm
  · intro hbits
    apply BitVec.eq_of_getMsbD_eq
    intro i _
    rw [BitVec.getMsbD_and, BitVec.getMsbD_and, getMsbD_mask hlen]
    by_cases hi : i < len
    · rw [hbits i hi]
    · simp [hi]

theorem getLsbD_toIpv6Mapped (bits : BitVec 32) (i : Nat) :
    (toIpv6Mapped bits).getLsbD i =
      if i < 32 then bits.getLsbD i else (0xffff#96).getLsbD (i - 32) :=
  BitVec.getLsbD_append

theorem toIpv6Mapped_ushiftRight (bits : BitVec 32) : toIpv6Mapped bits >>> 32 = 0xffff#128 := by
  apply BitVec.eq_of_getLsbD_eq
  intro i hi
  rw [BitVec.getLsbD_ushiftRight, getLsbD_toIpv6Mapped, if_neg (by omega), Nat.add_sub_cancel_left,
    BitVec.getLsbD_ofNat, BitVec.getLsbD_ofNat]
  by_cases hlt : i < 96
  · simp [hlt, hi]
  · have hbit : Nat.testBit 65535 i = false := Nat.testBit_lt_two_pow (by
      calc 65535 < 2 ^ 96 := by decide
        _ ≤ 2 ^ i := Nat.pow_le_pow_right (by decide) (by omega))
    simp [hbit]

theorem toIpv4Mapped_toIpv6Mapped (bits : BitVec 32) :
    toIpv4Mapped (toIpv6Mapped bits) = some bits := by
  rw [toIpv4Mapped, if_pos (toIpv6Mapped_ushiftRight bits)]
  congr 1
  apply BitVec.eq_of_getLsbD_eq
  intro i hi
  simp [getLsbD_toIpv6Mapped, hi]

theorem toIpv4Mapped_eq_some {bits : BitVec 128} {mapped : BitVec 32}
    (h : toIpv4Mapped bits = some mapped) : toIpv6Mapped mapped = bits := by
  obtain ⟨hmark, hlow⟩ := getLsbD_of_mapped h
  apply BitVec.eq_of_getLsbD_eq
  intro i hi
  by_cases hlt : i < 32
  · rw [← hlow i hlt]
    simp [getLsbD_toIpv6Mapped, hlt]
  · have hbit := congrArg (fun b => b.getLsbD (i - 32)) (toIpv6Mapped_ushiftRight mapped)
    simp only [BitVec.getLsbD_ushiftRight] at hbit
    rw [show i = 32 + (i - 32) by omega, hmark, hbit]

theorem has_mapped_iff (net addr : BitVec 32) {len : Nat} (hlen : len ≤ 32) :
    (Block.mk (toIpv6Mapped net) (96 + len)).Has (toIpv6Mapped addr) ↔
      ∀ i, i < len → addr.getMsbD i = net.getMsbD i := by
  rw [← bitsMatch_iff _ _ hlen]
  have hsame := bitsMatch_mapped (toIpv4Mapped_toIpv6Mapped addr) (toIpv4Mapped_toIpv6Mapped net)
    (show 96 ≤ 96 + len by omega) (by omega)
  rw [Nat.add_sub_cancel_left] at hsame
  rw [hsame, bitsMatch_iff _ _ (by omega)]
  rfl

theorem mapped_of_has {net : BitVec 32} {addr : BitVec 128} {len : Nat}
    (h : (Block.mk (toIpv6Mapped net) (96 + len)).Has addr) : toIpv4Mapped addr ≠ none := by
  have hmark : bitsMatch addr (toIpv6Mapped net) 96 = true := by
    rw [bitsMatch_iff _ _ (by omega)]
    intro i hi
    exact h i (show i < 96 + len by omega)
  have hshift : addr >>> 32 = toIpv6Mapped net >>> 32 := by simpa [bitsMatch] using hmark
  rw [toIpv4Mapped, if_pos (hshift.trans (toIpv6Mapped_ushiftRight net))]
  exact Option.some_ne_none _

theorem address_toCanonical (ip : IpAddr) : address ip.toCanonical = address ip := by
  cases ip with
  | v4 bits => rfl
  | v6 bits =>
    cases hmapped : toIpv4Mapped bits with
    | none => simp [toCanonical, hmapped]
    | some mapped => simpa [toCanonical, hmapped, address] using toIpv4Mapped_eq_some hmapped

theorem entryContains_v4_iff {net : BitVec 32} {len : Nat} (hlen : len ≤ 32) (ip : IpAddr) :
    entryContains (.v4 net) len ip.toCanonical = true ↔
      (Block.mk (toIpv6Mapped net) (96 + len)).Has (address ip) := by
  rw [← address_toCanonical]
  have hcanonical := toCanonical_toCanonical ip
  cases hip : ip.toCanonical with
  | v4 addr =>
    simp only [entryContains, cidrContains, hlen, decide_true, Bool.true_and, decide_eq_true_eq]
    rw [masked_eq_iff _ _ hlen]
    exact (has_mapped_iff net addr hlen).symm
  | v6 addr =>
    simp only [entryContains, cidrContains, Bool.false_eq_true, false_iff]
    intro hhas
    cases hmapped : toIpv4Mapped addr with
    | none => exact mapped_of_has hhas hmapped
    | some mapped =>
      rw [hip, toCanonical, hmapped] at hcanonical
      cases hcanonical

theorem entryContains_v6_iff {net : BitVec 128} {len : Nat} (hlen : len ≤ 128) (ip : IpAddr) :
    entryContains (.v6 net) len ip.toCanonical = true ↔ (Block.mk net len).Has (address ip) := by
  rw [← address_toCanonical]
  cases hip : ip.toCanonical <;>
    simp only [entryContains, cidrContains, hlen, decide_true, Bool.true_and, decide_eq_true_eq,
      masked_eq_iff _ _ hlen] <;> rfl

/-- What an entry says of an address: nothing if it cannot be read, else whether it is in the block. -/
theorem parseEntry_spec (entry : List Char) (ip : IpAddr) :
    (parseEntry parseIp parseU32 entry = none ∧ blockOf parseIp parseU32 entry = none) ∨
    ∃ net len block, parseEntry parseIp parseU32 entry = some (net, len) ∧
      blockOf parseIp parseU32 entry = some block ∧
      (entryContains net len ip.toCanonical = true ↔ block.Has (address ip)) := by
  unfold parseEntry blockOf
  cases hsplit : split parseIp parseU32 entry with
  | none => exact .inl ⟨rfl, rfl⟩
  | some halves =>
    obtain ⟨addr, given⟩ := halves
    cases addr with
    | v4 bits =>
      by_cases hlen : given.getD 32 ≤ 32
      · exact .inr ⟨_, _, _, if_pos hlen, if_pos hlen, entryContains_v4_iff hlen ip⟩
      · exact .inl ⟨if_neg hlen, if_neg hlen⟩
    | v6 bits =>
      by_cases hlen : given.getD 128 ≤ 128
      · have hread : ¬given.getD 128 > 128 := by omega
        cases hmapped : toIpv4Mapped bits with
        | none =>
          refine .inr ⟨.v6 bits, given.getD 128, _, ?_, if_pos hlen, entryContains_v6_iff hlen ip⟩
          show (if _ then _ else _) = _
          rw [if_neg hread, hmapped]
        | some mapped =>
          by_cases hlong : given.getD 128 ≥ 96
          · refine .inr ⟨.v4 mapped, given.getD 128 - 96, _, ?_, if_pos hlen, ?_⟩
            · show (if _ then _ else _) = _
              rw [if_neg hread, hmapped]
              exact if_pos hlong
            · rw [entryContains_v4_iff (by omega), toIpv4Mapped_eq_some hmapped,
                Nat.add_sub_cancel' hlong]
          · refine .inr ⟨.v6 bits, given.getD 128, _, ?_, if_pos hlen, entryContains_v6_iff hlen ip⟩
            show (if _ then _ else _) = _
            rw [if_neg hread, hmapped]
            exact if_neg hlong
      · exact .inl ⟨if_pos (by omega), if_neg hlen⟩

theorem contains_eq_true_iff (entry : List Char) (ip : IpAddr) :
    (parseEntry parseIp parseU32 entry).map (fun net => entryContains net.1 net.2 ip.toCanonical) =
        some true ↔
      ∃ block, blockOf parseIp parseU32 entry = some block ∧ block.Has (address ip) := by
  rcases parseEntry_spec parseIp parseU32 entry ip with ⟨hparse, hblock⟩ |
    ⟨net, len, block, hparse, hblock, hhas⟩
  · simp [hparse, hblock]
  · simp [hparse, hblock, hhas]

theorem contains_eq_false_iff (entry : List Char) (ip : IpAddr) :
    (parseEntry parseIp parseU32 entry).map (fun net => entryContains net.1 net.2 ip.toCanonical) =
        some false ↔
      ∃ block, blockOf parseIp parseU32 entry = some block ∧ ¬block.Has (address ip) := by
  rcases parseEntry_spec parseIp parseU32 entry ip with ⟨hparse, hblock⟩ |
    ⟨net, len, block, hparse, hblock, hhas⟩
  · simp [hparse, hblock]
  · simp [hparse, hblock, ← hhas]

/-- Allowed is an address in a block of the allow list or, where there is none, in no block of the
deny list, all of whose entries can be read. Both spellings of a version 4 address get one answer. -/
theorem isAllowed_iff_sets (policy : IpPolicy) :
    (∀ ip, policy.isAllowed parseIp parseU32 ip = true ↔
      (∃ entry ∈ policy.allow, ∃ block, blockOf parseIp parseU32 entry = some block ∧
        block.Has (address ip)) ∨
      policy.allow = [] ∧ ∀ entry ∈ policy.deny, ∃ block,
        blockOf parseIp parseU32 entry = some block ∧ ¬block.Has (address ip)) ∧
    ∀ bits, policy.isAllowed parseIp parseU32 (.v6 (toIpv6Mapped bits)) =
      policy.isAllowed parseIp parseU32 (.v4 bits) := by
  constructor
  · intro ip
    unfold isAllowed
    by_cases hallow : policy.allow = []
    · rw [if_neg (not_not_intro hallow)]
      by_cases hdeny : policy.deny = []
      · simp [hallow, hdeny]
      · rw [if_pos hdeny]
        simp only [List.all_eq_true, decide_eq_true_eq, contains_eq_false_iff, hallow,
          List.not_mem_nil, false_and, exists_false, false_or, true_and]
    · rw [if_pos hallow]
      simp only [List.any_eq_true, decide_eq_true_eq, contains_eq_true_iff, hallow, false_and,
        or_false]
  · intro bits
    have hsame : (IpAddr.v6 (toIpv6Mapped bits)).toCanonical = (IpAddr.v4 bits).toCanonical := by
      simp only [toCanonical, toIpv4Mapped_toIpv6Mapped]
    unfold isAllowed
    rw [hsame]

end IpPolicy

end Axess
