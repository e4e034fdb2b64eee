import Mathlib

/-!
# Bytes as numbers and as text

`toBytes w n` is the number `n` in `w` bytes, most significant first, and `ofBytes` reads bytes
back. A number that fits is read back, and bytes are written back.

Base64 here has the URL-safe alphabet and no padding. Three bytes are four symbols of six bits. A
last group of one byte is two symbols and one of two bytes is three, their unused bits zero. The
decoder is strict: it takes no padding, no other symbol, and no unused bit that is set. So a text
decodes to some bytes exactly if it is their encoding (`decode_eq_some_iff`).
-/

namespace Bytes

def toBytes : Nat → Nat → List UInt8
  | 0, _ => []
  | w + 1, n => toBytes w (n / 256) ++ [UInt8.ofNat n]

def ofBytes (bytes : List UInt8) : Nat := bytes.foldl (fun n b => n * 256 + b.toNat) 0

@[simp] theorem length_toBytes (w n : Nat) : (toBytes w n).length = w := by
  induction w generalizing n with
  | zero => rfl
  | succ w ih => rw [toBytes, List.length_append, ih, List.length_singleton]

theorem ofBytes_append_singleton (bytes : List UInt8) (b : UInt8) :
    ofBytes (bytes ++ [b]) = ofBytes bytes * 256 + b.toNat := by
  rw [ofBytes, List.foldl_append, List.foldl_cons, List.foldl_nil, ofBytes]

theorem ofBytes_lt (bytes : List UInt8) : ofBytes bytes < 256 ^ bytes.length := by
  induction bytes using List.reverseRecOn with
  | nil => decide
  | append_singleton bytes b ih =>
    have hb : b.toNat < 256 := b.toNat_lt_size
    rw [ofBytes_append_singleton, List.length_append, List.length_singleton, pow_succ]
    omega

theorem ofBytes_toBytes {w n : Nat} (h : n < 256 ^ w) : ofBytes (toBytes w n) = n := by
  induction w generalizing n with
  | zero =>
    rw [pow_zero, Nat.lt_one_iff] at h
    rw [h]
    rfl
  | succ w ih =>
    have hdiv : n / 256 < 256 ^ w := by
      rw [pow_succ] at h
      exact Nat.div_lt_of_lt_mul (by omega)
    rw [toBytes, ofBytes_append_singleton, ih hdiv, UInt8.toNat_ofNat']
    omega

theorem toBytes_ofBytes (bytes : List UInt8) : toBytes bytes.length (ofBytes bytes) = bytes := by
  induction bytes using List.reverseRecOn with
  | nil => rfl
  | append_singleton bytes b ih =>
    have hb : b.toNat < 256 := b.toNat_lt_size
    have hdiv : (ofBytes bytes * 256 + b.toNat) / 256 = ofBytes bytes := by omega
    have hlast : UInt8.ofNat (ofBytes bytes * 256 + b.toNat) = b := by
      apply UInt8.toNat_inj.mp
      rw [UInt8.toNat_ofNat']
      omega
    rw [List.length_append, List.length_singleton, toBytes, ofBytes_append_singleton, hdiv, ih,
      hlast]

namespace Base64

def sextets : List UInt8 → List Nat
  | [] => []
  | [a] => [a.toNat / 4, a.toNat % 4 * 16]
  | [a, b] => [a.toNat / 4, a.toNat % 4 * 16 + b.toNat / 16, b.toNat % 16 * 4]
  | a :: b :: c :: rest =>
    a.toNat / 4 :: (a.toNat % 4 * 16 + b.toNat / 16) :: (b.toNat % 16 * 4 + c.toNat / 64) ::
      c.toNat % 64 :: sextets rest

def join : List Nat → Option (List UInt8)
  | [] => some []
  | [_] => none
  | [x, y] => if y % 16 = 0 then some [UInt8.ofNat (x * 4 + y / 16)] else none
  | [x, y, z] =>
    if z % 4 = 0 then
      some [UInt8.ofNat (x * 4 + y / 16), UInt8.ofNat (y % 16 * 16 + z / 4)]
    else none
  | x :: y :: z :: t :: rest =>
    (join rest).map fun bytes =>
      UInt8.ofNat (x * 4 + y / 16) :: UInt8.ofNat (y % 16 * 16 + z / 4) ::
        UInt8.ofNat (z % 4 * 64 + t) :: bytes

theorem ofNat_eq_of_eq_toNat {n : Nat} {b : UInt8} (h : n = b.toNat) : UInt8.ofNat n = b := by
  rw [h, UInt8.ofNat_toNat]

theorem join_sextets (bytes : List UInt8) : join (sextets bytes) = some bytes := by
  induction bytes using sextets.induct with
  | case1 => rfl
  | case2 a =>
    have ha : a.toNat < 256 := a.toNat_lt_size
    rw [sextets, join, if_pos (by omega), ofNat_eq_of_eq_toNat (b := a) (by omega)]
  | case3 a b =>
    have ha : a.toNat < 256 := a.toNat_lt_size
    have hb : b.toNat < 256 := b.toNat_lt_size
    rw [sextets, join, if_pos (by omega), ofNat_eq_of_eq_toNat (b := a) (by omega),
      ofNat_eq_of_eq_toNat (b := b) (by omega)]
  | case4 a b c rest ih =>
    have ha : a.toNat < 256 := a.toNat_lt_size
    have hb : b.toNat < 256 := b.toNat_lt_size
    have hc : c.toNat < 256 := c.toNat_lt_size
    rw [sextets, join, ih, Option.map_some, ofNat_eq_of_eq_toNat (b := a) (by omega),
      ofNat_eq_of_eq_toNat (b := b) (by omega), ofNat_eq_of_eq_toNat (b := c) (by omega)]

theorem sextets_lt (bytes : List UInt8) : ∀ n ∈ sextets bytes, n < 64 := by
  induction bytes using sextets.induct with
  | case1 => simp [sextets]
  | case2 a =>
    have ha : a.toNat < 256 := a.toNat_lt_size
    simp only [sextets, List.mem_cons, List.not_mem_nil, or_false, forall_eq_or_imp, forall_eq]
    omega
  | case3 a b =>
    have ha : a.toNat < 256 := a.toNat_lt_size
    have hb : b.toNat < 256 := b.toNat_lt_size
    simp only [sextets, List.mem_cons, List.not_mem_nil, or_false, forall_eq_or_imp, forall_eq]
    omega
  | case4 a b c rest ih =>
    have ha : a.toNat < 256 := a.toNat_lt_size
    have hb : b.toNat < 256 := b.toNat_lt_size
    have hc : c.toNat < 256 := c.toNat_lt_size
    simp only [sextets, List.mem_cons, forall_eq_or_imp]
    exact ⟨by omega, by omega, by omega, by omega, ih⟩

/-- What was joined is what the bytes split into: no two lists of sextets join to one list of
bytes. -/
theorem sextets_of_join {ns : List Nat} {bytes : List UInt8} (hns : ∀ n ∈ ns, n < 64)
    (h : join ns = some bytes) : sextets bytes = ns := by
  induction ns using join.induct generalizing bytes with
  | case1 =>
    cases h
    rfl
  | case2 => cases h
  | case3 x y hy =>
    simp only [List.mem_cons, List.not_mem_nil, or_false, forall_eq_or_imp, forall_eq] at hns
    rw [join, if_pos hy] at h
    cases h
    simp only [sextets, UInt8.toNat_ofNat', List.cons.injEq, and_true]
    omega
  | case4 x y hy =>
    rw [join, if_neg hy] at h
    cases h
  | case5 x y z hz =>
    simp only [List.mem_cons, List.not_mem_nil, or_false, forall_eq_or_imp, forall_eq] at hns
    rw [join, if_pos hz] at h
    cases h
    simp only [sextets, UInt8.toNat_ofNat', List.cons.injEq, and_true]
    omega
  | case6 x y z hz =>
    rw [join, if_neg hz] at h
    cases h
  | case7 x y z t rest ih =>
    simp only [List.mem_cons, forall_eq_or_imp] at hns
    obtain ⟨hx, hy, hz, ht, hrest⟩ := hns
    rw [join, Option.map_eq_some_iff] at h
    obtain ⟨tail, htail, rfl⟩ := h
    rw [sextets, ih hrest htail]
    simp only [UInt8.toNat_ofNat', List.cons.injEq, and_true]
    omega

def alphabet : List Char :=
  "ABCDEFGHIJKLMNOPQRSTUVWXYZabcdefghijklmnopqrstuvwxyz0123456789-_".toList

def symbol (n : Nat) : Char := alphabet.getD n 'A'

def value (c : Char) : Option Nat := alphabet.idxOf? c

theorem value_symbol {n : Nat} (h : n < 64) : value (symbol n) = some n := by
  have hall : ∀ n ∈ List.range 64, value (symbol n) = some n := by decide +kernel
  exact hall n (List.mem_range.mpr h)

theorem value_eq_some_iff {c : Char} {n : Nat} : value c = some n ↔ n < 64 ∧ symbol n = c := by
  constructor
  · intro h
    obtain ⟨hlt, hget, -⟩ := List.idxOf?_eq_some_iff.mp h
    have hlen : alphabet.length = 64 := by decide +kernel
    exact ⟨hlen ▸ hlt, by rw [symbol, List.getD_eq_getElem _ _ hlt, hget]⟩
  · rintro ⟨hlt, rfl⟩
    exact value_symbol hlt

theorem mapM_value_eq_some_iff {cs : List Char} {ns : List Nat} :
    cs.mapM value = some ns ↔ (∀ n ∈ ns, n < 64) ∧ ns.map symbol = cs := by
  induction cs generalizing ns with
  | nil =>
    rw [List.mapM_nil, Option.pure_def, Option.some.injEq]
    constructor
    · rintro rfl
      exact ⟨by simp, rfl⟩
    · rintro ⟨-, h⟩
      exact (List.map_eq_nil_iff.mp h).symm
  | cons c cs ih =>
    simp only [List.mapM_cons, Option.bind_eq_bind, Option.bind_eq_some_iff, Option.pure_def,
      Option.some.injEq, value_eq_some_iff, ih]
    constructor
    · rintro ⟨n, ⟨hn, hc⟩, ns, ⟨hns, hcs⟩, rfl⟩
      exact ⟨List.forall_mem_cons.mpr ⟨hn, hns⟩, by rw [List.map_cons, hc, hcs]⟩
    · rintro ⟨hlt, h⟩
      obtain ⟨n, ns, rfl, hc, hcs⟩ := List.map_eq_cons_iff.mp h
      obtain ⟨hn, hns⟩ := List.forall_mem_cons.mp hlt
      exact ⟨n, ⟨hn, hc⟩, ns, ⟨hns, hcs⟩, rfl⟩

def encode (bytes : List UInt8) : List Char := (sextets bytes).map symbol

def decode (text : List Char) : Option (List UInt8) := (text.mapM value).bind join

theorem decode_eq_some_iff {text : List Char} {bytes : List UInt8} :
    decode text = some bytes ↔ text = encode bytes := by
  rw [decode, Option.bind_eq_some_iff]
  constructor
  · rintro ⟨ns, hns, hjoin⟩
    obtain ⟨hlt, htext⟩ := mapM_value_eq_some_iff.mp hns
    rw [encode, sextets_of_join hlt hjoin, htext]
  · rintro rfl
    exact ⟨sextets bytes, mapM_value_eq_some_iff.mpr ⟨sextets_lt bytes, rfl⟩, join_sextets bytes⟩

@[simp] theorem decode_encode (bytes : List UInt8) : decode (encode bytes) = some bytes :=
  decode_eq_some_iff.mpr rfl

theorem encode_subset_alphabet (bytes : List UInt8) : encode bytes ⊆ alphabet := by
  intro c hc
  obtain ⟨n, hn, rfl⟩ := List.mem_map.mp hc
  have hlt := sextets_lt bytes n hn
  have hlen : alphabet.length = 64 := by decide +kernel
  rw [symbol, List.getD_eq_getElem _ _ (hlen ▸ hlt)]
  exact List.getElem_mem _

example : encode [0xfb, 0xff] = ['-', '_', '8'] := by decide +kernel

end Base64

end Bytes
