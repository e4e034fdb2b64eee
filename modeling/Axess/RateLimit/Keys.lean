import Axess.Service.Signature

/-!
# Bounded bucket keys

A bucket key that is too long (`middleware/ratelimit/keys.rs`) is cut at a character boundary and gets the
digest of the whole key at its end. What is left alone is shorter than anything that is cut.
-/

namespace Axess

namespace RateLimitKey

open String

def maxKeyLen : Nat := 256

def keptPrefixLen : Nat := maxKeyLen - 65

def maxNaturalKeyLen : Nat := keptPrefixLen - 4

/-- The first `n` bytes; `none`, where the code panics, if no character ends there. -/
def sliceTo : List Char → Nat → Option (List Char)
  | _, 0 => some []
  | [], _ + 1 => none
  | c :: rest, n + 1 =>
    if c.utf8Size ≤ n + 1 then (sliceTo rest (n + 1 - c.utf8Size)).map (c :: ·) else none

def isCharBoundary (key : List Char) (n : Nat) : Bool := (sliceTo key n).isSome

def backUp (key : List Char) : Nat → Nat
  | 0 => 0
  | cut + 1 => if isCharBoundary key (cut + 1) then cut + 1 else backUp key cut

def boundKey (sha256 : ByteArray → Tag) (key : String) : Option String :=
  if key.utf8ByteSize ≤ maxNaturalKeyLen then some key
  else (sliceTo key.toList (backUp key.toList keptPrefixLen)).map fun kept =>
    String.ofList (kept ++ ':' :: encodeHex (sha256 key.toByteArray))

theorem utf8Len_sliceTo {key kept : List Char} {n : Nat} (h : sliceTo key n = some kept) :
    utf8Len kept = n := by
  induction key generalizing n kept with
  | nil =>
    cases n with
    | zero => cases h; rfl
    | succ n => cases h
  | cons c rest ih =>
    cases n with
    | zero => cases h; rfl
    | succ n =>
      rw [sliceTo] at h
      split at h
      · next hsize =>
        obtain ⟨kept, hkept, rfl⟩ := Option.map_eq_some_iff.mp h
        rw [utf8Len_cons, ih hkept]
        omega
      · cases h

/-- A character has four bytes at most, so the next boundary is near. -/
theorem exists_boundary (key : List Char) (n : Nat) :
    ∃ cut ≤ n, min (n - 3) (utf8Len key) ≤ cut ∧ isCharBoundary key cut = true := by
  induction key generalizing n with
  | nil => exact ⟨0, Nat.zero_le n, by rw [utf8Len_nil]; omega, rfl⟩
  | cons c rest ih =>
    have hpos := c.utf8Size_pos
    by_cases hsize : c.utf8Size ≤ n
    · obtain ⟨cut, hle, hmin, hcut⟩ := ih (n - c.utf8Size)
      refine ⟨cut + c.utf8Size, by omega, by rw [utf8Len_cons]; omega, ?_⟩
      obtain ⟨m, hm⟩ : ∃ m, cut + c.utf8Size = m + 1 := ⟨cut + c.utf8Size - 1, by omega⟩
      unfold isCharBoundary at hcut ⊢
      rw [hm, sliceTo, if_pos (by omega), ← hm, Nat.add_sub_cancel, Option.isSome_map]
      exact hcut
    · have hfour := c.utf8Size_le_four
      exact ⟨0, Nat.zero_le n, by omega, by cases rest <;> rfl⟩

theorem backUp_spec {key : List Char} {cut n : Nat} (hle : cut ≤ n)
    (hcut : isCharBoundary key cut = true) :
    cut ≤ backUp key n ∧ backUp key n ≤ n ∧ isCharBoundary key (backUp key n) = true := by
  induction n with
  | zero =>
    obtain rfl := Nat.le_zero.mp hle
    exact ⟨Nat.le_refl 0, Nat.le_refl 0, hcut⟩
  | succ n ih =>
    rw [backUp]
    split
    · next hn => exact ⟨hle, Nat.le_refl _, hn⟩
    · next hn =>
      have hne : cut ≠ n + 1 := fun heq => hn (heq ▸ hcut)
      obtain ⟨hcut, hup, hbound⟩ := ih (by omega)
      exact ⟨hcut, by omega, hbound⟩

theorem utf8Len_encodeHex (tag : Tag) : utf8Len (encodeHex tag) = 64 := by
  have hlen (bytes : List UInt8) : utf8Len (bytes.flatMap fun byte : UInt8 =>
      [hexChar (byte >>> 4), hexChar (byte &&& 15)]) = 2 * bytes.length := by
    induction bytes with
    | nil => rfl
    | cons byte bytes ih =>
      rw [List.flatMap_cons, utf8Len_append, ih, utf8Len_cons, utf8Len_cons, utf8Len_nil,
        utf8Size_hexChar, utf8Size_hexChar, List.length_cons]
      omega
  rw [encodeHex, hlen, Vector.length_toList]

theorem length_encodeHex (tag : Tag) : (encodeHex tag).length = 64 := by
  simp [encodeHex, List.length_flatMap]

/-- What becomes of a key: it is left alone, or cut and longer than any that is. -/
theorem boundKey_cases (sha256 : ByteArray → Tag) (key : String) :
    (key.utf8ByteSize ≤ maxNaturalKeyLen ∧ boundKey sha256 key = some key) ∨
    ∃ kept, boundKey sha256 key =
        some (String.ofList (kept ++ ':' :: encodeHex (sha256 key.toByteArray))) ∧
      maxNaturalKeyLen < utf8Len kept ∧ utf8Len kept ≤ keptPrefixLen := by
  by_cases hshort : key.utf8ByteSize ≤ maxNaturalKeyLen
  · exact .inl ⟨hshort, if_pos hshort⟩
  · right
    obtain ⟨cut, hle, hmin, hcut⟩ := exists_boundary key.toList keptPrefixLen
    obtain ⟨hlow, hup, hbound⟩ := backUp_spec hle hcut
    obtain ⟨kept, hkept⟩ := Option.isSome_iff_exists.mp hbound
    have hlen := utf8Len_sliceTo hkept
    have hkey : utf8Len key.toList = key.utf8ByteSize := by
      rw [← utf8ByteSize_ofList, ofList_toList]
    have hkeep : keptPrefixLen = maxNaturalKeyLen + 4 := by decide
    refine ⟨kept, ?_, by omega, by omega⟩
    rw [boundKey, if_neg hshort, hkept]
    rfl

theorem utf8ByteSize_cut (kept : List Char) (tag : Tag) :
    (String.ofList (kept ++ ':' :: encodeHex tag)).utf8ByteSize = utf8Len kept + 65 := by
  have hcolon : ':'.utf8Size = 1 := by decide
  rw [utf8ByteSize_ofList, utf8Len_append, utf8Len_cons, utf8Len_encodeHex, hcolon]

/-- A key is bounded to at most 256 bytes, and no other key of another digest is bounded to the same. -/
theorem bound_key_separates (sha256 : ByteArray → Tag) {key key' : String}
    (hfree : sha256 key.toByteArray = sha256 key'.toByteArray → key.toByteArray = key'.toByteArray) :
    ∃ bounded bounded', boundKey sha256 key = some bounded ∧ boundKey sha256 key' = some bounded' ∧
      bounded.utf8ByteSize ≤ 256 ∧ bounded'.utf8ByteSize ≤ 256 ∧
      (bounded = bounded' → key = key') := by
  have hmax : maxNaturalKeyLen + 69 = 256 := by decide
  have hkeep : keptPrefixLen + 65 = 256 := by decide
  rcases boundKey_cases sha256 key with ⟨hshort, hkey⟩ | ⟨kept, hkey, hlow, hup⟩
  · rcases boundKey_cases sha256 key' with ⟨hshort', hkey'⟩ | ⟨kept', hkey', hlow', hup'⟩
    · exact ⟨key, key', hkey, hkey', by omega, by omega, id⟩
    · have hsize := utf8ByteSize_cut kept' (sha256 key'.toByteArray)
      refine ⟨key, _, hkey, hkey', by omega, by omega, fun heq => ?_⟩
      rw [← heq] at hsize
      omega
  · have hsize := utf8ByteSize_cut kept (sha256 key.toByteArray)
    rcases boundKey_cases sha256 key' with ⟨hshort', hkey'⟩ | ⟨kept', hkey', hlow', hup'⟩
    · refine ⟨_, key', hkey, hkey', by omega, by omega, fun heq => ?_⟩
      rw [heq] at hsize
      omega
    · have hsize' := utf8ByteSize_cut kept' (sha256 key'.toByteArray)
      refine ⟨_, _, hkey, hkey', by omega, by omega, fun heq => ?_⟩
      obtain ⟨-, htail⟩ := List.append_inj' (String.ofList_injective heq)
        (by rw [List.length_cons, List.length_cons, length_encodeHex, length_encodeHex])
      exact toByteArray_inj.mp (hfree (encodeHex_injective (List.cons.inj htail).2))

def sizeDigest (bytes : ByteArray) : Tag := Vector.replicate 32 (UInt8.ofNat bytes.size)

/-- One key is cut behind its last character, the other before it. -/
theorem bound_key_separates_cuts :
    let key := String.ofList (List.replicate 188 'a')
    let key' := String.ofList (List.replicate 188 'a' ++ ['€', '€'])
    ∃ bounded bounded', boundKey sizeDigest key = some bounded ∧
      boundKey sizeDigest key' = some bounded' ∧ bounded ≠ bounded' := by
  intro key key'
  have hne : sizeDigest key.toByteArray ≠ sizeDigest key'.toByteArray := by decide +kernel
  obtain ⟨bounded, bounded', hkey, hkey', -, -, hinj⟩ :=
    bound_key_separates sizeDigest fun heq : sizeDigest key.toByteArray = sizeDigest key'.toByteArray =>
      absurd heq hne
  exact ⟨bounded, bounded', hkey, hkey', fun heq => hne (hinj heq ▸ rfl)⟩

end RateLimitKey

end Axess
