import Mathlib.Data.List.Basic
import Stalwart.Lib.BitPacking

/-!
# UTF-16

A character as UTF-16 code units (`char::encode_utf16`): one unit below `0x10000`, a high and a
low surrogate above. Decoding (`String::from_utf16`) reads a unit outside the surrogates as the
character it is and a high surrogate followed by a low one as the character of the pair, and
refuses any other surrogate.

`decode_encode`: decoding the units of any characters gives the characters back.
-/

namespace Utf16

open BitPacking (or_eq_add_of_lt)

/-- `char::encode_utf16`. -/
def encodeChar (c : Char) : List UInt16 :=
  if c.val < 0x10000 then [c.val.toUInt16]
  else
    let code := c.val - 0x10000
    [(0xD800 : UInt16) ||| (code >>> 10).toUInt16, 0xDC00 ||| (code.toUInt16 &&& 0x3FF)]

/-- `str::encode_utf16`: the units of the characters, in order. -/
def encode (cs : List Char) : List UInt16 :=
  cs.flatMap encodeChar

/-- `String::from_utf16`, through `decode_utf16`: `none` at the first unpaired surrogate. -/
def decode : List UInt16 → Option (List Char)
  | [] => some []
  | u :: rest =>
    if u < 0xD800 ∨ 0xDFFF < u then (Char.ofNat u.toNat :: ·) <$> decode rest
    -- a low surrogate with no high one before it
    else if 0xDC00 ≤ u then none
    else match rest with
      | u2 :: rest =>
        if 0xDC00 ≤ u2 ∧ u2 ≤ 0xDFFF then
          (Char.ofNat ((((u &&& 0x3FF).toNat <<< 10) ||| (u2 &&& 0x3FF).toNat) + 0x10000) :: ·) <$>
            decode rest
        else none
      | [] => none

theorem decode_cons_of_not_surrogate {u : UInt16} (rest : List UInt16)
    (h : u < 0xD800 ∨ 0xDFFF < u) :
    decode (u :: rest) = (Char.ofNat u.toNat :: ·) <$> decode rest := by
  cases rest <;> simp only [decode, if_pos h]

theorem decode_pair {u : UInt16} (u2 : UInt16) (rest : List UInt16)
    (hsur : ¬ (u < 0xD800 ∨ 0xDFFF < u)) (hhigh : ¬ 0xDC00 ≤ u) (hlow : 0xDC00 ≤ u2 ∧ u2 ≤ 0xDFFF) :
    decode (u :: u2 :: rest) =
      (Char.ofNat ((((u &&& 0x3FF).toNat <<< 10) ||| (u2 &&& 0x3FF).toNat) + 0x10000) :: ·) <$>
        decode rest := by
  simp only [decode, if_neg hsur, if_neg hhigh, if_pos hlow]

/-! ## Surrogate pairs -/

/-- The high surrogate of a character above the basic plane carries the top ten bits of
`c - 0x10000`. -/
theorem toNat_high (code : UInt32) (h : code.toNat < 0x100000) :
    ((0xD800 : UInt16) ||| (code >>> 10).toUInt16).toNat = 0xD800 + code.toNat / 2 ^ 10 := by
  have hshift : (code >>> 10).toNat = code.toNat / 2 ^ 10 := by
    rw [UInt32.toNat_shiftRight, Nat.shiftRight_eq_div_pow]
    rfl
  have hunit : ((code >>> 10).toUInt16).toNat = code.toNat / 2 ^ 10 := by
    rw [UInt32.toNat_toUInt16, hshift]
    exact Nat.mod_eq_of_lt (by omega)
  rw [UInt16.toNat_or, hunit]
  exact or_eq_add_of_lt 54 _ 10 (by omega)

/-- The ten bits a surrogate carries. -/
theorem toNat_and_low_bits (u : UInt16) : (u &&& 0x3FF).toNat = u.toNat % 2 ^ 10 := by
  rw [UInt16.toNat_and, show (0x3FF : UInt16).toNat = 2 ^ 10 - 1 from rfl,
    Nat.and_two_pow_sub_one_eq_mod]

/-- The low surrogate carries the bottom ten bits. -/
theorem toNat_low (code : UInt32) :
    ((0xDC00 : UInt16) ||| (code.toUInt16 &&& 0x3FF)).toNat = 0xDC00 + code.toNat % 2 ^ 10 := by
  have hunit : (code.toUInt16 &&& 0x3FF).toNat = code.toNat % 2 ^ 10 := by
    rw [toNat_and_low_bits, UInt32.toNat_toUInt16]
    omega
  rw [UInt16.toNat_or, hunit]
  exact or_eq_add_of_lt 55 _ 10 (Nat.mod_lt _ (by decide))

/-- **Decoding undoes encoding, one character at a time.** -/
theorem decode_encodeChar_append (c : Char) (us : List UInt16) :
    decode (encodeChar c ++ us) = (c :: ·) <$> decode us := by
  have hvalid : c.toNat < 0xD800 ∨ (0xDFFF < c.toNat ∧ c.toNat < 0x110000) := c.valid
  by_cases hsmall : c.val < 0x10000
  · -- one unit, outside the surrogates since `c` is a valid character
    have hlt : c.toNat < 0x10000 := by
      rw [← Char.toNat_val]
      exact UInt32.lt_iff_toNat_lt.mp hsmall
    have hunit : c.val.toUInt16.toNat = c.toNat := by
      rw [UInt32.toNat_toUInt16, Char.toNat_val]
      exact Nat.mod_eq_of_lt hlt
    have hout : c.val.toUInt16 < 0xD800 ∨ 0xDFFF < c.val.toUInt16 := by
      simp only [UInt16.lt_iff_toNat_lt, hunit]
      show c.toNat < 0xD800 ∨ 0xDFFF < c.toNat
      omega
    rw [encodeChar, if_pos hsmall, List.singleton_append, decode_cons_of_not_surrogate _ hout,
      hunit, Char.ofNat_toNat]
  · -- a surrogate pair
    have hge : 0x10000 ≤ c.toNat := by
      rw [← Char.toNat_val]
      exact UInt32.le_iff_toNat_le.mp (UInt32.not_lt.mp hsmall)
    have hcode : (c.val - 0x10000).toNat = c.toNat - 0x10000 := by
      rw [UInt32.toNat_sub_of_le _ _ (UInt32.not_lt.mp hsmall), Char.toNat_val]
      rfl
    set high := (0xD800 : UInt16) ||| ((c.val - 0x10000) >>> 10).toUInt16 with hhigh_def
    set low := (0xDC00 : UInt16) ||| ((c.val - 0x10000).toUInt16 &&& 0x3FF) with hlow_def
    have hhigh : high.toNat = 0xD800 + (c.toNat - 0x10000) / 2 ^ 10 := by
      rw [hhigh_def, toNat_high _ (by omega), hcode]
    have hlow : low.toNat = 0xDC00 + (c.toNat - 0x10000) % 2 ^ 10 := by
      rw [hlow_def, toNat_low, hcode]
    -- the first unit is a high surrogate and the second a low one
    have hsur : ¬ (high < 0xD800 ∨ 0xDFFF < high) := by
      simp only [UInt16.lt_iff_toNat_lt, hhigh]
      show ¬ (_ < 0xD800 ∨ 0xDFFF < _)
      omega
    have hfirst : ¬ 0xDC00 ≤ high := by
      simp only [UInt16.le_iff_toNat_le, hhigh]
      show ¬ 0xDC00 ≤ _
      omega
    have hsecond : 0xDC00 ≤ low ∧ low ≤ 0xDFFF := by
      simp only [UInt16.le_iff_toNat_le, hlow]
      show 0xDC00 ≤ _ ∧ _ ≤ 0xDFFF
      omega
    have hpair : (((high &&& 0x3FF).toNat <<< 10) ||| (low &&& 0x3FF).toNat) + 0x10000 =
        c.toNat := by
      rw [toNat_and_low_bits, toNat_and_low_bits, hhigh, hlow, Nat.shiftLeft_eq,
        or_eq_add_of_lt _ _ 10 (Nat.mod_lt _ (by decide))]
      omega
    rw [encodeChar, if_neg hsmall]
    simp only [List.cons_append, List.nil_append]
    rw [decode_pair _ _ hsur hfirst hsecond, hpair, Char.ofNat_toNat]

/-- **`decode` inverts `encode`.** -/
theorem decode_encode (cs : List Char) : decode (encode cs) = some cs := by
  induction cs with
  | nil => rfl
  | cons c cs ih =>
    rw [encode, List.flatMap_cons, ← encode, decode_encodeChar_append, ih]
    rfl

end Utf16
