import Mathlib.Data.Nat.Size
import Mathlib.Tactic.Ring
import Stalwart.Lib.BitPacking
import Stalwart.Utils.Base32

/-!
# JMAP object ids (`types::id::Id`)

An `Id` is a `u64`, written in the custom base32 alphabet. `Id::as_string` writes the top four
bits first (a digit below 16), then the other sixty bits five at a time, and leaves out the
leading zero digits. It marks the end with a stop bit: it shifts the number left by four and sets
the lowest bit, then writes and shifts out five bits at a time until only that bit is left, at the
top. When the top four bits are zero it drops the zero digits first, with one shift by a multiple
of five of the leading zeros. `Id::from_str` reads the digits back, shifting five bits at a time.

## What is proved

* The loop writes the digits of the number it was given, and stops when they are written
  (`asStringLoop_digits`): the state it runs on is `P (16 m + 1)`, with `m` the digits left and
  the stop bit `P` below them.
* `as_string` writes the base-32 digits of the id, within thirteen turns of the loop
  (`asString_digits`), and `from_str` reads such digits back (`fromStr_digits`).
* So every id reads back from its text, the text is made of the alphabet, and two ids never share
  a text (`id_string_round_trip`).
-/

set_option autoImplicit false

namespace Stalwart.Types

open Stalwart.Utils.Base32 (base32Alphabet alphabetByte base32Inverse alphabetByte_mem
  base32Inverse_alphabetByte)

/-- `u64::leading_zeros`. -/
def leadingZeros (n : UInt64) : Nat :=
  64 - n.toNat.size

/-- `STOP_BIT`. -/
def stopBit : UInt64 := (1 : UInt64) <<< 60

/-- The `while n != STOP_BIT` loop of `Id::as_string`, for at most `fuel` turns: each turn writes
the five bits on top and shifts them out. -/
def asStringLoop : Nat → UInt64 → List UInt8 → Option (List UInt8)
  | 0, _, _ => none
  | fuel + 1, n, buf =>
    if n = stopBit then some buf
    else asStringLoop fuel (n <<< 5) (buf ++ [alphabetByte (n >>> 59).toNat])

/-- `Id::as_string`, as the bytes of the text; the loop is given thirteen turns, which are
enough (`asString_digits`). -/
def asString (id : UInt64) : Option (List UInt8) :=
  if id = 0 then some [97]
  else
    match (id >>> 60).toNat with
    | 0 =>
      -- eat the leading zero bits, five at a time
      let n := (id <<< 4) ||| 1
      asStringLoop 13 (n <<< (leadingZeros n / 5 * 5).toUInt64) []
    | i => asStringLoop 13 ((id <<< 4) ||| 1) [alphabetByte i]

/-- One turn of `Id::from_str`: the digit of the byte shifted in, or an error for a byte that is
no digit. -/
def fromStrStep (id : UInt64) (ch : UInt8) : Except Unit UInt64 :=
  let i := base32Inverse ch
  if i ≠ 255 then .ok ((id <<< 5) ||| i.toUInt64) else .error ()

/-- `Id::from_str`, on the bytes of the text. -/
def fromStr (s : List UInt8) : Except Unit UInt64 :=
  s.foldlM fromStrStep 0

/-! ## Digits -/

/-- The `count` base-32 digits of `m`, the most significant first. -/
def digitsFixed : Nat → Nat → List Nat
  | 0, _ => []
  | count + 1, m => m / 32 ^ count :: digitsFixed count (m % 32 ^ count)

theorem lt_of_mem_digitsFixed : ∀ {count m : Nat}, m < 32 ^ count →
    ∀ digit ∈ digitsFixed count m, digit < 32
  | 0, _, _, digit, h => by simp [digitsFixed] at h
  | count + 1, m, hm, digit, h => by
    rw [digitsFixed, List.mem_cons] at h
    rcases h with rfl | h
    · rw [Nat.div_lt_iff_lt_mul (Nat.pow_pos (by norm_num : 0 < 32)), ← pow_succ']
      exact hm
    · exact lt_of_mem_digitsFixed (Nat.mod_lt _ (Nat.pow_pos (by norm_num : 0 < 32))) digit h

/-! ## The loop of `as_string` -/

theorem stopBit_toNat : stopBit.toNat = 2 ^ 60 := by
  simp [stopBit]

section Turn

variable {P K m : Nat}

/-- In a turn, the state is `P (16 m + 1)`, and `P · 512 · K` is `2 ^ 64`: the stop bit alone
would be `P · 32 K`, and `16 m + 1` is odd. -/
theorem turn_ne_stop (hP : P * 512 * K = 2 ^ 64) :
    P * (16 * m + 1) ≠ 2 ^ 60 := by
  intro h
  have h60 : P * (32 * K) = 2 ^ 60 := by
    have : P * (32 * K) * 16 = 2 ^ 60 * 16 := by
      rw [show (2 : Nat) ^ 60 * 16 = 2 ^ 64 by norm_num, ← hP]
      ring
    omega
  -- `16 m + 1` is odd and `32 K` even
  have hPpos : 0 < P := Nat.pos_of_ne_zero (by rintro rfl; simp at hP)
  have := Nat.eq_of_mul_eq_mul_left hPpos (h.trans h60.symm)
  omega

/-- The five bits on top are the first digit left. -/
theorem turn_div (hP : P * 512 * K = 2 ^ 64) : P * (16 * m + 1) / 2 ^ 59 = m / K := by
  have h59 : 2 ^ 59 = P * (16 * K) := by
    have : P * (16 * K) * 32 = 2 ^ 59 * 32 := by
      rw [show (2 : Nat) ^ 59 * 32 = 2 ^ 64 by norm_num, ← hP]
      ring
    omega
  have hPpos : 0 < P := Nat.pos_of_ne_zero (by rintro rfl; simp at hP)
  rw [h59, Nat.mul_div_mul_left _ _ hPpos, ← Nat.div_div_eq_div_mul]
  congr 1
  omega

/-- Shifting them out leaves the other digits, and the stop bit five bits higher. -/
theorem turn_shift (hP : P * 512 * K = 2 ^ 64) :
    P * (16 * m + 1) * 2 ^ 5 % 2 ^ 64 = 32 * P * (16 * (m % K) + 1) := by
  have hK : 0 < K := Nat.pos_of_ne_zero (by rintro rfl; simp at hP)
  have hsplit : P * (16 * m + 1) * 2 ^ 5 = 32 * P * (16 * (m % K) + 1) + m / K * 2 ^ 64 := by
    rw [← hP]
    conv_lhs => rw [← Nat.mod_add_div m K]
    ring
  have hlt : 32 * P * (16 * (m % K) + 1) < 2 ^ 64 := by
    have hmod : 16 * (m % K) + 1 < 16 * K := by
      have := Nat.mod_lt m hK
      omega
    calc 32 * P * (16 * (m % K) + 1) < 32 * P * (16 * K) :=
          Nat.mul_lt_mul_of_pos_left hmod (by
            have : 0 < P := Nat.pos_of_ne_zero (by rintro rfl; simp at hP)
            omega)
      _ = 2 ^ 64 := by rw [← hP]; ring
  rw [hsplit, Nat.add_mul_mod_self_right, Nat.mod_eq_of_lt hlt]

end Turn

/-- **The loop writes the digits left and stops**: on `P (16 m + 1)`, with `r` digits `m` left and
the stop bit `P` below them, it writes the `r` digits of `m` in `r` turns. -/
theorem asStringLoop_digits : ∀ (r m P fuel : Nat) (n : UInt64) (buf : List UInt8),
    m < 32 ^ r → P * 16 * 32 ^ r = 2 ^ 64 → n.toNat = P * (16 * m + 1) → r < fuel →
      asStringLoop fuel n buf = some (buf ++ (digitsFixed r m).map alphabetByte)
  | _, _, _, 0, _, _, _, _, _, hfuel => absurd hfuel (Nat.not_lt_zero _)
  | 0, m, P, fuel + 1, n, buf, hm, hP, hn, _ => by
    -- no digit left: the state is the stop bit
    have hm0 : m = 0 := by simpa using hm
    have hstop : n = stopBit := by
      apply UInt64.toNat_inj.mp
      rw [hn, hm0, stopBit_toNat]
      simp only [pow_zero, Nat.mul_one] at hP
      omega
    simp [asStringLoop, hstop, digitsFixed]
  | r + 1, m, P, fuel + 1, n, buf, hm, hP, hn, hfuel => by
    have hP' : P * 512 * 32 ^ r = 2 ^ 64 := by rw [← hP, pow_succ]; ring
    have hne : n ≠ stopBit := by
      intro h
      apply turn_ne_stop hP'
      rw [← hn, h, stopBit_toNat]
    have hdigit : (n >>> 59).toNat = m / 32 ^ r := by
      rw [UInt64.toNat_shiftRight, Nat.shiftRight_eq_div_pow, hn]
      exact turn_div hP'
    have hshift : (n <<< 5).toNat = 32 * P * (16 * (m % 32 ^ r) + 1) := by
      rw [UInt64.toNat_shiftLeft, Nat.shiftLeft_eq, hn]
      exact turn_shift hP'
    have hrest := asStringLoop_digits r (m % 32 ^ r) (32 * P) fuel (n <<< 5)
      (buf ++ [alphabetByte (n >>> 59).toNat])
      (Nat.mod_lt _ (Nat.pow_pos (by norm_num : 0 < 32))) (by rw [← hP']; ring) hshift
      (by omega)
    rw [asStringLoop, if_neg hne, hrest, hdigit]
    simp [digitsFixed]

/-- The start of `as_string`: shifted left by four with the stop bit set, an id keeps its low
sixty bits. -/
theorem start_toNat (id : UInt64) :
    ((id <<< 4) ||| 1).toNat = 16 * (id.toNat % 2 ^ 60) + 1 := by
  have hmod : id.toNat * 2 ^ 4 % 2 ^ 64 = id.toNat % 2 ^ 60 * 2 ^ 4 := by
    rw [show (2 : Nat) ^ 64 = 2 ^ 60 * 2 ^ 4 by norm_num, Nat.mul_mod_mul_right]
  rw [UInt64.toNat_or, UInt64.toNat_shiftLeft, Nat.shiftLeft_eq]
  simp only [UInt64.reduceToNat, Nat.reduceMod]
  rw [hmod, BitPacking.or_eq_add_of_lt _ 1 4 (by norm_num)]
  ring

/-- **`as_string` writes the base-32 digits of the id**, thirteen at most. -/
theorem asString_digits (id : UInt64) :
    ∃ count, count ≤ 13 ∧ id.toNat < 32 ^ count ∧
      asString id = some ((digitsFixed count id.toNat).map alphabetByte) := by
  have hid := id.toNat_lt
  by_cases hzero : id = 0
  · subst hzero
    exact ⟨1, by norm_num, by decide, by decide⟩
  rw [asString, if_neg hzero]
  have htop : (id >>> 60).toNat = id.toNat / 2 ^ 60 := by
    rw [UInt64.toNat_shiftRight, Nat.shiftRight_eq_div_pow]
    rfl
  split
  · -- the top four bits are zero: the leading zero digits are dropped
    next hfirst =>
    rw [htop] at hfirst
    have hlow : id.toNat < 2 ^ 60 := by omega
    have hstart := start_toNat id
    rw [Nat.mod_eq_of_lt hlow] at hstart
    set size := ((id <<< 4) ||| 1).toNat.size with hsize
    have hbits : 16 * id.toNat + 1 < 2 ^ size := hstart ▸ Nat.lt_size_self _
    have hsize64 : size ≤ 64 := Nat.size_le.mpr (by omega)
    set zeros := (64 - size) / 5 with hzeros
    have hzeros12 : zeros ≤ 12 := by omega
    -- the digits left are below `2 ^ (60 - 5 zeros)`
    have hroom : 2 ^ size ≤ 16 * 32 ^ (12 - zeros) := by
      calc 2 ^ size ≤ 2 ^ (4 + 5 * (12 - zeros)) := Nat.pow_le_pow_right (by norm_num) (by omega)
        _ = 16 * 32 ^ (12 - zeros) := by rw [pow_add, pow_mul]; norm_num
    have hword : 2 ^ (5 * zeros) * 16 * 32 ^ (12 - zeros) = 2 ^ 64 := by
      rw [show (32 : Nat) = 2 ^ 5 by norm_num, ← pow_mul, show (16 : Nat) = 2 ^ 4 by norm_num,
        ← pow_add, ← pow_add]
      congr 1
      omega
    have hshifted : (((id <<< 4) ||| 1) <<< (leadingZeros ((id <<< 4) ||| 1) / 5 * 5).toUInt64).toNat
        = 2 ^ (5 * zeros) * (16 * id.toNat + 1) := by
      have hamount : (leadingZeros ((id <<< 4) ||| 1) / 5 * 5).toUInt64.toNat % 64 = 5 * zeros := by
        simp only [leadingZeros, Nat.toUInt64_eq, UInt64.toNat_ofNat']
        omega
      rw [UInt64.toNat_shiftLeft, hamount, Nat.shiftLeft_eq, hstart, Nat.mod_eq_of_lt]
      · ring
      · calc (16 * id.toNat + 1) * 2 ^ (5 * zeros) < 16 * 32 ^ (12 - zeros) * 2 ^ (5 * zeros) :=
            Nat.mul_lt_mul_of_pos_right (lt_of_lt_of_le hbits hroom) (Nat.two_pow_pos _)
          _ = 2 ^ 64 := by rw [← hword]; ring
    refine ⟨12 - zeros, by omega, by omega, ?_⟩
    rw [asStringLoop_digits (12 - zeros) id.toNat (2 ^ (5 * zeros)) 13 _ [] (by omega) hword
      hshifted (by omega), List.nil_append]
  · -- a top digit: it is written first, then the twelve digits of the low sixty bits
    have hmod := Nat.mod_lt id.toNat (Nat.two_pow_pos 60)
    have hloop := asStringLoop_digits 12 (id.toNat % 2 ^ 60) 1 13 ((id <<< 4) ||| 1)
      [alphabetByte (id >>> 60).toNat] (by norm_num; omega) (by norm_num)
      (by rw [start_toNat]; ring) (by norm_num)
    have h32 : (32 : Nat) ^ 12 = 2 ^ 60 := by norm_num
    refine ⟨13, le_rfl, by norm_num; omega, ?_⟩
    show _ = some ((id.toNat / 32 ^ 12 :: digitsFixed 12 (id.toNat % 32 ^ 12)).map alphabetByte)
    rw [hloop, h32, htop]
    rfl

example : asString 123456789 = some ("dvxtiv".toList.map (·.toNat.toUInt8)) := by
  decide

example : asString 18446744073709551615 =
    some ("p333333333333".toList.map (·.toNat.toUInt8)) := by
  decide

/-! ## `from_str` -/

/-- A digit written in the alphabet is shifted into the id. -/
theorem fromStrStep_alphabetByte (id : UInt64) {digit : Nat} (hdigit : digit < 32)
    (hfit : id.toNat * 32 + digit < 2 ^ 64) :
    fromStrStep id (alphabetByte digit) = .ok (UInt64.ofNat (id.toNat * 32 + digit)) := by
  have hinverse := base32Inverse_alphabetByte digit hdigit
  have hne : base32Inverse (alphabetByte digit) ≠ 255 := by
    intro h
    rw [h] at hinverse
    simp at hinverse
    omega
  rw [fromStrStep, if_pos hne]
  congr 1
  apply UInt64.toNat_inj.mp
  rw [UInt64.toNat_or, UInt64.toNat_shiftLeft, UInt8.toNat_toUInt64, hinverse, Nat.shiftLeft_eq]
  simp only [UInt64.reduceToNat, Nat.reduceMod]
  rw [Nat.mod_eq_of_lt (by omega), UInt64.toNat_ofNat', Nat.mod_eq_of_lt hfit]
  exact BitPacking.or_eq_add_of_lt _ _ 5 hdigit

/-- **`from_str` reads digits back**: from an id `acc`, `r` digits of `m` give `acc · 32 ^ r + m`
when that fits in 64 bits. -/
theorem fromStr_digits (acc : UInt64) : ∀ (r m : Nat), m < 32 ^ r →
    acc.toNat * 32 ^ r + m < 2 ^ 64 →
      ((digitsFixed r m).map alphabetByte).foldlM fromStrStep acc =
        .ok (UInt64.ofNat (acc.toNat * 32 ^ r + m))
  | 0, m, hm, _ => by
    have hm0 : m = 0 := by simpa using hm
    subst hm0
    simp [digitsFixed]
    rfl
  | r + 1, m, hm, hfit => by
    have hpow : 0 < 32 ^ r := Nat.pow_pos (by norm_num : 0 < 32)
    have hhead : m / 32 ^ r < 32 := by
      rw [Nat.div_lt_iff_lt_mul hpow, ← pow_succ']
      exact hm
    -- the id after the first digit
    have hsplit : (acc.toNat * 32 + m / 32 ^ r) * 32 ^ r + m % 32 ^ r =
        acc.toNat * 32 ^ (r + 1) + m := by
      conv_rhs => rw [← Nat.div_add_mod m (32 ^ r)]
      ring
    have hfirst : acc.toNat * 32 + m / 32 ^ r < 2 ^ 64 := by
      have : (acc.toNat * 32 + m / 32 ^ r) * 1 ≤ (acc.toNat * 32 + m / 32 ^ r) * 32 ^ r :=
        Nat.mul_le_mul_left _ hpow
      omega
    have hnext : (UInt64.ofNat (acc.toNat * 32 + m / 32 ^ r)).toNat =
        acc.toNat * 32 + m / 32 ^ r := by
      rw [UInt64.toNat_ofNat', Nat.mod_eq_of_lt hfirst]
    rw [digitsFixed, List.map_cons, List.foldlM_cons, fromStrStep_alphabetByte acc hhead hfirst]
    show ((digitsFixed r (m % 32 ^ r)).map alphabetByte).foldlM fromStrStep
      (UInt64.ofNat (acc.toNat * 32 + m / 32 ^ r)) = _
    rw [fromStr_digits _ r (m % 32 ^ r) (Nat.mod_lt _ hpow) (by rw [hnext, hsplit]; exact hfit),
      hnext, hsplit]

theorem id_string_round_trip :
    (∀ id : UInt64, ∃ text, asString id = some text ∧ fromStr text = .ok id ∧
      ∀ byte ∈ text, byte ∈ base32Alphabet) ∧
    ∀ id id' : UInt64, asString id = asString id' → id = id' := by
  -- every id reads back from the digits `as_string` writes
  have hround : ∀ id : UInt64, ∃ text, asString id = some text ∧ fromStr text = .ok id ∧
      ∀ byte ∈ text, byte ∈ base32Alphabet := by
    intro id
    obtain ⟨count, -, hlt, htext⟩ := asString_digits id
    refine ⟨_, htext, ?_, ?_⟩
    · have hread := fromStr_digits 0 count id.toNat hlt (by simpa using id.toNat_lt)
      rw [fromStr, hread]
      simp
    · intro byte hbyte
      obtain ⟨digit, hdigit, rfl⟩ := List.mem_map.mp hbyte
      exact alphabetByte_mem digit (lt_of_mem_digitsFixed hlt digit hdigit)
  refine ⟨hround, fun id id' hsame => ?_⟩
  obtain ⟨text, htext, hread, -⟩ := hround id
  obtain ⟨text', htext', hread', -⟩ := hround id'
  rw [htext, htext', Option.some.injEq] at hsame
  subst hsame
  rw [hread] at hread'
  exact Except.ok.inj hread'

end Stalwart.Types
