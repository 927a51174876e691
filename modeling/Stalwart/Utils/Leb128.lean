import Mathlib.Data.Nat.Bitwise

/-!
# LEB128 (`utils::codec::leb128`)

The store writes every count and identifier of a change-log entry, and JMAP writes the numbers
inside a state string, as unsigned LEB128: seven payload bits a byte, lowest group first, the
high bit set on every byte but the last. `impl_unsigned_leb128!` instantiates one writer and one
reader per integer type; the reader ORs each payload in at the next entry of a fixed list of
shifts, computed in the type's own width, and gives up when that list or the input ends.

`fromLeb128It_toLeb128Bytes` is the law the readers rest on: a value that fits the shifts and the
width reads back from its own bytes, and the bytes after it are left as they were. The
instances at `u64` and `usize` are what the change log needs (`nextLeb128_toLeb128Bytes`).
-/

namespace Stalwart.Utils.Leb128

/-- `to_leb128_bytes`: the writer of every instance of `impl_unsigned_leb128!`. -/
def toLeb128Bytes (value : Nat) : List UInt8 :=
  if value < 0x80 then [value.toUInt8]
  else ((value &&& 0x7f) ||| 0x80).toUInt8 :: toLeb128Bytes (value >>> 7)
termination_by value
decreasing_by rw [Nat.shiftRight_eq_div_pow]; omega

/-- `from_leb128_it`, for a type of `width` bits: the loop over `shifts.zip(it)`, with the
running `result` and what is left of the iterator. -/
def fromLeb128It (width : Nat) : List Nat → Nat → List UInt8 → Option (Nat × List UInt8)
  | [], _, _ => none
  | _ :: _, _, [] => none
  | shift :: shifts, result, byte :: bytes =>
    if byte &&& 0x80 = 0 then some (result ||| (byte.toNat <<< shift) % 2 ^ width, bytes)
    else fromLeb128It width shifts (result ||| ((byte &&& 0x7f).toNat <<< shift) % 2 ^ width) bytes

/-- The integer types `impl_unsigned_leb128!` is instantiated at. -/
inductive UnsignedTy where
  | u8 | u16 | u32 | u64 | usize
  deriving DecidableEq, Repr

/-- The width of each type; `usize` is the 64-bit one of the targets the server is built for. -/
def UnsignedTy.bits : UnsignedTy → Nat
  | .u8 => 8
  | .u16 => 16
  | .u32 => 32
  | .u64 => 64
  | .usize => 64

/-- The shift lists of the macro's instances, as the source writes them. -/
def UnsignedTy.shifts : UnsignedTy → List Nat
  | .u8 => [0]
  | .u16 => [0, 7, 14]
  | .u32 => [0, 7, 14, 21, 28]
  | .u64 => [0, 7, 14, 21, 28, 35, 42, 49, 56, 63]
  | .usize => [0, 7, 14, 21, 28, 35, 42, 49, 56, 63]

/-- `Leb128Iterator::next_leb128::<T>`. -/
def nextLeb128 (ty : UnsignedTy) (bytes : List UInt8) : Option (Nat × List UInt8) :=
  fromLeb128It ty.bits ty.shifts 0 bytes

/-- `from_leb128_bytes_pos`, for a type of `width` bits: the loop over
`shifts.zip(slice.iter().enumerate())`, which answers the value and the position after its last
byte. -/
def fromLeb128BytesPos (width : Nat) : List Nat → Nat → Nat → List UInt8 → Option (Nat × Nat)
  | [], _, _, _ => none
  | _ :: _, _, _, [] => none
  | shift :: shifts, pos, result, byte :: bytes =>
    if byte &&& 0x80 = 0 then some (result ||| (byte.toNat <<< shift) % 2 ^ width, pos + 1)
    else
      fromLeb128BytesPos width shifts (pos + 1)
        (result ||| ((byte &&& 0x7f).toNat <<< shift) % 2 ^ width) bytes

/-- `from_leb128_bytes`, for a type of `width` bits: the loop over `shifts.zip(slice.iter())`. -/
def fromLeb128Bytes (width : Nat) : List Nat → Nat → List UInt8 → Option Nat
  | [], _, _ => none
  | _ :: _, _, [] => none
  | shift :: shifts, result, byte :: bytes =>
    if byte &&& 0x80 = 0 then some (result ||| (byte.toNat <<< shift) % 2 ^ width)
    else fromLeb128Bytes width shifts (result ||| ((byte &&& 0x7f).toNat <<< shift) % 2 ^ width) bytes

/-- `T::from_leb128_bytes_pos(slice)`. -/
def UnsignedTy.fromLeb128BytesPos (ty : UnsignedTy) (slice : List UInt8) : Option (Nat × Nat) :=
  Leb128.fromLeb128BytesPos ty.bits ty.shifts 0 0 slice

/-- `T::from_leb128_bytes(slice)`. -/
def UnsignedTy.fromLeb128Bytes (ty : UnsignedTy) (slice : List UInt8) : Option Nat :=
  Leb128.fromLeb128Bytes ty.bits ty.shifts 0 slice

/-- `T::from_leb128_it(it)`: the value `from_leb128_it` reads, without what is left of `it`. -/
def UnsignedTy.fromLeb128It (ty : UnsignedTy) (it : List UInt8) : Option Nat :=
  (Leb128.fromLeb128It ty.bits ty.shifts 0 it).map Prod.fst

/-! ## Bytes -/

theorem and_0x80 (x : Nat) : x &&& 0x80 = 0x80 * (x / 0x80 % 2) := by
  rw [Nat.land_comm, show (0x80 : Nat) = 2 ^ 7 from rfl, Nat.two_pow_and,
    Nat.testBit_eq_decide_div_mod_eq]
  rcases Nat.mod_two_eq_zero_or_one (x / 2 ^ 7) with h | h <;> rw [h] <;> rfl

theorem and_0x7f (x : Nat) : x &&& 0x7f = x % 0x80 :=
  Nat.and_two_pow_sub_one_eq_mod x 7

/-- The last byte of a number: its high bit is clear and it carries the value itself. -/
theorem low_byte {n : Nat} (h : n < 0x80) : n.toUInt8 &&& 0x80 = 0 ∧ n.toUInt8.toNat = n := by
  have hn : n.toUInt8.toNat = n := by simp; omega
  refine ⟨UInt8.toNat_inj.mp ?_, hn⟩
  rw [UInt8.toNat_and, hn, show (0x80 : UInt8).toNat = 0x80 from rfl, and_0x80]
  simp; omega

/-- A byte that continues a number: its high bit is set and its payload is the low seven bits. -/
theorem high_byte (v : Nat) :
    ((v &&& 0x7f) ||| 0x80).toUInt8 &&& 0x80 ≠ 0 ∧
      (((v &&& 0x7f) ||| 0x80).toUInt8 &&& 0x7f).toNat = v % 0x80 := by
  have hor : (v &&& 0x7f) ||| 0x80 = v % 0x80 + 0x80 := by
    rw [and_0x7f, show (0x80 : Nat) = 2 ^ 7 from rfl, Nat.or_two_pow_eq_add_of_lt (by omega)]
  have hb : ((v &&& 0x7f) ||| 0x80).toUInt8.toNat = v % 0x80 + 0x80 := by
    rw [hor]; simp; omega
  refine ⟨fun h => ?_, ?_⟩
  · have := congrArg UInt8.toNat h
    rw [UInt8.toNat_and, hb, show (0x80 : UInt8).toNat = 0x80 from rfl, and_0x80] at this
    simp at this
  · rw [UInt8.toNat_and, hb, show (0x7f : UInt8).toNat = 0x7f from rfl, and_0x7f]; omega

/-- ORing a payload in above the bits already read is adding it, when nothing is cut off. -/
theorem or_shift {result x shift width : Nat} (hr : result < 2 ^ shift)
    (hw : result + x * 2 ^ shift < 2 ^ width) :
    (result ||| (x <<< shift) % 2 ^ width) = result + x * 2 ^ shift := by
  rw [Nat.mod_eq_of_lt (by rw [Nat.shiftLeft_eq]; omega), Nat.or_comm,
    ← Nat.shiftLeft_add_eq_or_of_lt hr, Nat.shiftLeft_eq]
  omega

theorem toLeb128Bytes_ne_nil (value : Nat) : toLeb128Bytes value ≠ [] := by
  rw [toLeb128Bytes]; split <;> simp

/-- A read that succeeds takes at least one byte. -/
theorem fromLeb128It_rest_lt (width : Nat) : ∀ (shifts : List Nat) (result : Nat)
    (bytes : List UInt8) {value : Nat} {rest : List UInt8},
    fromLeb128It width shifts result bytes = some (value, rest) → rest.length < bytes.length
  | [], _, _, _, _, h => by simp [fromLeb128It] at h
  | _ :: _, _, [], _, _, h => by simp [fromLeb128It] at h
  | shift :: shifts, result, byte :: bytes, value, rest, h => by
    rw [fromLeb128It] at h
    split at h
    · -- the last byte: the rest is what follows it
      simp only [Option.some.injEq, Prod.mk.injEq] at h
      rw [← h.2]
      simp
    · have := fromLeb128It_rest_lt width shifts _ bytes h
      simp only [List.length_cons]
      omega

/-! ## Round trip -/

/-- **The reader inverts the writer.** Reading at the shifts `shift, shift + 7, …` (`k + 1` of
them) from a running result below `2 ^ shift`, a value of at most `k + 1` groups whose bits all
land below the width reads back whole, and the rest of the input is untouched. The induction is
on the shifts left, one byte of the writer each. -/
theorem fromLeb128It_toLeb128Bytes (width k : Nat) :
    ∀ (shift value result : Nat) (rest : List UInt8), result < 2 ^ shift →
      value < 2 ^ (7 * (k + 1)) → result + value * 2 ^ shift < 2 ^ width →
      fromLeb128It width (List.range' shift (k + 1) 7) result (toLeb128Bytes value ++ rest) =
        some (result + value * 2 ^ shift, rest) := by
  induction k with
  | zero =>
    intro shift value result rest hr hv hw
    have low : value < 0x80 := by simpa using hv
    obtain ⟨hbit, hnat⟩ := low_byte low
    rw [toLeb128Bytes, if_pos low]
    simp only [List.range', List.cons_append, List.nil_append, fromLeb128It, hbit, if_true, hnat,
      or_shift hr hw]
  | succ k ih =>
    intro shift value result rest hr hv hw
    by_cases low : value < 0x80
    · obtain ⟨hbit, hnat⟩ := low_byte low
      rw [toLeb128Bytes, if_pos low]
      simp only [List.range', List.cons_append, List.nil_append, fromLeb128It, hbit, if_true, hnat,
        or_shift hr hw]
    · -- a continuation byte: its payload is `value % 0x80`, the rest is `value >>> 7`
      obtain ⟨hbit, hlow⟩ := high_byte value
      have hpow : 2 ^ (shift + 7) = 2 ^ shift * 0x80 := by rw [Nat.pow_add]
      have hr' : result + value % 0x80 * 2 ^ shift < 2 ^ (shift + 7) := by
        have : value % 0x80 * 2 ^ shift ≤ 0x7f * 2 ^ shift := Nat.mul_le_mul_right _ (by omega)
        omega
      have hv' : value >>> 7 < 2 ^ (7 * (k + 1)) := by
        rw [Nat.shiftRight_eq_div_pow, Nat.div_lt_iff_lt_mul (Nat.two_pow_pos _), ← Nat.pow_add]
        exact hv
      have hsum : result + value % 0x80 * 2 ^ shift + value >>> 7 * 2 ^ (shift + 7) =
          result + value * 2 ^ shift := by
        have e : value * 2 ^ shift =
            value % 0x80 * 2 ^ shift + value / 0x80 * (2 ^ shift * 0x80) := by
          rw [Nat.mul_comm (2 ^ shift), ← Nat.mul_assoc, ← Nat.add_mul,
            Nat.mul_comm (value / 0x80), Nat.mod_add_div]
        rw [Nat.shiftRight_eq_div_pow, show (2 : Nat) ^ 7 = 0x80 from rfl, hpow, e]
        omega
      rw [toLeb128Bytes, if_neg low, List.range'_succ, List.cons_append, fromLeb128It, if_neg hbit,
        hlow, or_shift hr (by omega), ih (shift + 7) _ _ rest hr' hv' (by omega), hsum]

/-- The 64-bit readers read back every value below `2 ^ 64`. -/
theorem nextLeb128_toLeb128Bytes {ty : UnsignedTy} (hty : ty = .u64 ∨ ty = .usize) {value : Nat}
    (h : value < 2 ^ 64) (rest : List UInt8) :
    nextLeb128 ty (toLeb128Bytes value ++ rest) = some (value, rest) := by
  have hshifts : ty.shifts = List.range' 0 10 7 := by rcases hty with rfl | rfl <;> rfl
  have hbits : ty.bits = 64 := by rcases hty with rfl | rfl <;> rfl
  have := fromLeb128It_toLeb128Bytes 64 9 0 value 0 rest (Nat.two_pow_pos 0) (by omega)
    (by simpa using h)
  rw [nextLeb128, hshifts, hbits]
  simpa using this

/-- The 32-bit reader reads back every value below `2 ^ 32`. -/
theorem nextLeb128_u32_toLeb128Bytes {value : Nat} (h : value < 2 ^ 32) (rest : List UInt8) :
    nextLeb128 .u32 (toLeb128Bytes value ++ rest) = some (value, rest) := by
  have := fromLeb128It_toLeb128Bytes 32 4 0 value 0 rest (Nat.two_pow_pos 0) (by omega)
    (by simpa using h)
  rw [nextLeb128, show UnsignedTy.u32.shifts = List.range' 0 5 7 from rfl,
    show UnsignedTy.u32.bits = 32 from rfl]
  simpa using this

/-! ## The three readers of an instance -/

/-- `from_leb128_bytes_pos` runs the loop of `from_leb128_it` and counts the bytes it takes. -/
theorem fromLeb128BytesPos_eq (width : Nat) : ∀ (shifts : List Nat) (pos result : Nat)
    (bytes : List UInt8), fromLeb128BytesPos width shifts pos result bytes =
      (fromLeb128It width shifts result bytes).map
        fun read => (read.1, pos + (bytes.length - read.2.length))
  | [], _, _, _ => rfl
  | _ :: _, _, _, [] => rfl
  | shift :: shifts, pos, result, byte :: bytes => by
    rw [fromLeb128BytesPos, fromLeb128It]
    split
    · simp
    · -- the position moves on with the byte; what the loop leaves is never longer than its input
      rw [fromLeb128BytesPos_eq width shifts (pos + 1) _ bytes]
      cases hread : fromLeb128It width shifts
          (result ||| ((byte &&& 0x7f).toNat <<< shift) % 2 ^ width) bytes with
      | none => rfl
      | some read =>
        have hlt := fromLeb128It_rest_lt width shifts _ bytes hread
        simp only [Option.map_some, List.length_cons, Option.some.injEq, Prod.mk.injEq, true_and]
        omega

/-- `from_leb128_bytes` runs the loop of `from_leb128_it` over the slice. -/
theorem fromLeb128Bytes_eq (width : Nat) : ∀ (shifts : List Nat) (result : Nat)
    (bytes : List UInt8),
    fromLeb128Bytes width shifts result bytes = (fromLeb128It width shifts result bytes).map (·.1)
  | [], _, _ => rfl
  | _ :: _, _, [] => rfl
  | shift :: shifts, result, byte :: bytes => by
    rw [fromLeb128Bytes, fromLeb128It]
    split
    · rfl
    · exact fromLeb128Bytes_eq width shifts _ bytes

/-- The shifts of every instance are `0, 7, 14, …`, one for each group the writer may emit. -/
theorem UnsignedTy.shifts_eq (ty : UnsignedTy) :
    ty.shifts = List.range' 0 ty.shifts.length 7 := by
  cases ty <;> rfl

/-- Every instance whose shifts cover its width reads back every value of the type. -/
theorem nextLeb128_toLeb128Bytes_of_cover {ty : UnsignedTy} (hcover : ty.bits ≤ 7 * ty.shifts.length)
    {value : Nat} (h : value < 2 ^ ty.bits) (rest : List UInt8) :
    nextLeb128 ty (toLeb128Bytes value ++ rest) = some (value, rest) := by
  obtain ⟨k, hk⟩ : ∃ k, ty.shifts.length = k + 1 := by cases ty <;> exact ⟨_, rfl⟩
  have hgroups : value < 2 ^ (7 * (k + 1)) :=
    lt_of_lt_of_le h (Nat.pow_le_pow_right (by omega) (hk ▸ hcover))
  have := fromLeb128It_toLeb128Bytes ty.bits k 0 value 0 rest (Nat.two_pow_pos 0) hgroups
    (by simpa using h)
  rw [nextLeb128, ty.shifts_eq, hk]
  simpa using this

/-- **The readers of an instance whose shifts cover its width invert the writer**: each reads a
value of the type back from its bytes and whatever follows them, `from_leb128_bytes_pos` with the
count of its bytes. -/
theorem readers_toLeb128Bytes {ty : UnsignedTy} (hcover : ty.bits ≤ 7 * ty.shifts.length)
    {value : Nat} (h : value < 2 ^ ty.bits) (rest : List UInt8) :
    ty.fromLeb128BytesPos (toLeb128Bytes value ++ rest) =
        some (value, (toLeb128Bytes value).length) ∧
      ty.fromLeb128Bytes (toLeb128Bytes value ++ rest) = some value ∧
      ty.fromLeb128It (toLeb128Bytes value ++ rest) = some value := by
  have hread := nextLeb128_toLeb128Bytes_of_cover hcover h rest
  rw [nextLeb128] at hread
  refine ⟨?_, ?_, ?_⟩
  · rw [UnsignedTy.fromLeb128BytesPos, fromLeb128BytesPos_eq, hread]
    simp
  · rw [UnsignedTy.fromLeb128Bytes, fromLeb128Bytes_eq, hread]
    rfl
  · rw [UnsignedTy.fromLeb128It, hread]
    rfl

/-- The writer puts `128` in two bytes. -/
theorem toLeb128Bytes_128 : toLeb128Bytes 128 = [0x80, 0x01] := by
  rw [toLeb128Bytes, if_neg (by decide), toLeb128Bytes, if_pos (by decide)]
  rfl

theorem leb128_u8_reads_one_group :
    (∀ ty : UnsignedTy, ty ≠ .u8 → ∀ value < 2 ^ ty.bits, ∀ rest : List UInt8,
      ty.fromLeb128BytesPos (toLeb128Bytes value ++ rest) =
          some (value, (toLeb128Bytes value).length) ∧
        ty.fromLeb128Bytes (toLeb128Bytes value ++ rest) = some value ∧
        ty.fromLeb128It (toLeb128Bytes value ++ rest) = some value) ∧
    128 < 2 ^ UnsignedTy.u8.bits ∧ toLeb128Bytes 128 = [0x80, 0x01] ∧
      UnsignedTy.u8.fromLeb128BytesPos (toLeb128Bytes 128) = none ∧
      UnsignedTy.u8.fromLeb128Bytes (toLeb128Bytes 128) = none ∧
      UnsignedTy.u8.fromLeb128It (toLeb128Bytes 128) = none := by
  refine ⟨fun ty hty value h rest => readers_toLeb128Bytes ?_ h rest, by decide, toLeb128Bytes_128,
    ?_⟩
  · cases ty <;> simp_all [UnsignedTy.bits, UnsignedTy.shifts]
  · -- the one shift of `u8` takes the first byte, whose continuation bit is set
    rw [toLeb128Bytes_128]
    exact ⟨rfl, rfl, rfl⟩

end Stalwart.Utils.Leb128
