import Mathlib.Data.List.Basic
import Mathlib.Tactic.IntervalCases
import Stalwart.Utils.Leb128

/-!
# The custom base32 codec (`utils::codec::base32_custom`)

JMAP ids and state strings are written in a base32 alphabet of the lowercase letters and the
digits `7`, `9`, `2`, `0`, `1`, `3`, in that order (`BASE32_ALPHABET`). `BASE32_INVERSE` maps a
byte back to its digit, and to 255 when the byte is no digit. Besides the lowercase letters and
the six digits, the table maps the uppercase letters `K` to `Z` to the digits of `k` to `z`; it
has no entry for `A` to `J`.

`Base32Writer` cuts a stream of bytes into groups of five bits, the first bits first, and writes
one character a group; `finalize` writes the bits left over, padded with zeros. `Base32Reader`
reads the characters back into bytes. Both keep the position in the stream and the byte (for the
reader, the group) before, and each turn of either depends on the position modulo five: five
bytes are eight groups.

## What is proved

* Every digit is written as a byte of the alphabet and read back as itself
  (`alphabetByte_mem`, `base32Inverse_alphabetByte`).
* The writer writes the groups of its bytes, a block of five bytes as eight groups and a last
  partial block padded with zero bits (`finalize_write`); the reader puts the bytes back together
  from them and reads every character (`yields_encodeGroups`). So the reader gives back the bytes
  the writer was given (`yields_write`) and then answers `None`, whether the bytes were written
  in one call or several (`base32_collect_round_trip`); and a LEB128 number read through it is
  read as from its own bytes (`nextLeb128_of_yields`).
-/

set_option autoImplicit false

namespace Stalwart.Utils.Base32

/-- `BASE32_ALPHABET`, as its bytes. -/
def base32Alphabet : List UInt8 :=
  "abcdefghijklmnopqrstuvwxyz792013".toList.map (·.toNat.toUInt8)

/-- `BASE32_ALPHABET[i]`, for a digit `i`; the callers index it with digits only. -/
def alphabetByte (i : Nat) : UInt8 :=
  base32Alphabet.getD i 0

/-- `BASE32_INVERSE`: the digit of a byte, 255 for a byte that is none. -/
def base32Inverse (byte : UInt8) : UInt8 :=
  if 97 ≤ byte ∧ byte ≤ 122 then byte - 97
  else if 75 ≤ byte ∧ byte ≤ 90 then byte - 65
  else
    match byte with
    | 48 => 29
    | 49 => 30
    | 50 => 28
    | 51 => 31
    | 55 => 26
    | 57 => 27
    | _ => 255

theorem alphabetByte_mem : ∀ i < 32, alphabetByte i ∈ base32Alphabet := by
  decide

theorem base32Inverse_alphabetByte : ∀ i < 32, (base32Inverse (alphabetByte i)).toNat = i := by
  decide

/-! ## The writer -/

/-- `Base32Writer`: the byte before, the number of bytes written, and the text so far. -/
structure Base32Writer where
  lastByte : UInt8
  pos : Nat
  result : List UInt8
  deriving DecidableEq, Repr

namespace Base32Writer

/-- `Base32Writer::with_capacity`. -/
def new : Base32Writer := ⟨0, 0, []⟩

/-- `Base32Writer::push_char`, for a character of one byte. -/
def pushChar (w : Base32Writer) (ch : UInt8) : Base32Writer :=
  { w with result := w.result ++ [ch] }

/-- The groups `push_byte` completes with a byte: the group that ends in it, and the group inside
it when there is one (255 when not). -/
def groups (lastByte byte : UInt8) (pos : Nat) : UInt8 × UInt8 :=
  match pos % 5 with
  | 0 => ((byte &&& 0xF8) >>> 3, 255)
  | 1 => (((lastByte &&& 0x07) <<< 2) ||| ((byte &&& 0xC0) >>> 6), (byte &&& 0x3E) >>> 1)
  | 2 => (((lastByte &&& 0x01) <<< 4) ||| ((byte &&& 0xF0) >>> 4), 255)
  | 3 => (((lastByte &&& 0x0F) <<< 1) ||| (byte >>> 7), (byte &&& 0x7C) >>> 2)
  -- the position is 4 here; the source's arm for any other is unreachable
  | _ => (((lastByte &&& 0x03) <<< 3) ||| ((byte &&& 0xE0) >>> 5), byte &&& 0x1F)

/-- `Base32Writer::push_byte`. A remainder writes the first group only and moves nothing. -/
def pushByte (w : Base32Writer) (byte : UInt8) (isRemainder : Bool) : Base32Writer :=
  let (ch1, ch2) := groups w.lastByte byte w.pos
  let result := w.result ++ [alphabetByte ch1.toNat]
  if !isRemainder then
    { lastByte := byte
      pos := w.pos + 1
      result := if ch2 ≠ 255 then result ++ [alphabetByte ch2.toNat] else result }
  else { w with result := result }

/-- `Write::write_all`: every byte pushed in turn. -/
def write (w : Base32Writer) (bytes : List UInt8) : Base32Writer :=
  bytes.foldl (fun w byte => w.pushByte byte false) w

/-- `Base32Writer::finalize`: the bits left over in a last group, then the text. -/
def finalize (w : Base32Writer) : List UInt8 :=
  (if w.pos % 5 ≠ 0 then w.pushByte 0 true else w).result

/-- `Leb128Writer::write_leb128`: each byte of the number written by `Write::write`. -/
def writeLeb128 (w : Base32Writer) (value : Nat) : Base32Writer :=
  w.write (Leb128.toLeb128Bytes value)

/-- `Base32Writer::from_bytes`: a fresh writer given the bytes by `Write::write_all`. -/
def fromBytes (bytes : List UInt8) : Base32Writer :=
  new.write bytes

end Base32Writer

/-! ## The reader -/

/-- `Base32Reader`: the characters left, the last group read, and the number of bytes read. -/
structure Base32Reader where
  bytes : List UInt8
  lastByte : UInt8
  pos : Nat
  deriving DecidableEq, Repr

namespace Base32Reader

/-- `Base32Reader::new`. -/
def new (bytes : List UInt8) : Base32Reader := ⟨bytes, 0, 0⟩

/-- `map_byte`: the next character's group. A character that is no digit is taken and read as
nothing. -/
def mapByte (r : Base32Reader) : Option UInt8 × Base32Reader :=
  match r.bytes with
  | [] => (none, r)
  | byte :: bytes =>
    let group := base32Inverse byte
    if group ≠ 255 then (some group, { r with bytes := bytes, lastByte := group })
    else (none, { r with bytes := bytes })

/-- `Iterator::next`: a byte from the group read and the groups around it, by the position
modulo five; a missing group after it counts as zero. -/
def next (r : Base32Reader) : Option UInt8 × Base32Reader :=
  let pos := r.pos % 5
  let lastByte := r.lastByte
  match r.mapByte with
  | (none, r) => (none, r)
  | (some byte, r) =>
    let r := { r with pos := r.pos + 1 }
    match pos with
    | 0 =>
      let (next, r) := r.mapByte
      (some ((byte <<< 3) ||| (next.getD 0 >>> 2)), r)
    | 1 =>
      let (next, r) := r.mapByte
      (some ((lastByte <<< 6) ||| (byte <<< 1) ||| (next.getD 0 >>> 4)), r)
    | 2 => (some ((lastByte <<< 4) ||| (byte >>> 1)), r)
    | 3 =>
      let (next, r) := r.mapByte
      (some ((lastByte <<< 7) ||| (byte <<< 2) ||| (next.getD 0 >>> 3)), r)
    -- the position is 4 here; the source's arm for any other is unreachable
    | _ => (some ((lastByte <<< 5) ||| byte), r)

/-- `from_leb128_it` on the reader, for a type of `width` bits: the loop over
`shifts.zip(reader)`, which takes a shift before it asks the reader for a byte. -/
def fromLeb128It (width : Nat) : List Nat → Nat → Base32Reader → Option Nat × Base32Reader
  | [], _, r => (none, r)
  | shift :: shifts, result, r =>
    match r.next with
    | (none, r) => (none, r)
    | (some byte, r) =>
      if byte &&& 0x80 = 0 then (some (result ||| (byte.toNat <<< shift) % 2 ^ width), r)
      else fromLeb128It width shifts (result ||| ((byte &&& 0x7f).toNat <<< shift) % 2 ^ width) r

/-- `Leb128Iterator::next_leb128::<T>` on the reader. -/
def nextLeb128 (ty : Leb128.UnsignedTy) (r : Base32Reader) : Option Nat × Base32Reader :=
  fromLeb128It ty.bits ty.shifts 0 r

theorem mapByte_length_le (r : Base32Reader) : r.mapByte.2.bytes.length ≤ r.bytes.length := by
  unfold mapByte
  split
  · exact Nat.le_refl _
  · rename_i byte bytes hbytes
    dsimp only
    split <;> simp [hbytes]

theorem mapByte_length_lt {r r' : Base32Reader} {group : UInt8}
    (h : r.mapByte = (some group, r')) : r'.bytes.length < r.bytes.length := by
  unfold mapByte at h
  split at h
  · cases h
  · rename_i byte bytes hbytes
    dsimp only at h
    split at h
    · cases h
      simp [hbytes]
    · cases h

/-- A byte from `next` takes at least one character. -/
theorem next_length_lt {r r' : Base32Reader} {byte : UInt8} (h : r.next = (some byte, r')) :
    r'.bytes.length < r.bytes.length := by
  unfold next at h
  rcases hmap : r.mapByte with ⟨_ | group, r₁⟩
  · simp [hmap] at h
  · have h₁ := mapByte_length_lt hmap
    have h₂ := mapByte_length_le { r₁ with pos := r₁.pos + 1 }
    simp only [hmap] at h
    -- the reader after the turn is the one after `group`, or after the character that follows
    split at h <;> cases h <;> simp only at h₂ ⊢ <;> omega

/-- `reader.collect()`: the bytes of the iterator, until `next` answers `None`. -/
def collect (r : Base32Reader) : List UInt8 :=
  match _h : r.next with
  | (none, _) => []
  | (some byte, r') => byte :: collect r'
termination_by r.bytes.length
decreasing_by exact next_length_lt _h

end Base32Reader

/-! ## The groups of a block

Five bytes are eight groups (`blockGroups`); the groups of a last partial block are padded with
zero bits (`encodeGroups`). The reader puts each byte back together from the groups its bits went
to (`read_byte0` to `read_byte4`). -/

open Base32Writer (groups)

/-- The characters of a list of groups. -/
def groupText (digits : List UInt8) : List UInt8 :=
  digits.map fun digit => alphabetByte digit.toNat

/-- The eight groups the writer cuts five bytes into, the first bits first. -/
def blockGroups (b0 b1 b2 b3 b4 : UInt8) : List UInt8 :=
  [(groups 0 b0 0).1, (groups b0 b1 1).1, (groups b0 b1 1).2, (groups b1 b2 2).1,
    (groups b2 b3 3).1, (groups b2 b3 3).2, (groups b3 b4 4).1, (groups b3 b4 4).2]

/-- The groups of a stream of bytes: whole blocks of five, then as many groups as the bits of a
last partial block fill, padded with zero bits. -/
def encodeGroups : List UInt8 → List UInt8
  | [] => []
  | [b0] => (blockGroups b0 0 0 0 0).take 2
  | [b0, b1] => (blockGroups b0 b1 0 0 0).take 4
  | [b0, b1, b2] => (blockGroups b0 b1 b2 0 0).take 5
  | [b0, b1, b2, b3] => (blockGroups b0 b1 b2 b3 0).take 7
  | b0 :: b1 :: b2 :: b3 :: b4 :: bytes => blockGroups b0 b1 b2 b3 b4 ++ encodeGroups bytes

@[simp] theorem groupText_append (first second : List UInt8) :
    groupText (first ++ second) = groupText first ++ groupText second :=
  List.map_append

theorem groups_of_mod {pos k : Nat} (h : pos % 5 = k) (lastByte byte : UInt8) :
    groups lastByte byte pos = groups lastByte byte k := by
  subst h
  simp only [groups, Nat.mod_mod]

/-- The first group of a block does not look at the byte before. -/
theorem groups_zero (lastByte byte : UInt8) : groups lastByte byte 0 = ((byte &&& 0xF8) >>> 3, 255) :=
  rfl

/-- Two bytes are equal when their eight bits are. -/
theorem eq_of_getLsbD {a b : UInt8} (h : ∀ i < 8, a.toBitVec.getLsbD i = b.toBitVec.getLsbD i) :
    a = b :=
  UInt8.toBitVec_inj.mp (BitVec.eq_of_getLsbD_eq h)

/-- A byte is a digit when nothing is left of it above its low five bits. -/
theorem toNat_lt_of_shiftRight {digit : UInt8} (h : digit >>> 5 = 0) : digit.toNat < 32 := by
  have hzero := congrArg UInt8.toNat h
  rw [UInt8.toNat_shiftRight, Nat.shiftRight_eq_div_pow] at hzero
  simp only [UInt8.reduceToNat, Nat.reduceMod] at hzero
  omega

/-- Every group the writer makes is a digit. -/
theorem groups_fst_lt (lastByte byte : UInt8) (pos : Nat) :
    (groups lastByte byte pos).1.toNat < 32 := by
  apply toNat_lt_of_shiftRight
  rw [groups]
  split <;>
  · apply eq_of_getLsbD
    intro i hi
    interval_cases i <;> simp

/-- So is the second group, at the positions where a byte completes two. -/
theorem groups_snd_lt {pos : Nat} (h : pos % 5 = 1 ∨ pos % 5 = 3 ∨ pos % 5 = 4)
    (lastByte byte : UInt8) : (groups lastByte byte pos).2.toNat < 32 := by
  apply toNat_lt_of_shiftRight
  rcases h with h | h | h <;> rw [groups_of_mod h] <;>
  · apply eq_of_getLsbD
    intro i hi
    interval_cases i <;> simp [groups]

theorem groups_snd_eq {pos : Nat} (h : pos % 5 = 0 ∨ pos % 5 = 2) (lastByte byte : UInt8) :
    (groups lastByte byte pos).2 = 255 := by
  rcases h with h | h <;> rw [groups_of_mod h] <;> rfl

section Read

variable (b0 b1 b2 b3 b4 : UInt8)

theorem read_byte0 (lastByte : UInt8) :
    ((groups lastByte b0 0).1 <<< 3) ||| ((groups b0 b1 1).1 >>> 2) = b0 := by
  apply eq_of_getLsbD
  intro i hi
  interval_cases i <;> simp [groups]

theorem read_byte1 :
    ((groups b0 b1 1).1 <<< 6) ||| ((groups b0 b1 1).2 <<< 1) ||| ((groups b1 b2 2).1 >>> 4) =
      b1 := by
  apply eq_of_getLsbD
  intro i hi
  interval_cases i <;> simp [groups]

theorem read_byte2 : ((groups b1 b2 2).1 <<< 4) ||| ((groups b2 b3 3).1 >>> 1) = b2 := by
  apply eq_of_getLsbD
  intro i hi
  interval_cases i <;> simp [groups]

theorem read_byte3 :
    ((groups b2 b3 3).1 <<< 7) ||| ((groups b2 b3 3).2 <<< 2) ||| ((groups b3 b4 4).1 >>> 3) =
      b3 := by
  apply eq_of_getLsbD
  intro i hi
  interval_cases i <;> simp [groups]

theorem read_byte4 : ((groups b3 b4 4).1 <<< 5) ||| (groups b3 b4 4).2 = b4 := by
  apply eq_of_getLsbD
  intro i hi
  interval_cases i <;> simp [groups]

end Read

/-! ## The writer writes the groups -/

namespace Base32Writer

/-- The groups `push_byte` writes for a byte that is not the remainder: the one that ends in it,
and the one inside it when there is one. -/
def written (lastByte byte : UInt8) (pos : Nat) : List UInt8 :=
  if (groups lastByte byte pos).2 ≠ 255 then [(groups lastByte byte pos).1, (groups lastByte byte pos).2]
  else [(groups lastByte byte pos).1]

theorem pushByte_false (lastByte byte : UInt8) (pos : Nat) (result : List UInt8) :
    (⟨lastByte, pos, result⟩ : Base32Writer).pushByte byte false =
      ⟨byte, pos + 1, result ++ groupText (written lastByte byte pos)⟩ := by
  simp only [pushByte, written, Bool.not_false, if_true]
  split_ifs <;> simp [groupText]

theorem written_of_snd_eq {pos : Nat} (h : pos % 5 = 0 ∨ pos % 5 = 2) (lastByte byte : UInt8) :
    written lastByte byte pos = [(groups lastByte byte pos).1] := by
  simp [written, groups_snd_eq h]

theorem written_of_snd_lt {pos : Nat} (h : pos % 5 = 1 ∨ pos % 5 = 3 ∨ pos % 5 = 4)
    (lastByte byte : UInt8) :
    written lastByte byte pos = [(groups lastByte byte pos).1, (groups lastByte byte pos).2] := by
  have hne : (groups lastByte byte pos).2 ≠ 255 := by
    intro heq
    have := groups_snd_lt h lastByte byte
    rw [heq] at this
    simp at this
  simp [written, hne]

theorem write_append (w : Base32Writer) (first second : List UInt8) :
    w.write (first ++ second) = (w.write first).write second :=
  List.foldl_append

theorem finalize_eq (lastByte : UInt8) (pos : Nat) (result : List UInt8) :
    (⟨lastByte, pos, result⟩ : Base32Writer).finalize =
      if pos % 5 ≠ 0 then result ++ groupText [(groups lastByte 0 pos).1] else result := by
  by_cases h : pos % 5 = 0 <;> simp [finalize, pushByte, h, groupText]

/-- Five bytes from a block boundary are written as the eight groups of the block. -/
theorem write_block {pos : Nat} (hpos : pos % 5 = 0) (lastByte : UInt8) (result : List UInt8)
    (b0 b1 b2 b3 b4 : UInt8) (bytes : List UInt8) :
    (⟨lastByte, pos, result⟩ : Base32Writer).write (b0 :: b1 :: b2 :: b3 :: b4 :: bytes) =
      (⟨b4, pos + 5, result ++ groupText (blockGroups b0 b1 b2 b3 b4)⟩ : Base32Writer).write
        bytes := by
  have h1 : (pos + 1) % 5 = 1 := by omega
  have h2 : (pos + 1 + 1) % 5 = 2 := by omega
  have h3 : (pos + 1 + 1 + 1) % 5 = 3 := by omega
  have h4 : (pos + 1 + 1 + 1 + 1) % 5 = 4 := by omega
  simp only [write, List.foldl_cons, pushByte_false, written_of_snd_eq (.inl hpos),
    written_of_snd_lt (.inl h1), written_of_snd_eq (.inr h2), written_of_snd_lt (.inr (.inl h3)),
    written_of_snd_lt (.inr (.inr h4)), groups_of_mod hpos, groups_of_mod h1, groups_of_mod h2,
    groups_of_mod h3, groups_of_mod h4, groups_zero, blockGroups, groupText, List.map_cons,
    List.map_nil, List.append_assoc, List.cons_append, List.nil_append]

/-- **The writer writes the groups of the bytes**: from a block boundary, `finalize` after `write`
appends the characters of `encodeGroups`. The induction follows `encodeGroups`: a block of five at
a time, then the last partial block, padded by `finalize`. -/
theorem finalize_write : ∀ (bytes : List UInt8) (lastByte : UInt8) {pos : Nat}
    (result : List UInt8), pos % 5 = 0 →
      ((⟨lastByte, pos, result⟩ : Base32Writer).write bytes).finalize =
        result ++ groupText (encodeGroups bytes)
  | [], lastByte, pos, result, hpos => by
    simp [write, finalize_eq, hpos, encodeGroups, groupText]
  | [b0], lastByte, pos, result, hpos => by
    have h1 : (pos + 1) % 5 = 1 := by omega
    simp [write, pushByte_false, finalize_eq, written_of_snd_eq (.inl hpos), h1, groups_of_mod hpos,
      groups_of_mod h1, groups_zero, encodeGroups, blockGroups, groupText]
  | [b0, b1], lastByte, pos, result, hpos => by
    have h1 : (pos + 1) % 5 = 1 := by omega
    have h2 : (pos + 1 + 1) % 5 = 2 := by omega
    simp [write, pushByte_false, finalize_eq, written_of_snd_eq (.inl hpos),
      written_of_snd_lt (.inl h1), h2, groups_of_mod hpos, groups_of_mod h1, groups_of_mod h2,
      groups_zero, encodeGroups, blockGroups, groupText]
  | [b0, b1, b2], lastByte, pos, result, hpos => by
    have h1 : (pos + 1) % 5 = 1 := by omega
    have h2 : (pos + 1 + 1) % 5 = 2 := by omega
    have h3 : (pos + 1 + 1 + 1) % 5 = 3 := by omega
    simp [write, pushByte_false, finalize_eq, written_of_snd_eq (.inl hpos),
      written_of_snd_lt (.inl h1), written_of_snd_eq (.inr h2), h3, groups_of_mod hpos,
      groups_of_mod h1, groups_of_mod h2, groups_of_mod h3, groups_zero, encodeGroups, blockGroups,
      groupText]
  | [b0, b1, b2, b3], lastByte, pos, result, hpos => by
    have h1 : (pos + 1) % 5 = 1 := by omega
    have h2 : (pos + 1 + 1) % 5 = 2 := by omega
    have h3 : (pos + 1 + 1 + 1) % 5 = 3 := by omega
    have h4 : (pos + 1 + 1 + 1 + 1) % 5 = 4 := by omega
    simp [write, pushByte_false, finalize_eq, written_of_snd_eq (.inl hpos),
      written_of_snd_lt (.inl h1), written_of_snd_eq (.inr h2), written_of_snd_lt (.inr (.inl h3)),
      h4, groups_of_mod hpos, groups_of_mod h1, groups_of_mod h2, groups_of_mod h3,
      groups_of_mod h4, groups_zero, encodeGroups, blockGroups, groupText]
  | b0 :: b1 :: b2 :: b3 :: b4 :: bytes, lastByte, pos, result, hpos => by
    rw [write_block hpos, finalize_write bytes b4 _ (by omega), encodeGroups, groupText_append,
      List.append_assoc]

end Base32Writer

/-! ## The reader reads the bytes back -/

namespace Base32Reader

/-- The reader gives `bytes` in turn, and is then at `r'`. -/
def Yields : Base32Reader → List UInt8 → Base32Reader → Prop
  | r, [], r' => r = r'
  | r, byte :: bytes, r' => ∃ mid, r.next = (some byte, mid) ∧ Yields mid bytes r'

theorem Yields.cons {r mid r' : Base32Reader} {byte : UInt8} {bytes : List UInt8}
    (hnext : r.next = (some byte, mid)) (hrest : Yields mid bytes r') :
    Yields r (byte :: bytes) r' :=
  ⟨mid, hnext, hrest⟩

theorem yields_append : ∀ {first second : List UInt8} {r r'' : Base32Reader},
    Yields r (first ++ second) r'' ↔ ∃ r', Yields r first r' ∧ Yields r' second r''
  | [], second, r, r'' => by simp [Yields]
  | byte :: first, second, r, r'' => by
    simp only [List.cons_append, Yields, yields_append]
    constructor
    · rintro ⟨mid, hnext, r', hfirst, hsecond⟩
      exact ⟨r', ⟨mid, hnext, hfirst⟩, hsecond⟩
    · rintro ⟨r', ⟨mid, hnext, hfirst⟩, hsecond⟩
      exact ⟨mid, hnext, r', hfirst, hsecond⟩

theorem base32Inverse_digit {digit : UInt8} (h : digit.toNat < 32) :
    base32Inverse (alphabetByte digit.toNat) = digit :=
  UInt8.toNat_inj.mp (base32Inverse_alphabetByte digit.toNat h)

/-- `map_byte` on the character of a digit: the digit, which is now the last group. -/
theorem mapByte_digit {digit : UInt8} (h : digit.toNat < 32) (bytes : List UInt8)
    (lastByte : UInt8) (pos : Nat) :
    mapByte ⟨alphabetByte digit.toNat :: bytes, lastByte, pos⟩ = (some digit, ⟨bytes, digit, pos⟩) := by
  have hne : digit ≠ 255 := by
    rintro rfl
    simp at h
  simp [mapByte, base32Inverse_digit h, hne]

/-! The five turns of `next`, one for each position in a block: each takes the groups the byte's
bits are in, the first and last of which may be shared with the bytes around it. -/

section Turns

variable {pos : Nat} {g0 g1 g2 : UInt8} (bytes : List UInt8) (lastByte : UInt8)

theorem next_zero (hpos : pos % 5 = 0) (h0 : g0.toNat < 32) (h1 : g1.toNat < 32) :
    next ⟨alphabetByte g0.toNat :: alphabetByte g1.toNat :: bytes, lastByte, pos⟩ =
      (some ((g0 <<< 3) ||| (g1 >>> 2)), ⟨bytes, g1, pos + 1⟩) := by
  simp [next, hpos, mapByte_digit h0, mapByte_digit h1]

theorem next_one (hpos : pos % 5 = 1) (h0 : g0.toNat < 32) (h1 : g1.toNat < 32) :
    next ⟨alphabetByte g0.toNat :: alphabetByte g1.toNat :: bytes, lastByte, pos⟩ =
      (some ((lastByte <<< 6) ||| (g0 <<< 1) ||| (g1 >>> 4)), ⟨bytes, g1, pos + 1⟩) := by
  simp [next, hpos, mapByte_digit h0, mapByte_digit h1]

theorem next_two (hpos : pos % 5 = 2) (h0 : g0.toNat < 32) :
    next ⟨alphabetByte g0.toNat :: bytes, lastByte, pos⟩ =
      (some ((lastByte <<< 4) ||| (g0 >>> 1)), ⟨bytes, g0, pos + 1⟩) := by
  simp [next, hpos, mapByte_digit h0]

theorem next_three (hpos : pos % 5 = 3) (h0 : g0.toNat < 32) (h1 : g1.toNat < 32) :
    next ⟨alphabetByte g0.toNat :: alphabetByte g1.toNat :: bytes, lastByte, pos⟩ =
      (some ((lastByte <<< 7) ||| (g0 <<< 2) ||| (g1 >>> 3)), ⟨bytes, g1, pos + 1⟩) := by
  simp [next, hpos, mapByte_digit h0, mapByte_digit h1]

theorem next_four (hpos : pos % 5 = 4) (h0 : g0.toNat < 32) :
    next ⟨alphabetByte g0.toNat :: bytes, lastByte, pos⟩ =
      (some ((lastByte <<< 5) ||| g0), ⟨bytes, g0, pos + 1⟩) := by
  simp [next, hpos, mapByte_digit h0]

end Turns

section Blocks

variable {pos : Nat} (b0 b1 b2 b3 b4 : UInt8) (lastByte : UInt8)

/-- The eight groups of a block give its five bytes back. -/
theorem yields_block (hpos : pos % 5 = 0) (bytes : List UInt8) :
    Yields ⟨groupText (blockGroups b0 b1 b2 b3 b4) ++ bytes, lastByte, pos⟩ [b0, b1, b2, b3, b4]
      ⟨bytes, (groups b3 b4 4).2, pos + 5⟩ := by
  simp only [groupText, blockGroups, List.map_cons, List.map_nil, List.cons_append,
    List.nil_append]
  refine .cons (by rw [next_zero _ _ hpos (groups_fst_lt ..) (groups_fst_lt ..), read_byte0]) ?_
  refine .cons (by rw [next_one _ _ (by omega) (groups_snd_lt (.inl rfl) ..) (groups_fst_lt ..),
    read_byte1]) ?_
  refine .cons (by rw [next_two _ _ (by omega) (groups_fst_lt ..), read_byte2]) ?_
  refine .cons (by rw [next_three _ _ (by omega) (groups_snd_lt (.inr (.inl rfl)) ..)
    (groups_fst_lt ..), read_byte3]) ?_
  refine .cons (by rw [next_four _ _ (by omega) (groups_snd_lt (.inr (.inr rfl)) ..), read_byte4]) ?_
  rfl

/-- **The reader reads back the bytes of the groups**: from a block boundary, the characters of
`encodeGroups bytes` give `bytes`, and no character is left after them. The partial blocks are
read as the start of a block whose missing bytes are zero. -/
theorem yields_encodeGroups : ∀ (bytes : List UInt8) (lastByte : UInt8) {pos : Nat}, pos % 5 = 0 →
    ∃ r', Yields ⟨groupText (encodeGroups bytes), lastByte, pos⟩ bytes r' ∧ r'.bytes = []
  | [], lastByte, pos, _ => ⟨_, rfl, rfl⟩
  | [b0], lastByte, pos, hpos => by
    simp only [encodeGroups, blockGroups, List.take, groupText, List.map_cons, List.map_nil]
    exact ⟨_, .cons (by rw [next_zero _ _ hpos (groups_fst_lt ..) (groups_fst_lt ..), read_byte0])
      rfl, rfl⟩
  | [b0, b1], lastByte, pos, hpos => by
    simp only [encodeGroups, blockGroups, List.take, groupText, List.map_cons, List.map_nil]
    exact ⟨_, .cons (by rw [next_zero _ _ hpos (groups_fst_lt ..) (groups_fst_lt ..), read_byte0])
      <| .cons (by rw [next_one _ _ (by omega) (groups_snd_lt (.inl rfl) ..) (groups_fst_lt ..),
        read_byte1]) rfl, rfl⟩
  | [b0, b1, b2], lastByte, pos, hpos => by
    simp only [encodeGroups, blockGroups, List.take, groupText, List.map_cons, List.map_nil]
    exact ⟨_, .cons (by rw [next_zero _ _ hpos (groups_fst_lt ..) (groups_fst_lt ..), read_byte0])
      <| .cons (by rw [next_one _ _ (by omega) (groups_snd_lt (.inl rfl) ..) (groups_fst_lt ..),
        read_byte1])
      <| .cons (by rw [next_two _ _ (by omega) (groups_fst_lt ..), read_byte2]) rfl, rfl⟩
  | [b0, b1, b2, b3], lastByte, pos, hpos => by
    simp only [encodeGroups, blockGroups, List.take, groupText, List.map_cons, List.map_nil]
    exact ⟨_, .cons (by rw [next_zero _ _ hpos (groups_fst_lt ..) (groups_fst_lt ..), read_byte0])
      <| .cons (by rw [next_one _ _ (by omega) (groups_snd_lt (.inl rfl) ..) (groups_fst_lt ..),
        read_byte1])
      <| .cons (by rw [next_two _ _ (by omega) (groups_fst_lt ..), read_byte2])
      <| .cons (by rw [next_three _ _ (by omega) (groups_snd_lt (.inr (.inl rfl)) ..)
        (groups_fst_lt ..), read_byte3]) rfl, rfl⟩
  | b0 :: b1 :: b2 :: b3 :: b4 :: bytes, lastByte, pos, hpos => by
    obtain ⟨r', hrest, hend⟩ :=
      yields_encodeGroups bytes (groups b3 b4 4).2 (show (pos + 5) % 5 = 0 by omega)
    rw [encodeGroups, groupText_append]
    exact ⟨r', yields_append.mpr ⟨_, yields_block b0 b1 b2 b3 b4 lastByte hpos _, hrest⟩, hend⟩

end Blocks

end Base32Reader

/-- **The codec round trip** (the source's `base32_roundtrip`): the reader over what a fresh
writer wrote for `bytes` gives `bytes` back. -/
theorem yields_write (bytes : List UInt8) :
    ∃ r', Base32Reader.Yields (.new (Base32Writer.new.write bytes).finalize) bytes r' := by
  rw [Base32Writer.new, Base32Writer.finalize_write bytes 0 [] rfl, List.nil_append]
  obtain ⟨r', hyields, -⟩ := Base32Reader.yields_encodeGroups bytes 0 (show 0 % 5 = 0 from rfl)
  exact ⟨r', hyields⟩

namespace Base32Reader

theorem collect_of_next_some {r r' : Base32Reader} {byte : UInt8} (h : r.next = (some byte, r')) :
    r.collect = byte :: r'.collect := by
  rw [collect]
  split <;> simp_all

/-- With no character left, the reader answers `None`. -/
theorem collect_of_bytes_nil {r : Base32Reader} (h : r.bytes = []) : r.collect = [] := by
  have hnext : r.next = (none, r) := by simp [next, mapByte, h]
  rw [collect]
  split <;> simp_all

/-- A reader that gives `bytes` and has no character left after them collects `bytes`. -/
theorem collect_of_yields : ∀ {bytes : List UInt8} {r r' : Base32Reader}, Yields r bytes r' →
    r'.bytes = [] → r.collect = bytes
  | [], _, _, rfl, hend => collect_of_bytes_nil hend
  | _ :: _, _, _, ⟨_, hnext, hrest⟩, hend => by
    rw [collect_of_next_some hnext, collect_of_yields hrest hend]

end Base32Reader

namespace Base32Writer

/-- Bytes written in several calls are written as their concatenation in one. -/
theorem foldl_write (w : Base32Writer) (chunks : List (List UInt8)) :
    chunks.foldl write w = w.write chunks.flatten := by
  induction chunks generalizing w with
  | nil => rfl
  | cons chunk chunks ih => rw [List.foldl_cons, ih, List.flatten_cons, write_append]

end Base32Writer

/-- The reader over what a fresh writer wrote collects the bytes written. -/
theorem collect_write (bytes : List UInt8) :
    (Base32Reader.new (Base32Writer.new.write bytes).finalize).collect = bytes := by
  rw [Base32Writer.new, Base32Writer.finalize_write bytes 0 [] rfl, List.nil_append]
  obtain ⟨r', hyields, hend⟩ := Base32Reader.yields_encodeGroups bytes 0 (show 0 % 5 = 0 from rfl)
  exact Base32Reader.collect_of_yields hyields hend

theorem base32_collect_round_trip (bytes : List UInt8) (chunks : List (List UInt8)) :
    (Base32Reader.new (Base32Writer.fromBytes bytes).finalize).collect = bytes ∧
      (Base32Reader.new (chunks.foldl Base32Writer.write .new).finalize).collect =
        chunks.flatten :=
  ⟨collect_write bytes, by rw [Base32Writer.foldl_write, collect_write]⟩

/-! ## Numbers through the codec -/

namespace Base32Reader

/-- A LEB128 read over the reader is the read over the bytes it gives: when the bytes read
exactly `bytes`, the reader gives `bytes` and stops where they end. The induction is on the bytes
given, one turn of the loop each. -/
theorem fromLeb128It_of_yields {width : Nat} {rest : List UInt8} : ∀ {bytes : List UInt8}
    {shifts : List Nat} {result value : Nat} {r r' : Base32Reader}, Yields r bytes r' →
    Leb128.fromLeb128It width shifts result (bytes ++ rest) = some (value, rest) →
      fromLeb128It width shifts result r = (some value, r')
  | [], shifts, result, _, _, _, _, hread =>
    absurd (Leb128.fromLeb128It_rest_lt width shifts result rest hread) (Nat.lt_irrefl _)
  | _ :: _, [], _, _, _, _, _, hread => by simp [Leb128.fromLeb128It] at hread
  | byte :: bytes, shift :: shifts, result, value, r, r', ⟨mid, hnext, hrest⟩, hread => by
    rw [List.cons_append, Leb128.fromLeb128It] at hread
    rw [fromLeb128It, hnext]
    split at hread
    · -- the last byte of the number: nothing of `bytes` is left
      next hlast =>
      simp only [Option.some.injEq, Prod.mk.injEq] at hread
      obtain ⟨hvalue, hbytes⟩ := hread
      obtain rfl : bytes = [] :=
        List.append_cancel_right (hbytes.trans (List.nil_append rest).symm)
      cases hrest
      simp [hlast, hvalue]
    · next hmore =>
      simp only [hmore, if_false]
      exact fromLeb128It_of_yields hrest hread

/-- The 64-bit readers read a number back from the reader that gives its bytes. -/
theorem nextLeb128_of_yields {ty : Leb128.UnsignedTy} (hty : ty = .u64 ∨ ty = .usize)
    {value : Nat} (hvalue : value < 2 ^ 64) {r r' : Base32Reader}
    (h : Yields r (Leb128.toLeb128Bytes value) r') : r.nextLeb128 ty = (some value, r') :=
  fromLeb128It_of_yields h (Leb128.nextLeb128_toLeb128Bytes hty hvalue [])

/-- Every reader whose shifts cover its width reads a number of its type back from the reader
that gives the number's bytes. -/
theorem nextLeb128_of_yields_of_cover {ty : Leb128.UnsignedTy}
    (hcover : ty.bits ≤ 7 * ty.shifts.length) {value : Nat} (hvalue : value < 2 ^ ty.bits)
    {r r' : Base32Reader} (h : Yields r (Leb128.toLeb128Bytes value) r') :
    r.nextLeb128 ty = (some value, r') :=
  fromLeb128It_of_yields h (Leb128.nextLeb128_toLeb128Bytes_of_cover hcover hvalue [])

end Base32Reader

end Stalwart.Utils.Base32
