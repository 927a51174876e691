import Stalwart.Lib.BitPacking
import Stalwart.Lib.Utf16

/-!
# Modified UTF-7 mailbox names (`imap_proto::utf7`)

IMAP names mailboxes in modified UTF-7 (RFC 3501 §5.1.3). Printable ASCII stands for itself and
`&` is written `&-`. Any other run of UTF-16 units is written between `&` and `-` in a base64
whose alphabet has `,` for `/`. `utf7_encode` walks the UTF-16 units of a string. It keeps the
bits of the units it has not yet written in `u`, and their count in `bits`. `utf7_decode` reads
the six-bit groups back into `v`, and writes a unit each time it holds sixteen bits. At the `-`
it drops the padding bits.

## What is proved

* `utf7_round_trip`: for every string, decoding its encoding gives the string back, and the
  encoding is printable ASCII.

The proof is a simulation. After each unit the encoder reads, the decoder reads all the encoder
has written, and the two are `Synced`. Between them the two accumulators hold exactly the units
the encoder has read and the decoder has not yet written (`Pending`, an instance of
`BitPacking.Split`): the decoder's pending bits first, then the encoder's.
-/

set_option autoImplicit false

namespace Stalwart.Imap.Proto

open BitPacking

/-- `UTF_7_RANK`: the six-bit value of each ASCII character of the alphabet, `255` for the
others. -/
def utf7Rank : List UInt8 :=
  [255, 255, 255, 255, 255, 255, 255, 255, 255, 255, 255, 255, 255, 255, 255, 255, 255, 255, 255,
    255, 255, 255, 255, 255, 255, 255, 255, 255, 255, 255, 255, 255, 255, 255, 255, 255, 255, 255,
    255, 255, 255, 255, 255, 62, 63, 255, 255, 255, 52, 53, 54, 55, 56, 57, 58, 59, 60, 61, 255,
    255, 255, 255, 255, 255, 255, 0, 1, 2, 3, 4, 5, 6, 7, 8, 9, 10, 11, 12, 13, 14, 15, 16, 17, 18,
    19, 20, 21, 22, 23, 24, 25, 255, 255, 255, 255, 255, 255, 26, 27, 28, 29, 30, 31, 32, 33, 34,
    35, 36, 37, 38, 39, 40, 41, 42, 43, 44, 45, 46, 47, 48, 49, 50, 51, 255, 255, 255, 255, 255]

/-- `UTF_7_MAP`: the alphabet, `,` in place of base64's `/`. -/
def utf7Map : List Char :=
  ['A', 'B', 'C', 'D', 'E', 'F', 'G', 'H', 'I', 'J', 'K', 'L', 'M', 'N', 'O', 'P', 'Q', 'R', 'S',
    'T', 'U', 'V', 'W', 'X', 'Y', 'Z', 'a', 'b', 'c', 'd', 'e', 'f', 'g', 'h', 'i', 'j', 'k', 'l',
    'm', 'n', 'o', 'p', 'q', 'r', 's', 't', 'u', 'v', 'w', 'x', 'y', 'z', '0', '1', '2', '3', '4',
    '5', '6', '7', '8', '9', '+', ',']

/-- `char::from(UTF_7_MAP[i])`. The code masks every index to six bits, so the default is never
taken. -/
def mapChar (i : UInt32) : Char :=
  utf7Map.getD i.toNat 'A'

/-! ## `utf7_decode` -/

/-- The locals of `utf7_decode`'s loop. -/
structure DecodeState where
  bytes : List UInt16
  bits : Nat
  v : UInt32
  shifted : Bool

/-- A character of a shifted run, of six-bit value `rank`: its bits join `v`, and once sixteen
bits are held they are written as a unit. -/
def DecodeState.pushRank (st : DecodeState) (rank : UInt8) : DecodeState :=
  let v := (st.v <<< 6) ||| rank.toUInt32
  let bits := st.bits + 6
  if bits ≥ 16 then
    { st with
      v := v
      bits := bits - 16
      bytes := st.bytes ++ [((v >>> (bits - 16).toUInt32) &&& 0xffff).toUInt16] }
  else { st with v := v, bits := bits }

-- the equations of `pushRank` are made once, here, before the proofs that unfold it
section
attribute [local simp] DecodeState.pushRank.eq_def
end

@[simp] theorem DecodeState.pushRank_shifted (st : DecodeState) (rank : UInt8) :
    (st.pushRank rank).shifted = st.shifted := by
  unfold DecodeState.pushRank
  dsimp only
  split <;> rfl

theorem DecodeState.pushRank_bytes_of_le {st : DecodeState} {rank : UInt8} (h : 16 ≤ st.bits + 6) :
    (st.pushRank rank).bytes = st.bytes ++
      [((((st.v <<< 6) ||| rank.toUInt32) >>> (st.bits + 6 - 16).toUInt32) &&& 0xffff).toUInt16] := by
  unfold DecodeState.pushRank
  dsimp only
  rw [if_pos h]

/-- The loop of `utf7_decode` over the characters: the state after the last one, or `none` where
the source returns `None`. -/
def decodeChars (st : DecodeState) : List Char → Option DecodeState
  | [] => some st
  | ch :: rest =>
    if st.shifted then
      if ch = '-' then decodeChars { st with shifted := false, bits := 0, v := 0 } rest
      else if ch.toNat > 127 then none
      else match utf7Rank[ch.toNat]? with
        | none => none
        | some rank => if rank = 0xff then none else decodeChars (st.pushRank rank) rest
    else if ch = '&' then
      -- `text.peek()`: `&-` is an `&`, and `&` before anything else opens a shifted run
      match rest with
      | '-' :: rest => decodeChars { st with bytes := st.bytes ++ [38] } rest
      | next :: rest => decodeChars { st with shifted := true } (next :: rest)
      | [] => decodeChars { st with bytes := st.bytes ++ [ch.toNat.toUInt16] } []
    else decodeChars { st with bytes := st.bytes ++ [ch.toNat.toUInt16] } rest

-- the equations of `decodeChars` are made once, here, before the proofs that unfold it
section
attribute [local simp] decodeChars
end

section DecodeEquations

variable {st : DecodeState} (rest : List Char)

theorem decodeChars_shifted (hD : st.shifted = true) (ch : Char) :
    decodeChars st (ch :: rest) =
      if ch = '-' then decodeChars { st with shifted := false, bits := 0, v := 0 } rest
      else if ch.toNat > 127 then none
      else match utf7Rank[ch.toNat]? with
        | none => none
        | some rank => if rank = 0xff then none else decodeChars (st.pushRank rank) rest := by
  rw [decodeChars.eq_def]
  simp only [hD, if_true]

theorem decodeChars_unshifted (hD : st.shifted = false) {ch : Char} (hch : ch ≠ '&') :
    decodeChars st (ch :: rest) = decodeChars { st with bytes := st.bytes ++ [ch.toNat.toUInt16] } rest := by
  rw [decodeChars.eq_def]
  simp only [hD, Bool.false_eq_true, if_false, if_neg hch]

theorem decodeChars_escape (hD : st.shifted = false) :
    decodeChars st ('&' :: '-' :: rest) = decodeChars { st with bytes := st.bytes ++ [38] } rest := by
  rw [decodeChars.eq_def]
  simp only [hD, Bool.false_eq_true, if_false, if_true]

theorem decodeChars_open (hD : st.shifted = false) {c : Char} (hc : c ≠ '-') :
    decodeChars st ('&' :: c :: rest) = decodeChars { st with shifted := true } (c :: rest) := by
  rw [decodeChars.eq_def]
  -- the arm `'-' :: rest` of the peek is ruled out by `hc`
  simp only [hD, Bool.false_eq_true, if_false, if_true]

end DecodeEquations

/-- `utf7_decode`. -/
def utf7Decode (text : String) : Option String :=
  (decodeChars ⟨[], 0, 0, false⟩ text.toList).bind fun st =>
    (Utf16.decode st.bytes).map String.ofList

/-! ## `utf7_encode` -/

/-- The locals of `utf7_encode`'s loop. -/
structure EncodeState where
  result : List Char
  shifted : Bool
  bits : Nat
  u : UInt32

/-- The inner `while bits >= 6` loop: the six-bit groups of the `bits` pending bits of `u`, top
first, and the count of bits left over. -/
def emitGroups (u : UInt32) : Nat → List Char → List Char × Nat
  | bits + 6, result => emitGroups u bits (result ++ [mapChar ((u >>> bits.toUInt32) &&& 0x3f)])
  | bits, result => (result, bits)

/-- Leaving a shifted run: the last bits, padded with zeros to a group, then `-`. The source
writes this twice, before a printable unit and at the end. -/
def closeShift (u : UInt32) (bits : Nat) (result : List Char) : List Char :=
  (if bits > 0 then result ++ [mapChar ((u <<< (6 - bits).toUInt32) &&& 0x3f)] else result) ++
    ['-']

/-- A printable unit: `&` as `&-`, and any other as the character `(ch as u8) as char`. -/
def literal (ch : UInt16) : List Char :=
  if ch = 0x26 then ['&', '-'] else [Char.ofUInt8 ch.toUInt8]

/-- One unit of the loop `for ch in text.encode_utf16()`. -/
def encodeUnit (st : EncodeState) (ch : UInt16) : EncodeState :=
  if 0x20 ≤ ch ∧ ch < 0x7f then
    let st := if st.shifted then
      { st with result := closeShift st.u st.bits st.result, shifted := false, bits := 0 }
      else st
    { st with result := st.result ++ literal ch }
  else
    let st := if st.shifted then st else { st with result := st.result ++ ['&'], shifted := true }
    let u := (st.u <<< 16) ||| ch.toUInt32
    let groups := emitGroups u (st.bits + 16) st.result
    { st with result := groups.1, bits := groups.2, u := u }

-- the equations of `literal` and `encodeUnit` are made once, here, before the proofs that unfold
-- them
section
attribute [local simp] literal literal.eq_def encodeUnit.eq_def
end

section EncodeEquations

variable {E : EncodeState} {ch : UInt16}

theorem encodeUnit_of_printable (h : 0x20 ≤ ch ∧ ch < 0x7f) :
    encodeUnit E ch =
      { result := (if E.shifted then closeShift E.u E.bits E.result else E.result) ++ literal ch
        shifted := false
        bits := if E.shifted then 0 else E.bits
        u := E.u } := by
  obtain ⟨result, shifted, bits, u⟩ := E
  unfold encodeUnit
  rw [if_pos h]
  cases shifted <;> rfl

theorem encodeUnit_of_not_printable (h : ¬ (0x20 ≤ ch ∧ ch < 0x7f)) :
    encodeUnit E ch =
      let u := (E.u <<< 16) ||| ch.toUInt32
      let groups := emitGroups u (E.bits + 16) (if E.shifted then E.result else E.result ++ ['&'])
      { result := groups.1, shifted := true, bits := groups.2, u := u } := by
  obtain ⟨result, shifted, bits, u⟩ := E
  unfold encodeUnit
  rw [if_neg h]
  cases shifted <;> rfl

end EncodeEquations

/-- The state after the loop of `utf7_encode`. -/
def encodeUnits (units : List UInt16) : EncodeState :=
  units.foldl encodeUnit ⟨[], false, 0, 0⟩

/-- `utf7_encode`. -/
def utf7Encode (text : String) : String :=
  let st := encodeUnits (Utf16.encode text.toList)
  String.ofList (if st.shifted then closeShift st.u st.bits st.result else st.result)

/-- The source's test `Hi Mom -☺-!`, on its last three characters: `☺` is the unit `0x263A`, two
groups and a padded third. -/
example : (encodeUnits (Utf16.encode ['-', '☺', '-'])).result = ['-', '&', 'J', 'j', 'o', '-', '-'] := by
  decide

/-! ## The alphabet -/

/-- What the encoder writes: printable ASCII. -/
def Printable (c : Char) : Prop :=
  0x20 ≤ c.toNat ∧ c.toNat ≤ 0x7e

instance (c : Char) : Decidable (Printable c) :=
  inferInstanceAs (Decidable (_ ∧ _))

theorem printable_of_mem_utf7Map : ∀ c ∈ utf7Map, Printable c := by
  simpa using (by decide : (utf7Map.all fun c => decide (Printable c)) = true)

theorem mapChar_mem (i : UInt32) : mapChar i ∈ utf7Map := by
  rw [mapChar, List.getD_eq_getElem?_getD]
  cases h : utf7Map[i.toNat]? with
  | none => decide
  | some c => exact List.mem_of_getElem? h

/-- The two tables agree: the rank of the character at `n` is `n`, and no character of the
alphabet is `-` or beyond ASCII. -/
theorem utf7Rank_mapChar : ∀ n < 64, utf7Rank[(utf7Map.getD n 'A').toNat]? = some n.toUInt8 ∧
    utf7Map.getD n 'A' ≠ '-' ∧ (utf7Map.getD n 'A').toNat ≤ 127 := by
  decide

theorem toNat_toUInt8_of_lt {n : Nat} (h : n < 64) : n.toUInt8.toNat = n :=
  UInt8.toNat_ofNat_of_lt' (Nat.lt_trans h (by decide))

theorem toNat_toUInt32_of_lt {n : Nat} (h : n < 32) : n.toUInt32.toNat = n :=
  UInt32.toNat_ofNat_of_lt' (Nat.lt_trans h (by decide))

/-! ## The decoder, a run of characters at a time -/

/-- Reading `out` takes the decoder from `D` to `D'`, whatever follows. -/
def Consumes (D : DecodeState) (out : List Char) (D' : DecodeState) : Prop :=
  ∀ rest, decodeChars D (out ++ rest) = decodeChars D' rest

section Consumes

variable {D D₁ D₂ : DecodeState} {a b : List Char}

theorem Consumes.trans (h₁ : Consumes D a D₁) (h₂ : Consumes D₁ b D₂) : Consumes D (a ++ b) D₂ := by
  intro rest
  rw [List.append_assoc, h₁, h₂]

/-- A printable unit, outside a shifted run. -/
theorem consumes_literal (hD : D.shifted = false) {ch : UInt16} (hch : 0x20 ≤ ch ∧ ch < 0x7f) :
    Consumes D (literal ch) { D with bytes := D.bytes ++ [ch] } := by
  intro rest
  have hlt : ch.toNat < 0x7f := UInt16.lt_iff_toNat_lt.mp hch.2
  by_cases hamp : ch = 0x26
  · subst hamp
    rw [literal, if_pos rfl, List.cons_append, List.cons_append, List.nil_append,
      decodeChars_escape _ hD]
  · have hchar : (Char.ofUInt8 ch.toUInt8).toNat = ch.toNat := by
      show ch.toUInt8.toNat = ch.toNat
      rw [UInt16.toNat_toUInt8]
      omega
    have hne : Char.ofUInt8 ch.toUInt8 ≠ '&' := by
      intro heq
      have h38 := congrArg Char.toNat heq
      rw [hchar] at h38
      exact hamp (UInt16.toNat_inj.mp h38)
    have hunit : (Char.ofUInt8 ch.toUInt8).toNat.toUInt16 = ch := by
      rw [hchar]
      exact UInt16.ofNat_toNat
    rw [literal, if_neg hamp, List.singleton_append, decodeChars_unshifted _ hD hne, hunit]

/-- The `-` that ends a shifted run. -/
theorem consumes_close (hD : D.shifted = true) :
    Consumes D ['-'] { D with shifted := false, bits := 0, v := 0 } := by
  intro rest
  rw [List.singleton_append, decodeChars_shifted _ hD, if_pos rfl]

/-- A character of the alphabet, inside a shifted run. -/
theorem consumes_group (hD : D.shifted = true) {i : UInt32} (hi : i.toNat < 64) :
    Consumes D [mapChar i] (D.pushRank i.toNat.toUInt8) := by
  intro rest
  obtain ⟨hrank, hdash, hascii⟩ := utf7Rank_mapChar i.toNat hi
  have hff : i.toNat.toUInt8 ≠ 0xff := by
    intro heq
    have h := congrArg UInt8.toNat heq
    rw [toNat_toUInt8_of_lt hi, show (0xff : UInt8).toNat = 255 from rfl] at h
    omega
  rw [List.singleton_append, mapChar, decodeChars_shifted _ hD, if_neg hdash,
    if_neg (show ¬ (utf7Map.getD i.toNat 'A').toNat > 127 by omega), hrank]
  simp only [if_neg hff]

/-- The `&` that opens a shifted run, before its first group. -/
theorem consumes_open (hD : D.shifted = false) {c : Char} (hc : c ≠ '-')
    (h : Consumes { D with shifted := true } (c :: a) D₁) : Consumes D ('&' :: c :: a) D₁ := by
  intro rest
  rw [← h rest, List.cons_append, List.cons_append, decodeChars_open _ hD hc]

end Consumes

/-! ## The two accumulators -/

/-- The low `bits + 6` bits of `v` after a group: the old `bits`, then the group's six. -/
theorem lowBits_pushRank (v : UInt32) {bits : Nat} {rank : UInt8} (hj : bits < 16)
    (hrank : rank.toNat < 2 ^ 6) :
    ((v <<< 6) ||| rank.toUInt32).toNat % 2 ^ (bits + 6) = v.toNat % 2 ^ bits * 2 ^ 6 + rank.toNat := by
  have h6 := shiftLeft_or_low_bits v rank.toUInt32 6 bits (by decide)
    (by rw [UInt8.toNat_toUInt32]; exact hrank) (by simp; omega)
  rwa [show (6 : UInt32).toNat = 6 from rfl, UInt8.toNat_toUInt32] at h6

/-- The unit the decoder writes: the top sixteen of its `bits + 6` pending bits. -/
theorem toNat_emitted (v : UInt32) {bits : Nat} (h16 : 16 ≤ bits + 6) (hj : bits < 16) :
    ((v >>> (bits + 6 - 16).toUInt32) &&& 0xffff).toUInt16.toNat =
      v.toNat % 2 ^ (bits + 6) / 2 ^ (bits + 6 - 16) := by
  have hshift : (bits + 6 - 16).toUInt32.toNat = bits + 6 - 16 := toNat_toUInt32_of_lt (by omega)
  rw [UInt32.toNat_toUInt16, shiftRight_and_mask v _ 0xffff 16 (by rw [hshift]; omega) rfl,
    hshift, Nat.mod_mod_of_dvd _ (by decide),
    show 2 ^ (bits + 6) = 2 ^ (bits + 6 - 16) * 2 ^ 16 by rw [← Nat.pow_add, Nat.sub_add_cancel h16],
    Nat.mod_mul_right_div_self]

/-- Between them the decoder and the encoder hold the units the encoder has read and the decoder
has not yet written: the decoder's `D.bits` pending bits of `v`, followed by the encoder's `k`
pending bits of `u`. -/
def Pending (units : List UInt16) (D : DecodeState) (u : UInt32) (k : Nat) : Prop :=
  Split UInt16.toNat 16 units D.bytes D.bits (D.v.toNat % 2 ^ D.bits) k (u.toNat % 2 ^ k)

section Pending

variable {units : List UInt16} {D : DecodeState} {u : UInt32} {k : Nat}

/-- The encoder reads a unit into `u`. -/
theorem Pending.push (hk : k ≤ 16) (ch : UInt16) (h : Pending units D u k) :
    Pending (units ++ [ch]) D ((u <<< 16) ||| ch.toUInt32) (k + 16) := by
  have hlow : ((u <<< 16) ||| ch.toUInt32).toNat % 2 ^ (k + 16) =
      u.toNat % 2 ^ k * 2 ^ 16 + ch.toNat := by
    have h16 := shiftLeft_or_low_bits u ch.toUInt32 16 k (by decide)
      (by rw [UInt16.toNat_toUInt32]; exact UInt16.toNat_lt ch) (by simpa using hk)
    rwa [show (16 : UInt32).toNat = 16 from rfl, UInt16.toNat_toUInt32] at h16
  unfold Pending
  rw [hlow]
  exact Split.push ch h

/-- The decoder reads the group of the top six of the encoder's bits. -/
theorem Pending.pushRank (hj : D.bits < 16) {rank : UInt8}
    (hrank : rank.toNat = u.toNat % 2 ^ (k + 6) / 2 ^ k) (h : Pending units D u (k + 6)) :
    Pending units (D.pushRank rank) u k ∧ (D.pushRank rank).bits < 16 := by
  have hmove := Split.move 6 h
  have hlowu : u.toNat % 2 ^ (k + 6) % 2 ^ k = u.toNat % 2 ^ k :=
    Nat.mod_mod_of_dvd _ (Nat.pow_dvd_pow 2 (by omega))
  rw [← hrank, hlowu] at hmove
  -- the low `D.bits + 6` bits of the new `v`: the old ones, then the rank
  set v := (D.v <<< 6) ||| rank.toUInt32 with hv
  have hrank64 : rank.toNat < 2 ^ 6 := by
    rw [hrank]
    apply Nat.div_lt_of_lt_mul
    rw [← Nat.pow_add]
    exact Nat.mod_lt _ (Nat.two_pow_pos _)
  rw [← lowBits_pushRank D.v hj hrank64, ← hv] at hmove
  unfold DecodeState.pushRank
  simp only [← hv]
  split_ifs with h16
  · -- a unit is complete: it is the top sixteen of the decoder's bits
    obtain ⟨x, hx, hsplit⟩ := hmove.emit (by decide) UInt16.toNat_lt
      (Nat.mod_lt _ (Nat.two_pow_pos _)) (by omega)
    have hunit : ((v >>> (D.bits + 6 - 16).toUInt32) &&& 0xffff).toUInt16 = x :=
      UInt16.toNat_inj.mp (by rw [toNat_emitted v h16 hj, hx])
    have hlow' : v.toNat % 2 ^ (D.bits + 6) % 2 ^ (D.bits + 6 - 16) =
        v.toNat % 2 ^ (D.bits + 6 - 16) :=
      Nat.mod_mod_of_dvd _ (Nat.pow_dvd_pow 2 (by omega))
    rw [hlow', ← hunit] at hsplit
    exact ⟨hsplit, by simp only; omega⟩
  · exact ⟨hmove, by simp only; omega⟩

end Pending

/-! ## The encoder's steps, as the decoder reads them -/

/-- The encoder and the decoder after the same units. -/
structure Synced (units : List UInt16) (E : EncodeState) (D : DecodeState) : Prop where
  shifted : D.shifted = E.shifted
  encBits : E.bits < 6
  decBits : D.bits < 16
  closed : E.shifted = false → E.bits = 0 ∧ D.bits = 0
  pending : Pending units D E.u E.bits

/-- The inner loop writes groups of the alphabet that the decoder reads back into its own
accumulator, and leaves fewer than six bits. -/
theorem consumes_emitGroups (u : UInt32) (k : Nat) (result : List Char) :
    ∀ {units : List UInt16} {D : DecodeState}, D.shifted = true → D.bits < 16 → k ≤ 21 →
      Pending units D u k →
      ∃ out D', (emitGroups u k result).1 = result ++ out ∧ Consumes D out D' ∧
        D'.shifted = true ∧ D'.bits < 16 ∧ (emitGroups u k result).2 < 6 ∧
        Pending units D' u (emitGroups u k result).2 ∧ (∀ c ∈ out, c ∈ utf7Map) ∧
        (6 ≤ k → ∃ c rest, out = c :: rest) := by
  induction k, result using emitGroups.induct u with
  | case1 bits result ih =>
    intro units D hD hj hk hP
    -- the group of the top six bits, read back by the decoder
    set g := (u >>> bits.toUInt32) &&& 0x3f with hg
    have hshift : bits.toUInt32.toNat = bits := toNat_toUInt32_of_lt (by omega)
    have hgval : g.toNat = u.toNat % 2 ^ (bits + 6) / 2 ^ bits := by
      rw [hg, shiftRight_and_mask u _ 0x3f 6 (by omega) rfl, hshift, Nat.pow_add,
        Nat.mod_mul_right_div_self]
    have hg64 : g.toNat < 64 := by
      rw [hg, shiftRight_and_mask u _ 0x3f 6 (by omega) rfl]
      exact Nat.mod_lt _ (by decide)
    have hrank : g.toNat.toUInt8.toNat = u.toNat % 2 ^ (bits + 6) / 2 ^ bits := by
      rw [toNat_toUInt8_of_lt hg64, hgval]
    obtain ⟨hP', hj'⟩ := Pending.pushRank hj hrank hP
    obtain ⟨out, D', hres, hcons, hD', hj'', hbits, hP'', hmem, -⟩ :=
      ih (by rw [DecodeState.pushRank_shifted, hD])
        hj' (by omega) hP'
    refine ⟨mapChar g :: out, D', ?_, ?_, hD', hj'', ?_, hP'', ?_, fun _ => ⟨_, _, rfl⟩⟩
    · rw [emitGroups, hres, List.append_assoc, List.singleton_append]
    · exact (consumes_group hD hg64).trans hcons
    · rwa [emitGroups]
    · intro c hc
      rcases List.mem_cons.mp hc with rfl | hc
      · exact mapChar_mem g
      · exact hmem c hc
  | case2 bits result hlt =>
    intro units D hD hj hk hP
    have hsmall : bits < 6 := by
      by_contra hge
      exact hlt (bits - 6) (by omega)
    refine ⟨[], D, ?_, fun _ => rfl, hD, hj, ?_, ?_, by simp, fun h => absurd h (by omega)⟩
    all_goals simp only [emitGroups, List.append_nil]
    · exact hsmall
    · exact hP

/-- Leaving a shifted run: the decoder writes the last unit from the padded group and drops the
padding at the `-`. -/
theorem consumes_closeShift {units : List UInt16} {D : DecodeState} {u : UInt32} {k : Nat}
    (result : List Char) (hD : D.shifted = true) (hj : D.bits < 16) (hk : k < 6)
    (hP : Pending units D u k) :
    ∃ out, closeShift u k result = result ++ out ∧ Consumes D out ⟨units, 0, 0, false⟩ ∧
      ∀ c ∈ out, Printable c := by
  by_cases hzero : k = 0
  · -- no bits pending on the encoder's side: the decoder has written every unit
    subst hzero
    have hunits : units = D.bytes := hP.eq_of_lt hj
    refine ⟨['-'], by simp [closeShift], ?_, List.forall_mem_singleton.mpr (by decide)⟩
    rw [hunits]
    exact consumes_close hD
  · -- the last unit: the decoder's bits followed by the encoder's
    obtain ⟨x, hunits, hx, hjk⟩ := hP.eq_append_of_lt (by omega) (by omega)
    set g := (u <<< (6 - k).toUInt32) &&& 0x3f with hg
    have hshift : (6 - k).toUInt32.toNat = 6 - k := toNat_toUInt32_of_lt (by omega)
    have hgval : g.toNat = u.toNat % 2 ^ k * 2 ^ (6 - k) := by
      rw [hg, shiftLeft_and_mask u _ 0x3f 6 (by omega) (by omega) (by omega) rfl, hshift,
        show 6 - (6 - k) = k by omega]
    have hg64 : g.toNat < 64 := by
      rw [hg, shiftLeft_and_mask u _ 0x3f 6 (by omega) (by omega) (by omega) rfl, hshift]
      calc u.toNat % 2 ^ (6 - (6 - k)) * 2 ^ (6 - k) < 2 ^ (6 - (6 - k)) * 2 ^ (6 - k) :=
            Nat.mul_lt_mul_of_pos_right (Nat.mod_lt _ (Nat.two_pow_pos _)) (Nat.two_pow_pos _)
        _ = 64 := by rw [← Nat.pow_add, show 6 - (6 - k) + (6 - k) = 6 by omega]
    -- the decoder reads the padded group: it now holds the unit followed by the padding
    set D₁ := D.pushRank g.toNat.toUInt8 with hD₁
    have hrank : (g.toNat.toUInt8).toNat = g.toNat := by
      rw [toNat_toUInt8_of_lt hg64]
    have hbytes : D₁.bytes = units := by
      have h16 : 16 ≤ D.bits + 6 := by omega
      rw [hD₁, DecodeState.pushRank_bytes_of_le h16, hunits]
      congr 2
      apply UInt16.toNat_inj.mp
      rw [toNat_emitted _ h16 hj, lowBits_pushRank _ hj (by rw [hrank]; exact hg64), hrank, hgval,
        hx, show D.bits + 6 - 16 = 6 - k by omega]
      -- the padding is the low `6 - k` bits, and the decoder drops them
      rw [show (2 : Nat) ^ 6 = 2 ^ k * 2 ^ (6 - k) by rw [← Nat.pow_add, Nat.add_sub_cancel' hk.le],
        ← Nat.mul_assoc, ← Nat.add_mul, Nat.mul_div_cancel _ (Nat.two_pow_pos _)]
    refine ⟨[mapChar g, '-'], ?_, ?_, ?_⟩
    · rw [closeShift, if_pos (Nat.pos_of_ne_zero hzero), List.append_assoc]
      rfl
    · have hD₁shifted : D₁.shifted = true := by rw [hD₁, DecodeState.pushRank_shifted, hD]
      have hcons : Consumes D ([mapChar g] ++ ['-']) { D₁ with shifted := false, bits := 0, v := 0 } :=
        (consumes_group hD hg64).trans (consumes_close hD₁shifted)
      rw [show (⟨units, 0, 0, false⟩ : DecodeState) =
        { D₁ with shifted := false, bits := 0, v := 0 } by rw [← hbytes]]
      exact hcons
    · intro c hc
      rcases List.mem_pair.mp hc with rfl | rfl
      · exact printable_of_mem_utf7Map _ (mapChar_mem g)
      · decide

/-- Nothing pending: the decoder has written every unit the encoder has read. -/
theorem Pending.of_bytes {units : List UInt16} {D : DecodeState} (u : UInt32) (hunits : units = D.bytes)
    (hj : D.bits = 0) : Pending units D u 0 := by
  unfold Pending
  rw [hj, hunits, Nat.pow_zero, Nat.mod_one, Nat.mod_one]
  exact split_nil D.bytes

theorem synced_init : Synced [] ⟨[], false, 0, 0⟩ ⟨[], 0, 0, false⟩ :=
  ⟨rfl, by decide, by decide, fun _ => ⟨rfl, rfl⟩, Pending.of_bytes 0 rfl rfl⟩

/-- Leaving the shifted run, if the encoder is in one: the decoder has then written every unit. -/
theorem Synced.close {units : List UInt16} {E : EncodeState} {D : DecodeState}
    (hS : Synced units E D) :
    ∃ tail D₁, (if E.shifted then closeShift E.u E.bits E.result else E.result) = E.result ++ tail ∧
      Consumes D tail D₁ ∧ D₁.shifted = false ∧ D₁.bits = 0 ∧ D₁.bytes = units ∧
      ∀ c ∈ tail, Printable c := by
  cases hsh : E.shifted
  · -- outside a run nothing is pending
    obtain ⟨hk, hj⟩ := hS.closed hsh
    have hP : Pending units D E.u 0 := hk ▸ hS.pending
    refine ⟨[], D, by simp, fun _ => rfl, hS.shifted.trans hsh, hj, (hP.eq_of_lt (by omega)).symm,
      by simp⟩
  · obtain ⟨out, hout, hcons, hprint⟩ :=
      consumes_closeShift E.result (hS.shifted.trans hsh) hS.decBits hS.encBits hS.pending
    exact ⟨out, _, by rw [if_pos rfl, hout], hcons, rfl, rfl, rfl, hprint⟩

/-- **One unit.** The decoder reads what the encoder writes for a unit back to a state synced
with the encoder's, and what the encoder writes is printable. -/
theorem synced_encodeUnit {units : List UInt16} {E : EncodeState} {D : DecodeState}
    (hS : Synced units E D) (ch : UInt16) :
    ∃ out D', (encodeUnit E ch).result = E.result ++ out ∧ Consumes D out D' ∧
      Synced (units ++ [ch]) (encodeUnit E ch) D' ∧ ∀ c ∈ out, Printable c := by
  by_cases hdirect : 0x20 ≤ ch ∧ ch < 0x7f
  · -- printable: leave the shifted run, then the unit as itself
    obtain ⟨tail, D₁, htail, hcons, hD₁, hj₁, hbytes₁, hprint⟩ := hS.close
    have hbits : (if E.shifted then 0 else E.bits) = 0 := by
      cases hsh : E.shifted
      · exact (hS.closed hsh).1
      · rfl
    refine ⟨tail ++ literal ch, { D₁ with bytes := D₁.bytes ++ [ch] }, ?_,
      hcons.trans (consumes_literal hD₁ hdirect), ?_, ?_⟩
    · rw [encodeUnit_of_printable hdirect, htail, List.append_assoc]
    · rw [encodeUnit_of_printable hdirect]
      refine ⟨hD₁, by simp only [hbits]; decide, by simp only [hj₁]; decide,
        fun _ => ⟨hbits, hj₁⟩, ?_⟩
      simp only [hbits]
      exact Pending.of_bytes _ (by rw [hbytes₁]) hj₁
    · intro c hc
      rcases List.mem_append.mp hc with hc | hc
      · exact hprint c hc
      · -- `&-`, or a printable unit as itself
        unfold literal at hc
        split_ifs at hc with hamp
        · rcases List.mem_pair.mp hc with rfl | rfl <;> decide
        · rw [List.mem_singleton] at hc
          subst hc
          have hlt : ch.toNat < 0x7f := UInt16.lt_iff_toNat_lt.mp hdirect.2
          have hge : 0x20 ≤ ch.toNat := UInt16.le_iff_toNat_le.mp hdirect.1
          show 0x20 ≤ ch.toUInt8.toNat ∧ ch.toUInt8.toNat ≤ 0x7e
          rw [UInt16.toNat_toUInt8]
          omega
  · -- not printable: open a run if needed, then the groups of the unit
    set u := (E.u <<< 16) ||| ch.toUInt32 with hu
    cases hsh : E.shifted
    · -- opening a run: nothing was pending
      obtain ⟨hk, hj⟩ := hS.closed hsh
      have hunits : units = D.bytes :=
        ((hk ▸ hS.pending : Pending units D E.u 0).eq_of_lt (by omega))
      have hP₀ : Pending units { D with shifted := true } E.u 0 := Pending.of_bytes E.u hunits hj
      have hP : Pending (units ++ [ch]) { D with shifted := true } u 16 := hP₀.push (by decide) ch
      obtain ⟨out, D', hres, hcons, hD', hj', hbits, hP', hmem, hne⟩ :=
        consumes_emitGroups u 16 (E.result ++ ['&']) rfl (by simp only; omega) (by decide) hP
      obtain ⟨c, rest, rfl⟩ := hne (by decide)
      have hc : c ≠ '-' := fun h => by
        have := hmem c List.mem_cons_self
        rw [h] at this
        exact absurd this (by decide)
      refine ⟨'&' :: c :: rest, D', ?_, consumes_open (hS.shifted.trans hsh) hc hcons, ?_, ?_⟩
      · rw [encodeUnit_of_not_printable hdirect]
        simp only [hsh, hk, Nat.zero_add, Bool.false_eq_true, if_false, ← hu, hres,
          List.append_assoc, List.singleton_append]
      · rw [encodeUnit_of_not_printable hdirect]
        simp only [hsh, hk, Nat.zero_add, Bool.false_eq_true, if_false, ← hu]
        exact ⟨hD', hbits, hj', fun h => absurd h (by simp), hP'⟩
      · intro d hd
        rcases List.mem_cons.mp hd with rfl | hd
        · decide
        · exact printable_of_mem_utf7Map d (hmem d hd)
    · -- inside a run: the unit joins the pending bits
      have hP : Pending (units ++ [ch]) D u (E.bits + 16) :=
        hS.pending.push (by have := hS.encBits; omega) ch
      obtain ⟨out, D', hres, hcons, hD', hj', hbits, hP', hmem, -⟩ :=
        consumes_emitGroups u (E.bits + 16) E.result (hS.shifted.trans hsh) hS.decBits
          (by have := hS.encBits; omega) hP
      refine ⟨out, D', ?_, hcons, ?_, fun c hc => printable_of_mem_utf7Map c (hmem c hc)⟩
      · rw [encodeUnit_of_not_printable hdirect]
        simp only [hsh, if_true, ← hu, hres]
      · rw [encodeUnit_of_not_printable hdirect]
        simp only [hsh, if_true, ← hu]
        exact ⟨hD', hbits, hj', fun h => absurd h (by simp), hP'⟩

/-- **The whole loop**, by induction on the units: the decoder reads what the encoder has written
back to a state synced with the encoder's. -/
theorem synced_encodeUnits (us : List UInt16) :
    ∀ {units : List UInt16} {E : EncodeState} {D : DecodeState}, Synced units E D →
      Consumes ⟨[], 0, 0, false⟩ E.result D → (∀ c ∈ E.result, Printable c) →
      ∃ D', Synced (units ++ us) (us.foldl encodeUnit E) D' ∧
        Consumes ⟨[], 0, 0, false⟩ (us.foldl encodeUnit E).result D' ∧
        ∀ c ∈ (us.foldl encodeUnit E).result, Printable c := by
  induction us with
  | nil =>
    intro units E D hS hcons hprint
    exact ⟨D, by rwa [List.append_nil], hcons, hprint⟩
  | cons ch us ih =>
    intro units E D hS hcons hprint
    obtain ⟨out, D', hres, hcons', hS', hprint'⟩ := synced_encodeUnit hS ch
    have hall : ∀ c ∈ (encodeUnit E ch).result, Printable c := by
      rw [hres]
      intro c hc
      rcases List.mem_append.mp hc with hc | hc
      · exact hprint c hc
      · exact hprint' c hc
    obtain ⟨D'', hS'', hcons'', hprint''⟩ :=
      ih hS' (by rw [hres]; exact hcons.trans hcons') hall
    refine ⟨D'', ?_, hcons'', hprint''⟩
    rwa [List.append_assoc, List.singleton_append] at hS''

theorem utf7_round_trip (s : String) :
    utf7Decode (utf7Encode s) = some s ∧
      ∀ c ∈ (utf7Encode s).toList, 0x20 ≤ c.toNat ∧ c.toNat ≤ 0x7e := by
  obtain ⟨D, hS, hcons, hprint⟩ :=
    synced_encodeUnits (Utf16.encode s.toList) synced_init (fun _ => rfl) (by simp)
  obtain ⟨tail, D₁, htail, hcons₁, -, -, hbytes₁, hprint₁⟩ := hS.close
  have hout : (utf7Encode s).toList = (encodeUnits (Utf16.encode s.toList)).result ++ tail := by
    rw [utf7Encode, String.toList_ofList]
    exact htail
  have hdec : decodeChars ⟨[], 0, 0, false⟩ (utf7Encode s).toList = some D₁ := by
    rw [hout, encodeUnits, hcons tail, ← List.append_nil tail, hcons₁ []]
    rfl
  refine ⟨?_, ?_⟩
  · rw [utf7Decode, hdec, Option.bind_some, hbytes₁, List.nil_append, Utf16.decode_encode]
    simp
  · intro c hc
    rw [hout] at hc
    rcases List.mem_append.mp hc with hc | hc
    · exact hprint c hc
    · exact hprint₁ c hc

end Stalwart.Imap.Proto
