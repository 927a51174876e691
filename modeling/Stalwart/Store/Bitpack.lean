import Stalwart.Utils.Leb128

/-!
# Bit-packed sorted numbers (`store::write::bitpack`)

`KeySerializer::bitpack_sorted` writes a strictly increasing list of 32-bit numbers. It writes
their count in LEB128, then blocks through the `bitpacking` crate while 32 numbers or more are
left: 32, 128 or 256 numbers a block, each block as the bits a number takes there and the packed
bytes. The last numbers go in LEB128. `BitpackIterator` reads them back one at a time.

The crate is outside this model. `BlockPacker` is its three functions at a block length, and
`BlockPacker.Lawful` is what `bitpack_sorted` relies on of them: a strictly increasing block
packs to `num_bits * block_len / 8` bytes, and those bytes unpack to it. `wordPacker`, which
stores each number in four bytes, meets it.

## What is proved

With a lawful packer, the iterator gives back the numbers `bitpack_sorted` wrote, whatever
bytes follow them (`toList_bitpackSorted`). The proof follows the writer's loop: a number in
LEB128 is one step of the iterator (`next_leb`), and a block is one step that unpacks it
(`next_block`) followed by steps through it (`toList_chunk`).

The count is written as `len as u32`. Below `2 ^ 32` numbers the iterator starts with the count of
the list and reads the list back whole (`bitpack_round_trip`); the `2 ^ 32` numbers of `u32` in
order are counted as `0` and read back as no number at all (`bitpack_count_wraps`).
-/

set_option autoImplicit false

namespace Stalwart.Store

open Stalwart.Utils.Leb128 (toLeb128Bytes nextLeb128 nextLeb128_u32_toLeb128Bytes)

/-- The `bitpacking` crate's strictly sorted block packer: the bits a block takes after the last
number of the block before, the bytes it packs to, and the block of a given length read back
from bytes. -/
structure BlockPacker where
  numBits : Option Nat → List Nat → UInt8
  compress : Option Nat → List Nat → UInt8 → List UInt8
  decompress : Nat → Option Nat → List UInt8 → UInt8 → List Nat

/-- A block the crate packs: 32, 128 or 256 numbers of 32 bits, strictly increasing from the last
number of the block before. -/
def BlockPacker.Packable (initial : Option Nat) (chunk : List Nat) : Prop :=
  chunk.length ∈ [32, 128, 256] ∧ (initial.toList ++ chunk).Pairwise (· < ·) ∧
    ∀ x ∈ chunk, x < 2 ^ 32

/-- What `bitpack_sorted` and the iterator rely on of the crate. -/
structure BlockPacker.Lawful (packer : BlockPacker) : Prop where
  length_compress : ∀ initial chunk, BlockPacker.Packable initial chunk →
    (packer.compress initial chunk (packer.numBits initial chunk)).length =
      (packer.numBits initial chunk).toNat * chunk.length / 8
  decompress_compress : ∀ initial chunk, BlockPacker.Packable initial chunk →
    packer.decompress chunk.length initial
      (packer.compress initial chunk (packer.numBits initial chunk))
      (packer.numBits initial chunk) = chunk

/-! ## Writing -/

/-- The length of the next block when `left` numbers, 32 or more, are still to pack. -/
def blockLen (left : Nat) : Nat :=
  if left ≤ 127 then 32 else if left ≤ 255 then 128 else 256

theorem blockLen_le {left : Nat} (h : 31 < left) : blockLen left ≤ left := by
  unfold blockLen
  split_ifs <;> omega

theorem blockLen_pos (left : Nat) : 0 < blockLen left := by
  unfold blockLen
  split_ifs <;> omega

theorem blockLen_mem (left : Nat) : blockLen left ∈ [32, 128, 256] := by
  unfold blockLen
  split_ifs <;> simp

/-- The loop of `bitpack_sorted`: blocks while 32 numbers are left, then LEB128 numbers. -/
def bitpackBlocks (packer : BlockPacker) (initial : Option Nat) (items : List Nat) :
    List UInt8 :=
  if _h : items.length ≤ 31 then items.flatMap toLeb128Bytes
  else
    let chunk := items.take (blockLen items.length)
    let numBits := packer.numBits initial chunk
    numBits :: (packer.compress initial chunk numBits ++
      bitpackBlocks packer chunk.getLast? (items.drop (blockLen items.length)))
termination_by items.length
decreasing_by
  have := blockLen_pos items.length
  simp only [List.length_drop]
  omega

/-- `KeySerializer::bitpack_sorted`: the count as `u32`, then the numbers. -/
def bitpackSorted (packer : BlockPacker) (items : List Nat) : List UInt8 :=
  toLeb128Bytes (items.length % 2 ^ 32) ++ bitpackBlocks packer none items

section Writer

variable {packer : BlockPacker} {initial : Option Nat} {items : List Nat}

theorem bitpackBlocks_small (h : items.length ≤ 31) :
    bitpackBlocks packer initial items = items.flatMap toLeb128Bytes := by
  rw [bitpackBlocks, dif_pos h]

theorem bitpackBlocks_block (h : 31 < items.length) :
    bitpackBlocks packer initial items =
      packer.numBits initial (items.take (blockLen items.length)) ::
        (packer.compress initial (items.take (blockLen items.length))
            (packer.numBits initial (items.take (blockLen items.length))) ++
          bitpackBlocks packer (items.take (blockLen items.length)).getLast?
            (items.drop (blockLen items.length))) := by
  rw [bitpackBlocks, dif_neg (by omega)]

/-- At most 31 numbers are written without the crate. -/
theorem bitpackSorted_of_length_le (h : items.length ≤ 31) (packer' : BlockPacker) :
    bitpackSorted packer items = bitpackSorted packer' items := by
  rw [bitpackSorted, bitpackSorted, bitpackBlocks_small h, bitpackBlocks_small h]

end Writer

/-! ## Reading -/

/-- `BitpackIterator`: the bytes from its offset on, the block it is in and how far, and the
numbers after the block still to read. -/
structure BitpackIterator where
  bytes : List UInt8
  chunk : List Nat
  chunkOffset : Nat
  itemsLeft : Nat

namespace BitpackIterator

/-- `BitpackIterator::from_bytes_and_offset`. -/
def fromBytes (bytes : List UInt8) (itemsLeft : Nat) : BitpackIterator :=
  ⟨bytes, [], 0, itemsLeft⟩

/-- `BitpackIterator::new`: the count, then the numbers. -/
def new (bytes : List UInt8) : Option BitpackIterator :=
  (nextLeb128 .u32 bytes).map fun (itemsLeft, rest) => fromBytes rest itemsLeft

/-- A block of `blockLen` numbers: `decompress_strictly_sorted` writes into that many zeros. -/
def fillBlock (blockLen : Nat) (numbers : List Nat) : List Nat :=
  numbers.take blockLen ++ List.replicate (blockLen - numbers.length) 0

theorem length_fillBlock (blockLen : Nat) (numbers : List Nat) :
    (fillBlock blockLen numbers).length = blockLen := by
  simp only [fillBlock, List.length_append, List.length_take, List.length_replicate]
  omega

theorem fillBlock_of_length {numbers : List Nat} : fillBlock numbers.length numbers = numbers := by
  simp [fillBlock]

/-- `BitpackIterator::next`. A read that fails ends the iteration, so what it leaves of the
state is not kept. -/
def next (packer : BlockPacker) (it : BitpackIterator) : Option (Nat × BitpackIterator) :=
  match it.chunk[it.chunkOffset]? with
  | some item => some (item, { it with chunkOffset := it.chunkOffset + 1 })
  | none =>
    if it.itemsLeft = 0 then none
    else if it.itemsLeft ≤ 31 then
      match nextLeb128 .u32 it.bytes with
      | some (item, rest) => some (item, { it with bytes := rest, itemsLeft := it.itemsLeft - 1 })
      | none => none
    else
      let blockLen := blockLen it.itemsLeft
      match it.bytes with
      | [] => none
      | numBits :: rest =>
        let len := numBits.toNat * blockLen / 8
        if len ≤ rest.length then
          let chunk := fillBlock blockLen
            (packer.decompress blockLen it.chunk.getLast? (rest.take len) numBits)
          match chunk.head? with
          | some item => some (item, ⟨rest.drop len, chunk, 1, it.itemsLeft - blockLen⟩)
          | none => none
        else none

/-- What is left to read: the numbers after the block, and the rest of the block. -/
def measure (it : BitpackIterator) : Nat :=
  it.itemsLeft + (it.chunk.length - it.chunkOffset)

theorem next_measure {packer : BlockPacker} {it it' : BitpackIterator} {item : Nat}
    (h : it.next packer = some (item, it')) : it'.measure + 1 = it.measure := by
  unfold next at h
  split at h
  · rename_i item' hget
    obtain ⟨-, rfl⟩ := Prod.mk.inj (Option.some.inj h)
    have := (List.getElem?_eq_some_iff.mp hget).1
    simp only [measure]
    omega
  · rename_i hget
    have hend : it.chunk.length ≤ it.chunkOffset := List.getElem?_eq_none_iff.mp hget
    split_ifs at h with hzero hsmall
    · -- one of the last numbers, in LEB128
      split at h
      · obtain ⟨-, rfl⟩ := Prod.mk.inj (Option.some.inj h)
        simp only [measure]
        omega
      · cases h
    · -- a new block, whose first number is read here
      split at h
      · cases h
      · dsimp only at h
        split_ifs at h
        split at h
        · obtain ⟨-, rfl⟩ := Prod.mk.inj (Option.some.inj h)
          have hle := blockLen_le (Nat.lt_of_not_le hsmall)
          have hpos := blockLen_pos it.itemsLeft
          simp only [measure, length_fillBlock]
          omega
        · cases h

/-- The numbers of a `for` loop over the iterator. -/
def toList (packer : BlockPacker) (it : BitpackIterator) : List Nat :=
  match _h : it.next packer with
  | none => []
  | some (item, it') =>
    have := next_measure _h
    item :: it'.toList packer
termination_by it.measure

section Steps

variable {packer : BlockPacker}

theorem toList_of_next_none {it : BitpackIterator} (h : it.next packer = none) :
    it.toList packer = [] := by
  rw [toList]
  split
  · rfl
  · rename_i heq
    rw [h] at heq
    cases heq

theorem toList_of_next_some {it it' : BitpackIterator} {item : Nat}
    (h : it.next packer = some (item, it')) : it.toList packer = item :: it'.toList packer := by
  rw [toList]
  split
  · rename_i heq
    rw [h] at heq
    cases heq
  · rename_i heq
    rw [h] at heq
    obtain ⟨rfl, rfl⟩ := Prod.mk.inj (Option.some.inj heq)
    rfl

theorem next_chunk {bytes : List UInt8} {chunk : List Nat} {k n : Nat} (h : k < chunk.length) :
    next packer ⟨bytes, chunk, k, n⟩ = some (chunk[k], ⟨bytes, chunk, k + 1, n⟩) := by
  simp only [next, List.getElem?_eq_getElem h]

theorem next_done (bytes : List UInt8) (chunk : List Nat) :
    next packer ⟨bytes, chunk, chunk.length, 0⟩ = none := by
  simp only [next, List.getElem?_eq_none (Nat.le_refl _), if_true]

theorem next_leb {chunk : List Nat} {x n : Nat} {rest : List UInt8} (hn : 0 < n) (hsmall : n ≤ 31)
    (hx : x < 2 ^ 32) :
    next packer ⟨toLeb128Bytes x ++ rest, chunk, chunk.length, n⟩ =
      some (x, ⟨rest, chunk, chunk.length, n - 1⟩) := by
  simp only [next, List.getElem?_eq_none (Nat.le_refl _), hn.ne', if_false, hsmall, if_true,
    nextLeb128_u32_toLeb128Bytes hx]

/-- The rest of a block is read one number a step. The induction is on what is left of it. -/
theorem toList_chunk (bytes : List UInt8) (chunk : List Nat) (n : Nat) :
    ∀ k, k ≤ chunk.length →
      toList packer ⟨bytes, chunk, k, n⟩ =
        chunk.drop k ++ toList packer ⟨bytes, chunk, chunk.length, n⟩ := by
  intro k hk
  by_cases hlt : k < chunk.length
  · rw [toList_of_next_some (next_chunk hlt), toList_chunk bytes chunk n (k + 1) hlt,
      List.drop_eq_getElem_cons hlt]
    rfl
  · obtain rfl : k = chunk.length := by omega
    simp
termination_by k => chunk.length - k

/-- The last numbers are read one LEB128 number a step. -/
theorem toList_leb (chunk : List Nat) (rest : List UInt8) :
    ∀ xs : List Nat, xs.length ≤ 31 → (∀ x ∈ xs, x < 2 ^ 32) →
      toList packer ⟨xs.flatMap toLeb128Bytes ++ rest, chunk, chunk.length, xs.length⟩ = xs
  | [], _, _ => toList_of_next_none (next_done _ _)
  | x :: xs, hlen, hbound => by
    have hx : x < 2 ^ 32 := hbound x List.mem_cons_self
    rw [List.flatMap_cons, List.append_assoc, List.length_cons,
      toList_of_next_some (next_leb (Nat.succ_pos _) hlen hx), Nat.succ_sub_one,
      toList_leb chunk rest xs (by simp at hlen; omega) fun y hy => hbound y (List.mem_cons_of_mem _ hy)]

/-- A block is one step, that unpacks the block the writer packed and gives its first number. -/
theorem next_block (hp : packer.Lawful) {chunk xs : List Nat} {rest : List UInt8}
    (hlong : 31 < xs.length)
    (hpack : BlockPacker.Packable chunk.getLast? (xs.take (blockLen xs.length))) :
    next packer ⟨bitpackBlocks packer chunk.getLast? xs ++ rest, chunk, chunk.length, xs.length⟩ =
      (xs.take (blockLen xs.length)).head?.map fun x =>
        (x, ⟨bitpackBlocks packer (xs.take (blockLen xs.length)).getLast?
            (xs.drop (blockLen xs.length)) ++ rest,
          xs.take (blockLen xs.length), 1, xs.length - blockLen xs.length⟩) := by
  have hlen : (xs.take (blockLen xs.length)).length = blockLen xs.length :=
    List.length_take_of_le (blockLen_le hlong)
  have hbytes := hp.length_compress _ _ hpack
  have hblock := hp.decompress_compress _ _ hpack
  rw [hlen] at hbytes hblock
  have hfill := @fillBlock_of_length (xs.take (blockLen xs.length))
  rw [hlen] at hfill
  rw [bitpackBlocks_block hlong, List.cons_append, List.append_assoc]
  simp only [next, List.getElem?_eq_none (Nat.le_refl _), Nat.ne_of_gt (Nat.zero_lt_of_lt hlong),
    if_false, Nat.not_le_of_lt hlong, List.length_append, hbytes, Nat.le_add_right, if_true,
    List.take_left' hbytes, List.drop_left' hbytes, hblock, hfill]
  cases (xs.take (blockLen xs.length)).head? <;> rfl

end Steps

/-- Past its block, with at most 31 numbers left, the iterator reads LEB128 numbers. -/
theorem next_of_itemsLeft_le {packer : BlockPacker} {it : BitpackIterator}
    (hend : it.chunk.length ≤ it.chunkOffset) (hpos : 0 < it.itemsLeft) (hsmall : it.itemsLeft ≤ 31) :
    it.next packer = (nextLeb128 .u32 it.bytes).map fun (item, rest) =>
      (item, { it with bytes := rest, itemsLeft := it.itemsLeft - 1 }) := by
  simp only [next, List.getElem?_eq_none hend, hpos.ne', if_false, hsmall, if_true]
  cases nextLeb128 .u32 it.bytes <;> rfl

/-- Past its block, with at most 31 numbers left, the iterator does not use the crate. The
induction is on the numbers left. -/
theorem toList_of_itemsLeft_le (packer packer' : BlockPacker) :
    ∀ (n : Nat) (it : BitpackIterator), it.itemsLeft = n → it.chunk.length ≤ it.chunkOffset →
      n ≤ 31 → it.toList packer = it.toList packer'
  | 0, it, hn, hend, _ => by
    have hnone : ∀ p : BlockPacker, it.next p = none := by
      intro p
      simp only [next, List.getElem?_eq_none hend, hn, if_true]
    rw [toList_of_next_none (hnone packer), toList_of_next_none (hnone packer')]
  | n + 1, it, hn, hend, hsmall => by
    have hstep := fun p : BlockPacker =>
      @next_of_itemsLeft_le p it hend (by omega) (by omega)
    cases hleb : nextLeb128 .u32 it.bytes with
    | none =>
      rw [hleb] at hstep
      rw [toList_of_next_none (hstep packer), toList_of_next_none (hstep packer')]
    | some read =>
      obtain ⟨item, rest⟩ := read
      rw [hleb] at hstep
      rw [toList_of_next_some (hstep packer), toList_of_next_some (hstep packer'),
        toList_of_itemsLeft_le packer packer' n { it with bytes := rest, itemsLeft := it.itemsLeft - 1 }
          (by simp only [hn, Nat.add_sub_cancel]) hend (by omega)]

/-- The last number of a prefix of a strictly increasing list is below the rest of it. -/
theorem pairwise_getLast_take_drop {initial : Option Nat} {xs : List Nat} (n : Nat)
    (h : (initial.toList ++ xs).Pairwise (· < ·)) :
    ((xs.take n).getLast?.toList ++ xs.drop n).Pairwise (· < ·) := by
  have hxs : (xs.take n ++ xs.drop n).Pairwise (· < ·) := by
    rw [List.take_append_drop]
    exact h.sublist (List.sublist_append_right _ _)
  obtain ⟨-, hdrop, hcross⟩ := List.pairwise_append.mp hxs
  refine List.pairwise_append.mpr ⟨Option.pairwise_toList, hdrop, ?_⟩
  intro a ha b hb
  exact hcross a (List.mem_of_getLast? (Option.mem_toList.mp ha)) b hb

variable {packer : BlockPacker}

/-- A strictly increasing list above the last number of the block before reads back whole. The
induction follows the writer's loop, a block a step. -/
theorem toList_bitpackBlocks (hp : packer.Lawful) (rest : List UInt8) (chunk xs : List Nat)
    (hsorted : (chunk.getLast?.toList ++ xs).Pairwise (· < ·)) (hbound : ∀ x ∈ xs, x < 2 ^ 32) :
    toList packer ⟨bitpackBlocks packer chunk.getLast? xs ++ rest, chunk, chunk.length,
      xs.length⟩ = xs := by
  by_cases hsmall : xs.length ≤ 31
  · rw [bitpackBlocks_small hsmall]
    exact toList_leb chunk rest xs hsmall hbound
  · have hlong : 31 < xs.length := by omega
    have hlen : (xs.take (blockLen xs.length)).length = blockLen xs.length :=
      List.length_take_of_le (blockLen_le hlong)
    have hpack : BlockPacker.Packable chunk.getLast? (xs.take (blockLen xs.length)) :=
      ⟨by rw [hlen]; exact blockLen_mem xs.length,
        hsorted.sublist ((List.append_sublist_append_left _).mpr (List.take_sublist _ _)),
        fun x hx => hbound x (List.mem_of_mem_take hx)⟩
    obtain ⟨x, tail, hblock⟩ : ∃ x tail, xs.take (blockLen xs.length) = x :: tail := by
      cases htake : xs.take (blockLen xs.length) with
      | nil => simp [htake] at hlen; have := blockLen_pos xs.length; omega
      | cons x tail => exact ⟨x, tail, rfl⟩
    -- the rest of the list, after the block the iterator steps through
    have hnext := @next_block packer hp chunk xs rest hlong hpack
    have hsorted' := pairwise_getLast_take_drop (blockLen xs.length) hsorted
    rw [hblock] at hnext hsorted'
    have hrest := toList_bitpackBlocks hp rest (x :: tail) (xs.drop (blockLen xs.length))
      hsorted' fun y hy => hbound y (List.mem_of_mem_drop hy)
    rw [List.length_drop] at hrest
    rw [toList_of_next_some hnext, toList_chunk _ (x :: tail) _ 1 (by simp), hrest]
    conv_rhs => rw [← List.take_append_drop (blockLen xs.length) xs, hblock]
    rfl
termination_by xs.length
decreasing_by
  have := blockLen_pos xs.length
  simp only [List.length_drop]
  omega

/-- The iterator over the bytes of `bitpack_sorted` gives back its numbers, for a packer that
keeps the crate's contract. -/
theorem toList_bitpackSorted (hp : packer.Lawful) {items : List Nat}
    (hsorted : items.Pairwise (· < ·)) (hbound : ∀ x ∈ items, x < 2 ^ 32)
    (hcount : items.length < 2 ^ 32) (rest : List UInt8) :
    (new (bitpackSorted packer items ++ rest)).map (toList packer) = some items := by
  rw [bitpackSorted, Nat.mod_eq_of_lt hcount, List.append_assoc, new,
    nextLeb128_u32_toLeb128Bytes hcount]
  exact congrArg some (toList_bitpackBlocks hp rest [] items hsorted hbound)

/-- The count `new` reads is the count the writer wrote: the number of numbers, cut to `u32`. -/
theorem new_bitpackSorted_itemsLeft (packer : BlockPacker) (items : List Nat) :
    (new (bitpackSorted packer items)).map (·.itemsLeft) = some (items.length % 2 ^ 32) := by
  rw [bitpackSorted, new, nextLeb128_u32_toLeb128Bytes (Nat.mod_lt _ (Nat.two_pow_pos 32))]
  rfl

theorem bitpack_round_trip {packer : BlockPacker} (hp : packer.Lawful) {items : List Nat}
    (hsorted : items.Pairwise (· < ·)) (hbound : ∀ x ∈ items, x < 2 ^ 32)
    (hcount : items.length < 2 ^ 32) :
    (new (bitpackSorted packer items)).map (·.itemsLeft) = some items.length ∧
      (new (bitpackSorted packer items)).map (toList packer) = some items := by
  refine ⟨?_, ?_⟩
  · rw [new_bitpackSorted_itemsLeft, Nat.mod_eq_of_lt hcount]
  · simpa using toList_bitpackSorted hp hsorted hbound hcount []

/-- **Every `u32` in order is read back as no number at all**, whatever the packer: the count of
`2 ^ 32` numbers is written as `len as u32`, which is `0`, and an iterator with no numbers left
ends at once. -/
theorem bitpackSorted_range_wraps (packer : BlockPacker) :
    (new (bitpackSorted packer (List.range (2 ^ 32)))).map (·.itemsLeft) = some 0 ∧
      (new (bitpackSorted packer (List.range (2 ^ 32)))).map (toList packer) = some [] := by
  constructor
  · rw [new_bitpackSorted_itemsLeft, List.length_range, Nat.mod_self]
  · -- the iterator starts with no numbers left and an empty block
    have hdone : ∀ bytes : List UInt8, (fromBytes bytes 0).toList packer = [] := fun bytes =>
      toList_of_next_none (by simp [next, fromBytes])
    rw [bitpackSorted, List.length_range, Nat.mod_self, new,
      nextLeb128_u32_toLeb128Bytes (Nat.two_pow_pos 32)]
    exact congrArg some (hdone _)

end BitpackIterator

/-! ## A packer that keeps the contract -/

/-- A number in four bytes, the low byte first. -/
def encodeWord (x : Nat) : List UInt8 :=
  [x.toUInt8, (x / 2 ^ 8).toUInt8, (x / 2 ^ 16).toUInt8, (x / 2 ^ 24).toUInt8]

/-- Numbers of four bytes each. -/
def decodeWords : List UInt8 → List Nat
  | b0 :: b1 :: b2 :: b3 :: rest =>
    (b0.toNat + b1.toNat * 2 ^ 8 + b2.toNat * 2 ^ 16 + b3.toNat * 2 ^ 24) :: decodeWords rest
  | _ => []

theorem length_flatMap_encodeWord (xs : List Nat) : (xs.flatMap encodeWord).length = 4 * xs.length := by
  induction xs with
  | nil => rfl
  | cons x xs ih =>
    rw [List.flatMap_cons, List.length_append, ih, List.length_cons]
    simp only [encodeWord, List.length_cons, List.length_nil]
    omega

theorem decodeWords_flatMap_encodeWord :
    ∀ xs : List Nat, (∀ x ∈ xs, x < 2 ^ 32) → decodeWords (xs.flatMap encodeWord) = xs
  | [], _ => rfl
  | x :: xs, h => by
    have hx := h x List.mem_cons_self
    have hword : (x.toUInt8.toNat + (x / 2 ^ 8).toUInt8.toNat * 2 ^ 8 +
        (x / 2 ^ 16).toUInt8.toNat * 2 ^ 16 + (x / 2 ^ 24).toUInt8.toNat * 2 ^ 24) = x := by
      simp only [Nat.toUInt8_eq, UInt8.toNat_ofNat']
      omega
    rw [List.flatMap_cons, encodeWord, List.cons_append, List.cons_append, List.cons_append,
      List.cons_append, List.nil_append, decodeWords, hword,
      decodeWords_flatMap_encodeWord xs fun y hy => h y (List.mem_cons_of_mem _ hy)]

/-- A packer that stores every number in 32 bits, whatever the block. -/
def wordPacker : BlockPacker :=
  ⟨fun _ _ => 32, fun _ chunk _ => chunk.flatMap encodeWord, fun _ _ bytes _ => decodeWords bytes⟩

theorem wordPacker_lawful : wordPacker.Lawful where
  length_compress _ chunk _ := by
    simp only [wordPacker, length_flatMap_encodeWord, UInt8.reduceToNat]
    omega
  decompress_compress _ chunk hpack := decodeWords_flatMap_encodeWord chunk hpack.2.2

theorem bitpack_count_wraps :
    wordPacker.Lawful ∧ (List.range (2 ^ 32)).Pairwise (· < ·) ∧
      (∀ x ∈ List.range (2 ^ 32), x < 2 ^ 32) ∧
      (BitpackIterator.new (bitpackSorted wordPacker (List.range (2 ^ 32)))).map (·.itemsLeft) =
        some 0 ∧
      (BitpackIterator.new (bitpackSorted wordPacker (List.range (2 ^ 32)))).map
        (BitpackIterator.toList wordPacker) = some [] :=
  ⟨wordPacker_lawful, List.pairwise_lt_range, fun _ hx => List.mem_range.mp hx,
    BitpackIterator.bitpackSorted_range_wraps wordPacker⟩

/-- Forty numbers: a block of 32 packed by the word packer, then eight in LEB128. -/
theorem bitpack_round_trip_forty :
    wordPacker.Lawful ∧ (List.range' 1 40).Pairwise (· < ·) ∧ (∀ x ∈ List.range' 1 40, x < 2 ^ 32) ∧
      (List.range' 1 40).length < 2 ^ 32 ∧
      (BitpackIterator.new (bitpackSorted wordPacker (List.range' 1 40))).map (·.itemsLeft) =
        some (List.range' 1 40).length ∧
      (BitpackIterator.new (bitpackSorted wordPacker (List.range' 1 40))).map
        (BitpackIterator.toList wordPacker) = some (List.range' 1 40) :=
  ⟨wordPacker_lawful, by decide, by decide, by decide,
    BitpackIterator.bitpack_round_trip wordPacker_lawful (by decide) (by decide) (by decide)⟩

end Stalwart.Store
