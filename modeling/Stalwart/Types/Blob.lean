import Mathlib.Data.Vector.Defs
import Stalwart.Lib.StateOption
import Stalwart.Utils.Base32

/-!
# Blob ids (`types::blob`)

A `BlobId` names a blob by its hash and says who may read it: a blob reserved by an account until
it expires, or a blob linked to a document of a collection. It may name a section of the blob: an
offset, a size and a transfer encoding. JMAP shows it as text through the custom base32 codec.

`BlobId::serialize_as` writes a marker byte first: the encoding plus one (`0` without a section),
ORed with the class bit, `B_LINKED` (`0x10`) or `B_RESERVED` (`0x20`). Then come the 32 bytes of the
hash, the account in LEB128, and for a reserved blob the expiry in LEB128, for a linked one the
collection as a byte and the document in LEB128. A section adds its offset and size in LEB128.
`BlobId::from_iter` reads the same layout back from a base32 reader, giving up with `None` at the
first byte or number it cannot read. It takes the encoding from the low four bits of the marker and
the class from bit `0x10`.

`usize` is the 64-bit type of the targets the server is built for. `BlobHash` is modelled as its
32 bytes, `[u8; BLOB_HASH_LEN]`.

## What is proved

`blob_id_round_trip`: every blob id whose section, if any, has an encoding of at most 14 reads back
from its text. The encoding plus one then fits the four bits under the class bit
(`marker_bits`). The proof reads the fields in turn, each from the bytes the writer wrote for it
(`takeByte_of_yields`, `readHash_of_yields`, `takeLeb128_of_yields`).
-/

set_option autoImplicit false

namespace Stalwart.Types

open Stalwart.Utils.Base32 (Base32Writer Base32Reader yields_write)
open Stalwart.Utils.Leb128 (UnsignedTy toLeb128Bytes)

/-- `B_LINKED`. -/
def bLinked : UInt8 := 0x10

/-- `B_RESERVED`. -/
def bReserved : UInt8 := 0x20

/-- `BlobClass`. -/
inductive BlobClass where
  | reserved (accountId : UInt32) (expires : UInt64)
  | linked (accountId : UInt32) (collection : UInt8) (documentId : UInt32)
  deriving DecidableEq, Repr

/-- `BlobClass::account_id`. -/
def BlobClass.accountId : BlobClass → UInt32
  | .reserved accountId _ | .linked accountId .. => accountId

/-- `BlobSection`. -/
structure BlobSection where
  offsetStart : UInt64
  size : UInt64
  encoding : UInt8
  deriving DecidableEq, Repr

/-- `BlobId`: its `hash`, its `class` and its `section`. -/
structure BlobId where
  hash : List.Vector UInt8 32
  blobClass : BlobClass
  blobSection : Option BlobSection
  deriving DecidableEq

namespace BlobId

/-! ## Writing -/

/-- `BlobId::serialize_as`. -/
def serializeAs (id : BlobId) (w : Base32Writer) : Base32Writer :=
  let marker := id.blobSection.elim 0 (fun s => s.encoding + 1) |||
    match id.blobClass with
    | .linked .. => bLinked
    | .reserved .. => bReserved
  let w := (w.write [marker]).write id.hash.toList
  let w :=
    match id.blobClass with
    | .reserved accountId expires => (w.writeLeb128 accountId.toNat).writeLeb128 expires.toNat
    | .linked accountId collection documentId =>
      ((w.writeLeb128 accountId.toNat).write [collection]).writeLeb128 documentId.toNat
  match id.blobSection with
  | some s => (w.writeLeb128 s.offsetStart.toNat).writeLeb128 s.size.toNat
  | none => w

/-- `impl Display for BlobId`: the text of a fresh writer after `serialize_as`. -/
def toString (id : BlobId) : List UInt8 :=
  (id.serializeAs .new).finalize

end BlobId

/-! ## Reading -/

/-- `it.next()?`: the next byte of the reader, or the early `None`. -/
def takeByte : StateT Base32Reader Option UInt8 := fun r =>
  match r.next with
  | (some byte, r) => some (byte, r)
  | (none, _) => none

/-- `it.next_leb128::<T>()?`. -/
def takeLeb128 (ty : UnsignedTy) : StateT Base32Reader Option Nat := fun r =>
  match r.nextLeb128 ty with
  | (some value, r) => some (value, r)
  | (none, _) => none

/-- The loop of `from_iter` over the bytes of the hash, the first byte first. -/
def readHash : (n : Nat) → StateT Base32Reader Option (List.Vector UInt8 n)
  | 0 => pure List.Vector.nil
  | n + 1 => do
    let byte ← takeByte
    let rest ← readHash n
    pure (List.Vector.cons byte rest)

namespace BlobId

/-- `BlobId::from_iter`, over a base32 reader. -/
def fromIter : StateT Base32Reader Option BlobId := do
  let classByte ← takeByte
  let encoding := classByte &&& 0x0F
  let hash ← readHash 32
  let accountId ← takeLeb128 .u32
  let blobClass ←
    if classByte &&& bLinked ≠ 0 then do
      let collection ← takeByte
      let documentId ← takeLeb128 .u32
      pure (BlobClass.linked accountId.toUInt32 collection documentId.toUInt32)
    else do
      let expires ← takeLeb128 .u64
      pure (BlobClass.reserved accountId.toUInt32 expires.toUInt64)
  let blobSection ←
    if encoding ≠ 0 then do
      let offsetStart ← takeLeb128 .usize
      let size ← takeLeb128 .usize
      pure (some ⟨offsetStart.toUInt64, size.toUInt64, encoding - 1⟩)
    else pure none
  pure ⟨hash, blobClass, blobSection⟩

/-- `BlobId::from_base32`. -/
def fromBase32 (value : List UInt8) : Option BlobId :=
  (fromIter.run (Base32Reader.new value)).map Prod.fst

end BlobId

/-! ## The marker byte -/

/-- An encoding of at most 14, plus one, sits in the low four bits under either class bit. -/
theorem marker_bits : ∀ n < 15,
    (n.toUInt8 + 1 ||| bLinked) &&& 0x0F = n.toUInt8 + 1 ∧
      (n.toUInt8 + 1 ||| bLinked) &&& bLinked ≠ 0 ∧
      (n.toUInt8 + 1 ||| bReserved) &&& 0x0F = n.toUInt8 + 1 ∧
      (n.toUInt8 + 1 ||| bReserved) &&& bLinked = 0 ∧
      n.toUInt8 + 1 ≠ 0 := by
  decide

theorem marker_bits_of_le {encoding : UInt8} (h : encoding ≤ 14) :
    (encoding + 1 ||| bLinked) &&& 0x0F = encoding + 1 ∧
      (encoding + 1 ||| bLinked) &&& bLinked ≠ 0 ∧
      (encoding + 1 ||| bReserved) &&& 0x0F = encoding + 1 ∧
      (encoding + 1 ||| bReserved) &&& bLinked = 0 ∧
      encoding + 1 ≠ 0 := by
  have hlt : encoding.toNat < 15 := by
    have := UInt8.le_iff_toNat_le.mp h
    simp only [UInt8.reduceToNat] at this
    omega
  simpa only [Nat.toUInt8, UInt8.ofNat_toNat] using marker_bits encoding.toNat hlt

/-! ## Reading what was written -/

open Stalwart.Utils.Base32.Base32Reader (Yields)

section Fields

variable {r r'' : Base32Reader} {bytes : List UInt8}

theorem takeByte_of_yields {byte : UInt8} (h : Yields r (byte :: bytes) r'') :
    ∃ mid, takeByte r = some (byte, mid) ∧ Yields mid bytes r'' := by
  obtain ⟨mid, hnext, hrest⟩ := h
  exact ⟨mid, by simp [takeByte, hnext], hrest⟩

theorem takeLeb128_of_yields (ty : UnsignedTy) (hcover : ty.bits ≤ 7 * ty.shifts.length)
    {value : Nat} (hvalue : value < 2 ^ ty.bits) (h : Yields r (toLeb128Bytes value ++ bytes) r'') :
    ∃ mid, takeLeb128 ty r = some (value, mid) ∧ Yields mid bytes r'' := by
  obtain ⟨mid, hnumber, hrest⟩ := Base32Reader.yields_append.mp h
  exact ⟨mid, by simp [takeLeb128, Base32Reader.nextLeb128_of_yields_of_cover hcover hvalue hnumber],
    hrest⟩

/-- The loop over the hash reads back the bytes written for it, in order. -/
theorem readHash_of_yields : ∀ {n : Nat} (hash : List.Vector UInt8 n) {r : Base32Reader},
    Yields r (hash.toList ++ bytes) r'' →
      ∃ mid, readHash n r = some (hash, mid) ∧ Yields mid bytes r''
  | 0, hash, r, h => by
    rw [List.Vector.eq_nil hash] at h ⊢
    exact ⟨r, rfl, h⟩
  | n + 1, hash, r, h => by
    rw [← List.Vector.cons_head_tail hash, List.Vector.toList_cons, List.cons_append] at h
    obtain ⟨mid, hbyte, hrest⟩ := takeByte_of_yields h
    obtain ⟨mid', htail, hrest'⟩ := readHash_of_yields (n := n) hash.tail hrest
    refine ⟨mid', ?_, hrest'⟩
    rw [readHash, StateT.bind_apply_of_eq hbyte, StateT.bind_apply_of_eq htail,
      List.Vector.cons_head_tail, StateT.pure_apply]

end Fields

/-! ## The round trip -/

namespace BlobId

/-- The bytes `serialize_as` writes after the account: the class's other fields. -/
def classTail : BlobClass → List UInt8
  | .reserved _ expires => toLeb128Bytes expires.toNat
  | .linked _ collection documentId => collection :: toLeb128Bytes documentId.toNat

/-- The bytes `serialize_as` writes for a section. -/
def sectionBytes : Option BlobSection → List UInt8
  | some s => toLeb128Bytes s.offsetStart.toNat ++ toLeb128Bytes s.size.toNat
  | none => []

/-- Everything `serialize_as` writes, in order. -/
def bytes (id : BlobId) : List UInt8 :=
  (id.blobSection.elim 0 (fun s => s.encoding + 1) |||
      match id.blobClass with
      | .linked .. => bLinked
      | .reserved .. => bReserved) ::
    (id.hash.toList ++ toLeb128Bytes id.blobClass.accountId.toNat ++ classTail id.blobClass ++
      sectionBytes id.blobSection)

theorem serializeAs_eq (id : BlobId) (w : Base32Writer) : id.serializeAs w = w.write id.bytes := by
  obtain ⟨hash, cls, sec⟩ := id
  cases cls <;> cases sec <;>
    simp [serializeAs, bytes, classTail, sectionBytes, BlobClass.accountId,
      Base32Writer.writeLeb128, ← Base32Writer.write_append]

/-- `from_iter` reads back what `serialize_as` wrote and leaves the reader at the bytes after it,
as long as the encoding plus one stays under the class bit. -/
theorem fromIter_of_yields {id : BlobId} (h : ∀ s ∈ id.blobSection, s.encoding ≤ 14)
    {r r'' : Base32Reader} {rest : List UInt8} (hy : Yields r (id.bytes ++ rest) r'') :
    ∃ mid, fromIter r = some (id, mid) ∧ Yields mid rest r'' := by
  obtain ⟨hash, cls, sec⟩ := id
  simp only [bytes, List.cons_append, List.append_assoc] at hy
  -- the fields every blob id has: the marker, the hash and the account
  obtain ⟨r1, h1, hy⟩ := takeByte_of_yields hy
  obtain ⟨r2, h2, hy⟩ := readHash_of_yields hash hy
  obtain ⟨r3, h3, hy⟩ :=
    takeLeb128_of_yields .u32 (by decide) (UInt32.toNat_lt cls.accountId) hy
  -- without a section the marker is the class bit alone
  have hnone : bLinked ≠ 0 ∧ bLinked &&& 0x0F = 0 ∧
      bReserved &&& bLinked = 0 ∧ bReserved &&& 0x0F = 0 := by
    decide
  cases cls with
  | reserved accountId expires =>
    obtain ⟨r4, h4, hy⟩ := takeLeb128_of_yields .u64 (by decide) (UInt64.toNat_lt expires) hy
    cases sec with
    | none =>
      refine ⟨r4, ?_, hy⟩
      simp [fromIter, StateT.bind_apply_of_eq h1, StateT.bind_apply_of_eq h2,
        StateT.bind_apply_of_eq h3, StateT.map_apply_of_eq h4, hnone, BlobClass.accountId]
    | some s =>
      obtain ⟨-, -, hmask, hclass, hne⟩ := marker_bits_of_le (h s rfl)
      rw [sectionBytes, List.append_assoc] at hy
      obtain ⟨r5, h5, hy⟩ := takeLeb128_of_yields .usize (by decide) (UInt64.toNat_lt _) hy
      obtain ⟨r6, h6, hy⟩ := takeLeb128_of_yields .usize (by decide) (UInt64.toNat_lt _) hy
      refine ⟨r6, ?_, hy⟩
      simp [fromIter, StateT.bind_apply_of_eq h1, StateT.bind_apply_of_eq h2,
        StateT.bind_apply_of_eq h3, StateT.bind_apply_of_eq h4, StateT.bind_apply_of_eq h5,
        StateT.map_apply_of_eq h6, hmask, hclass, hne, BlobClass.accountId]
  | linked accountId collection documentId =>
    obtain ⟨r4, h4, hy⟩ := takeByte_of_yields hy
    obtain ⟨r5, h5, hy⟩ :=
      takeLeb128_of_yields .u32 (by decide) (UInt32.toNat_lt documentId) hy
    cases sec with
    | none =>
      refine ⟨r5, ?_, hy⟩
      simp [fromIter, StateT.bind_apply_of_eq h1, StateT.bind_apply_of_eq h2,
        StateT.bind_apply_of_eq h3, StateT.bind_apply_of_eq h4, StateT.map_apply_of_eq h5, hnone, BlobClass.accountId]
    | some s =>
      obtain ⟨hmask, hclass, -, -, hne⟩ := marker_bits_of_le (h s rfl)
      rw [sectionBytes, List.append_assoc] at hy
      obtain ⟨r6, h6, hy⟩ := takeLeb128_of_yields .usize (by decide) (UInt64.toNat_lt _) hy
      obtain ⟨r7, h7, hy⟩ := takeLeb128_of_yields .usize (by decide) (UInt64.toNat_lt _) hy
      refine ⟨r7, ?_, hy⟩
      simp [fromIter, StateT.bind_apply_of_eq h1, StateT.bind_apply_of_eq h2,
        StateT.bind_apply_of_eq h3, StateT.bind_apply_of_eq h4, StateT.bind_apply_of_eq h5,
        StateT.bind_apply_of_eq h6, StateT.map_apply_of_eq h7, hmask, hclass, hne, BlobClass.accountId]

end BlobId

theorem blob_id_round_trip (id : BlobId) (h : ∀ s ∈ id.blobSection, s.encoding ≤ 14) :
    BlobId.fromBase32 id.toString = some id := by
  obtain ⟨r'', hy⟩ := yields_write id.bytes
  obtain ⟨mid, hread, -⟩ :=
    BlobId.fromIter_of_yields h (show Yields _ (id.bytes ++ []) r'' by rwa [List.append_nil])
  rw [BlobId.fromBase32, BlobId.toString, BlobId.serializeAs_eq, StateT.run, hread, Option.map_some]

theorem blob_id_round_trip_linked_section :
    (∀ s ∈ (⟨List.Vector.replicate 32 7, .linked 1 2 300, some ⟨5, 1000, 14⟩⟩ : BlobId).blobSection,
        s.encoding ≤ 14) ∧
      BlobId.fromBase32 (BlobId.toString ⟨List.Vector.replicate 32 7, .linked 1 2 300, some ⟨5, 1000, 14⟩⟩) =
        some ⟨List.Vector.replicate 32 7, .linked 1 2 300, some ⟨5, 1000, 14⟩⟩ :=
  ⟨by decide, blob_id_round_trip _ (by decide)⟩

end Stalwart.Types
