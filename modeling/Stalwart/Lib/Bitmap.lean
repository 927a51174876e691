import Mathlib.Data.Finset.Basic

/-!
# Bitmaps of a small enumeration

A set of items of a type with at most 64 values, kept as one 64-bit word: the bit at an item's
index says whether the item is in the set. The word only ever has the bits of items set, which
`Bitmap` carries as a field, so that an empty word and an empty set are the same thing.

Insertion sets a bit, union is a bitwise or and intersection a bitwise and. Removal is a bitwise
exclusive or, as the bitmaps this models write it: it toggles the item, and takes it out only when
it is in. Iterating a bitmap yields its items once each, in the order of their indices (`items`).
-/

set_option autoImplicit false

/-- Items a bitmap holds: each has its own bit among 64, and they can all be listed by index. -/
class BitmapItem (T : Type) where
  index : T → Fin 64
  index_injective : Function.Injective index
  all : List T
  mem_all : ∀ item, item ∈ all
  sorted_all : all.Pairwise fun a b => index a < index b

/-- A set of items as a 64-bit word whose only set bits are the bits of items. -/
structure Bitmap (T : Type) [BitmapItem T] where
  bits : BitVec 64
  valid : ∀ i : Fin 64, bits.getLsbD i → ∃ item : T, BitmapItem.index item = i

namespace Bitmap

variable {T : Type} [BitmapItem T]

/-- The one-bit word of an item. -/
def bit (item : T) : BitVec 64 := 1#64 <<< (BitmapItem.index item).val

theorem getLsbD_bit (item : T) (i : Nat) :
    (bit item).getLsbD i = decide ((BitmapItem.index item).val = i) := by
  have hlt := (BitmapItem.index item).isLt
  simp only [bit, BitVec.getLsbD_shiftLeft, BitVec.getLsbD_one]
  by_cases h : (BitmapItem.index item).val = i
  · subst h
    simp [hlt]
  · simp only [h, decide_false]
    by_cases hi : i < (BitmapItem.index item).val
    · simp [hi]
    · have : i - (BitmapItem.index item).val ≠ 0 := by omega
      simp [this]

/-- The bit of an item is the only item bit its word sets. -/
theorem valid_bit (item : T) :
    ∀ i : Fin 64, (bit item).getLsbD i → ∃ item' : T, BitmapItem.index item' = i := by
  intro i hi
  rw [getLsbD_bit, decide_eq_true_eq] at hi
  exact ⟨item, Fin.ext hi⟩

/-- `Bitmap::new`. -/
def new : Bitmap T := ⟨0#64, fun i h => by simp at h⟩

/-- `Bitmap::insert`: sets the item's bit. -/
def insert (item : T) (bitmap : Bitmap T) : Bitmap T :=
  ⟨bitmap.bits ||| bit item, fun i h => by
    rw [BitVec.getLsbD_or, Bool.or_eq_true] at h
    exact h.elim (bitmap.valid i) (valid_bit item i)⟩

/-- `Bitmap::remove`: toggles the item's bit. -/
def remove (item : T) (bitmap : Bitmap T) : Bitmap T :=
  ⟨bitmap.bits ^^^ bit item, fun i h => by
    rw [BitVec.getLsbD_xor] at h
    cases hb : bitmap.bits.getLsbD i
    · rw [hb, Bool.false_xor] at h
      exact valid_bit item i h
    · exact bitmap.valid i hb⟩

/-- `Bitmap::union`. -/
def union (bitmap other : Bitmap T) : Bitmap T :=
  ⟨bitmap.bits ||| other.bits, fun i h => by
    rw [BitVec.getLsbD_or, Bool.or_eq_true] at h
    exact h.elim (bitmap.valid i) (other.valid i)⟩

/-- `Bitmap::intersection`. -/
def intersection (bitmap other : Bitmap T) : Bitmap T :=
  ⟨bitmap.bits &&& other.bits, fun i h => by
    rw [BitVec.getLsbD_and, Bool.and_eq_true] at h
    exact bitmap.valid i h.1⟩

/-- `Bitmap::contains`: the item's bit is set. -/
def contains (bitmap : Bitmap T) (item : T) : Bool :=
  bitmap.bits &&& bit item != 0#64

/-- `Bitmap::is_empty`. -/
def isEmpty (bitmap : Bitmap T) : Bool :=
  bitmap.bits == 0#64

/-- `Bitmap::contains_all`: every listed item is in, and the bitmap is not empty. -/
def containsAll (bitmap : Bitmap T) (items : List T) : Bool :=
  if !bitmap.isEmpty then items.all bitmap.contains else false

/-- `Bitmap::insert_many`. -/
def insertMany (items : List T) (bitmap : Bitmap T) : Bitmap T :=
  items.foldl (fun bitmap item => bitmap.insert item) bitmap

/-- `Bitmap::from_iter`. -/
def ofList (items : List T) : Bitmap T :=
  new.insertMany items

/-- `From<T> for Bitmap<T>`: the bitmap of one item. -/
def ofItem (item : T) : Bitmap T :=
  new.insert item

/-- The items of a bitmap, as its iterator yields them: by index, from the highest. -/
def items (bitmap : Bitmap T) : List T :=
  (BitmapItem.all.filter bitmap.contains).reverse

instance : DecidableEq (Bitmap T) := fun a b =>
  if h : a.bits = b.bits then isTrue (by cases a; cases b; cases h; rfl)
  else isFalse (fun hab => h (hab ▸ rfl))

/-! ## Membership, operation by operation -/

theorem contains_eq_getLsbD (bitmap : Bitmap T) (item : T) :
    bitmap.contains item = bitmap.bits.getLsbD (BitmapItem.index item) := by
  have hlt := (BitmapItem.index item).isLt
  rw [contains, bit, ← BitVec.twoPow, BitVec.and_twoPow]
  cases h : bitmap.bits.getLsbD (BitmapItem.index item)
  · simp only [Bool.false_eq_true, if_false, bne_self_eq_false]
  · -- the bit of an item is not zero
    have hne : BitVec.twoPow 64 (BitmapItem.index item).val ≠ 0#64 := by
      intro hzero
      have := congrArg (fun x => x.getLsbD (BitmapItem.index item)) hzero
      simp [hlt] at this
    simp only [if_true]
    exact bne_iff_ne.mpr hne

/-- Two bitmaps with the same items are equal. -/
theorem ext {a b : Bitmap T} (h : ∀ item, a.contains item = b.contains item) : a = b := by
  have hbits : a.bits = b.bits := by
    apply BitVec.eq_of_getLsbD_eq
    intro i hi
    -- only the bits of items can be set, in either word
    cases ha : a.bits.getLsbD i <;> cases hb : b.bits.getLsbD i
    · rfl
    · obtain ⟨item, hitem⟩ := b.valid ⟨i, hi⟩ hb
      have := h item
      rw [contains_eq_getLsbD, contains_eq_getLsbD, hitem] at this
      simp only at this
      rw [ha, hb] at this
      exact this
    · obtain ⟨item, hitem⟩ := a.valid ⟨i, hi⟩ ha
      have := h item
      rw [contains_eq_getLsbD, contains_eq_getLsbD, hitem] at this
      simp only at this
      rw [ha, hb] at this
      exact this
    · rfl
  cases a
  cases b
  cases hbits
  rfl

@[simp] theorem contains_new (item : T) : (new : Bitmap T).contains item = false := by
  simp [contains_eq_getLsbD, new]

@[simp] theorem contains_union (bitmap other : Bitmap T) (item : T) :
    (bitmap.union other).contains item = (bitmap.contains item || other.contains item) := by
  simp only [contains_eq_getLsbD, union, BitVec.getLsbD_or]

@[simp] theorem contains_intersection (bitmap other : Bitmap T) (item : T) :
    (bitmap.intersection other).contains item = (bitmap.contains item && other.contains item) := by
  simp only [contains_eq_getLsbD, intersection, BitVec.getLsbD_and]

theorem isEmpty_iff (bitmap : Bitmap T) : bitmap.isEmpty ↔ ∀ item, bitmap.contains item = false := by
  constructor
  · intro h item
    rw [isEmpty, beq_iff_eq] at h
    rw [contains_eq_getLsbD, h, BitVec.getLsbD_zero]
  · intro h
    have : bitmap = new := ext fun item => by rw [h item, contains_new]
    rw [this]
    rfl

/-- An intersection is empty when no item is in both. -/
theorem isEmpty_intersection_eq_false (bitmap other : Bitmap T) :
    (bitmap.intersection other).isEmpty = false ↔
      ∃ item, bitmap.contains item ∧ other.contains item := by
  rw [← Bool.not_eq_true, isEmpty_iff]
  simp only [contains_intersection, Bool.and_eq_false_iff, not_forall]
  constructor
  · rintro ⟨item, hitem⟩
    exact ⟨item, by simpa using hitem⟩
  · rintro ⟨item, hbitmap, hother⟩
    exact ⟨item, by simp [hbitmap, hother]⟩

end Bitmap
