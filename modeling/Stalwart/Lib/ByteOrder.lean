import Mathlib

/-!
# Keys in byte order

A sorted key-value store orders its keys lexicographically, a proper prefix first. A key built by
writing fields one after the other is compared through its fields:

* fields of equal length written first decide the order of what follows them
  (`append_lt_append_iff_of_length_eq`);
* a key between two keys that share a prefix has that prefix (`prefix_of_le_of_le`), so a scan
  between two such keys never leaves the prefix;
* a key is at least a run of least elements no longer than it, and at most a run of greatest
  elements no shorter than it (`replicate_le_of_length_le`, `le_replicate_of_length_le`): the
  bounds a scan writes with all-zero and all-ones fields;
* a scan that starts at the first key not below `b` sees the keys at least `b`
  (`filter_dropWhile_lt`);
* fixed-width big-endian numbers compare as the numbers do (`toBeBytes_lt_toBeBytes_iff`), and
  `fromBeBytes` reads them back; `fromLeBytes` reads back the little-endian ones.

The list lemmas hold over any linear order; the numbers are bytes.
-/

set_option autoImplicit false

namespace List

variable {α : Type} [LT α]

/-- Fields of equal length written first decide the order of what follows them. -/
theorem append_lt_append_iff_of_length_eq {l₁ l₂ r₁ r₂ : List α}
    (hlen : l₁.length = l₂.length) :
    l₁ ++ r₁ < l₂ ++ r₂ ↔ l₁ < l₂ ∨ l₁ = l₂ ∧ r₁ < r₂ := by
  induction l₁ generalizing l₂ with
  | nil =>
    obtain rfl := List.eq_nil_of_length_eq_zero hlen.symm
    simp
  | cons a l₁ ih =>
    obtain ⟨b, l₂, rfl⟩ := List.exists_cons_of_length_eq_add_one hlen.symm
    simp only [List.cons_append, List.cons_lt_cons_iff, List.cons.injEq,
      ih (Nat.succ.inj hlen)]
    constructor
    · rintro (hab | ⟨rfl, hl | ⟨rfl, hr⟩⟩)
      · exact .inl (.inl hab)
      · exact .inl (.inr ⟨rfl, hl⟩)
      · exact .inr ⟨⟨rfl, rfl⟩, hr⟩
    · rintro ((hab | ⟨rfl, hl⟩) | ⟨⟨rfl, rfl⟩, hr⟩)
      · exact .inl hab
      · exact .inr ⟨rfl, .inl hl⟩
      · exact .inr ⟨rfl, .inr ⟨rfl, hr⟩⟩

theorem append_lt_append_of_lt {l₁ l₂ r₁ r₂ : List α} (hlen : l₁.length = l₂.length)
    (h : l₁ < l₂) : l₁ ++ r₁ < l₂ ++ r₂ :=
  (append_lt_append_iff_of_length_eq hlen).mpr (.inl h)

variable [LE α] [Std.IsLinearOrder α] [Std.LawfulOrderLT α]

/-- **A scan stays in its prefix.** A list between two lists that share a prefix has it. -/
theorem prefix_of_le_of_le {p a b k : List α} (ha : p ++ a ≤ k) (hb : k ≤ p ++ b) : p <+: k := by
  induction p generalizing k with
  | nil => exact List.nil_prefix
  | cons x p ih =>
    cases k with
    | nil => exact absurd (List.le_nil.mp ha) (List.cons_ne_nil _ _)
    | cons y k =>
      rw [List.cons_append, List.cons_le_cons_iff] at ha hb
      -- the first elements agree: each of the bounds excludes the other order
      rcases ha with hxy | ⟨rfl, ha⟩
      · rcases hb with hyx | ⟨rfl, -⟩
        · exact absurd hyx (Std.Asymm.asymm _ _ hxy)
        · exact absurd hxy (Std.Irrefl.irrefl _)
      · rcases hb with hyx | ⟨-, hb⟩
        · exact absurd hyx (Std.Irrefl.irrefl _)
        · exact List.cons_prefix_cons.mpr ⟨rfl, ih ha hb⟩

/-- A list is at least a run of a least element no longer than it. -/
theorem replicate_le_of_length_le {z : α} (hz : ∀ x, ¬ x < z) {n : Nat} {l : List α}
    (hn : n ≤ l.length) : replicate n z ≤ l := by
  induction n generalizing l with
  | zero => exact List.nil_le l
  | succ n ih =>
    obtain ⟨x, l, rfl⟩ := List.exists_cons_of_length_pos (by omega : 0 < l.length)
    rw [List.replicate_succ, List.cons_le_cons_iff]
    by_cases hzx : z < x
    · exact .inl hzx
    · exact .inr ⟨Std.Trichotomous.trichotomous z x hzx (hz x), ih (by simpa using hn)⟩

/-- A list is at most a run of a greatest element no shorter than it. -/
theorem le_replicate_of_length_le {t : α} (ht : ∀ x, ¬ t < x) {n : Nat} {l : List α}
    (hn : l.length ≤ n) : l ≤ replicate n t := by
  induction l generalizing n with
  | nil => exact List.nil_le _
  | cons x l ih =>
    obtain ⟨n, rfl⟩ := Nat.exists_eq_add_one_of_ne_zero (by simp at hn; omega : n ≠ 0)
    rw [List.replicate_succ, List.cons_le_cons_iff]
    by_cases hxt : x < t
    · exact .inl hxt
    · exact .inr ⟨Std.Trichotomous.trichotomous x t hxt (ht x), ih (by simpa using hn)⟩

/-! ### Where a scan of a sorted list starts -/

section Start

variable [DecidableLT α]

/-- Once the elements of a sorted list below `b` are dropped, every element left is at least
`b`. -/
theorem le_of_mem_dropWhile_lt {b : α} : ∀ {l : List α}, l.Pairwise (· < ·) →
    ∀ x ∈ l.dropWhile (fun y => decide (y < b)), b ≤ x
  | [], _, x, hx => by simp at hx
  | y :: l, hl, x, hx => by
    obtain ⟨hhead, hl⟩ := List.pairwise_cons.mp hl
    by_cases hy : y < b
    · rw [List.dropWhile_cons_of_pos (by simpa using hy)] at hx
      exact le_of_mem_dropWhile_lt hl x hx
    · rw [List.dropWhile_cons_of_neg (by simpa using hy)] at hx
      rcases List.mem_cons.mp hx with rfl | hx
      · exact Std.not_lt.mp hy
      · exact Std.le_of_lt (Std.lt_of_le_of_lt (Std.not_lt.mp hy) (hhead x hx))

/-- A sorted list with its elements below `b` dropped, filtered, is the list filtered to the
elements at least `b`. -/
theorem filter_dropWhile_lt [DecidableLE α] {b : α} (q : α → Bool) : ∀ {l : List α},
    l.Pairwise (· < ·) →
      (l.dropWhile fun y => decide (y < b)).filter q = l.filter fun y => decide (b ≤ y) && q y
  | [], _ => rfl
  | y :: l, hl => by
    by_cases hy : y < b
    · rw [List.dropWhile_cons_of_pos (by simpa using hy),
        filter_dropWhile_lt q (List.pairwise_cons.mp hl).2,
        List.filter_cons_of_neg (by simp [Std.not_le.mpr hy])]
    · have hdrop := List.dropWhile_cons_of_neg (l := l) (p := fun y => decide (y < b))
        (by simpa using hy)
      rw [hdrop]
      apply List.filter_congr
      intro x hx
      have hbx : b ≤ x := le_of_mem_dropWhile_lt (l := y :: l) hl x (by rwa [hdrop])
      simp [hbx]

end Start

end List

namespace ByteOrder

/-- The `width` low bytes of `value`, most significant first: `to_be_bytes` of an unsigned integer
`width` bytes wide. -/
def toBeBytes : Nat → Nat → List UInt8
  | 0, _ => []
  | width + 1, value => toBeBytes width (value / 256) ++ [UInt8.ofNat value]

/-- The number bytes spell, most significant first: `from_be_bytes`. -/
def fromBeBytes (bytes : List UInt8) : Nat :=
  bytes.foldl (fun acc byte => acc * 256 + byte.toNat) 0

@[simp] theorem length_toBeBytes (width value : Nat) : (toBeBytes width value).length = width := by
  induction width generalizing value with
  | zero => rfl
  | succ width ih => simp [toBeBytes, ih]

theorem fromBeBytes_append_singleton (bytes : List UInt8) (byte : UInt8) :
    fromBeBytes (bytes ++ [byte]) = fromBeBytes bytes * 256 + byte.toNat := by
  simp [fromBeBytes, List.foldl_append]

theorem fromBeBytes_toBeBytes (width value : Nat) :
    fromBeBytes (toBeBytes width value) = value % 256 ^ width := by
  induction width generalizing value with
  | zero => simp [toBeBytes, fromBeBytes, Nat.mod_one]
  | succ width ih =>
    rw [toBeBytes, fromBeBytes_append_singleton, ih, UInt8.toNat_ofNat',
      show 256 ^ (width + 1) = 256 * 256 ^ width from Nat.pow_succ', Nat.mod_mul]
    omega

theorem toBeBytes_inj {width a b : Nat} (ha : a < 256 ^ width) (hb : b < 256 ^ width) :
    toBeBytes width a = toBeBytes width b ↔ a = b := by
  refine ⟨fun h => ?_, congrArg _⟩
  have hread := congrArg fromBeBytes h
  rwa [fromBeBytes_toBeBytes, fromBeBytes_toBeBytes, Nat.mod_eq_of_lt ha,
    Nat.mod_eq_of_lt hb] at hread

theorem div_lt_of_lt_pow_succ {width value : Nat} (h : value < 256 ^ (width + 1)) :
    value / 256 < 256 ^ width := by
  rw [Nat.pow_succ'] at h
  exact Nat.div_lt_of_lt_mul h

theorem singleton_lt_singleton {x y : UInt8} : [x] < [y] ↔ x < y := by
  simp [List.cons_lt_cons_iff]

/-- **Big-endian order is numeric order.** Two numbers of one width compare byte by byte as they
compare as numbers. -/
theorem toBeBytes_lt_toBeBytes_iff {width a b : Nat} (ha : a < 256 ^ width)
    (hb : b < 256 ^ width) : toBeBytes width a < toBeBytes width b ↔ a < b := by
  induction width generalizing a b with
  | zero => simp_all
  | succ width ih =>
    have ha' := div_lt_of_lt_pow_succ ha
    have hb' := div_lt_of_lt_pow_succ hb
    -- the high bytes decide, and the last byte breaks a tie
    rw [toBeBytes, toBeBytes, List.append_lt_append_iff_of_length_eq (by simp), ih ha' hb',
      toBeBytes_inj ha' hb', singleton_lt_singleton, UInt8.lt_iff_toNat_lt, UInt8.toNat_ofNat',
      UInt8.toNat_ofNat']
    omega

/-- The `width` low bytes of `value`, least significant first: `to_le_bytes`. -/
def toLeBytes (width value : Nat) : List UInt8 :=
  (toBeBytes width value).reverse

/-- The number bytes spell, least significant first: `from_le_bytes`. -/
def fromLeBytes (bytes : List UInt8) : Nat :=
  fromBeBytes bytes.reverse

@[simp] theorem length_toLeBytes (width value : Nat) : (toLeBytes width value).length = width := by
  simp [toLeBytes]

theorem fromLeBytes_toLeBytes (width value : Nat) :
    fromLeBytes (toLeBytes width value) = value % 256 ^ width := by
  rw [fromLeBytes, toLeBytes, List.reverse_reverse, fromBeBytes_toBeBytes]

end ByteOrder
