import Mathlib.Data.List.Basic
import Mathlib.Tactic.Ring

/-!
# Fixed-width units in a bit stream

A run of `w`-bit units read as one big-endian number (`packValue`), and what a writer or a reader
that keeps the stream's pending bits in a `UInt32` needs of it:

* the low bits of an accumulator after a shift and an or (`shiftLeft_or_low_bits`), and of a
  shifted and masked accumulator (`shiftRight_and_mask`, `shiftLeft_and_mask`): only the low bits
  are ever read, so the bits a shift pushes out of the word do not matter;
* the unit at the top of a run of bits (`packValue_eq_cons`): when a run holds `q` followed by `p`,
  its first unit is the top of `q`;
* a stream between a writer and a reader (`Split`): the reader has written some of the units, and
  the two hold the rest between them as pending bits, the reader's first. The writer reading a unit
  (`Split.push`), bits moving from the writer to the reader (`Split.move`) and the reader writing a
  unit (`Split.emit`) keep it, and when little is pending what the reader has written is nearly
  everything (`Split.eq_of_lt`, `Split.eq_append_of_lt`).
-/

namespace BitPacking

/-! ## Splitting a number at a power of two -/

/-- Setting the bits of a small number below a shifted one is adding. -/
theorem or_eq_add_of_lt (a b k : Nat) (hb : b < 2 ^ k) : a * 2 ^ k ||| b = a * 2 ^ k + b := by
  rw [← Nat.shiftLeft_eq, Nat.shiftLeft_add_eq_or_of_lt hb]

theorem mul_pow_add_div {a b k : Nat} (hb : b < 2 ^ k) : (a * 2 ^ k + b) / 2 ^ k = a := by
  rw [Nat.add_comm, Nat.add_mul_div_right _ _ (Nat.two_pow_pos k), Nat.div_eq_of_lt hb,
    Nat.zero_add]

theorem mul_pow_add_mod {a b k : Nat} (hb : b < 2 ^ k) : (a * 2 ^ k + b) % 2 ^ k = b := by
  rw [Nat.add_comm, Nat.add_mul_mod_self_right, Nat.mod_eq_of_lt hb]

/-- The low `n + k` bits of `a` followed by `k` bits `b`: the low `n` bits of `a`, then `b`. -/
theorem mul_pow_add_mod_pow {a b k : Nat} (n : Nat) (hb : b < 2 ^ k) :
    (a * 2 ^ k + b) % 2 ^ (n + k) = a % 2 ^ n * 2 ^ k + b := by
  rw [Nat.pow_add, Nat.mul_comm (2 ^ n), Nat.mod_mul, mul_pow_add_mod hb, mul_pow_add_div hb]
  exact Nat.add_comm _ _ |>.trans (congrArg (· + b) (Nat.mul_comm _ _))

/-! ## A run of units as a number -/

/-- The units, most significant first, as one number of `w` bits a unit. -/
def packValue (w : Nat) : List Nat → Nat
  | [] => 0
  | x :: xs => x * 2 ^ (w * xs.length) + packValue w xs

@[simp] theorem packValue_nil (w : Nat) : packValue w [] = 0 := rfl

theorem packValue_cons (w x : Nat) (xs : List Nat) :
    packValue w (x :: xs) = x * 2 ^ (w * xs.length) + packValue w xs := rfl

/-- Reading one more unit shifts the value by a unit's width. -/
theorem packValue_append_singleton (w : Nat) (xs : List Nat) (y : Nat) :
    packValue w (xs ++ [y]) = packValue w xs * 2 ^ w + y := by
  induction xs with
  | nil => simp [packValue]
  | cons x xs ih =>
    rw [List.cons_append, packValue_cons, packValue_cons, ih, List.length_append,
      List.length_singleton, Nat.mul_add, Nat.mul_one, Nat.pow_add]
    ring

theorem packValue_lt (w : Nat) (xs : List Nat) (h : ∀ x ∈ xs, x < 2 ^ w) :
    packValue w xs < 2 ^ (w * xs.length) := by
  induction xs with
  | nil => simp
  | cons x xs ih =>
    have hx : x < 2 ^ w := h x List.mem_cons_self
    have hrest := ih fun y hy => h y (List.mem_cons_of_mem x hy)
    calc packValue w (x :: xs) = x * 2 ^ (w * xs.length) + packValue w xs := rfl
      _ < (x + 1) * 2 ^ (w * xs.length) := by rw [Nat.succ_mul]; omega
      _ ≤ 2 ^ w * 2 ^ (w * xs.length) := Nat.mul_le_mul_right _ hx
      _ = 2 ^ (w * (x :: xs).length) := by
        rw [← Nat.pow_add, List.length_cons, Nat.mul_succ, Nat.add_comm]

/-- **The top unit of a run.** A run of units that holds `q`, its high `j` bits, followed by `p`, its
low `k` bits, with `q` at least a unit wide: its first unit is the top `w` bits of `q`, and the
rest holds the remaining bits of `q` followed by `p`. -/
theorem packValue_eq_cons {w j k q p : Nat} {xs : List Nat} (hw : 0 < w)
    (hxs : ∀ x ∈ xs, x < 2 ^ w) (hlen : w * xs.length = j + k) (hj : w ≤ j) (hp : p < 2 ^ k)
    (hv : packValue w xs = q * 2 ^ k + p) :
    ∃ rest, xs = q / 2 ^ (j - w) :: rest ∧ packValue w rest = q % 2 ^ (j - w) * 2 ^ k + p := by
  match xs with
  | [] =>
    -- an empty run holds no bits, yet `q` has at least `w`
    simp only [List.length_nil, Nat.mul_zero] at hlen
    omega
  | x :: rest =>
    have hrest : w * rest.length = j - w + k := by
      simp only [List.length_cons, Nat.mul_succ] at hlen
      omega
    have hpow : 2 ^ (w * rest.length) = 2 ^ (j - w) * 2 ^ k := by rw [hrest, Nat.pow_add]
    have hlow : q % 2 ^ (j - w) * 2 ^ k + p < 2 ^ (w * rest.length) := by
      rw [hpow, ← Nat.pow_add]
      calc q % 2 ^ (j - w) * 2 ^ k + p < (q % 2 ^ (j - w) + 1) * 2 ^ k := by
            rw [Nat.succ_mul]; omega
        _ ≤ 2 ^ (j - w) * 2 ^ k := Nat.mul_le_mul_right _ (Nat.mod_lt _ (Nat.two_pow_pos _))
        _ = 2 ^ (j - w + k) := (Nat.pow_add _ _ _).symm
    have hsplit : q * 2 ^ k + p =
        q / 2 ^ (j - w) * 2 ^ (w * rest.length) + (q % 2 ^ (j - w) * 2 ^ k + p) := by
      conv_lhs => rw [← Nat.div_add_mod q (2 ^ (j - w))]
      rw [hpow]
      ring
    have hrestlt : packValue w rest < 2 ^ (w * rest.length) :=
      packValue_lt w rest fun y hy => hxs y (List.mem_cons_of_mem x hy)
    rw [packValue_cons, hsplit] at hv
    -- both sides split the same number at `2 ^ (w * rest.length)`
    have hx := congrArg (· / 2 ^ (w * rest.length)) hv
    have hr := congrArg (· % 2 ^ (w * rest.length)) hv
    simp only [mul_pow_add_div hrestlt, mul_pow_add_div hlow] at hx
    simp only [mul_pow_add_mod hrestlt, mul_pow_add_mod hlow] at hr
    exact ⟨rest, hx ▸ rfl, hr⟩

/-! ## A stream between a writer and a reader -/

section Stream

variable {α : Type} (val : α → Nat) (w : Nat)

/-- The reader has written `out` of the writer's `units`, and the rest is what the two hold: `q`,
the reader's `j` pending bits, followed by `p`, the writer's `k`. -/
def Split (units out : List α) (j q k p : Nat) : Prop :=
  ∃ rest, units = out ++ rest ∧ w * rest.length = j + k ∧ packValue w (rest.map val) = q * 2 ^ k + p

variable {val w}

theorem split_nil (out : List α) : Split val w out out 0 0 0 0 :=
  ⟨[], by simp, by simp, by simp⟩

/-- The writer reads a unit: its bits join the writer's. -/
theorem Split.push {units out : List α} {j q k p : Nat} (x : α) (h : Split val w units out j q k p) :
    Split val w (units ++ [x]) out j q (k + w) (p * 2 ^ w + val x) := by
  obtain ⟨rest, hunits, hlen, hv⟩ := h
  refine ⟨rest ++ [x], by rw [hunits, List.append_assoc], ?_, ?_⟩
  · rw [List.length_append, List.length_singleton, Nat.mul_succ]
    omega
  · rw [List.map_append, List.map_singleton, packValue_append_singleton, hv, Nat.pow_add]
    ring

/-- The top `s` of the writer's bits move to the reader. -/
theorem Split.move {units out : List α} {j q k p : Nat} (s : Nat)
    (h : Split val w units out j q (k + s) p) :
    Split val w units out (j + s) (q * 2 ^ s + p / 2 ^ k) k (p % 2 ^ k) := by
  obtain ⟨rest, hunits, hlen, hv⟩ := h
  refine ⟨rest, hunits, by omega, ?_⟩
  rw [hv]
  conv_lhs => rw [← Nat.div_add_mod p (2 ^ k)]
  rw [Nat.pow_add]
  ring

/-- The reader holds a whole unit: it writes the top `w` of its bits. -/
theorem Split.emit {units out : List α} {j q k p : Nat} (hw : 0 < w) (hval : ∀ x, val x < 2 ^ w)
    (hp : p < 2 ^ k) (hj : w ≤ j) (h : Split val w units out j q k p) :
    ∃ x, val x = q / 2 ^ (j - w) ∧
      Split val w units (out ++ [x]) (j - w) (q % 2 ^ (j - w)) k p := by
  obtain ⟨rest, hunits, hlen, hv⟩ := h
  have hlen' : w * (rest.map val).length = j + k := by rw [List.length_map]; exact hlen
  obtain ⟨top, hrest, htop⟩ :=
    packValue_eq_cons hw (by simp only [List.mem_map]; rintro _ ⟨x, -, rfl⟩; exact hval x)
      hlen' hj hp hv
  match rest, hrest with
  | x :: rest, hrest =>
    simp only [List.map_cons, List.cons.injEq] at hrest
    refine ⟨x, hrest.1, rest, by rw [hunits, List.append_assoc, List.singleton_append], ?_, ?_⟩
    · simp only [List.length_cons, Nat.mul_succ] at hlen
      omega
    · rw [hrest.2]
      exact htop

/-- Nothing pending on the writer's side and less than a unit on the reader's: the reader has
written everything. -/
theorem Split.eq_of_lt {units out : List α} {j q p : Nat} (h : Split val w units out j q 0 p)
    (hj : j < w) : units = out := by
  obtain ⟨rest, hunits, hlen, -⟩ := h
  have hnil : rest = [] := by
    rcases rest with _ | ⟨x, rest⟩
    · rfl
    · simp only [List.length_cons, Nat.mul_succ] at hlen
      omega
  rw [hunits, hnil, List.append_nil]

/-- Some bits pending, fewer than two units' worth: they are exactly one unit, the reader's
bits followed by the writer's. -/
theorem Split.eq_append_of_lt {units out : List α} {j q k p : Nat} (h : Split val w units out j q k p)
    (hpos : 0 < j + k) (hlt : j + k < 2 * w) :
    ∃ x, units = out ++ [x] ∧ val x = q * 2 ^ k + p ∧ j + k = w := by
  obtain ⟨rest, hunits, hlen, hv⟩ := h
  match rest with
  | [] => simp at hlen; omega
  | [x] =>
    simp only [List.map_cons, List.map_nil, packValue_cons, List.length_nil, Nat.mul_zero,
      Nat.pow_zero, Nat.mul_one, packValue_nil, Nat.add_zero] at hv
    simp only [List.length_singleton, Nat.mul_one] at hlen
    exact ⟨x, hunits, hv, hlen.symm⟩
  | _ :: _ :: _ =>
    simp only [List.length_cons, Nat.mul_succ] at hlen
    omega

end Stream

/-! ## Pending bits in a `UInt32` -/

/-- Shifting `a` left by `s` and setting the bits of `b` below: the low `n + s` bits are the low `n`
bits of `a` followed by `b`, as long as they fit the word. -/
theorem shiftLeft_or_low_bits (a b s : UInt32) (n : Nat) (hs : s.toNat < 32)
    (hb : b.toNat < 2 ^ s.toNat) (hfit : n + s.toNat ≤ 32) :
    ((a <<< s) ||| b).toNat % 2 ^ (n + s.toNat) = a.toNat % 2 ^ n * 2 ^ s.toNat + b.toNat := by
  have hword : (2 : Nat) ^ 32 = 2 ^ (32 - s.toNat) * 2 ^ s.toNat := by
    rw [← Nat.pow_add, Nat.sub_add_cancel (by omega)]
  have hshift : (a <<< s).toNat = a.toNat % 2 ^ (32 - s.toNat) * 2 ^ s.toNat := by
    rw [UInt32.toNat_shiftLeft, Nat.mod_eq_of_lt hs, Nat.shiftLeft_eq, hword,
      Nat.mul_mod_mul_right]
  rw [UInt32.toNat_or, hshift, or_eq_add_of_lt _ _ _ hb, mul_pow_add_mod_pow n hb,
    Nat.mod_mod_of_dvd _ (Nat.pow_dvd_pow 2 (by omega))]

/-- The `m` bits of `a` from bit `s` up. -/
theorem shiftRight_and_mask (a s mask : UInt32) (m : Nat) (hs : s.toNat < 32)
    (hmask : mask.toNat = 2 ^ m - 1) :
    ((a >>> s) &&& mask).toNat = a.toNat / 2 ^ s.toNat % 2 ^ m := by
  rw [UInt32.toNat_and, UInt32.toNat_shiftRight, Nat.mod_eq_of_lt hs, hmask,
    Nat.and_two_pow_sub_one_eq_mod, Nat.shiftRight_eq_div_pow]

/-- The low `m - s` bits of `a`, padded with `s` zero bits. -/
theorem shiftLeft_and_mask (a s mask : UInt32) (m : Nat) (hs : s.toNat ≤ m) (hm : m ≤ 32)
    (hs32 : s.toNat < 32) (hmask : mask.toNat = 2 ^ m - 1) :
    ((a <<< s) &&& mask).toNat = a.toNat % 2 ^ (m - s.toNat) * 2 ^ s.toNat := by
  have hword : (2 : Nat) ^ m = 2 ^ (m - s.toNat) * 2 ^ s.toNat := by
    rw [← Nat.pow_add, Nat.sub_add_cancel hs]
  rw [UInt32.toNat_and, UInt32.toNat_shiftLeft, Nat.mod_eq_of_lt hs32, hmask,
    Nat.and_two_pow_sub_one_eq_mod, Nat.mod_mod_of_dvd _ (Nat.pow_dvd_pow 2 hm),
    Nat.shiftLeft_eq, hword, Nat.mul_mod_mul_right]

end BitPacking
