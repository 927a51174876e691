import Mathlib.Data.List.Basic

/-!
# Erasing positions one at a time

A list that loses several of its positions one after the other sees the positions after each loss
move down by one. Erasing ascending positions `i₀ < i₁ < ⋯` one at a time therefore erases
`i₀`, then `i₁ - 1`, then `i₂ - 2`, and so on. This module states what is left by the positions
kept (`keepIdx`), and proves **the shifted erasure law** (`foldl_eraseIdx_shifted`): erasing each
ascending position shifted down by its rank leaves exactly the positions not listed.
-/

namespace List

variable {α : Type}

/-- The entries of a list at the positions that `keep` accepts, in order. -/
def keepIdx (keep : Nat → Bool) (l : List α) : List α :=
  ((l.zipIdx).filter fun x => keep x.2).map Prod.fst

theorem keepIdx_cons (keep : Nat → Bool) (a : α) (l : List α) :
    keepIdx keep (a :: l) =
      if keep 0 then a :: keepIdx (fun i => keep (i + 1)) l else keepIdx (fun i => keep (i + 1)) l := by
  have hshift : (l.zipIdx 1).filter (fun x => keep x.2) =
      ((l.zipIdx).filter fun x => keep (x.2 + 1)).map fun x => (x.1, x.2 + 1) := by
    rw [zipIdx_succ, filter_map]
    rfl
  unfold keepIdx
  rw [zipIdx_cons, filter_cons, hshift]
  dsimp only
  cases keep 0
  · simp only [Bool.false_eq_true, if_false, map_map]
    rfl
  · simp only [if_true, map_cons, map_map]
    rfl

/-- Keeping every position keeps the list. -/
@[simp] theorem keepIdx_true (l : List α) : keepIdx (fun _ => true) l = l := by
  unfold keepIdx
  rw [filter_true, zipIdx_map_fst]

/-- Keeping by a test on the entries, when the positions kept are those of the entries it
accepts. -/
theorem keepIdx_eq_filter {keep : Nat → Bool} {p : α → Bool} {l : List α}
    (h : ∀ x ∈ l.zipIdx, keep x.2 = p x.1) : keepIdx keep l = l.filter p := by
  unfold keepIdx
  rw [filter_congr h]
  show map Prod.fst (filter (p ∘ Prod.fst) l.zipIdx) = _
  rw [← filter_map, zipIdx_map_fst]

/-- **One erasure.** Erasing a position that is not kept, then keeping by the test shifted past
it, keeps what the test kept. -/
theorem keepIdx_eraseIdx (keep : Nat → Bool) :
    ∀ (l : List α) (p : Nat), keep p = false →
      keepIdx (fun i => if i < p then keep i else keep (i + 1)) (l.eraseIdx p) = keepIdx keep l
  | [], _, _ => rfl
  | a :: l, 0, hp => by
    simp only [eraseIdx_cons_zero, keepIdx_cons, hp, Nat.not_lt_zero, if_false]
    rfl
  | a :: l, p + 1, hp => by
    have ih := keepIdx_eraseIdx (fun i => keep (i + 1)) l p hp
    rw [eraseIdx_cons_succ, keepIdx_cons, keepIdx_cons, if_pos (Nat.zero_lt_succ p)]
    -- past the head, the shifted test is the shifted test of the tail
    have htail : (fun i => if i + 1 < p + 1 then keep (i + 1) else keep (i + 1 + 1)) =
        fun i => if i < p then keep (i + 1) else keep (i + 1 + 1) := by
      funext i
      simp only [Nat.add_lt_add_iff_right]
    rw [htail, ih]

/-- **The shifted erasure law**, from rank `k`: erasing ascending positions, each shifted down by
its rank counted from `k`, keeps the positions that, shifted up by `k`, are not listed. -/
theorem foldl_eraseIdx_shifted_from :
    ∀ (is : List Nat) (k : Nat) (l : List α), is.Pairwise (· < ·) → (∀ i ∈ is, k ≤ i) →
      (is.zipIdx k).foldl (fun l x => l.eraseIdx (x.1 - x.2)) l =
        keepIdx (fun j => decide (j + k ∉ is)) l
  | [], _, l, _, _ => by simp
  | i :: rest, k, l, hsorted, hle => by
    obtain ⟨hi, hrest⟩ := pairwise_cons.mp hsorted
    have hki : k ≤ i := hle i mem_cons_self
    rw [zipIdx_cons, foldl_cons,
      foldl_eraseIdx_shifted_from rest (k + 1) _ hrest fun j hj => by have := hi j hj; omega]
    -- erasing `i - k` first: the rest of the positions move down by one
    have hkeep : (fun j => decide (j + (k + 1) ∉ rest)) = fun j =>
        if j < i - k then decide (j + k ∉ i :: rest) else decide (j + 1 + k ∉ i :: rest) := by
      funext j
      by_cases hj : j < i - k
      · have hnot : j + (k + 1) ∉ rest := fun hmem => by have := hi _ hmem; omega
        have hnot' : j + k ∉ i :: rest := by
          rw [mem_cons, not_or]
          exact ⟨by omega, fun hmem => by have := hi _ hmem; omega⟩
        simp only [hj, if_true, hnot, hnot']
      · have hne : j + (k + 1) ≠ i := by omega
        rw [show j + 1 + k = j + (k + 1) by omega]
        simp only [hj, if_false, mem_cons, hne, false_or]
    rw [hkeep, keepIdx_eraseIdx _ l (i - k) (by simp [Nat.sub_add_cancel hki])]

/-- **The shifted erasure law**: erasing ascending positions one at a time, each shifted down by
the number erased before it, keeps exactly the positions not listed. -/
theorem foldl_eraseIdx_shifted (is : List Nat) (l : List α) (hsorted : is.Pairwise (· < ·)) :
    (is.zipIdx).foldl (fun l x => l.eraseIdx (x.1 - x.2)) l = keepIdx (fun j => decide (j ∉ is)) l := by
  simpa using foldl_eraseIdx_shifted_from is 0 l hsorted fun i _ => Nat.zero_le i

/-- In an ascending list of numbers above `k`, the number of rank `i`, counted from `k`, is above
`i`. -/
theorem snd_lt_fst_of_mem_zipIdx :
    ∀ (l : List Nat) (k : Nat), l.Pairwise (· < ·) → (∀ x ∈ l, k < x) → ∀ x ∈ l.zipIdx k, x.2 < x.1
  | [], _, _, _, _, hx => absurd hx not_mem_nil
  | a :: l, k, hsorted, habove, x, hx => by
    obtain ⟨ha, hl⟩ := pairwise_cons.mp hsorted
    have hka := habove a mem_cons_self
    rw [zipIdx_cons, mem_cons] at hx
    rcases hx with rfl | hx
    · exact hka
    · -- the rest of the list is above `a`, so above `k + 1`
      exact snd_lt_fst_of_mem_zipIdx l (k + 1) hl (fun y hy => by have := ha y hy; omega) x hx

end List
