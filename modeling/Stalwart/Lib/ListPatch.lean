import Mathlib.Data.List.Sort

/-!
# Patching a sorted list

A client that holds a list brings it up to date by a patch: it removes some entries, then
inserts others at given positions, in ascending order of position. This module proves the two
facts a patch rests on.

* **The splice law** (`insertEach_filter`): inserting the entries of a list that a
  test accepts, at their positions in it and in ascending order, into the list of the entries the
  test rejects gives the list back. Stopped after a prefix, it gives the prefix followed by the
  rejected entries after it (`insertEach_take`).
* **Sorted restriction** (`map_fst_mergeSort_filter_eq`): two lists of keyed entries, sorted by
  one total order, list the keys of a set in the same order when they hold the same entries for
  those keys. An entry that did not change keeps its place among the others that did not.
-/

/-- A total order given by a boolean comparison, antisymmetric so that sorting by it determines
the result. -/
structure SortOrder (α : Type) where
  le : α → α → Bool
  trans : ∀ a b c, le a b = true → le b c = true → le a c = true
  total : ∀ a b, (le a b || le b a) = true
  antisymm : ∀ a b, le a b = true → le b a = true → a = b

namespace List

variable {α : Type}

theorem insertIdx_length_append (pre rest : List α) (x : α) :
    (pre ++ rest).insertIdx pre.length x = pre ++ x :: rest := by
  induction pre with
  | nil => rfl
  | cons y pre ih => simp [insertIdx_succ_cons, ih]

/-- Inserting one entry at each position, in ascending order. -/
def insertEach (base : List α) (items : List (α × Nat)) : List α :=
  items.foldl (fun l x => l.insertIdx x.2 x.1) base

/-- **The splice law**, after a prefix `pre` already in place and before a `suffix` left alone:
the accepted entries of `middle`, inserted at their positions, rebuild it. -/
theorem insertEach_zipIdx_filter (p : α → Bool) :
    ∀ (middle pre suffix : List α),
      insertEach (pre ++ (middle.filter fun a => !p a) ++ suffix)
          ((middle.zipIdx pre.length).filter fun x => p x.1) =
        pre ++ middle ++ suffix
  | [], pre, suffix => by simp [insertEach]
  | a :: middle, pre, suffix => by
    have ih := insertEach_zipIdx_filter p middle (pre ++ [a]) suffix
    rw [length_append, length_singleton] at ih
    rw [zipIdx_cons, filter_cons, filter_cons]
    cases hp : p a
    · -- a rejected entry is already in place: it joins the prefix
      simpa [hp] using ih
    · -- an accepted entry goes right after the prefix
      simp only [Bool.not_true, Bool.false_eq_true, if_false, if_true, insertEach, foldl_cons]
      rw [append_assoc, insertIdx_length_append]
      simpa [insertEach] using ih

/-- **The splice law**: the accepted entries of a list, inserted at their positions into the list
of its rejected entries, rebuild it. -/
theorem insertEach_filter (p : α → Bool) (l : List α) :
    insertEach (l.filter fun a => !p a) ((l.zipIdx).filter fun x => p x.1) = l := by
  simpa using insertEach_zipIdx_filter p l [] []

/-- The splice law stopped after `n` entries: the first `n` entries, then the rejected entries
after them. -/
theorem insertEach_take (p : α → Bool) (l : List α) (n : Nat) :
    insertEach (l.filter fun a => !p a) (((l.take n).zipIdx).filter fun x => p x.1) =
      l.take n ++ (l.drop n).filter fun a => !p a := by
  have h := insertEach_zipIdx_filter p (l.take n) [] ((l.drop n).filter fun a => !p a)
  simp only [nil_append, length_nil] at h
  rw [← filter_append, take_append_drop] at h
  exact h

/-- A list already sorted is its own sort. -/
theorem mergeSort_eq_self_of_pairwise {order : SortOrder α} {l : List α}
    (h : l.Pairwise fun a b => order.le a b = true) : l.mergeSort order.le = l :=
  (mergeSort_perm l _).eq_of_pairwise (fun a b _ _ hab hba => order.antisymm a b hab hba)
    (pairwise_mergeSort order.trans order.total l) h

/-- **Sorted restriction.** Sorted by one order, two lists of keyed entries that hold the same
entries for the keys `U` accepts list those keys in the same order. -/
theorem map_fst_mergeSort_filter_eq {β : Type} (order : SortOrder (α × β))
    {l₁ l₂ : List (α × β)} (h₁ : l₁.Nodup) (h₂ : l₂.Nodup) (U : α → Bool)
    (hsame : ∀ a b, U a = true → ((a, b) ∈ l₁ ↔ (a, b) ∈ l₂)) :
    ((l₁.mergeSort order.le).map Prod.fst).filter U =
      ((l₂.mergeSort order.le).map Prod.fst).filter U := by
  have hsorted : ∀ l : List (α × β),
      ((l.mergeSort order.le).filter fun x => U x.1).Pairwise fun a b => order.le a b = true :=
    fun l => (pairwise_mergeSort order.trans order.total l).filter _
  -- the entries of the keys of `U` are the same in both lists, so their sorts are the same
  have hperm : ((l₁.mergeSort order.le).filter fun x => U x.1).Perm
      ((l₂.mergeSort order.le).filter fun x => U x.1) := by
    refine ((mergeSort_perm l₁ _).filter _).trans
      (Perm.trans ?_ ((mergeSort_perm l₂ _).filter _).symm)
    refine (perm_ext_iff_of_nodup (h₁.filter _) (h₂.filter _)).mpr fun x => ?_
    simp only [mem_filter]
    constructor
    · rintro ⟨hx, hU⟩
      exact ⟨(hsame x.1 x.2 hU).mp hx, hU⟩
    · rintro ⟨hx, hU⟩
      exact ⟨(hsame x.1 x.2 hU).mpr hx, hU⟩
  have heq := hperm.eq_of_pairwise (fun a b _ _ hab hba => order.antisymm a b hab hba)
    (hsorted l₁) (hsorted l₂)
  rw [filter_map, filter_map]
  exact congrArg (map Prod.fst) heq

end List
