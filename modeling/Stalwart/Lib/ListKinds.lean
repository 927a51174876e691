import Mathlib.Logic.Basic
import Mathlib.Data.List.Induction

/-!
# List transformers that see one kind of element

A list of mixed elements (containers and items, say) is often updated by passes that each look
at one kind only. This module names the two properties such a pass has with respect to a kind
`p`, and the rules that carry them through composition and through the passes these developments
are built from (search a first match, erase it, append).

* `Sees p f`: the `p`-elements of `f l` depend only on the `p`-elements of `l`.
* `Ignores p f`: `f` leaves the `p`-elements of `l` exactly as they were.

A pass that only touches `p`-elements `Sees p` and `Ignores (!p ·)`. Composites of such passes
keep both properties, so the `p`-part of a long run can be computed from the `p`-part alone.
-/

namespace List

variable {α : Type}

/-- The `p`-elements of `f l` depend only on the `p`-elements of `l`. -/
def Sees (p : α → Bool) (f : List α → List α) : Prop :=
  ∀ l, (f l).filter p = (f (l.filter p)).filter p

/-- `f` keeps the `p`-elements of its argument, in order. -/
def Ignores (p : α → Bool) (f : List α → List α) : Prop :=
  ∀ l, (f l).filter p = l.filter p

variable {p : α → Bool} {f g : List α → List α}

theorem Ignores.sees (h : Ignores p f) : Sees p f := by
  intro l
  rw [h l, h (l.filter p), List.filter_filter]
  simp

theorem Sees.comp (hf : Sees p f) (hg : Sees p g) : Sees p (g ∘ f) := by
  intro l
  simp only [Function.comp]
  rw [hg (f l), hf l, ← hg (f (l.filter p))]

theorem Ignores.comp (hf : Ignores p f) (hg : Ignores p g) : Ignores p (g ∘ f) := by
  intro l
  simp only [Function.comp, hg (f l), hf l]

theorem sees_id : Sees p id := by
  intro l
  simp

/-- Appending elements of another kind. -/
theorem ignores_append {tail : List α} (htail : ∀ a ∈ tail, p a = false) :
    Ignores p (· ++ tail) := by
  intro l
  have hnil : tail.filter p = [] := List.filter_eq_nil_iff.mpr fun a ha => by simp [htail a ha]
  simp only [List.filter_append, hnil, List.append_nil]

/-- Appending elements of the kind. -/
theorem sees_append (tail : List α) : Sees p (· ++ tail) := by
  intro l
  simp [List.filter_append, List.filter_filter]

/-- Erasing the first element of another kind leaves the kind alone. -/
theorem filter_eraseP_of_imp {arm : α → Bool} (harm : ∀ a, arm a = true → p a = false)
    (l : List α) : (l.eraseP arm).filter p = l.filter p := by
  induction l with
  | nil => rfl
  | cons a l ih =>
    by_cases ha : arm a = true
    · simp [List.eraseP_cons_of_pos ha, harm a ha]
    · rw [List.eraseP_cons_of_neg ha]
      by_cases hp : p a = true <;> simp [hp, ih]

/-- Searching and erasing among the elements of the kind is searching and erasing in the whole
list, when only elements of the kind can match. -/
theorem find?_filter_of_imp {arm : α → Bool} (harm : ∀ a, arm a = true → p a = true)
    (l : List α) : (l.filter p).find? arm = l.find? arm := by
  rw [List.find?_filter]
  congr 1
  funext a
  by_cases h : arm a = true
  · simp [h, harm a h]
  · simp [h]

theorem eraseP_filter_of_imp {arm : α → Bool} (harm : ∀ a, arm a = true → p a = true)
    (l : List α) : (l.filter p).eraseP arm = (l.eraseP arm).filter p := by
  rw [List.eraseP_filter]
  congr 2
  funext a
  by_cases h : arm a = true
  · simp [h, harm a h]
  · simp [h]

end List
