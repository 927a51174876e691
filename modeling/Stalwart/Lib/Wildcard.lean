import Mathlib.Data.List.Basic

/-!
# Wildcard patterns

A wildcard pattern is a list of tokens over an alphabet `α`. A symbol matches itself, `one`
matches any one symbol, and `many allowed` matches any run of symbols that `allowed` accepts:
every symbol for the `*` of a glob, every one but the hierarchy delimiter for the `%` of an IMAP
mailbox pattern. `accepts` decides whether a pattern matches a word in full, by trying every split
of the word at each `many`; it is the language a matcher is measured against.

The lemmas say how `accepts` reads each token (`accepts_many_iff` for the splits of a `many`),
and that a run of symbols in a pattern matches exactly itself (`accepts_syms_append_iff`).
-/

set_option autoImplicit false

namespace Wildcard

/-- A token of a wildcard pattern over the alphabet `α`. -/
inductive Token (α : Type) where
  | sym (a : α)
  | one
  | many (allowed : α → Bool)

variable {α : Type}

/-- The pattern of a word: each symbol matches itself. -/
def syms (u : List α) : List (Token α) :=
  u.map .sym

@[simp]
theorem syms_nil : syms ([] : List α) = [] := rfl

@[simp]
theorem syms_cons (a : α) (u : List α) : syms (a :: u) = .sym a :: syms u := rfl

variable [DecidableEq α]

/-- Whether a pattern matches a word in full. -/
def accepts : List (Token α) → List α → Bool
  | [], w => w.isEmpty
  | .sym a :: ps, b :: w => decide (a = b) && accepts ps w
  | .sym _ :: _, [] => false
  | .one :: ps, _ :: w => accepts ps w
  | .one :: _, [] => false
  | .many allowed :: ps, w =>
    (List.range (w.length + 1)).any fun k => (w.take k).all allowed && accepts ps (w.drop k)

section Tokens

-- each lemma here reads one arm of `accepts`
attribute [local simp] accepts

@[simp]
theorem accepts_nil_iff (w : List α) : accepts [] w = true ↔ w = [] := by
  simp

@[simp]
theorem accepts_sym_cons (a b : α) (ps : List (Token α)) (w : List α) :
    accepts (.sym a :: ps) (b :: w) = true ↔ a = b ∧ accepts ps w = true := by
  simp

@[simp]
theorem accepts_sym_nil (a : α) (ps : List (Token α)) : accepts (.sym a :: ps) [] = false := rfl

@[simp]
theorem accepts_one_cons (ps : List (Token α)) (b : α) (w : List α) :
    accepts (.one :: ps) (b :: w) = accepts ps w := rfl

@[simp]
theorem accepts_one_nil (ps : List (Token α)) : accepts (.one :: ps) [] = false := rfl

/-- **A `many` takes a prefix of allowed symbols** and leaves the rest to the pattern after it. -/
theorem accepts_many_iff (allowed : α → Bool) (ps : List (Token α)) (w : List α) :
    accepts (.many allowed :: ps) w = true ↔
      ∃ u v, w = u ++ v ∧ (∀ a ∈ u, allowed a = true) ∧ accepts ps v = true := by
  simp only [accepts, List.any_eq_true, List.mem_range, Bool.and_eq_true, List.all_eq_true]
  constructor
  · rintro ⟨k, -, hall, hrest⟩
    exact ⟨w.take k, w.drop k, (List.take_append_drop k w).symm, hall, hrest⟩
  · rintro ⟨u, v, rfl, hall, hrest⟩
    refine ⟨u.length, by simp only [List.length_append]; omega, ?_, ?_⟩
    · simpa using hall
    · simpa using hrest

end Tokens

theorem accepts_many_of_split (allowed : α → Bool) (ps : List (Token α)) {u v : List α}
    (hall : ∀ a ∈ u, allowed a = true) (hrest : accepts ps v = true) :
    accepts (.many allowed :: ps) (u ++ v) = true :=
  (accepts_many_iff allowed ps _).mpr ⟨u, v, rfl, hall, hrest⟩

/-- **A run of symbols matches exactly itself**, in front of whatever follows. -/
theorem accepts_syms_append_iff (u : List α) (ps : List (Token α)) (w : List α) :
    accepts (syms u ++ ps) w = true ↔ ∃ v, w = u ++ v ∧ accepts ps v = true := by
  induction u generalizing w with
  | nil => simp
  | cons a u ih =>
    cases w with
    | nil => simp
    | cons b w =>
      simp only [syms_cons, List.cons_append, accepts_sym_cons, ih]
      constructor
      · rintro ⟨rfl, v, rfl, hv⟩
        exact ⟨v, rfl, hv⟩
      · rintro ⟨v, hw, hv⟩
        obtain ⟨rfl, rfl⟩ := List.cons_eq_cons.mp hw
        exact ⟨rfl, v, rfl, hv⟩

theorem accepts_syms_append (u : List α) (ps : List (Token α)) (v : List α) :
    accepts (syms u ++ ps) (u ++ v) = accepts ps v := by
  rw [Bool.eq_iff_iff, accepts_syms_append_iff]
  constructor
  · rintro ⟨v', hv, h⟩
    rwa [List.append_cancel_left hv]
  · intro h
    exact ⟨v, rfl, h⟩

end Wildcard
