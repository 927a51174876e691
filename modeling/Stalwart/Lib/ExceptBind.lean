import Mathlib.Logic.Basic

/-!
# Peeling `Except` computations

A fallible function written in `do` notation over `Except` is a chain of binds. These rules take a
successful result apart, one bind at a time, so that a caller never unfolds the monad.
-/

namespace Except

variable {ε α β : Type}

@[simp] theorem ok_bind_eq (a : α) (f : α → Except ε β) : (Except.ok a >>= f) = f a :=
  rfl

@[simp] theorem error_bind_eq (e : ε) (f : α → Except ε β) : (Except.error e >>= f) = .error e :=
  rfl

@[simp] theorem throw_bind_eq (e : ε) (f : α → Except ε β) :
    (throw e >>= f : Except ε β) = .error e :=
  rfl

/-- **Bind inversion.** A bind succeeds when its first step does and the rest succeeds on the
value it gave. -/
theorem bind_eq_ok_iff {x : Except ε α} {f : α → Except ε β} {b : β} :
    x >>= f = .ok b ↔ ∃ a, x = .ok a ∧ f a = .ok b := by
  cases x with
  | error e => simp
  | ok a => simp

/-- **Map inversion.** -/
theorem map_eq_ok_iff {x : Except ε α} {f : α → β} {b : β} :
    x.map f = .ok b ↔ ∃ a, x = .ok a ∧ f a = b := by
  cases x with
  | error e => simp [Except.map]
  | ok a => simp [Except.map]

/-- **Loop inversion.** A loop whose body may fail succeeds when the body succeeds on every
element: the first failure would have stopped it. -/
theorem forM_eq_ok_iff {l : List α} {f : α → Except ε Unit} :
    l.forM f = .ok () ↔ ∀ a ∈ l, f a = .ok () := by
  induction l with
  | nil => simp [List.forM, pure, Except.pure]
  | cons a l ih =>
    change (f a >>= fun _ => l.forM f) = _ ↔ _
    rw [bind_eq_ok_iff, List.forall_mem_cons, ← ih]
    constructor
    · rintro ⟨⟨⟩, ha, hl⟩
      exact ⟨ha, hl⟩
    · rintro ⟨ha, hl⟩
      exact ⟨⟨⟩, ha, hl⟩

/-- **Loop invariant.** A property of the accumulator that each successful step keeps, on the
elements of the list, holds after the whole fold. -/
theorem foldlM_invariant {l : List α} {f : β → α → Except ε β} {P : β → Prop}
    (hstep : ∀ b a b', a ∈ l → P b → f b a = .ok b' → P b') {init b : β} (hinit : P init)
    (h : l.foldlM f init = .ok b) : P b := by
  induction l generalizing init with
  | nil =>
    cases h
    exact hinit
  | cons a l ih =>
    rw [List.foldlM_cons, bind_eq_ok_iff] at h
    obtain ⟨b', hb', hrest⟩ := h
    have hkept := hstep init a b' List.mem_cons_self hinit hb'
    exact ih (fun b x b'' hx => hstep b x b'' (List.mem_cons_of_mem a hx)) hkept hrest

end Except
