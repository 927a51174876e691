import Mathlib.Logic.Basic

/-!
# Running `StateT σ Option` computations

A reader that gives up with `?` at the first input it cannot read is a chain of binds in
`StateT σ Option`. These rules run such a chain one step at a time, from what each step is known
to return, so that a caller never unfolds the monad.
-/

namespace StateT

variable {σ α β : Type}

/-- **One step of a chain**: a step that returns `a` and the state `s'` passes them on. -/
theorem bind_apply_of_eq {x : StateT σ Option α} {s s' : σ} {a : α} (h : x s = some (a, s'))
    (f : α → StateT σ Option β) : (x >>= f) s = f a s' := by
  change (x s).bind (fun p => f p.1 p.2) = f a s'
  rw [h]
  rfl

/-- **The last step of a chain**, once `x >>= pure ∘ f` has become `f <$> x`. -/
theorem map_apply_of_eq {x : StateT σ Option α} {s s' : σ} {a : α} (h : x s = some (a, s'))
    (f : α → β) : (f <$> x) s = some (f a, s') := by
  rw [← bind_pure_comp, bind_apply_of_eq h]
  rfl

@[simp] theorem pure_apply (a : α) (s : σ) : (pure a : StateT σ Option α) s = some (a, s) :=
  rfl

/-- A step that lifts a value read elsewhere leaves the state as it is. -/
@[simp] theorem lift_some_apply (a : α) (s : σ) :
    (StateT.lift (some a) : StateT σ Option α) s = some (a, s) :=
  rfl

end StateT
