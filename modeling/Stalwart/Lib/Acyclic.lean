import Mathlib.Data.Fintype.Card
import Mathlib.Data.Fintype.EquivFin
import Mathlib.Data.Fintype.Sets
import Mathlib.Data.List.Nodup
import Mathlib.Logic.Relation
import Mathlib.Order.WellFounded

/-!
# Orders that respect a relation, and cycles

A list *respects* a relation `r` when every element comes after all its `r`-predecessors
(`List.RespectsPreds`). Such a list, without repeats, holds no element of a cycle of `r`:
going back along the cycle only ever reaches earlier positions (`List.RespectsPreds.mem_prefix`).

Conversely, a nonempty finite set in which every element has an `r`-predecessor holds a cycle
(`Relation.exists_transGen_self_of_forall_pred`): with no cycle the transitive closure is a
strict order, well founded on a finite set, and its least element has no predecessor.
-/

set_option autoImplicit false

namespace List

variable {α : Type} {r : α → α → Prop}

/-- Every element of `order` comes after all its `r`-predecessors. -/
def RespectsPreds (r : α → α → Prop) (order : List α) : Prop :=
  ∀ l₁ b l₂, order = l₁ ++ b :: l₂ → ∀ a, r a b → a ∈ l₁

theorem respectsPreds_nil : RespectsPreds r [] := fun l₁ _ _ h => by
  cases l₁ <;> cases h

/-- An element whose predecessors are all listed may come next. -/
theorem RespectsPreds.snoc {order : List α} {b : α} (h : RespectsPreds r order)
    (hb : ∀ a, r a b → a ∈ order) : RespectsPreds r (order ++ [b]) := by
  intro l₁ c l₂ heq a hac
  rcases eq_nil_or_concat l₂ with rfl | ⟨l₂', z, rfl⟩
  · -- `c` is the new last element
    obtain ⟨rfl, rfl⟩ : order = l₁ ∧ b = c := by simpa using heq
    exact hb a hac
  · have heq' : order ++ [b] = (l₁ ++ c :: l₂') ++ [z] := by simpa using heq
    exact h l₁ c l₂' (append_inj' heq' rfl).1 a hac

/-- Going back along `r` from a listed element stays before it. -/
theorem RespectsPreds.mem_prefix {order : List α} (h : RespectsPreds r order) {a b : α}
    (hab : Relation.TransGen r a b) : ∀ l₁ l₂, order = l₁ ++ b :: l₂ → a ∈ l₁ := by
  induction hab with
  | single hab => exact fun l₁ l₂ heq => h l₁ _ l₂ heq a hab
  | @tail c b _ hcb ih =>
    intro l₁ l₂ heq
    -- `c` comes before `b`, and `a` before `c`
    obtain ⟨l₁', l₂', rfl⟩ := mem_iff_append.mp (h l₁ b l₂ heq c hcb)
    exact mem_append_left _ (ih l₁' (l₂' ++ b :: l₂) (by simp [heq]))

/-- A list without repeats that respects `r` holds no element of a cycle of `r`. -/
theorem RespectsPreds.not_transGen_self {order : List α} (h : RespectsPreds r order)
    (hnodup : order.Nodup) {b : α} (hb : b ∈ order) : ¬ Relation.TransGen r b b := by
  intro hcycle
  obtain ⟨l₁, l₂, heq⟩ := mem_iff_append.mp hb
  have hmem := h.mem_prefix hcycle l₁ l₂ heq
  rw [heq] at hnodup
  exact (nodup_append.mp hnodup).2.2 b hmem b mem_cons_self rfl

end List

namespace Relation

variable {α : Type} {r : α → α → Prop}

/-- **A set without sources holds a cycle**: if every element of a nonempty list has an
`r`-predecessor in the list, then `r` has a cycle. -/
theorem exists_transGen_self_of_forall_pred {s : List α} (hne : s ≠ [])
    (h : ∀ b ∈ s, ∃ a ∈ s, r a b) : ∃ a, TransGen r a a := by
  classical
  by_contra hno
  push Not at hno
  -- on the elements of `s`, the transitive closure is a strict order, well founded
  let R : {x // x ∈ s} → {x // x ∈ s} → Prop := fun x y => TransGen r x.1 y.1
  have : IsTrans _ R := ⟨fun _ _ _ hxy hyz => hxy.trans hyz⟩
  have : Std.Irrefl R := ⟨fun x => hno x.1⟩
  have hwf : WellFounded R := Finite.wellFounded_of_trans_of_irrefl R
  obtain ⟨b, hb⟩ := List.exists_mem_of_ne_nil s hne
  -- its least element still has a predecessor in `s`
  obtain ⟨m, -, hmin⟩ := hwf.has_min Set.univ ⟨⟨b, hb⟩, trivial⟩
  obtain ⟨a, ha, hr⟩ := h m.1 m.2
  exact hmin ⟨a, ha⟩ trivial (TransGen.single hr)

end Relation
