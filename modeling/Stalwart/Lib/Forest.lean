import Mathlib.Logic.Basic

/-!
# Parent links that end at a root

A forest kept as parent links: every node names its parent, or nothing at a root. The links form a
forest when the walk up from any node ends at a root, and a depth limit bounds the number of nodes
the walk passes. The walk is counted in nodes, the starting one included, so a root reaches itself
in one step.

A write changes one node's link (`relink`). Moving a node to the top keeps every walk finite
(`reachesRoot_relink_none`); moving it under a parent whose own walk avoids it keeps every walk
finite at the cost of the parent's walk in length (`reachesRoot_relink`).
-/

namespace Stalwart.Forest

variable {α : Type}

/-- The walk up `up` from `node` ends at a root within `steps` nodes. -/
def reachesRoot (up : α → Option α) : Nat → α → Bool
  | 0, _ => false
  | steps + 1, node =>
    match up node with
    | none => true
    | some parent => reachesRoot up steps parent

/-- The walk up from `node` ends at a root within `steps` nodes, none of them `avoid`. -/
def reachesRootAvoiding [DecidableEq α] (up : α → Option α) (avoid : α) : Nat → α → Bool
  | 0, _ => false
  | steps + 1, node =>
    node != avoid &&
      match up node with
      | none => true
      | some parent => reachesRootAvoiding up avoid steps parent

/-- The links with the one of `node` set to `parent`. -/
def relink [DecidableEq α] (up : α → Option α) (node : α) (parent : Option α) : α → Option α :=
  fun other => if other = node then parent else up other

section Relink

variable [DecidableEq α]

@[simp] theorem relink_self (up : α → Option α) (node : α) (parent : Option α) :
    relink up node parent node = parent := by
  simp [relink]

theorem relink_of_ne (up : α → Option α) {node other : α} (parent : Option α)
    (hne : other ≠ node) : relink up node parent other = up other := by
  simp [relink, hne]

end Relink

variable {up : α → Option α}

theorem reachesRoot_succ {steps : Nat} {node : α} :
    reachesRoot up (steps + 1) node = match up node with
      | none => true
      | some parent => reachesRoot up steps parent :=
  rfl

theorem reachesRoot_mono {steps steps' : Nat} {node : α} (h : reachesRoot up steps node = true)
    (hle : steps ≤ steps') : reachesRoot up steps' node = true := by
  induction steps generalizing node steps' with
  | zero => cases h
  | succ steps ih =>
    obtain ⟨steps', rfl⟩ : ∃ k, steps' = k + 1 := ⟨steps' - 1, by omega⟩
    rw [reachesRoot_succ] at h ⊢
    cases hup : up node with
    | none => rfl
    | some parent =>
      rw [hup] at h
      exact ih h (by omega)

section Moving

variable [DecidableEq α]

/-- A walk that avoids `node` does not see its link change. -/
theorem reachesRoot_relink_of_avoiding {node : α} {parent : Option α} {steps : Nat} {other : α}
    (h : reachesRootAvoiding up node steps other = true) :
    reachesRoot (relink up node parent) steps other = true := by
  induction steps generalizing other with
  | zero => cases h
  | succ steps ih =>
    simp only [reachesRootAvoiding, Bool.and_eq_true, bne_iff_ne, ne_eq] at h
    obtain ⟨hne, hwalk⟩ := h
    rw [reachesRoot_succ, relink_of_ne up parent hne]
    cases hup : up other with
    | none => rfl
    | some next =>
      rw [hup] at hwalk
      exact ih hwalk

/-- **Moving a node under a parent.** When the parent's walk avoids the node, a walk that ended at a
root within `steps` nodes still does, within `steps` more than the parent's. -/
theorem reachesRoot_relink {node parent : α} {parentSteps : Nat}
    (havoid : reachesRootAvoiding up node parentSteps parent = true) {steps : Nat} {other : α}
    (h : reachesRoot up steps other = true) :
    reachesRoot (relink up node (some parent)) (steps + parentSteps) other = true := by
  induction steps generalizing other with
  | zero => cases h
  | succ steps ih =>
    by_cases hnode : other = node
    · -- the walk reaches the moved node, then follows the parent's walk
      subst hnode
      have hparent : reachesRoot (relink up _ (some parent)) parentSteps parent = true :=
        reachesRoot_relink_of_avoiding havoid
      rw [Nat.add_right_comm, reachesRoot_succ, relink_self]
      exact reachesRoot_mono hparent (by omega)
    · rw [reachesRoot_succ] at h
      rw [Nat.add_right_comm, reachesRoot_succ, relink_of_ne up _ hnode]
      cases hup : up other with
      | none => rfl
      | some next =>
        rw [hup] at h
        exact ih h

/-- **Moving a node to the top.** -/
theorem reachesRoot_relink_none {node : α} {steps : Nat} {other : α}
    (h : reachesRoot up steps other = true) :
    reachesRoot (relink up node none) steps other = true := by
  induction steps generalizing other with
  | zero => cases h
  | succ steps ih =>
    by_cases hnode : other = node
    · subst hnode
      rw [reachesRoot_succ, relink_self]
    · rw [reachesRoot_succ] at h
      rw [reachesRoot_succ, relink_of_ne up _ hnode]
      cases hup : up other with
      | none => rfl
      | some next =>
        rw [hup] at h
        exact ih h

end Moving

end Stalwart.Forest
