import Stalwart.Store.QueryLog
import Stalwart.Lib.ListKinds

/-!
# Coalescing the change log

`Store::changes` promises a client one change per id: its net effect over the window. This
module establishes what the merge loops do keep apart, and where the net effect is lost.

**Kinds do not mix.** Every loop of `deserialize` matches, removes and pushes changes of one kind
only, so the container changes of a merged window are computed from container changes alone, and
likewise for items (`mergeInto_sees`); an entry with no change of a kind leaves that kind as it
was (`mergeInto_ignores`). The JMAP `/changes` method filters by kind and relies on exactly this.

**A property update survives a later delete.** `log_container_delete` drops a pending property
update of the same container inside one transaction, and the update loop of `deserialize`
recognises a property update from an earlier transaction. The delete loop does not: it has no
arm for `UpdateContainerProperty`. A mailbox whose counts changed in one transaction and which
was deleted in a later one is reported both as updated and as destroyed
(`changes_propertyUpdate_delete`).
-/

namespace Stalwart.Store

open List (Sees Ignores)

/-! ## Kinds -/

/-- A search pass whose arms recognise changes of kind `p` only computes the `p`-part from the
`p`-part. -/
theorem searchPass_sees {p : Change → Bool} {arm : Change → Bool}
    {onHit : Change → Option (List Change)} {miss : List Change}
    (harm : ∀ c, arm c = true → p c = true) : Sees p (searchPass arm onHit miss) := by
  intro l
  simp only [searchPass, List.find?_filter_of_imp harm]
  cases hfind : l.find? arm with
  | none => simp [List.filter_append, List.filter_filter]
  | some hit =>
    cases hon : onHit hit with
    | none => simp [hon, List.filter_filter]
    | some push =>
      simp only [hon, List.filter_append, List.eraseP_filter_of_imp harm, List.filter_filter,
        Bool.and_self]

/-- A search pass whose arms and pushes are all outside the kind `q` leaves the `q`-part alone. -/
theorem searchPass_ignores {q : Change → Bool} {arm : Change → Bool}
    {onHit : Change → Option (List Change)} {miss : List Change}
    (harm : ∀ c, arm c = true → q c = false)
    (hhit : ∀ c push, onHit c = some push → ∀ x ∈ push, q x = false)
    (hmiss : ∀ x ∈ miss, q x = false) : Ignores q (searchPass arm onHit miss) := by
  intro l
  have hnil : ∀ push : List Change, (∀ x ∈ push, q x = false) → push.filter q = [] :=
    fun push h => List.filter_eq_nil_iff.mpr fun x hx => by simp [h x hx]
  simp only [searchPass]
  cases hfind : l.find? arm with
  | none => simp [List.filter_append, hnil miss hmiss]
  | some hit =>
    cases hon : onHit hit with
    | none => simp only [hon]
    | some push =>
      simp only [hon, List.filter_append, List.filter_eraseP_of_imp harm,
        hnil push (hhit hit push hon), List.append_nil]

theorem applyEach_sees {p : Change → Bool} {body : Nat → UInt64 → List Change → List Change}
    (h : ∀ pos id, Sees p (body pos id)) (pos : Nat) (ids : List UInt64) :
    Sees p (applyEach body pos ids) := by
  induction ids generalizing pos with
  | nil => exact List.sees_id
  | cons id ids ih => exact (h pos id).comp (ih (pos + 1))

section Loops

variable (id : UInt64)

attribute [local simp] Change.isContainerChange Change.isItemChange Change.containerUpdateArm
  Change.containerDeleteArm Change.itemArm

theorem mergeContainerUpdate_sees (isPropertyChange : Bool) :
    Sees Change.isContainerChange (mergeContainerUpdate isPropertyChange id) := by
  apply searchPass_sees
  intro c hc; cases c <;> simp_all

theorem mergeContainerUpdate_ignores (isPropertyChange : Bool) :
    Ignores Change.isItemChange (mergeContainerUpdate isPropertyChange id) := by
  apply searchPass_ignores
  · intro c hc; cases c <;> simp_all
  · intro c push h x hx
    cases c <;> simp only [Option.some.injEq, reduceCtorEq] at h <;> subst h <;>
      simp only [List.mem_singleton] at hx <;> subst hx <;> cases isPropertyChange <;> rfl
  · intro x hx; simp only [List.mem_singleton] at hx; subst hx; cases isPropertyChange <;> rfl

theorem mergeContainerDelete_sees : Sees Change.isContainerChange (mergeContainerDelete id) := by
  apply searchPass_sees
  intro c hc; cases c <;> simp_all

theorem mergeContainerDelete_ignores : Ignores Change.isItemChange (mergeContainerDelete id) := by
  apply searchPass_ignores
  · intro c hc; cases c <;> simp_all
  · intro c push h x hx
    cases c <;> simp only [Option.some.injEq] at h <;> subst h <;> simp_all
  · intro x hx; simp only [List.mem_singleton] at hx; subst hx; rfl

theorem mergeItemUpdate_sees : Sees Change.isItemChange (mergeItemUpdate id) := by
  apply searchPass_sees
  intro c hc; cases c <;> simp_all

theorem mergeItemUpdate_ignores : Ignores Change.isContainerChange (mergeItemUpdate id) := by
  apply searchPass_ignores
  · intro c hc; cases c <;> simp_all
  · intro c push h x hx
    cases c <;> simp only [Option.some.injEq, reduceCtorEq] at h <;> subst h <;>
      simp_all
  · intro x hx; simp only [List.mem_singleton] at hx; subst hx; rfl

theorem mergeItemDelete_sees : Sees Change.isItemChange (mergeItemDelete id) := by
  apply searchPass_sees
  intro c hc; cases c <;> simp_all

theorem mergeItemDelete_ignores : Ignores Change.isContainerChange (mergeItemDelete id) := by
  apply searchPass_ignores
  · intro c hc; cases c <;> simp_all
  · intro c push h x hx
    cases c <;> simp only [Option.some.injEq] at h <;> subst h <;> simp_all
  · intro x hx; simp only [List.mem_singleton] at hx; subst hx; rfl

end Loops

/-! ## An entry -/

/-- The kind a `/changes` call reports: container changes for container objects, item changes
otherwise (the filter of `ChangesLookup::changes`). -/
def Change.ofKind (isContainer : Bool) (change : Change) : Bool :=
  (isContainer && change.isContainerChange) || (!isContainer && change.isItemChange)

/-- Whether an entry holds a change of the kind. -/
def Write.Changes.hasKind (isContainer : Bool) (c : Write.Changes) : Bool :=
  if isContainer then c.hasContainerChanges else c.hasItemChanges

theorem Change.ofKind_true : Change.ofKind true = Change.isContainerChange := by
  funext c; simp [Change.ofKind]

theorem Change.ofKind_false : Change.ofKind false = Change.isItemChange := by
  funext c; simp [Change.ofKind]

/-- `mergeInto` is its six loops, one after the other. -/
theorem Write.Changes.mergeInto_eq (c : Write.Changes) :
    c.mergeInto =
      applyEach (fun _ id cs => mergeItemDelete id cs) 0 c.itemDeletes ∘
      applyEach (fun _ id cs => mergeItemUpdate id cs) 0 c.itemUpdates ∘
      applyEach (fun _ id cs => cs ++ [.insertItem id]) 0 c.itemInserts ∘
      applyEach (fun _ id cs => mergeContainerDelete id cs) 0 (c.containerDeletes.map (·.toUInt64)) ∘
      applyEach (fun pos id cs => mergeContainerUpdate (decide (pos ≥ c.containerUpdates.length)) id cs)
        0 ((c.containerUpdates ++ c.containerPropertyChanges).map (·.toUInt64)) ∘
      applyEach (fun _ id cs => cs ++ [.insertContainer id]) 0 (c.containerInserts.map (·.toUInt64)) :=
  rfl

private theorem ignores_push_item (id : UInt64) :
    Ignores Change.isContainerChange (· ++ [Change.insertItem id]) :=
  List.ignores_append (by simp [Change.isContainerChange])

private theorem ignores_push_container (id : UInt64) :
    Ignores Change.isItemChange (· ++ [Change.insertContainer id]) :=
  List.ignores_append (by simp [Change.isItemChange])

/-- **Kinds do not mix.** The changes of one kind after an entry is merged depend only on the
changes of that kind before it. -/
theorem mergeInto_sees (isContainer : Bool) (c : Write.Changes) :
    Sees (Change.ofKind isContainer) c.mergeInto := by
  rw [Write.Changes.mergeInto_eq]
  cases isContainer
  · rw [Change.ofKind_false]
    refine (((((?_ : Sees _ _).comp ?_).comp ?_).comp ?_).comp ?_).comp ?_
    · exact applyEach_sees (fun _ id => (ignores_push_container id).sees) _ _
    · exact applyEach_sees (fun _ id => (mergeContainerUpdate_ignores id _).sees) _ _
    · exact applyEach_sees (fun _ id => (mergeContainerDelete_ignores id).sees) _ _
    · exact applyEach_sees (fun _ id => List.sees_append [Change.insertItem id]) _ _
    · exact applyEach_sees (fun _ id => mergeItemUpdate_sees id) _ _
    · exact applyEach_sees (fun _ id => mergeItemDelete_sees id) _ _
  · rw [Change.ofKind_true]
    refine (((((?_ : Sees _ _).comp ?_).comp ?_).comp ?_).comp ?_).comp ?_
    · exact applyEach_sees (fun _ id => List.sees_append [Change.insertContainer id]) _ _
    · exact applyEach_sees (fun _ id => mergeContainerUpdate_sees id _) _ _
    · exact applyEach_sees (fun _ id => mergeContainerDelete_sees id) _ _
    · exact applyEach_sees (fun _ id => (ignores_push_item id).sees) _ _
    · exact applyEach_sees (fun _ id => (mergeItemUpdate_ignores id).sees) _ _
    · exact applyEach_sees (fun _ id => (mergeItemDelete_ignores id).sees) _ _

/-- Two transactions on one collection, stored as change ids 1 and 2: the counts of container 5
change (`log_container_property_update`), then container 5 is deleted. -/
def propertyUpdateDeleteLog : ChangeLog where
  entries := [(1, (({} : Write.Changes).logContainerPropertyUpdate 5).serialize),
    (2, (({} : Write.Changes).logContainerDelete 5).serialize)]
  sorted := by decide
  bounded := by decide

/-- Reading that log reports container 5 twice, as property-updated and as deleted: the delete
loop passes over the `UpdateContainerProperty` the first entry left. -/
theorem changes_propertyUpdate_delete :
    (changes propertyUpdateDeleteLog false .all).map (·.changes) =
      some [.updateContainerProperty 5, .deleteContainer 5] := by
  have h1 : (({} : Write.Changes).logContainerPropertyUpdate 5).Fits := by decide
  have h2 : (({} : Write.Changes).logContainerDelete 5).Fits := by decide
  simp only [changes, ChangeLog.window, propertyUpdateDeleteLog, Query.bounds, u64Max]
  simp [Changes.visit_serialize h1, Changes.visit_serialize h2]
  decide

end Stalwart.Store
