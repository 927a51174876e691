import Stalwart.Store.WriteLog

/-!
# Reading the change log (`store::query::log`)

`Store::changes` walks the log entries of one collection whose change ids fall in the query's
window, in ascending order, and folds each into one `Changes` accumulator with
`Changes::deserialize`. Deserializing an entry does not append its sets: it merges them into the
list built so far with four hand-written search loops, each of which looks for the first earlier
change of the same id that its arms recognise, removes it, and pushes (or does not push) a new
change. The four loops differ only in their arms, so they are one definition here,
`searchPass`, applied to each loop's own arms.

`deserialize_serialize` says what an entry written by `Changes::serialize` does to the
accumulator: the seven sets are applied in the source's order, each through its loop
(`Write.Changes.mergeInto`). Everything the change log promises is then a statement about
`mergeInto`.
-/

namespace Stalwart.Store

open Stalwart.Utils.Leb128

/-- `store::query::log::Change`. -/
inductive Change where
  | insertContainer (id : UInt64)
  | updateContainer (id : UInt64)
  | updateContainerProperty (id : UInt64)
  | deleteContainer (id : UInt64)
  | insertItem (id : UInt64)
  | updateItem (id : UInt64)
  | deleteItem (id : UInt64)
  deriving DecidableEq, Repr

namespace Change

/-- `is_container_change`. -/
def isContainerChange : Change → Bool
  | .insertContainer _ | .updateContainer _ | .updateContainerProperty _ | .deleteContainer _ => true
  | _ => false

/-- `is_item_change`. -/
def isItemChange : Change → Bool
  | .insertItem _ | .updateItem _ | .deleteItem _ => true
  | _ => false

/-- `container_id`. -/
def containerId : Change → Option UInt64
  | .insertContainer id | .updateContainer id | .updateContainerProperty id
  | .deleteContainer id => some id
  | _ => none

/-- `item_id`. -/
def itemId : Change → Option UInt64
  | .insertItem id | .updateItem id | .deleteItem id => some id
  | _ => none

/-- The arms of the container-update loop: an insert, a full update or a property update of
`id`. -/
def containerUpdateArm (id : UInt64) : Change → Bool
  | .insertContainer i | .updateContainer i | .updateContainerProperty i => i == id
  | _ => false

/-- The arms of the container-delete loop: an insert or a full update of `id`. -/
def containerDeleteArm (id : UInt64) : Change → Bool
  | .insertContainer i | .updateContainer i => i == id
  | _ => false

/-- The arms of both item loops: an insert or an update of `id`. -/
def itemArm (id : UInt64) : Change → Bool
  | .insertItem i | .updateItem i => i == id
  | _ => false

end Change

/-- One search loop of `Changes::deserialize` for one id. The loop stops at the first change the
`arm` recognises; `onHit` says what the matching arm does: `none` is `continue 'outer` (the change
stays and nothing is pushed), `some push` removes the change and pushes `push`. When no arm
matches, `miss` is pushed. -/
def searchPass (arm : Change → Bool) (onHit : Change → Option (List Change)) (miss : List Change)
    (changes : List Change) : List Change :=
  match changes.find? arm with
  | some hit =>
    match onHit hit with
    | none => changes
    | some push => changes.eraseP arm ++ push
  | none => changes ++ miss

/-- The update loop over containers: an earlier insert absorbs the update; an earlier full
update is moved to the end and keeps it full; an earlier property update is moved to the end. -/
def mergeContainerUpdate (isPropertyChange : Bool) (id : UInt64) (changes : List Change) :
    List Change :=
  let pushed := if !isPropertyChange then Change.updateContainer id
    else Change.updateContainerProperty id
  searchPass (Change.containerUpdateArm id)
    (fun
      | .insertContainer _ => none
      | .updateContainer _ => some [.updateContainer id]
      | _ => some [pushed])
    [pushed] changes

/-- The delete loop over containers: an earlier insert cancels with the delete; an earlier full
update is replaced by the delete. The loop has no arm for a property update. -/
def mergeContainerDelete (id : UInt64) (changes : List Change) : List Change :=
  searchPass (Change.containerDeleteArm id)
    (fun
      | .insertContainer _ => some []
      | _ => some [.deleteContainer id])
    [.deleteContainer id] changes

/-- The update loop over items. -/
def mergeItemUpdate (id : UInt64) (changes : List Change) : List Change :=
  searchPass (Change.itemArm id)
    (fun
      | .insertItem _ => none
      | _ => some [.updateItem id])
    [.updateItem id] changes

/-- The delete loop over items. -/
def mergeItemDelete (id : UInt64) (changes : List Change) : List Change :=
  searchPass (Change.itemArm id)
    (fun
      | .insertItem _ => some []
      | _ => some [.deleteItem id])
    [.deleteItem id] changes

/-- `for pos in start..start + n { let id = bytes_it.next_leb128()?; body }`. -/
def readEach (body : Nat → UInt64 → List Change → List Change) :
    Nat → Nat → List Change → List UInt8 → Option (List Change × List UInt8)
  | _, 0, changes, bytes => some (changes, bytes)
  | pos, n + 1, changes, bytes =>
    match nextLeb128 .u64 bytes with
    | some (id, bytes) => readEach body (pos + 1) n (body pos (UInt64.ofNat id) changes) bytes
    | none => none

/-- `Changes::deserialize` on the accumulated list: the merged list and the flags
`(has_container_changes, has_item_changes)`; `none` when the bytes end early. -/
def deserialize (changes : List Change) (bytes : List UInt8) :
    Option (List Change × Bool × Bool) := do
  let (containerInserts, bytes) ← nextLeb128 .usize bytes
  let (containerUpdates, bytes) ← nextLeb128 .usize bytes
  let (containerPropertyChanges, bytes) ← nextLeb128 .usize bytes
  let (containerDeletes, bytes) ← nextLeb128 .usize bytes
  let (itemInserts, bytes) ← nextLeb128 .usize bytes
  let (itemUpdates, bytes) ← nextLeb128 .usize bytes
  let (itemDeletes, bytes) ← nextLeb128 .usize bytes
  let hasContainerChanges :=
    decide (containerInserts + containerUpdates + containerPropertyChanges + containerDeletes > 0)
  let hasItemChanges := decide (itemInserts + itemUpdates + itemDeletes > 0)
  let (changes, bytes) ← readEach (fun _ id cs => cs ++ [.insertContainer id]) 0
    containerInserts changes bytes
  let (changes, bytes) ← readEach
    (fun pos id cs => mergeContainerUpdate (decide (pos ≥ containerUpdates)) id cs) 0
    (containerUpdates + containerPropertyChanges) changes bytes
  let (changes, bytes) ← readEach (fun _ id cs => mergeContainerDelete id cs) 0
    containerDeletes changes bytes
  let (changes, bytes) ← readEach (fun _ id cs => cs ++ [.insertItem id]) 0 itemInserts changes bytes
  let (changes, bytes) ← readEach (fun _ id cs => mergeItemUpdate id cs) 0 itemUpdates changes bytes
  let (changes, _) ← readEach (fun _ id cs => mergeItemDelete id cs) 0 itemDeletes changes bytes
  pure (changes, hasContainerChanges, hasItemChanges)

/-! ## What a serialized entry does -/

/-- The loop of `readEach` over identifiers already decoded. -/
def applyEach (body : Nat → UInt64 → List Change → List Change) :
    Nat → List UInt64 → List Change → List Change
  | _, [], changes => changes
  | pos, id :: ids, changes => applyEach body (pos + 1) ids (body pos id changes)

/-- Reading `ids.length` identifiers from their encodings applies the loop body to each. -/
theorem readEach_encoded (body : Nat → UInt64 → List Change → List Change) (pos : Nat)
    (ids : List UInt64) (changes : List Change) (rest : List UInt8) :
    readEach body pos ids.length changes (ids.flatMap (toLeb128Bytes ·.toNat) ++ rest) =
      some (applyEach body pos ids changes, rest) := by
  induction ids generalizing pos changes with
  | nil => rfl
  | cons id ids ih =>
    have hid : id.toNat < 2 ^ 64 := UInt64.toNat_lt_size id
    simp only [List.length_cons, List.flatMap_cons, List.append_assoc, readEach, applyEach,
      nextLeb128_toLeb128Bytes (Or.inl rfl) hid, UInt64.ofNat_toNat, ih]

namespace Write.Changes

/-- What `deserialize` does with the entry `serialize` writes for `c`: container inserts are
appended, then full and property updates go through the container-update loop (the full ones
first), deletes through the container-delete loop, and the item sets likewise. -/
def mergeInto (c : Write.Changes) (changes : List Change) : List Change :=
  let changes := applyEach (fun _ id cs => cs ++ [.insertContainer id]) 0
    (c.containerInserts.map (·.toUInt64)) changes
  let changes := applyEach (fun pos id cs => mergeContainerUpdate
      (decide (pos ≥ c.containerUpdates.length)) id cs) 0
    ((c.containerUpdates ++ c.containerPropertyChanges).map (·.toUInt64)) changes
  let changes := applyEach (fun _ id cs => mergeContainerDelete id cs) 0
    (c.containerDeletes.map (·.toUInt64)) changes
  let changes := applyEach (fun _ id cs => cs ++ [.insertItem id]) 0 c.itemInserts changes
  let changes := applyEach (fun _ id cs => mergeItemUpdate id cs) 0 c.itemUpdates changes
  applyEach (fun _ id cs => mergeItemDelete id cs) 0 c.itemDeletes changes

end Write.Changes

/-- Reading the encodings of two lists back to back, in one loop. -/
theorem readEach_encoded_append (body : Nat → UInt64 → List Change → List Change) (pos : Nat)
    (ids ids' : List UInt64) (changes : List Change) (rest : List UInt8) :
    readEach body pos (ids.length + ids'.length) changes
        (ids.flatMap (toLeb128Bytes ·.toNat) ++ (ids'.flatMap (toLeb128Bytes ·.toNat) ++ rest)) =
      some (applyEach body pos (ids ++ ids') changes, rest) := by
  rw [← List.append_assoc, ← List.flatMap_append, ← List.length_append, readEach_encoded]

/-- Container identifiers are written as `u32` and read back as `u64`. -/
theorem flatMap_toUInt64 (ids : List UInt32) :
    ids.flatMap (toLeb128Bytes ·.toNat) = (ids.map (·.toUInt64)).flatMap (toLeb128Bytes ·.toNat) := by
  simp [List.flatMap_map]

theorem readEach_encoded32 (body : Nat → UInt64 → List Change → List Change) (pos : Nat)
    (ids : List UInt32) (changes : List Change) (rest : List UInt8) :
    readEach body pos ids.length changes (ids.flatMap (toLeb128Bytes ·.toNat) ++ rest) =
      some (applyEach body pos (ids.map (·.toUInt64)) changes, rest) := by
  have hlen : (ids.map UInt32.toUInt64).length = ids.length := List.length_map _
  rw [flatMap_toUInt64, ← hlen, readEach_encoded]

theorem readEach_encoded32_append (body : Nat → UInt64 → List Change → List Change) (pos : Nat)
    (ids ids' : List UInt32) (changes : List Change) (rest : List UInt8) :
    readEach body pos (ids.length + ids'.length) changes
        (ids.flatMap (toLeb128Bytes ·.toNat) ++ (ids'.flatMap (toLeb128Bytes ·.toNat) ++ rest)) =
      some (applyEach body pos ((ids ++ ids').map (·.toUInt64)) changes, rest) := by
  have hlen : (ids.map UInt32.toUInt64).length = ids.length := List.length_map _
  have hlen' : (ids'.map UInt32.toUInt64).length = ids'.length := List.length_map _
  rw [flatMap_toUInt64, flatMap_toUInt64 ids', ← hlen, ← hlen', readEach_encoded_append,
    List.map_append]

/-- A list is non-empty exactly when its length is positive; the two ways the flags are
computed. -/
private theorem flags_eq (a b c d : List α) :
    decide (a.length + b.length + c.length + d.length > 0) =
      (!a.isEmpty || !b.isEmpty || !c.isEmpty || !d.isEmpty) := by
  simp only [gt_iff_lt, Nat.add_pos_iff_pos_or_pos, List.length_pos_iff, ne_eq]
  cases a <;> cases b <;> cases c <;> cases d <;> rfl

private theorem flags_eq₃ (a b c : List α) :
    decide (a.length + b.length + c.length > 0) = (!a.isEmpty || !b.isEmpty || !c.isEmpty) := by
  simp only [gt_iff_lt, Nat.add_pos_iff_pos_or_pos, List.length_pos_iff, ne_eq]
  cases a <;> cases b <;> cases c <;> rfl

/-- **An entry reads back as its merge.** Whatever was accumulated before, the bytes `serialize`
writes for `c` deserialize to `c.mergeInto`, with the flags `has_container_changes` and
`has_item_changes` of `c`. -/
theorem deserialize_serialize (c : Write.Changes) (hc : c.Fits) (changes : List Change) :
    deserialize changes c.serialize =
      some (c.mergeInto changes, c.hasContainerChanges, c.hasItemChanges) := by
  have hfit : ∀ n ∈ c.counts, n < 2 ^ 64 := hc
  simp only [Write.Changes.counts, List.mem_cons, List.not_mem_nil, or_false, forall_eq_or_imp,
    forall_eq] at hfit
  obtain ⟨h1, h2, h3, h4, h5, h6, h7⟩ := hfit
  have hu : ∀ {v : Nat}, v < 2 ^ 64 → ∀ rest,
      nextLeb128 .usize (toLeb128Bytes v ++ rest) = some (v, rest) :=
    fun h => nextLeb128_toLeb128Bytes (Or.inr rfl) h
  have hlast := fun changes =>
    readEach_encoded (fun _ id cs => mergeItemDelete id cs) 0 c.itemDeletes changes []
  simp only [List.append_nil] at hlast
  simp only [Write.Changes.serialize, Write.Changes.counts, List.flatMap_cons, List.flatMap_nil,
    List.append_nil, List.append_assoc, deserialize, hu h1, hu h2, hu h3, hu h4, hu h5, hu h6, hu h7,
    Option.bind_eq_bind, Option.bind_some, readEach_encoded32, readEach_encoded32_append,
    readEach_encoded, hlast, Write.Changes.mergeInto, Write.Changes.hasContainerChanges,
    Write.Changes.hasItemChanges, flags_eq, flags_eq₃, Option.pure_def]

/-! ## `Store::changes` -/

/-- `store::query::log::Query`. -/
inductive Query where
  | all
  | since (changeId : Nat)
  | sinceInclusive (changeId : Nat)
  | rangeInclusive (fromChangeId toChangeId : Nat)
  deriving DecidableEq, Repr

/-- `u64::MAX`, the open upper end of a query. -/
def u64Max : Nat := 2 ^ 64 - 1

/-- `(is_inclusive, from_change_id, to_change_id)` of a query. -/
def Query.bounds : Query → Bool × Nat × Nat
  | .all => (true, 0, u64Max)
  | .since changeId => (false, changeId, u64Max)
  | .sinceInclusive changeId => (true, changeId, u64Max)
  | .rangeInclusive fromChangeId toChangeId => (true, fromChangeId, toChangeId)

/-- `store::query::log::Changes`: the merged changes of a window of the log. -/
structure Changes where
  changes : List Change := []
  fromChangeId : Nat := 0
  toChangeId : Nat := 0
  containerChangeId : Option Nat := none
  itemChangeId : Option Nat := none
  isTruncated : Bool := false
  deriving DecidableEq, Repr

/-- The log of one account and collection, as the store iterates it: change ids (`u64` keys) in
ascending order, each with its value. -/
structure ChangeLog where
  entries : List (Nat × List UInt8)
  sorted : (entries.map Prod.fst).Pairwise (· < ·)
  bounded : ∀ e ∈ entries, e.1 < 2 ^ 64

namespace Changes

/-- Records a visited entry: `from_change_id` moves to it when the list was empty before it (the
first change id of a non-empty list), `to_change_id` always, and the per-kind ids when the entry
held a change of that kind. -/
def record (changelog : Changes) (changeId : Nat) (changes : List Change)
    (hasContainerChanges hasItemChanges : Bool) : Changes :=
  { changelog with
    changes
    fromChangeId := if changelog.changes.isEmpty then changeId else changelog.fromChangeId
    toChangeId := changeId
    containerChangeId := if hasContainerChanges then some changeId else changelog.containerChangeId
    itemChangeId := if hasItemChanges then some changeId else changelog.itemChangeId }

/-- The callback `Store::changes` passes to `iterate`, on one key and value. An empty value marks
a truncated log; the share-notification log records one inserted item per entry instead of
deserializing it. -/
def visit (isShareLog isInclusive : Bool) (fromChangeId : Nat) (changelog : Changes)
    (entry : Nat × List UInt8) : Option Changes :=
  if isInclusive || entry.1 != fromChangeId then
    if entry.2.isEmpty then some { changelog with isTruncated := true }
    else if !isShareLog then
      (deserialize changelog.changes entry.2).map fun (changes, hasContainerChanges, hasItemChanges) =>
        changelog.record entry.1 changes hasContainerChanges hasItemChanges
    else
      some (changelog.record entry.1 (changelog.changes ++ [.insertItem (UInt64.ofNat entry.1)])
        false false)
  else some changelog

/-- `total_container_changes`. -/
def totalContainerChanges (changelog : Changes) : Nat :=
  (changelog.changes.filter Change.isContainerChange).length

/-- `total_item_changes`. -/
def totalItemChanges (changelog : Changes) : Nat :=
  (changelog.changes.filter Change.isItemChange).length

end Changes

/-- The keys `iterate` visits for a query: those between its two bounds, both included. -/
def ChangeLog.window (log : ChangeLog) (query : Query) : List (Nat × List UInt8) :=
  log.entries.filter fun e => decide (query.bounds.2.1 ≤ e.1 ∧ e.1 ≤ query.bounds.2.2)

/-- The tail of `Store::changes`: a result with no changes reports the query's own bounds. -/
def Changes.settle (query : Query) (changelog : Changes) : Changes :=
  if changelog.changes.isEmpty then
    { changelog with
      fromChangeId := query.bounds.2.1
      toChangeId := if query.bounds.2.2 != u64Max then query.bounds.2.2 else query.bounds.2.1 }
  else changelog

/-- `Store::changes`; `none` is the corrupted-entry error. -/
def changes (log : ChangeLog) (isShareLog : Bool) (query : Query) : Option Changes :=
  ((log.window query).foldlM (Changes.visit isShareLog query.bounds.1 query.bounds.2.1) {}).map
    (Changes.settle query)

theorem Write.Changes.serialize_ne_nil (c : Write.Changes) : c.serialize ≠ [] := by
  obtain ⟨b, bs, hb⟩ := List.exists_cons_of_ne_nil (toLeb128Bytes_ne_nil c.containerInserts.length)
  simp [Write.Changes.serialize, Write.Changes.counts, hb]

/-- **One serialized entry, visited.** An entry `serialize` wrote, inside the window, is
recorded with its merge into the accumulated list and its own flags. -/
theorem Changes.visit_serialize {c : Write.Changes} (hc : c.Fits) {isInclusive : Bool}
    {fromChangeId changeId : Nat} (hin : (isInclusive || changeId != fromChangeId) = true)
    (changelog : Changes) :
    changelog.visit false isInclusive fromChangeId (changeId, c.serialize) =
      some (changelog.record changeId (c.mergeInto changelog.changes) c.hasContainerChanges
        c.hasItemChanges) := by
  have hne : c.serialize.isEmpty = false := by
    cases h : c.serialize with
    | nil => exact absurd h c.serialize_ne_nil
    | cons _ _ => rfl
  simp [visit, hin, hne, deserialize_serialize c hc]

end Stalwart.Store
