import Stalwart.Utils.Leb128

/-!
# The change-log builder (`store::write::log`)

A write batch records, per account and per synchronised collection, what the transaction did to
containers (mailboxes, calendars, address books) and to items (emails, events, cards) in one
`Changes` value of seven hash sets. The `log_*` methods already cancel within the transaction:
an insert after a delete becomes an update, a delete drops the pending updates of the same id.
At commit, `serialize` writes the seven sizes and then the identifiers of each set as LEB128, and
the store keeps the bytes under the next change id.

The hash sets are lists here, `List.insert` and `List.erase` being their `insert` and `remove`.
Their iteration order is the hasher's and nothing in the model depends on it: every law about a
stored entry is stated for an arbitrary `Changes` value, so for every order its sets can be
enumerated in.
-/

namespace Stalwart.Store.Write

open Stalwart.Utils.Leb128

/-- `types::collection::SyncCollection`: the collections that keep a change log. -/
inductive SyncCollection where
  | email | thread | calendar | addressBook | fileNode | identity | emailSubmission | sieveScript
  | calendarEventNotification | shareNotification | none
  deriving DecidableEq, Repr

/-- `store::write::log::Changes`: one transaction's changes to one collection. -/
structure Changes where
  itemInserts : List UInt64 := []
  itemUpdates : List UInt64 := []
  itemDeletes : List UInt64 := []
  containerInserts : List UInt32 := []
  containerUpdates : List UInt32 := []
  containerDeletes : List UInt32 := []
  containerPropertyChanges : List UInt32 := []
  deriving DecidableEq, Repr

namespace Changes

/-- `log_container_insert`: a container deleted earlier in the transaction comes back as an
update. -/
def logContainerInsert (changes : Changes) (documentId : UInt32) : Changes :=
  if documentId ∈ changes.containerDeletes then
    { changes with
      containerDeletes := changes.containerDeletes.erase documentId
      containerUpdates := changes.containerUpdates.insert documentId }
  else { changes with containerInserts := changes.containerInserts.insert documentId }

/-- `log_item_insert`, after `build_id`. -/
def logItemInsert (changes : Changes) (id : UInt64) : Changes :=
  if id ∈ changes.itemDeletes then
    { changes with
      itemDeletes := changes.itemDeletes.erase id
      itemUpdates := changes.itemUpdates.insert id }
  else { changes with itemInserts := changes.itemInserts.insert id }

/-- `log_container_update`. -/
def logContainerUpdate (changes : Changes) (documentId : UInt32) : Changes :=
  { changes with containerUpdates := changes.containerUpdates.insert documentId }

/-- `log_container_property_update`. -/
def logContainerPropertyUpdate (changes : Changes) (documentId : UInt32) : Changes :=
  { changes with containerPropertyChanges := changes.containerPropertyChanges.insert documentId }

/-- `log_item_update`, after `build_id`. -/
def logItemUpdate (changes : Changes) (id : UInt64) : Changes :=
  { changes with itemUpdates := changes.itemUpdates.insert id }

/-- `log_container_delete`: pending full and property updates of the container are dropped;
a pending insert is kept. -/
def logContainerDelete (changes : Changes) (documentId : UInt32) : Changes :=
  { changes with
    containerUpdates := changes.containerUpdates.erase documentId
    containerPropertyChanges := changes.containerPropertyChanges.erase documentId
    containerDeletes := changes.containerDeletes.insert documentId }

/-- `has_container_changes`. -/
def hasContainerChanges (changes : Changes) : Bool :=
  !changes.containerInserts.isEmpty || !changes.containerUpdates.isEmpty ||
    !changes.containerPropertyChanges.isEmpty || !changes.containerDeletes.isEmpty

/-- `has_item_changes`. -/
def hasItemChanges (changes : Changes) : Bool :=
  !changes.itemInserts.isEmpty || !changes.itemUpdates.isEmpty || !changes.itemDeletes.isEmpty

/-- The seven sizes, in the order `serialize` writes them. -/
def counts (changes : Changes) : List Nat :=
  [changes.containerInserts.length, changes.containerUpdates.length,
    changes.containerPropertyChanges.length, changes.containerDeletes.length,
    changes.itemInserts.length, changes.itemUpdates.length, changes.itemDeletes.length]

/-- `impl SerializeInfallible for Changes`: the sizes, then the container sets as `u32`, then the
item sets as `u64`, every number LEB128. -/
def serialize (changes : Changes) : List UInt8 :=
  changes.counts.flatMap toLeb128Bytes ++
    [changes.containerInserts, changes.containerUpdates, changes.containerPropertyChanges,
      changes.containerDeletes].flatMap (·.flatMap (toLeb128Bytes ·.toNat)) ++
    [changes.itemInserts, changes.itemUpdates, changes.itemDeletes].flatMap
      (·.flatMap (toLeb128Bytes ·.toNat))

/-- What the store can hold: every size is a `usize`. -/
def Fits (changes : Changes) : Prop :=
  ∀ n ∈ changes.counts, n < 2 ^ 64

instance (changes : Changes) : Decidable changes.Fits :=
  inferInstanceAs (Decidable (∀ n ∈ changes.counts, n < 2 ^ 64))

end Changes

/-- `build_id`: an item id is its document id, under a 32-bit prefix when the collection has one
(the thread of an email). -/
def buildId (pfx : Option UInt32) (documentId : UInt32) : UInt64 :=
  match pfx with
  | some p => (p.toUInt64 <<< 32) ||| documentId.toUInt64
  | none => documentId.toUInt64

/-- `utils::map::vec_map::VecMap`, as far as the builder uses it. -/
abbrev VecMap (K V : Type) := List (K × V)

/-- `VecMap::get_mut_or_insert` followed by an update of the value found or inserted. -/
def VecMap.updateOrInsert {K V : Type} [DecidableEq K] (default : V) (f : V → V) (key : K) :
    VecMap K V → VecMap K V
  | [] => [(key, f default)]
  | (k, v) :: rest => if k = key then (k, f v) :: rest else (k, v) :: updateOrInsert default f key rest

/-- `ChangeLogBuilder`: the changes of one account, per collection. The vanished-item lists
have no part in the change log's coalescing and are not modelled. -/
structure ChangeLogBuilder where
  changes : VecMap SyncCollection Changes := []
  deriving DecidableEq, Repr

namespace ChangeLogBuilder

/-- Applies a `Changes` update to the collection's entry, creating it empty first. -/
def update (builder : ChangeLogBuilder) (collection : SyncCollection) (f : Changes → Changes) :
    ChangeLogBuilder :=
  { changes := VecMap.updateOrInsert {} f collection builder.changes }

def logContainerInsert (builder : ChangeLogBuilder) (collection : SyncCollection)
    (documentId : UInt32) : ChangeLogBuilder :=
  builder.update collection (·.logContainerInsert documentId)

def logItemInsert (builder : ChangeLogBuilder) (collection : SyncCollection)
    (pfx : Option UInt32) (documentId : UInt32) : ChangeLogBuilder :=
  builder.update collection (·.logItemInsert (buildId pfx documentId))

def logContainerUpdate (builder : ChangeLogBuilder) (collection : SyncCollection)
    (documentId : UInt32) : ChangeLogBuilder :=
  builder.update collection (·.logContainerUpdate documentId)

def logContainerPropertyUpdate (builder : ChangeLogBuilder) (collection : SyncCollection)
    (documentId : UInt32) : ChangeLogBuilder :=
  builder.update collection (·.logContainerPropertyUpdate documentId)

def logItemUpdate (builder : ChangeLogBuilder) (collection : SyncCollection)
    (pfx : Option UInt32) (documentId : UInt32) : ChangeLogBuilder :=
  builder.update collection (·.logItemUpdate (buildId pfx documentId))

def logContainerDelete (builder : ChangeLogBuilder) (collection : SyncCollection)
    (documentId : UInt32) : ChangeLogBuilder :=
  builder.update collection (·.logContainerDelete documentId)

/-- The entry a commit writes for `collection`: its serialized changes, when it was touched. -/
def entry (builder : ChangeLogBuilder) (collection : SyncCollection) : Option (List UInt8) :=
  (builder.changes.lookup collection).map Changes.serialize

end ChangeLogBuilder

end Stalwart.Store.Write
