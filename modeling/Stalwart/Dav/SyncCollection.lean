import Stalwart.Dav.Headers
import Stalwart.Lib.Paging
import Stalwart.Store.QueryLog

/-!
# Sync-collection reports

A `sync-collection` REPORT that carries the token `urn:stalwart:davsync:<id>[:<seq>]` asks for the
changes of a collection since change `id`. The sync part of `get` reads the change log since `id`
(`Store::changes`), merges the changes into a set of changed containers and a set of changed
children, and, when a change may have removed a resource, also reads the paths that vanished since
`id`. When there are more of these than the page's limit, one cursor walks the vanished paths, then
the containers, then the children: it skips `limit * seq` of them and keeps the next `limit`. A page
that leaves one out answers with the token `<id>:<seq + 1>`; the last page answers with the
collection's current change id.

## What is proved

Between two requests the history may grow, and each page recomputes its candidates from the same
`id`. A delete that cancels an earlier insert in the merged log takes that insert out of the
candidates. The later candidates then move one place forward, and one of them falls into the part
the client was already given (`sync_page_skips_moved`).
-/

set_option autoImplicit false

namespace Stalwart.Store.Write

/-- `types::collection::VanishedCollection`. -/
inductive VanishedCollection where
  | email | calendar | addressBook | fileNode
  deriving DecidableEq, Repr

/-- `SyncCollection::vanished_collection`. -/
def SyncCollection.vanishedCollection : SyncCollection → Option VanishedCollection
  | .email => some .email
  | .calendar => some .calendar
  | .addressBook => some .addressBook
  | .fileNode => some .fileNode
  | _ => Option.none

end Stalwart.Store.Write

namespace Stalwart.Dav

open Stalwart.Paging Stalwart.Store

/-- `SyncCollection::from` on the WebDAV collections. -/
def Collection.syncCollection : Collection → Write.SyncCollection
  | .calendar | .calendarEvent => .calendar
  | .addressBook | .contactCard => .addressBook
  | .fileNode => .fileNode
  | .calendarEventNotification => .calendarEventNotification
  | .none => .none

/-- `collection_children != collection_container`: the children of a calendar or an address book
live in a collection of their own; file nodes and scheduling messages do not. -/
def Collection.containerHasChildren (collection : Collection) : Bool :=
  collection.childCollection != some collection

/-! ## The sets of a page -/

/-- `RoaringBitmap::insert`, on the ids of a bitmap kept in ascending order. -/
def bitmapInsert (id : UInt32) : List UInt32 → List UInt32
  | [] => [id]
  | x :: ids => if id < x then id :: x :: ids else if id = x then x :: ids else x :: bitmapInsert id ids

/-- The sets the merge loop builds: the changed containers, the changed children, and whether a
change may hide a vanished resource (`maybe_has_vanished`). -/
structure ChangeSets where
  containers : List UInt32 := []
  items : List UInt32 := []
  maybeHasVanished : Bool := false
  deriving DecidableEq, Repr

/-- Adds a changed document (`id as u32`) to the container set or to the item set. -/
def ChangeSets.insert (isContainer : Bool) (id : UInt64) (sets : ChangeSets) : ChangeSets :=
  if isContainer then { sets with containers := bitmapInsert id.toUInt32 sets.containers }
  else { sets with items := bitmapInsert id.toUInt32 sets.items }

/-- One merged change, as the loop of `get` takes it. A collection whose containers have no
children of another collection builds one set: its item changes go with the containers. -/
def ChangeSets.merge (containerHasChildren : Bool) (sets : ChangeSets) : Change → ChangeSets
  | .insertItem id => sets.insert (!containerHasChildren) id
  | .updateItem id => { sets.insert (!containerHasChildren) id with maybeHasVanished := true }
  | .insertContainer id => sets.insert true id
  | .updateContainer id => { sets.insert true id with maybeHasVanished := true }
  | .deleteContainer _ | .deleteItem _ => { sets with maybeHasVanished := true }
  | .updateContainerProperty _ => sets

/-- `*document_ids &= changes` for an account shared with the caller, or the changes themselves
when the caller sees every document. -/
def restrict (display : Option (List UInt32)) (changes : List UInt32) : List UInt32 :=
  match display with
  | some ids => ids.filter changes.contains
  | none => changes

/-- An item of the resource tree a page lists. -/
structure DavItem where
  documentId : UInt32
  isContainer : Bool
  deriving DecidableEq, Repr

/-- What one page reads of the server: the collection's change log and vanished log (each vanished
entry with its change id and its paths), the resource cache (its change id and the items under the
request URI, in order), and, for an account shared with the caller, the containers it may read and
the children in them. -/
structure SyncView where
  log : ChangeLog
  vanishedLog : List (Nat × List (List Char))
  highestChangeId : UInt64
  tree : List DavItem
  shared : Option (List UInt32 × List UInt32)

/-- `Store::vanished` with `Query::Since(id)`: the paths logged after the change id, in log order. -/
def vanishedSince (vanishedLog : List (Nat × List (List Char))) (id : Nat) : List (List Char) :=
  (vanishedLog.filter fun entry => id < entry.1).flatMap (·.2)

/-- What a page names: vanished paths, containers and children (`none` for a collection without
children of its own). -/
structure PageSets where
  vanished : List (List Char)
  containers : List UInt32
  children : Option (List UInt32)
  deriving DecidableEq, Repr

/-- `total_changes`. -/
def PageSets.total (sets : PageSets) : Nat :=
  sets.containers.length + (sets.children.map List.length).getD 0 + sets.vanished.length

/-- The sets of the page for the token's change id, from the changes merged since it. -/
def pageSets (collection : Collection) (view : SyncView) (id : UInt64) (changes : List Change) :
    PageSets :=
  let sets := changes.foldl (ChangeSets.merge collection.containerHasChildren) {}
  { vanished :=
      if sets.maybeHasVanished && collection.syncCollection.vanishedCollection.isSome then
        vanishedSince view.vanishedLog id.toNat
      else []
    containers := restrict (view.shared.map (·.1)) sets.containers
    children :=
      if collection.containerHasChildren then some (restrict (view.shared.map (·.2)) sets.items)
      else none }

/-- The truncation of `get`: one cursor from `limit * seq` over the vanished paths, then the
containers, then the children. The cursor after the walk says whether a candidate was left out
(`is_sync_limited`). -/
def PageSets.truncate (limit : Nat) (seq : UInt32) (sets : PageSets) : PageSets × Cursor :=
  let vanished := walk limit ⟨limit * seq.toNat, 0, false⟩ sets.vanished
  let containers := walk limit vanished.1 sets.containers
  match sets.children with
  | some children =>
    (⟨vanished.2, containers.2, some (walk limit containers.1 children).2⟩,
      (walk limit containers.1 children).1)
  | none => (⟨vanished.2, containers.2, none⟩, containers.1)

/-- The answer of a sync page: what it names, and its sync token. -/
structure SyncPage where
  sets : PageSets
  token : Urn
  deriving DecidableEq, Repr

/-- `DavResources::sync_token`. -/
def SyncView.syncToken (view : SyncView) : Urn :=
  .sync view.highestChangeId 0

/-- The sync part of `get` for `SyncType::From { id, seq }`; `none` is the store's error. -/
def syncPage (collection : Collection) (view : SyncView) (id : UInt64) (seq : UInt32) (limit : Nat) :
    Option SyncPage :=
  (changes view.log false (.since id.toNat)).map fun changes =>
    let sets := pageSets collection view id changes.changes
    if sets.total > limit then
      let truncated := sets.truncate limit seq
      ⟨truncated.1, if truncated.2.limited then .sync id (seq + 1) else view.syncToken⟩
    else ⟨sets, view.syncToken⟩

/-- The items a page lists as resources: the tree's items its sets name, the response loop stopping
after `limit` of them. -/
def SyncPage.results (page : SyncPage) (collection : Collection) (view : SyncView) (limit : Nat) :
    List DavItem :=
  (view.tree.filter fun item =>
    if collection.containerHasChildren then
      if item.isContainer then page.sets.containers.contains item.documentId
      else page.sets.children.any (·.contains item.documentId)
    else page.sets.containers.contains item.documentId).take limit

/-! ## A delete between two pages -/

/-- The file log of an account: document 3 at change 1, then documents 5, 7 and 9 at changes 2 to 4,
one transaction each. -/
def fileInserts : List (Nat × List UInt8) :=
  [(1, ({ itemInserts := [3] } : Write.Changes).serialize),
    (2, ({ itemInserts := [5] } : Write.Changes).serialize),
    (3, ({ itemInserts := [7] } : Write.Changes).serialize),
    (4, ({ itemInserts := [9] } : Write.Changes).serialize)]

/-- The account's files after change 4. -/
def filesBeforeDelete : SyncView where
  log := ⟨fileInserts, by decide, by decide⟩
  vanishedLog := []
  highestChangeId := 4
  tree := [⟨3, false⟩, ⟨5, false⟩, ⟨7, false⟩, ⟨9, false⟩]
  shared := none

/-- The same files after document 5 is deleted at change 5, which also logs its path as vanished. -/
def filesAfterDelete : SyncView where
  log := ⟨fileInserts ++ [(5, ({ itemDeletes := [5] } : Write.Changes).serialize)], by decide, by decide⟩
  vanishedLog := [(5, ["five".toList])]
  highestChangeId := 5
  tree := [⟨3, false⟩, ⟨7, false⟩, ⟨9, false⟩]
  shared := none

/-- What a page answers: its token, its vanished paths and the resources it lists. -/
def SyncPage.answer (page : SyncPage) (collection : Collection) (view : SyncView) (limit : Nat) :
    Urn × List (List Char) × List DavItem :=
  (page.token, page.sets.vanished, page.results collection view limit)

theorem sync_page_skips_moved :
    (syncPage .fileNode filesBeforeDelete 1 0 1).map (·.answer .fileNode filesBeforeDelete 1) =
        some (.sync 1 1, [], [⟨5, false⟩]) ∧
      (syncPage .fileNode filesAfterDelete 1 1 1).map (·.answer .fileNode filesAfterDelete 1) =
        some (.sync 5 0, [], [⟨9, false⟩]) ∧
      (3, ({ itemInserts := [7] } : Write.Changes).serialize) ∈ filesAfterDelete.log.entries ∧
      ⟨7, false⟩ ∈ filesBeforeDelete.tree ∧ ⟨7, false⟩ ∈ filesAfterDelete.tree := by
  refine ⟨?_, ?_, ?_, ?_, ?_⟩ <;> decide +kernel

end Stalwart.Dav
