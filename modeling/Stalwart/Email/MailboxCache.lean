import Stalwart.Email.Mailbox
import Stalwart.Utils.Topological

/-!
# The mailbox cache

The cache of an account's mailboxes keeps, for each mailbox, its name, role, parent, rights and
IMAP path. `full_mailbox_cache_build` reads every mailbox archive in the order of their document
ids. `update_mailbox_cache` inserts the changed mailboxes first and then the unchanged entries of
the previous cache. Both then run `build_tree`. It gives each mailbox its own segment: `INBOX`
for the inbox, `INBOX n` for another top mailbox named inbox in any case, its name otherwise.
Then, in a topological order of the parent links, it puts the parent's path and `/` in front of
each segment.

## What is proved

The `n` of `INBOX n` is the position of the mailbox in the cache's list of items, plus one, and
the two builds order that list differently. So when a top mailbox named inbox changes and nothing
else does, the update gives it another path than a full build of the same mailboxes
(`update_renumbers_inbox`).
-/

set_option autoImplicit false

namespace Stalwart.Email

open Stalwart.Sharing (AclGrant)
open Stalwart.Utils (TopologicalSort)

/-- `u32::MAX`: the parent id of a mailbox at the top. -/
def noParent : Nat := 4294967295

/-- `MailboxCache`, with the fields `build_tree` and the comparisons of caches read. -/
structure MailboxCache where
  documentId : Nat
  name : List Char
  path : List Char
  role : SpecialUse
  parentId : Nat
  acls : List AclGrant
  deriving DecidableEq

/-- `MailboxCache::parent_id`. -/
def MailboxCache.parent? (item : MailboxCache) : Option Nat :=
  if item.parentId ≠ noParent then some item.parentId else none

/-- `MailboxesCacheBuilder`: the items, and the index from document id to position. -/
structure MailboxesCacheBuilder where
  index : List (Nat × Nat)
  items : List MailboxCache

namespace MailboxesCacheBuilder

/-- The empty builder. -/
def empty : MailboxesCacheBuilder :=
  ⟨[], []⟩

/-- `by_id`. -/
def byId (cache : MailboxesCacheBuilder) (id : Nat) : Option MailboxCache :=
  (cache.index.lookup id).bind (cache.items[·]?)

/-- `mailbox_insert`: an item of a known id replaces the one at its position, a new one goes
last. -/
def mailboxInsert (cache : MailboxesCacheBuilder) (item : MailboxCache) : MailboxesCacheBuilder :=
  match cache.index.lookup item.documentId with
  | some idx => { cache with items := cache.items.set idx item }
  | none =>
    { index := cache.index ++ [(item.documentId, cache.items.length)]
      items := cache.items ++ [item] }

/-- `insert_item`: the cache entry of a mailbox archive. -/
def insertItem (cache : MailboxesCacheBuilder) (documentId : Nat) (mailbox : Mailbox) :
    MailboxesCacheBuilder :=
  cache.mailboxInsert
    { documentId
      name := mailbox.name
      path := []
      role := mailbox.role
      parentId := if mailbox.parentId > 0 then mailbox.parentId - 1 else noParent
      acls := mailbox.acls }

/-- The segment `build_tree` starts the path of the item at position `idx` with. -/
def segment (idx : Nat) (mailbox : MailboxCache) : List Char :=
  if mailbox.role = .inbox then "INBOX".toList
  else if mailbox.parentId = noParent ∧ mailbox.name.map Char.toLower = "inbox".toList then
    "INBOX ".toList ++ (Nat.repr (idx + 1)).toList
  else mailbox.name

/-- The node of an item's parent in the sort: `0` for the top, the parent's id plus one. -/
def parentNode (mailbox : MailboxCache) : Nat :=
  if mailbox.parentId = noParent then 0 else mailbox.parentId + 1

/-- The second loop of `build_tree` at the item of id `folderId`: its parent's path and `/` go in
front of its path, where both are in the cache. -/
def joinParentPath (cache : MailboxesCacheBuilder) (folderId : Nat) : MailboxesCacheBuilder :=
  match cache.index.lookup folderId, cache.byId folderId with
  | some idx, some folder =>
    match folder.parent?.bind cache.byId with
    | some parent =>
      { cache with
        items := cache.items.set idx { folder with path := parent.path ++ ['/'] ++ folder.path } }
    | none => cache
  | _, _ => cache

/-- `build_tree`. -/
def buildTree (cache : MailboxesCacheBuilder) : MailboxesCacheBuilder :=
  let sort := cache.items.foldl (fun sort mailbox =>
    sort.insert (parentNode mailbox) (mailbox.documentId + 1)) TopologicalSort.withCapacity
  let cache := { cache with
    items := cache.items.zipIdx.map fun (mailbox, idx) =>
      { mailbox with path := segment idx mailbox } }
  -- the counts in the order they were inserted, one of the orders the hash map may visit them in
  (sort.intoIterator sort.count).toList.foldl (fun cache folderId =>
    if folderId ≠ 0 then cache.joinParentPath (folderId - 1) else cache) cache

end MailboxesCacheBuilder

open MailboxesCacheBuilder

/-- `update_mailbox_cache`: the changed ids with whether each was updated (a deleted one was
not), read against `archives`, the mailboxes after the change; then the entries of the previous
cache whose id did not change. -/
def updateMailboxCache (archives : Nat → Option Mailbox) (changedIds : List (Nat × Bool))
    (storeCache : List MailboxCache) : MailboxesCacheBuilder :=
  let cache := changedIds.foldl (fun cache (documentId, isUpdate) =>
    match isUpdate, archives documentId with
    | true, some mailbox => cache.insertItem documentId mailbox
    | _, _ => cache) empty
  let cache := storeCache.foldl (fun cache item =>
    if changedIds.any (·.1 = item.documentId) then cache else cache.mailboxInsert item) cache
  cache.buildTree

/-- `full_mailbox_cache_build`: the archives in the order of their document ids, or, where there
are none, `systemFolders`, what the archives are once `create_system_folders` has run. -/
def fullMailboxCacheBuild (archives systemFolders : List (Nat × Mailbox)) :
    MailboxesCacheBuilder :=
  let cache := archives.foldl (fun cache (documentId, mailbox) =>
    cache.insertItem documentId mailbox) empty
  let cache :=
    if cache.items.isEmpty then
      systemFolders.foldl (fun cache (documentId, mailbox) => cache.insertItem documentId mailbox)
        cache
    else cache
  cache.buildTree

theorem update_renumbers_inbox :
    let archives : List (Nat × Mailbox) :=
      [(0, ⟨"Sent".toList, .sent, 0, []⟩), (1, ⟨"inbox".toList, .none, 0, []⟩)]
    let full := fullMailboxCacheBuild archives []
    let update := updateMailboxCache (fun documentId => archives.lookup documentId) [(1, true)]
      full.items
    (full.byId 1).map (·.path) = some "INBOX 2".toList ∧
      (update.byId 1).map (·.path) = some "INBOX 1".toList := by
  decide +kernel

end Stalwart.Email
