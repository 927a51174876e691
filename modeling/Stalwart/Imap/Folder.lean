import Stalwart.Jmap.MailboxSet

/-!
# IMAP `CREATE` and `RENAME`

An IMAP session names the mailboxes of its account by path: the names from the top down,
joined by `/`, with the inbox as `INBOX`. `validate_mailbox_create` parses a new path, refuses one
that exists, and splits it into the deepest existing mailbox and the names to create under it.
`CREATE` creates those names, one under the other; `RENAME` creates all but the last and moves the
renamed mailbox under them with the last name.

## What is proved

`RENAME` checks the new path as `CREATE` would, but never against the renamed mailbox itself: a
mailbox renamed into its own subtree becomes its own parent. Together with the batching of
`Mailbox/set`, this breaks the forest (`mailbox_hierarchy_broken`).
-/

set_option autoImplicit false

namespace Stalwart.Imap

open Stalwart.Email Stalwart.Jmap.MailboxSet Stalwart.Sharing

/-- The settings the commands read: `mailbox_max_depth`, `mailbox_name_max_len` and the name of
the shared folders' root. -/
structure FolderConfig where
  maxDepth : Nat
  nameMaxLen : Nat
  sharedFolder : List Char
  deriving DecidableEq, Repr

/-- The errors of the commands. -/
inductive FolderError where
  | invalidName
  | emptyPathItem
  | nameTooLong
  | pathTooDeep
  | sharedRoot
  | sharedAccountNotFound
  | alreadyExists
  | roleExists
  | mailboxNotFound
  deriving DecidableEq, Repr

/-! ## Paths -/

/-- A path's names joined by `/`. -/
def joinPath (path : List (List Char)) : List Char :=
  ['/'].intercalate path

/-- The name `build_tree` starts a mailbox's path with: `INBOX` for the inbox, a numbered `INBOX`
for another top mailbox of that name in any case, the name otherwise. -/
def pathSegment (index : Nat) (mailbox : Mailbox) : List Char :=
  if mailbox.role == .inbox then "INBOX".toList
  else if mailbox.parentId == 0 && mailbox.name.map Char.toLower == "inbox".toList then
    "INBOX ".toList ++ Nat.toDigits 10 (index + 1)
  else mailbox.name

/-- The path `build_tree` gives a mailbox: its parent's path, `/` and its own segment. On a forest
the topological order builds every parent's path first, which this walk does by recursion; the
walk takes at most one turn per mailbox. -/
def mailboxPath (store : MailboxStore) : Nat → Nat → List Char
  | 0, _ => []
  | fuel + 1, documentId =>
    match store.mailboxes.zipIdx.find? (·.1.1 == documentId) with
    | none => []
    | some ((_, mailbox), index) =>
      match mailbox.parentLink with
      | some parent =>
        if (store.get? parent).isSome then
          mailboxPath store fuel parent ++ ['/'] ++ pathSegment index mailbox
        else pathSegment index mailbox
      | none => pathSegment index mailbox

/-- `mailbox_names`: the path of every mailbox, in the order of the mailboxes. -/
def mailboxNames (store : MailboxStore) : List (List Char × Nat) :=
  store.mailboxes.map fun (documentId, _) =>
    (mailboxPath store store.mailboxes.length documentId, documentId)

/-- A lookup in `mailbox_names`, where a later mailbox of the same path replaced an earlier one. -/
def lookupName (names : List (List Char × Nat)) (path : List Char) : Option Nat :=
  (names.reverse.find? (·.1 == path)).map (·.2)

/-! ## `validate_mailbox_create` -/

/-- `CreateParams`: the names to create, the deepest existing mailbox of the path, and the role. -/
structure CreateParams where
  path : List (List Char)
  parentMailboxId : Option Nat
  specialUse : Option SpecialUse
  deriving DecidableEq, Repr

/-- One name of a path: present, and not too long. -/
def checkPathItem (config : FolderConfig) (item : List Char) : Except FolderError Unit :=
  if item.isEmpty then .error .emptyPathItem
  else if utf8Length item > config.nameMaxLen then .error .nameTooLong
  else .ok ()

/-- The names of a path after the leading and trailing separators go. -/
def parsePath (config : FolderConfig) (name : List Char) : Except FolderError (List (List Char)) :=
  if name.contains '/' then do
    let path := (name.splitOn '/').map Scheduling.trimWhitespace
    path.forM (checkPathItem config)
    if path.length > config.maxDepth then throw .pathTooDeep
    return path
  else .ok [name]

/-- The deepest mailbox of the path that exists, and the names under it, found by taking names off
the end of the path (given reversed) until the rest names a mailbox. -/
def locateParent (names : List (List Char × Nat)) :
    List (List Char) → List (List Char) → Option Nat × List (List Char)
  | [], createPath => (none, createPath)
  | last :: rest, createPath =>
    match lookupName names (joinPath (last :: rest).reverse) with
    | some mailboxId => (some mailboxId, createPath)
    | none => locateParent names rest (last :: createPath)

/-- The top name `INBOX` in any case is the inbox. -/
def normalizeRoot : List (List Char) → List (List Char)
  | root :: rest => (if root.map Char.toLower == "inbox".toList then "INBOX".toList else root) :: rest
  | [] => []

/-- `validate_mailbox_create`, for the session's own account. -/
def validateMailboxCreate (config : FolderConfig) (store : MailboxStore) (mailboxName : List Char)
    (role : Option SpecialUse) : Except FolderError CreateParams := do
  let name := Scheduling.trimWhitespace mailboxName
  let name := if name.head? == some '/' then Scheduling.trimWhitespace name.tail else name
  let name := if name.getLast? == some '/' then Scheduling.trimWhitespace name.dropLast else name
  if name.isEmpty then throw .invalidName
  let path ← parsePath config name
  -- the shared folders hold other accounts, which the session does not have
  if path.head? == some config.sharedFolder then
    if path.length < 3 then throw .sharedRoot else throw .sharedAccountNotFound
  let path := normalizeRoot path
  let names := mailboxNames store
  if (lookupName names (joinPath path)).isSome then throw .alreadyExists
  let (parentMailboxId, path) :=
    if path.length > 1 then locateParent names path.reverse [] else (none, path)
  if role.any fun role => (store.mailboxByRole role).isSome then throw .roleExists
  return ⟨path, parentMailboxId, role⟩

/-! ## The commands -/

/-- The mailboxes of a path created one under the other, with ids counted down from
`documentId` and the role on the last: the parent id the next one would take, and the store. -/
def createPath (store : MailboxStore) (role : SpecialUse) (parentId documentId : Nat) :
    List (List Char) → Nat × MailboxStore
  | [] => (parentId, store)
  | [item] => (documentId + 1, store.write documentId { Mailbox.new item with parentId, role })
  | item :: path =>
    createPath (store.write documentId { Mailbox.new item with parentId }) role
      (documentId + 1) (documentId - 1) path

/-- `create_folder`: the names of the path, the last with the role. -/
def createFolder (config : FolderConfig) (store : MailboxStore) (mailboxName : List Char)
    (role : Option SpecialUse) : Except FolderError MailboxStore := do
  let params ← validateMailboxCreate config store mailboxName role
  let parentId := (params.parentMailboxId.map (· + 1)).getD 0
  let counter := store.documentIdCounter + params.path.length
  return (createPath { store with documentIdCounter := counter } (role.getD .none) parentId counter
    params.path).2

/-- `rename_folder`: the names of the new path but the last are created, and the renamed mailbox
moves under them with the last name. -/
def renameFolder (config : FolderConfig) (store : MailboxStore) (mailboxName newMailboxName : List Char) :
    Except FolderError MailboxStore := do
  let params ← validateMailboxCreate config store newMailboxName none
  let some mailboxId := lookupName (mailboxNames store) mailboxName | throw .mailboxNotFound
  let some mailbox := store.get? mailboxId | throw .mailboxNotFound
  let newName := params.path.getLast?.getD []
  let path := params.path.dropLast
  let parentId := (params.parentMailboxId.map (· + 1)).getD 0
  let counter := store.documentIdCounter + path.length
  let (parentId, store) :=
    createPath { store with documentIdCounter := counter } .none parentId counter path
  return store.write mailboxId { mailbox with name := newName, parentId }

/-- An account with its inbox, trash and junk folders, and `A` and `B` at the top. -/
def topFolders : MailboxStore :=
  ⟨[(0, ⟨"Inbox".toList, .inbox, 0, []⟩), (1, ⟨"Trash".toList, .trash, 0, []⟩),
    (2, ⟨"Junk".toList, .junk, 0, []⟩), (3, ⟨"A".toList, .none, 0, []⟩),
    (4, ⟨"B".toList, .none, 0, []⟩)], [], 4⟩

/-- The same account with a second `A` under `B`. -/
def nestedFolders : MailboxStore :=
  ⟨topFolders.mailboxes ++ [(5, ⟨"A".toList, .none, 5, []⟩)], [], 5⟩

/-- The same account with `B` under `A`. -/
def chainedFolders : MailboxStore :=
  ⟨[(0, ⟨"Inbox".toList, .inbox, 0, []⟩), (1, ⟨"Trash".toList, .trash, 0, []⟩),
    (2, ⟨"Junk".toList, .junk, 0, []⟩), (3, ⟨"A".toList, .none, 0, []⟩),
    (4, ⟨"B".toList, .none, 4, []⟩), (5, ⟨"C".toList, .none, 0, []⟩)], [], 5⟩

/-- The account's owner. -/
def owner : AccessToken := ⟨1, [], [], false⟩

theorem mailbox_hierarchy_broken :
    -- two updates of one request move `A` under `B` and `B` under `A`
    topFolders.Forest 3 ∧
    (mailboxSet ⟨3, 255, 100⟩ topFolders owner 1
      ⟨[], [(3, [.parentId (some (.id 4))]), (4, [.parentId (some (.id 3))])], [], false⟩).any
        (fun (response, store) => response.updated == [3, 4] && !decide (store.Forest 3)) ∧
    -- two creates of one request take the archive role
    (mailboxSet ⟨3, 255, 100⟩ topFolders owner 1
      ⟨[(0, [.name "X".toList, .role .archive]), (1, [.name "Y".toList, .role .archive])], [], [],
        false⟩).any
        (fun (response, store) => response.created == [(0, 5), (1, 6)] && !decide (store.Forest 3)) ∧
    -- the second `A` moved to the top keeps its name, which is not checked
    nestedFolders.Forest 3 ∧
    (mailboxSet ⟨3, 255, 100⟩ nestedFolders owner 1 ⟨[], [(5, [.parentId none])], [], false⟩).any
        (fun (response, store) => response.updated == [5] && !decide (store.Forest 3)) ∧
    -- `A` moved under `C` takes its child `B` one level too deep
    chainedFolders.Forest 2 ∧
    (mailboxSet ⟨2, 255, 100⟩ chainedFolders owner 1
      ⟨[], [(3, [.parentId (some (.id 5))])], [], false⟩).any
        (fun (response, store) => response.updated == [3] && !decide (store.Forest 2)) ∧
    -- `RENAME A A/B` puts `A` under itself
    (renameFolder ⟨3, 255, "Shared Folders".toList⟩ topFolders "A".toList "A/B".toList).toOption.any
        (fun store => store.get? 3 == some ⟨"B".toList, .none, 4, []⟩ && !decide (store.Forest 3)) :=
  ⟨by decide, by decide, by decide, by decide, by decide, by decide, by decide, by decide⟩

end Stalwart.Imap
