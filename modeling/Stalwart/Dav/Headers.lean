import Stalwart.Dav.LockData
import Stalwart.Dav.Urn
import Stalwart.Sharing.Acl

/-!
# `validate_headers`

Before a WebDAV method runs, `validate_headers` checks the request's `If` header and the locks on its
target resources. Three things happen in turn.

* `GET` and `HEAD` without an `If` header pass at once, and a write with `Overwrite: F` onto a
  resource that exists fails.
* For a method that writes (all but `GET`, `HEAD`, `LOCK` and `UNLOCK`), the locks on every target
  (the source of a `COPY` apart) are looked up with `find_locks`, children included. A lock whose
  token the `If` header names passes; a target with other locks fails the request with their paths.
  A named token leaves both loops at once (`break 'outer`).
* Without an `If` header the lock check's answer is the answer. With one, the header's lists are
  read in turn: a list holds when each of its conditions holds on its resource (a state token among
  the resource's lock tokens or equal to its sync token, an etag, the resource's existence), and the
  first list that holds gives the lock check's answer; when none holds the request fails.

The resource of a list is the request's first target, or the resource its tag names: one of the
targets, or a resource of an account and collection the token has access to. The server state the
checks read (the lock store, the resources' etags, the collections' change ids and the resolution of
tag URLs) is a `DavServer`.

## What is proved

A named token exempts more than its lock. It leaves the loops of the lock check at once, so the
locks found after it, those of other owners included, are never checked: one token lets a `PUT`
through another owner's lock on the same resource, and a `MOVE` through the lock on its
destination (`lock_token_exempts_others`).
-/

set_option autoImplicit false

namespace Stalwart.Dav

open Stalwart.Sharing

/-- The values of `types::collection::Collection` the WebDAV resources live in, and `None`. -/
inductive Collection where
  | calendar
  | calendarEvent
  | addressBook
  | contactCard
  | fileNode
  | calendarEventNotification
  | none
  deriving DecidableEq, Repr

/-- `Collection::main_collection`. -/
def Collection.mainCollection : Collection → Collection
  | .calendarEvent => .calendar
  | .contactCard => .addressBook
  | collection => collection

/-- `Collection::child_collection`. -/
def Collection.childCollection : Collection → Option Collection
  | .calendar => some .calendarEvent
  | .addressBook => some .contactCard
  | .fileNode => some .fileNode
  | .calendarEventNotification => some .calendarEventNotification
  | _ => none

/-- `DavMethod`. -/
inductive DavMethod where
  | get | put | post | delete | head | patch | propfind | proppatch | report | mkcol | mkcalendar
  | copy | move | lock | unlock | options | acl
  deriving DecidableEq, Repr

/-- The methods whose requests the lock check reads: all but `GET`, `HEAD`, `LOCK` and `UNLOCK`. -/
def DavMethod.checksLocks : DavMethod → Bool
  | .get | .head | .lock | .unlock => false
  | _ => true

/-- The methods that honour `Overwrite: F`. -/
def DavMethod.checksOverwrite : DavMethod → Bool
  | .copy | .move | .post | .put | .patch => true
  | _ => false

/-- `Depth`. -/
inductive Depth where
  | zero
  | one
  | infinity
  | none
  deriving DecidableEq, Repr

/-- `Timeout`. -/
inductive Timeout where
  | infinite
  | second (seconds : Nat)
  | none
  deriving DecidableEq, Repr

/-- `Condition`: one condition of an `If` list. -/
inductive Condition where
  | stateToken (isNot : Bool) (token : List Char)
  | etag (isNot : Bool) (tag : List Char)
  | exists (isNot : Bool)
  deriving DecidableEq, Repr

/-- `If`: a list of conditions, and the URL of the resource it is about when tagged. -/
structure If where
  resource : Option (List Char)
  list : List Condition
  deriving DecidableEq, Repr

/-- `RequestHeaders`: the headers the lock handling reads, with `base_uri().unwrap_or_default()`. -/
structure RequestHeaders where
  depth : Depth
  timeout : Timeout
  lockToken : Option (List Char)
  overwriteFail : Bool
  if_ : List If
  baseUri : List Char
  deriving DecidableEq, Repr

/-- `u32::MAX`, the document id of a resource found missing. -/
def noDocument : UInt32 := 4294967295

/-- `ResourceState`: a target of the request. The lock and sync tokens the code keeps beside them
are never given by a caller; `validate_headers` reads them from the server. -/
structure ResourceState where
  accountId : UInt32
  collection : Collection
  documentId : Option UInt32
  etag : Option (List Char)
  path : List Char
  deriving DecidableEq, Repr

/-- The server state the checks read: the lock data of each account and main collection in the
in-memory store, `map_uri_resource`, the etags of the archives, the collections' highest change
ids, and `validate_uri` of a tag as its account, collection and resource path. -/
structure DavServer where
  locks : UInt32 → Collection → Option LockData
  documentId : UInt32 → Collection → List Char → Option UInt32
  etag : UInt32 → Collection → UInt32 → Option (List Char)
  highestChangeId : UInt32 → Collection → UInt64
  validateUri : List Char → Option (Option UInt32 × Collection × Option (List Char))

/-- The status codes of the lock handling. -/
inductive StatusCode where
  | ok
  | created
  | noContent
  | badRequest
  | forbidden
  | conflict
  | preconditionFailed
  | payloadTooLarge
  | locked
  | tooManyRequests
  deriving DecidableEq, Repr

/-- `BaseCondition`: the error conditions the lock handling reports. -/
inductive BaseCondition where
  | lockTokenSubmitted (hrefs : List (List Char))
  | lockTokenMatchesRequestUri
  deriving DecidableEq, Repr

/-- `DavError`. -/
inductive DavError where
  | code (status : StatusCode)
  | condition (status : StatusCode) (condition : BaseCondition)
  deriving DecidableEq, Repr

/-- `AccessToken::has_access`: a member of the account, or given the collection of it. -/
def hasAccess (token : AccessToken) (accessTo : List (UInt32 × List Collection)) (accountId : UInt32)
    (collection : Collection) : Bool :=
  token.isMember accountId ||
    accessTo.any fun (id, collections) => id == accountId && collections.contains collection

/-- A lock's token: `lock_item.urn()`. -/
def LockItem.urn (lock : LockItem) : Urn :=
  .lock lock.lockId

/-- The lock data of a resource's account and collection. -/
def DavServer.lockData (server : DavServer) (resource : ResourceState) : Option LockData :=
  server.locks resource.accountId resource.collection.mainCollection

/-! ## The lock check -/

/-- `trim_end_matches(c)`. -/
def trimEndMatches (c : Char) (s : List Char) : List Char :=
  (s.reverse.dropWhile (· == c)).reverse

/-- The `If` header names a lock's token: in a list that is untagged or whose tag ends with the
lock's path, as a state token, negated or not. -/
def lockSubmitted (headers : RequestHeaders) (path : List Char) (lock : LockItem) : Bool :=
  headers.if_.any fun if_ =>
    if_.resource.all (fun resource => path.isSuffixOf (trimEndMatches '/' resource)) &&
      if_.list.any fun
        | .stateToken _ token => token == lock.urn.toString
        | _ => false

/-- The inner loop of the lock check over the locks found for one target: none when one of their
tokens is named, which leaves both loops (`break 'outer`); the hrefs of the locks that failed
otherwise. -/
def failedLocks (headers : RequestHeaders) : List (List Char × LockItem) → Option (List (List Char))
  | [] => some []
  | (path, lock) :: rest =>
    if lockSubmitted headers path lock then none
    else (failedLocks headers rest).map ((headers.baseUri ++ '/' :: path) :: ·)

/-- The outer loop of the lock check over the targets. -/
def checkLocks (server : DavServer) (now : Nat) (headers : RequestHeaders) :
    List ResourceState → Except DavError Unit
  | [] => .ok ()
  | resource :: rest =>
    match server.lockData resource with
    | none => checkLocks server now headers rest
    | some data =>
      match failedLocks headers (data.findLocks now resource.path true) with
      | none => .ok ()
      | some [] => checkLocks server now headers rest
      | some hrefs => .error (.condition .locked (.lockTokenSubmitted hrefs))

/-! ## The `If` header -/

/-- The resource of an `If` list, and the targets with a tag's resource added: the first target for
an untagged list; for a tagged one, the target the tag names, or else its resource when the token
has access to it. None stands for `resource_not_found`. -/
def ifResource (server : DavServer) (token : AccessToken) (accessTo : List (UInt32 × List Collection))
    (resources : List ResourceState) (if_ : If) : Option ResourceState × List ResourceState :=
  match if_.resource with
  | none => (resources.head?, resources)
  | some uri =>
    match server.validateUri uri with
    | some (some accountId, collection, some path) =>
      let collection :=
        if collection != .fileNode && path.contains '/' then collection.childCollection.getD collection
        else collection
      match resources.find? fun r => r.accountId == accountId && r.collection == collection && r.path == path with
      | some known => (some known, resources)
      | none =>
        if hasAccess token accessTo accountId collection then
          let resource : ResourceState := ⟨accountId, collection, none, none, path⟩
          (some resource, resources ++ [resource])
        else (none, resources)
    | _ => (none, resources)

/-- A resource's etag as `validate_headers` fills it in: the one given, or the archive's when the
path maps to a document. -/
def DavServer.filledEtag (server : DavServer) (state : ResourceState) : Option (List Char) :=
  match state.etag with
  | some etag => some etag
  | none =>
    let documentId := state.documentId.getD
      ((server.documentId state.accountId state.collection state.path).getD noDocument)
    if documentId != noDocument then server.etag state.accountId state.collection documentId else none

/-- The values the conditions read on a resource: its etag, its lock tokens (the unexpired locks on
it and the infinite ones above it) and its sync token. Nothing is filled in for a resource of the
`None` collection, nor for `resource_not_found`. -/
def ifEtag (server : DavServer) : Option ResourceState → Option (List Char)
  | some state => if state.collection = .none then state.etag else server.filledEtag state
  | none => none

/-- See `ifEtag`. -/
def ifLockTokens (server : DavServer) (now : Nat) : Option ResourceState → List (List Char)
  | some state =>
    if state.collection = .none then []
    else match server.lockData state with
      | some data => (data.findLocks now state.path false).map fun (_, lock) => lock.urn.toString
      | none => []
  | none => []

/-- See `ifEtag`. -/
def ifSyncToken (server : DavServer) : Option ResourceState → Option (List Char)
  | some state =>
    if state.collection = .none then none
    else some (Urn.sync (server.highestChangeId state.accountId state.collection) 0).toString
  | none => none

/-- One condition on the resource of its list. -/
def conditionHolds (server : DavServer) (now : Nat) (state : Option ResourceState) :
    Condition → Bool
  | .stateToken isNot token =>
    match Urn.tryExtractSyncId token with
    | some id => xor (((ifSyncToken server state).bind Urn.tryExtractSyncId) == some id) isNot
    | none => xor ((ifLockTokens server now state).contains token) isNot
  | .etag isNot tag => xor (ifEtag server state == some tag) isNot
  | .exists isNot => xor (ifEtag server state).isSome isNot

/-- The loop over the `If` lists: the first list that holds gives `lockResponse`. -/
def evalIfLists (server : DavServer) (now : Nat) (token : AccessToken)
    (accessTo : List (UInt32 × List Collection)) (lockResponse : Except DavError Unit) :
    List ResourceState → List If → Except DavError Unit
  | _, [] => .error (.code .preconditionFailed)
  | resources, if_ :: rest =>
    if if_.list.isEmpty then evalIfLists server now token accessTo lockResponse resources rest
    else
      let (state, resources) := ifResource server token accessTo resources if_
      if if_.list.all (conditionHolds server now state) then lockResponse
      else evalIfLists server now token accessTo lockResponse resources rest

/-- `validate_headers`. -/
def validateHeaders (server : DavServer) (now : Nat) (token : AccessToken)
    (accessTo : List (UInt32 × List Collection)) (headers : RequestHeaders)
    (resources : List ResourceState) (method : DavMethod) : Except DavError Unit :=
  let noIfHeaders := headers.if_.isEmpty
  if (method = .get ∨ method = .head) ∧ noIfHeaders then .ok ()
  else if method.checksOverwrite ∧ headers.overwriteFail ∧
      resources.getLast?.any (fun r => r.etag.isSome || r.documentId.any (· != noDocument)) then
    .error (.code .preconditionFailed)
  else
    -- the source of a `COPY` is the first target, and is not checked
    let lockResponse :=
      if method.checksLocks then
        checkLocks server now headers (if method = .copy then resources.drop 1 else resources)
      else .ok ()
    if noIfHeaders then lockResponse
    else evalIfLists server now token accessTo lockResponse resources headers.if_

/-! ## A named token exempts other locks -/

/-- A lock of id `lockId` and owner `owner` on a file, shared, of depth zero, until time 100. -/
def sharedLock (lockId : UInt64) (owner : UInt32) : LockItem :=
  ⟨lockId, owner, 100, false, false⟩

/-- The file `doc` of account 1 with two locks of two owners. -/
def twoLocksOnDoc : LockData :=
  ⟨[("doc".toList, [sharedLock 1 2, sharedLock 2 3])], by decide⟩

/-- The files `a` and `b` of account 1, each with a lock of its own owner. -/
def oneLockEach : LockData :=
  ⟨[("a".toList, [sharedLock 1 2]), ("b".toList, [sharedLock 2 3])], by decide⟩

/-- The files of account 1 with the given locks, and nothing else. -/
def filesLocked (data : LockData) : DavServer :=
  ⟨fun accountId collection => if accountId = 1 ∧ collection = .fileNode then some data else none,
    fun _ _ _ => none, fun _ _ _ => none, fun _ _ => 0, fun _ => none⟩

/-- A file of account 1. -/
def file (path : String) : ResourceState :=
  ⟨1, .fileNode, none, none, path.toList⟩

/-- An `If` header naming the token of the lock of id 1. -/
def namingFirstLock : RequestHeaders :=
  ⟨.none, .none, none, false, [⟨none, [.stateToken false (Urn.lock 1).toString]⟩], []⟩

/-- The owner of the lock of id 1. -/
def firstOwner : AccessToken :=
  ⟨2, [], [], false⟩

theorem lock_token_exempts_others :
    -- `PUT` on `doc` naming the token of one of its two locks
    validateHeaders (filesLocked twoLocksOnDoc) 50 firstOwner [] namingFirstLock [file "doc"] .put =
        .ok () ∧
      ("doc".toList, sharedLock 2 3) ∈ twoLocksOnDoc.findLocks 50 "doc".toList true ∧
      lockSubmitted namingFirstLock "doc".toList (sharedLock 2 3) = false ∧
    -- `MOVE` from `a` to `b` naming the token of the lock on `a`
    validateHeaders (filesLocked oneLockEach) 50 firstOwner [] namingFirstLock [file "a", file "b"]
        .move = .ok () ∧
      ("b".toList, sharedLock 2 3) ∈ oneLockEach.findLocks 50 "b".toList true ∧
      lockSubmitted namingFirstLock "b".toList (sharedLock 2 3) = false := by
  decide +kernel

end Stalwart.Dav
