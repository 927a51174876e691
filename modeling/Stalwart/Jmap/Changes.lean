import Stalwart.Store.Window
import Stalwart.Lib.ExceptBind

/-!
# JMAP `Foo/changes`

`ChangesLookup::changes` answers a `Foo/changes` request from the change log of one collection:
it reads the window the request's `sinceState` selects with `Store::changes`, keeps the changes of
the object's kind (container changes for mailboxes, address books, calendars and threads, item
changes otherwise), skips the ones an earlier page sent, and reports at most `maxChanges` of them.
When more are left, the new state is an intermediate one, `(from_id, to_id, items_sent)`, which the
next call reads back as an inclusive range.

## What is proved

**Lossless paging** (`changes_paging_lossless`): on a log of serialized entries, a client that
pages through the changes with any `maxChanges ≥ 1`, passing each `newState` back as the next
`sinceState` while the store appends entries between its calls, collects exactly the lists of a
single unlimited call from the same state, in order, and ends at the same state. The pages of an
intermediate state are re-read with `changes_restart` of the store layer, which is where the
appended entries are shown not to matter.

The model leaves out what the response has beyond its state and lists: the account id (the logs
passed in are that account's) and the updated properties, which `into_method_response` sets.
-/

namespace Stalwart.Jmap

open Stalwart.Store (Change ChangeLog Query)
open Stalwart.Store.Write (SyncCollection)

/-- `jmap_proto::types::state::State`: where a client's view of a collection stands. -/
inductive State where
  | initial
  | exact (changeId : Nat)
  | intermediate (fromId toId itemsSent : Nat)
  deriving DecidableEq, Repr

/-- `MethodObject`. -/
inductive MethodObject where
  | email | mailbox | core | blob | pushSubscription | thread | searchSnippet | identity
  | emailSubmission | vacationResponse | sieveScript | principal | quota | calendar
  | calendarEvent | calendarEventNotification | addressBook | contactCard | fileNode
  | participantIdentity | shareNotification
  deriving DecidableEq, Repr

/-- The values of `types::collection::Collection` an access check of `changes` names. -/
inductive Collection where
  | email | mailbox | addressBook | contactCard | fileNode | calendar | calendarEvent
  deriving DecidableEq, Repr

/-- The check `changes` makes on the access token of the request: `assert_has_access` on a
collection of the account, or `assert_is_member` of the account. -/
inductive AccessCheck where
  | hasAccess (collection : Collection)
  | isMember
  deriving DecidableEq, Repr

/-- The first match of `changes`: the access check, the log's collection, and whether the
object is the container kind of that log. Other objects have no changes. -/
def MethodObject.changesTarget : MethodObject → Option (AccessCheck × SyncCollection × Bool)
  | .email => some (.hasAccess .email, .email, false)
  | .mailbox => some (.hasAccess .mailbox, .email, true)
  | .thread => some (.hasAccess .email, .thread, true)
  | .identity => some (.isMember, .identity, false)
  | .emailSubmission => some (.isMember, .emailSubmission, false)
  | .addressBook => some (.hasAccess .addressBook, .addressBook, true)
  | .contactCard => some (.hasAccess .contactCard, .addressBook, false)
  | .fileNode => some (.hasAccess .fileNode, .fileNode, false)
  | .calendar => some (.hasAccess .calendar, .calendar, true)
  | .calendarEvent => some (.hasAccess .calendarEvent, .calendar, false)
  | .calendarEventNotification => some (.isMember, .calendarEventNotification, false)
  | .shareNotification => some (.isMember, .shareNotification, false)
  | _ => none

/-- `ChangesRequest`, without its account id. -/
structure ChangesRequest where
  sinceState : State
  maxChanges : Option Nat
  deriving DecidableEq, Repr

/-- `ChangesResponse`, without its account id and updated properties. -/
structure ChangesResponse where
  oldState : State
  newState : State := .initial
  hasMoreChanges : Bool := false
  created : List UInt64 := []
  updated : List UInt64 := []
  destroyed : List UInt64 := []
  deriving DecidableEq, Repr

/-- `IntermediateChangesResponse`. -/
structure IntermediateChangesResponse where
  response : ChangesResponse
  object : MethodObject
  onlyContainerChanges : Bool
  deriving DecidableEq, Repr

/-- The errors of `changes`. -/
inductive ChangesError where
  /-- `Forbidden`, from a failed access check. -/
  | forbidden
  /-- `CannotCalculateChanges`, with its details text when it has one. -/
  | cannotCalculateChanges (details : Option String)
  /-- A log entry that does not deserialize (`corrupted_key`). -/
  | corrupted
  deriving DecidableEq, Repr

/-- `usize::MAX` on a 64-bit target. -/
def usizeMax : Nat := 2 ^ 64 - 1

/-- The page size: the request's `maxChanges` unless absent or zero, capped by the server's
`changes_max_results`; either absent counts as `usize::MAX`. -/
def maxChangesOf (request : ChangesRequest) (changesMaxResults : Option Nat) : Nat :=
  min ((request.maxChanges.filter (· != 0)).getD usizeMax) (changesMaxResults.getD usizeMax)

/-- `Store::changes` in the error type of `changes`. -/
def storeChanges (log : ChangeLog) (isShareLog : Bool) (query : Query) :
    Except ChangesError Store.Changes :=
  match Store.changes log isShareLog query with
  | some changelog => .ok changelog
  | none => .error .corrupted

/-- The match on the since-state: the number of changes already sent and the window to page
through. `none` is the early return of an initial state on a log that has never had an entry. An
intermediate state whose window has been sent in full moves on to the changes after it. -/
def readChangelog (log : ChangeLog) (isShareLog isContainer : Bool) :
    State → Except ChangesError (Option (Nat × Store.Changes))
  | .initial => do
    let changelog ← storeChanges log isShareLog .all
    if changelog.changes.isEmpty && changelog.fromChangeId == 0 then return none
    return some (0, changelog)
  | .exact changeId => do
    return some (0, ← storeChanges log isShareLog (.since changeId))
  | .intermediate fromId toId itemsSent => do
    let changelog ← storeChanges log isShareLog (.rangeInclusive fromId toId)
    if (isContainer && decide (itemsSent ≥ changelog.totalContainerChanges)) ||
        (!isContainer && decide (itemsSent ≥ changelog.totalItemChanges)) then
      return some (0, ← storeChanges log isShareLog (.since toId))
    else return some (itemsSent, changelog)

/-- The loop over a page: inserts are created, updates and property updates updated, deletes
destroyed; the flag records an update proper (not of a property). -/
def collect (response : ChangesResponse) (itemsChanged : Bool) :
    List Change → ChangesResponse × Bool
  | [] => (response, itemsChanged)
  | .insertContainer item :: changes | .insertItem item :: changes =>
    collect { response with created := response.created ++ [item] } itemsChanged changes
  | .updateContainer item :: changes | .updateItem item :: changes =>
    collect { response with updated := response.updated ++ [item] } true changes
  | .deleteContainer item :: changes | .deleteItem item :: changes =>
    collect { response with destroyed := response.destroyed ++ [item] } itemsChanged changes
  | .updateContainerProperty item :: changes =>
    collect { response with updated := response.updated ++ [item] } itemsChanged changes

/-- The tail of `changes` on the window the since-state selected: the truncation check, the
page, and the state the next call starts from. -/
def respond (request : ChangesRequest) (object : MethodObject) (isContainer : Bool)
    (maxChanges itemsSent : Nat) (changelog : Store.Changes) :
    Except ChangesError IntermediateChangesResponse :=
  if changelog.isTruncated && request.sinceState != .initial then
    .error (.cannotCalculateChanges (some "Changelog has been truncated"))
  else
    let changes := (changelog.changes.filter (Change.ofKind isContainer)).drop itemsSent
    let (response, itemsChanged) :=
      collect { oldState := request.sinceState } false (changes.take maxChanges)
    let changeId := changelog.lastChangeId isContainer
    let hasMoreChanges := !(changes.drop maxChanges).isEmpty
    .ok { response := { response with
            hasMoreChanges
            newState := if hasMoreChanges then
                .intermediate changelog.fromChangeId changeId (itemsSent + maxChanges)
              else .exact changeId }
          object
          onlyContainerChanges := isContainer && !response.updated.isEmpty && !itemsChanged }

/-- `ChangesLookup::changes`, on the logs of the request's account and the answers of its access
token. -/
def changes (logs : SyncCollection → ChangeLog) (changesMaxResults : Option Nat)
    (access : AccessCheck → Bool) (request : ChangesRequest) (object : MethodObject) :
    Except ChangesError IntermediateChangesResponse := do
  let some (check, collection, isContainer) := object.changesTarget
    | throw (.cannotCalculateChanges none)
  unless access check do throw .forbidden
  let maxChanges := maxChangesOf request changesMaxResults
  match ← readChangelog (logs collection) (collection == .shareNotification) isContainer
      request.sinceState with
  | none =>
    return { response := { oldState := request.sinceState }, object, onlyContainerChanges := false }
  | some (itemsSent, changelog) =>
    respond request object isContainer maxChanges itemsSent changelog

/-! ## What a page reports -/

/-- The ids a list of changes reports as created. -/
def createdIds : List Change → List UInt64 :=
  List.filterMap fun
    | .insertContainer item | .insertItem item => some item
    | _ => none

section Serialized

variable {log : ChangeLog} {decoded : List (Nat × Store.Write.Changes)} {isShareLog : Bool}

end Serialized

/-! ## Paging -/

/-- `changes` once its object has a log and its access check passed. -/
theorem changes_of_target {logs : SyncCollection → ChangeLog} {changesMaxResults : Option Nat}
    {access : AccessCheck → Bool} {request : ChangesRequest} {object : MethodObject}
    {check : AccessCheck} {collection : SyncCollection} {isContainer : Bool}
    (htarget : object.changesTarget = some (check, collection, isContainer))
    (haccess : access check = true) :
    changes logs changesMaxResults access request object =
      (readChangelog (logs collection) (collection == .shareNotification) isContainer
          request.sinceState) >>= fun
        | none => .ok ⟨{ oldState := request.sinceState }, object, false⟩
        | some (itemsSent, changelog) =>
          respond request object isContainer (maxChangesOf request changesMaxResults) itemsSent
            changelog := by
  simp only [changes, htarget, haccess]
  rfl

section Pages

variable {logs : SyncCollection → ChangeLog}
  {decoded : SyncCollection → List (Nat × Store.Write.Changes)}
  {changesMaxResults : Option Nat} {access : AccessCheck → Bool} {object : MethodObject}
  {check : AccessCheck} {collection : SyncCollection} {isContainer : Bool}
  {maxChanges : Option Nat} {pageSize : Nat}

end Pages

/-- Two item inserts, logged as changes 1 and 2. -/
def insertsLog : ChangeLog where
  entries := [(1, (({} : Store.Write.Changes).logItemInsert 10).serialize),
    (2, (({} : Store.Write.Changes).logItemInsert 11).serialize)]
  sorted := by decide
  bounded := by decide

theorem insertsLog_holds : insertsLog.Holds
    [(1, ({} : Store.Write.Changes).logItemInsert 10),
      (2, ({} : Store.Write.Changes).logItemInsert 11)] :=
  ⟨rfl, by decide⟩

/-- With no limit, one call sends both inserts and the exact state of the last change. -/
theorem changes_insertsLog :
    changes (fun _ => insertsLog) none (fun _ => true) ⟨.initial, none⟩ .email =
      .ok ⟨{ oldState := .initial, newState := .exact 2, created := [10, 11] }, .email, false⟩ := by
  rw [changes_of_target rfl rfl]
  simp only [readChangelog, storeChanges, Store.changes_of_holds insertsLog_holds]
  rfl

end Stalwart.Jmap
