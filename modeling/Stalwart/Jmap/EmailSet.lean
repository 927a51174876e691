import Mathlib.Data.Finset.Card
import Stalwart.Sharing.Acl
import Stalwart.Lib.ExceptBind

/-!
# Email/set on a shared account

`email_set` resolves the caller's rights once per request. When the account is shared with the
caller (`is_shared`), three lists of mailboxes are read off the cached mailboxes' grants: those
on which the caller holds `AddItems`, `RemoveItems` and `ModifyItems`. Each update then applies
its patches to the stored `MessageData` and checks what changed: a keyword change needs one of
the email's new mailboxes to be a `ModifyItems` one, every added mailbox must exist and be an
`AddItems` one, and every left mailbox a `RemoveItems` one. The updates are written in one batch.
A destruction needs the email to be in some `RemoveItems` mailbox (`shared_messages`).

## What is proved

Nothing asks for `ReadItems`, and a destruction asks for one `RemoveItems` mailbox, not all of
the email's: a caller holding only `AddItems` on one mailbox can file any email of the account
into it, and one holding `RemoveItems` on one of an email's mailboxes can destroy the email, which
also leaves the others (`shared_rights_unchecked`).
-/

set_option autoImplicit false

namespace Stalwart.Jmap.EmailSet

open Sharing (Acl AclGrant AccessToken effectiveAcl)

/-- `Id::document_id`: the low 32 bits of a JMAP id. -/
def documentId (id : UInt64) : UInt32 :=
  (id &&& 0xFFFFFFFF).toUInt32

/-! ## The stored messages -/

section Data

variable {K : Type}

/-- The parts of an email's `MessageData` an update reads and writes: its mailboxes, each as
`(mailbox_id, uid)`, and its keywords. -/
structure MessageData (K : Type) where
  mailboxes : List (UInt32 × UInt32)
  keywords : List K
  deriving DecidableEq, Repr

namespace MessageData

/-- `MessageDataBuilder::set_keywords`. -/
def setKeywords (keywords : List K) (data : MessageData K) : MessageData K :=
  { data with keywords }

/-- `MessageDataBuilder::add_keyword`. -/
def addKeyword [DecidableEq K] (keyword : K) (data : MessageData K) : MessageData K :=
  if !data.keywords.contains keyword then { data with keywords := data.keywords ++ [keyword] }
  else data

/-- `MessageDataBuilder::remove_keyword`. -/
def removeKeyword [DecidableEq K] (keyword : K) (data : MessageData K) : MessageData K :=
  { data with keywords := data.keywords.filter (· != keyword) }

/-- `MessageDataBuilder::set_mailboxes`. -/
def setMailboxes (mailboxes : List (UInt32 × UInt32)) (data : MessageData K) : MessageData K :=
  { data with mailboxes }

/-- `MessageDataBuilder::add_mailbox`: `UidMailbox` compares mailbox ids only. -/
def addMailbox (mailbox : UInt32 × UInt32) (data : MessageData K) : MessageData K :=
  if !data.mailboxes.any (·.1 == mailbox.1) then
    { data with mailboxes := data.mailboxes ++ [mailbox] }
  else data

/-- `MessageDataBuilder::remove_mailbox`. -/
def removeMailbox (mailbox : UInt32) (data : MessageData K) : MessageData K :=
  { data with mailboxes := data.mailboxes.filter (·.1 != mailbox) }

/-- The change test `has_keyword_changes` and `has_mailbox_changes` share: another length, or an
element whose key the previous list lacks. -/
def changedBy {α β : Type} [BEq β] (key : α → β) (new prev : List α) : Bool :=
  new.length != prev.length || !new.all fun x => prev.any fun y => key y == key x

/-- `MessageDataBuilder::has_keyword_changes`. -/
def hasKeywordChanges [DecidableEq K] (data prev : MessageData K) : Bool :=
  changedBy id data.keywords prev.keywords

/-- `MessageDataBuilder::added_mailboxes`. -/
def addedMailboxes (data prev : MessageData K) : List (UInt32 × UInt32) :=
  data.mailboxes.filter fun m => prev.mailboxes.all (·.1 != m.1)

/-- `MessageDataBuilder::removed_mailboxes`. -/
def removedMailboxes (data prev : MessageData K) : List (UInt32 × UInt32) :=
  prev.mailboxes.filter fun m => data.mailboxes.all (·.1 != m.1)

/-- `MessageDataBuilder::has_mailbox_changes`. -/
def hasMailboxChanges (data prev : MessageData K) : Bool :=
  changedBy (·.1) data.mailboxes prev.mailboxes

end MessageData

/-- A stored email: its document id and its message data. -/
structure StoredEmail (K : Type) where
  documentId : UInt32
  data : MessageData K
  deriving DecidableEq, Repr

/-- A cached mailbox: its document id and its grants. -/
structure MailboxCache where
  documentId : UInt32
  acls : List AclGrant

/-- The account's mailboxes and emails, as the message cache and the store hold them. -/
structure MessageStoreCache (K : Type) where
  mailboxes : List MailboxCache
  emails : List (StoredEmail K)

namespace MessageStoreCache

/-- The stored `MessageData` of a document (the archive `get_value` reads). -/
def messageData (cache : MessageStoreCache K) (documentId : UInt32) : Option (MessageData K) :=
  (cache.emails.find? (·.documentId == documentId)).map (·.data)

/-- `MailboxCacheAccess::has_mailbox_id`. -/
def hasMailboxId (cache : MessageStoreCache K) (id : UInt32) : Bool :=
  cache.mailboxes.any (·.documentId == id)

/-- `MessageCacheAccess::email_document_ids`. -/
def emailDocumentIds (cache : MessageStoreCache K) : List UInt32 :=
  cache.emails.map (·.documentId)

/-- `MessageCacheAccess::in_mailbox`. -/
def inMailbox (cache : MessageStoreCache K) (mailboxId : UInt32) : List (StoredEmail K) :=
  cache.emails.filter fun m => m.data.mailboxes.any (·.1 == mailboxId)

/-- `MailboxCacheAccess::shared_mailboxes`: the mailboxes on which the token's effective rights
hold all of `checkAcls`. -/
def sharedMailboxes (cache : MessageStoreCache K) (token : AccessToken)
    (checkAcls : Bitmap Acl) : List UInt32 :=
  (cache.mailboxes.filter fun m => (effectiveAcl m.acls token).containsAll checkAcls.items).map
    (·.documentId)

/-- `MessageCacheAccess::shared_messages`: the emails in a mailbox on which the token's effective
rights hold all of `checkAcls`. -/
def sharedMessages (cache : MessageStoreCache K) (token : AccessToken)
    (checkAcls : Bitmap Acl) : List UInt32 :=
  cache.mailboxes.flatMap fun mailbox =>
    if (effectiveAcl mailbox.acls token).containsAll checkAcls.items then
      (cache.inMailbox mailbox.documentId).map (·.documentId)
    else []

/-- The token holds `acl` on the mailbox `mailboxId`: the right the checks are meant to
require. -/
def holds (cache : MessageStoreCache K) (token : AccessToken) (acl : Acl) (mailboxId : UInt32) :
    Bool :=
  cache.mailboxes.any fun mailbox =>
    mailbox.documentId == mailboxId && (effectiveAcl mailbox.acls token).contains acl

end MessageStoreCache

end Data

/-! ## Patches -/

/-- A patch value: `true`, `false`, `null`, or any other value. -/
inductive PatchValue where
  | bool (value : Bool)
  | null
  | other
  deriving DecidableEq, Repr

/-- The path of a JSON-pointer patch: `keywords/<keyword>`, `mailboxIds/<id>`, or any other. -/
inductive EmailPointer (K : Type) where
  | keyword (keyword : K)
  | mailboxId (id : UInt64)
  | other
  deriving DecidableEq, Repr

/-- `PatchResult`. -/
inductive PatchResult (K : Type) where
  | setKeyword (keyword : K)
  | removeKeyword (keyword : K)
  | addMailbox (id : UInt32)
  | removeMailbox (id : UInt32)
  | invalid
  deriving DecidableEq, Repr

/-- `handle_email_patch`. -/
def handleEmailPatch {K : Type} : EmailPointer K → PatchValue → PatchResult K
  | .keyword keyword, .bool true => .setKeyword keyword
  | .keyword keyword, .bool false => .removeKeyword keyword
  | .keyword keyword, .null => .removeKeyword keyword
  | .mailboxId id, .bool true => .addMailbox (documentId id)
  | .mailboxId id, .bool false => .removeMailbox (documentId id)
  | .mailboxId id, .null => .removeMailbox (documentId id)
  | _, _ => .invalid

/-- One property of an update: `mailboxIds` or `keywords` set whole (as the ids or keywords the
object maps to `true`), a JSON-pointer patch, or any other property. -/
inductive EmailPatch (K : Type) where
  | mailboxIds (ids : List UInt64)
  | keywords (keywords : List K)
  | pointer (pointer : EmailPointer K) (value : PatchValue)
  | other
  deriving DecidableEq, Repr

/-- Why an update or a destruction is refused. -/
inductive SetError where
  /-- `SetError::will_destroy`. -/
  | willDestroy
  /-- `SetError::not_found`. -/
  | notFound
  /-- "Invalid patch value". -/
  | invalidPatch
  /-- `invalid_property_update`. -/
  | invalidProperty
  /-- "You are not allowed to modify keywords." -/
  | keywordsForbidden
  /-- "Message has to belong to at least one mailbox." -/
  | noMailbox
  /-- "mailboxId {id} does not exist." -/
  | mailboxNotFound (mailboxId : UInt32)
  /-- "You are not allowed to add messages to mailbox {id}." -/
  | addForbidden (mailboxId : UInt32)
  /-- "You are not allowed to delete messages from mailbox {id}." -/
  | removeForbidden (mailboxId : UInt32)
  /-- "Another process modified this message, please try again." -/
  | modifiedConcurrently
  /-- "You are not allowed to delete this message." -/
  | destroyForbidden
  deriving DecidableEq, Repr

/-! ## One update -/

section Update

variable {K : Type}

open MessageData

/-- The match of the property loop: one property applied to the message data. -/
def applyPatch [DecidableEq K] (data : MessageData K) : EmailPatch K → Except SetError (MessageData K)
  | .mailboxIds ids => .ok (data.setMailboxes (ids.map fun id => (documentId id, 0)))
  | .keywords keywords => .ok (data.setKeywords keywords)
  | .pointer pointer value =>
    match handleEmailPatch pointer value with
    | .setKeyword keyword => .ok (data.addKeyword keyword)
    | .removeKeyword keyword => .ok (data.removeKeyword keyword)
    | .addMailbox id => .ok (data.addMailbox (id, 0))
    | .removeMailbox id => .ok (data.removeMailbox id)
    | .invalid => .error .invalidPatch
  | .other => .error .invalidProperty

/-- The property loop: the patches applied in order, the first invalid one refusing the update. -/
def applyPatches [DecidableEq K] (data : MessageData K) (patches : List (EmailPatch K)) :
    Except SetError (MessageData K) :=
  patches.foldlM applyPatch data

/-- The keyword check: on a shared account, one of the new mailboxes is a `ModifyItems` one. -/
def checkKeywords (canModify : Option (List UInt32)) (newData : MessageData K) :
    Except SetError Unit :=
  if canModify.any fun ids => !newData.mailboxes.any fun mb => ids.contains mb.1 then
    throw .keywordsForbidden
  else pure ()

/-- The check of one added mailbox: it exists and, on a shared account, is an `AddItems` one. -/
def checkAdded (cache : MessageStoreCache K) (canAdd : Option (List UInt32))
    (mailbox : UInt32 × UInt32) : Except SetError Unit :=
  if cache.hasMailboxId mailbox.1 then
    if canAdd.all (·.contains mailbox.1) then pure ()
    else throw (.addForbidden mailbox.1)
  else throw (.mailboxNotFound mailbox.1)

/-- The check of one left mailbox: on a shared account, it is a `RemoveItems` one. -/
def checkRemoved (canDelete : Option (List UInt32)) (mailbox : UInt32 × UInt32) :
    Except SetError Unit :=
  if canDelete.all (·.contains mailbox.1) then pure ()
  else throw (.removeForbidden mailbox.1)

/-- The mailbox checks: the email stays in one mailbox, then each added and each left mailbox is
checked in turn. -/
def checkMailboxes (cache : MessageStoreCache K) (canAdd canDelete : Option (List UInt32))
    (newData data : MessageData K) : Except SetError Unit :=
  if newData.mailboxes.isEmpty then throw .noMailbox
  else do
    (newData.addedMailboxes data).forM (checkAdded cache canAdd)
    (newData.removedMailboxes data).forM (checkRemoved canDelete)

/-- The body of the update loop once the message data is read: `none` when nothing changes,
the data to write otherwise. -/
def updateEmail [DecidableEq K] (cache : MessageStoreCache K) (canAdd canDelete canModify : Option (List UInt32))
    (data : MessageData K) (patches : List (EmailPatch K)) :
    Except SetError (Option (MessageData K)) := do
  let newData ← applyPatches data patches
  let hasKeywordChanges := newData.hasKeywordChanges data
  let hasMailboxChanges := newData.hasMailboxChanges data
  if !hasKeywordChanges && !hasMailboxChanges then return none
  else do
    if hasKeywordChanges then checkKeywords canModify newData else pure ()
    if hasMailboxChanges then checkMailboxes cache canAdd canDelete newData data else pure ()
    return some newData

end Update

/-! ## The request -/

/-- The update and destroy parts of a `SetRequest`. -/
structure SetRequest (K : Type) where
  update : List (UInt64 × List (EmailPatch K))
  destroy : List UInt64

/-- The update and destroy parts of a `SetResponse`. -/
structure SetResponse where
  updated : List UInt64
  notUpdated : List (UInt64 × SetError)
  destroyed : List UInt64
  notDestroyed : List (UInt64 × SetError)
  deriving DecidableEq, Repr

/-- The update loop's state: the response, the batch's writes, and `will_update`. -/
structure UpdateState (K : Type) where
  response : SetResponse
  writes : List (UInt32 × MessageData K)
  willUpdate : List UInt64

section Request

variable {K : Type} [DecidableEq K]

/-- One turn of the update loop. -/
def updateStep (cache : MessageStoreCache K) (canAdd canDelete canModify : Option (List UInt32))
    (willDestroy : List UInt64) (acc : UpdateState K) (entry : UInt64 × List (EmailPatch K)) :
    UpdateState K :=
  let (id, patches) := entry
  let notUpdated (error : SetError) : UpdateState K :=
    { acc with response.notUpdated := acc.response.notUpdated ++ [(id, error)] }
  if willDestroy.contains id then notUpdated .willDestroy
  else
    match cache.messageData (documentId id) with
    | none => notUpdated .notFound
    | some data =>
      match updateEmail cache canAdd canDelete canModify data patches with
      | .error error => notUpdated error
      | .ok none => { acc with response.updated := acc.response.updated ++ [id] }
      | .ok (some newData) =>
        { acc with
          writes := acc.writes ++ [(documentId id, newData)]
          willUpdate := acc.willUpdate ++ [id] }

/-- Writing one email's new message data. -/
def MessageStoreCache.write (cache : MessageStoreCache K) (write : UInt32 × MessageData K) :
    MessageStoreCache K :=
  { cache with
    emails := cache.emails.map fun email =>
      if email.documentId == write.1 then { email with data := write.2 } else email }

/-- Committing the update batch: when it commits, every write lands and every `will_update` id is
updated; when another process got in first, none is. -/
def commitUpdates (cache : MessageStoreCache K) (committed : Bool) (acc : UpdateState K) :
    SetResponse × MessageStoreCache K :=
  if acc.writes.isEmpty then (acc.response, cache)
  else if committed then
    ({ acc.response with updated := acc.response.updated ++ acc.willUpdate },
      acc.writes.foldl MessageStoreCache.write cache)
  else
    ({ acc.response with
        notUpdated := acc.response.notUpdated ++ acc.willUpdate.map (·, .modifiedConcurrently) },
      cache)

/-- One turn of the destroy loop, over the response and the document ids to delete. -/
def destroyStep (emailIds : List UInt32) (canDestroy : Option (List UInt32))
    (acc : SetResponse × List UInt32) (destroyId : UInt64) : SetResponse × List UInt32 :=
  let (response, destroyIds) := acc
  let documentId := documentId destroyId
  if emailIds.contains documentId then
    if !canDestroy.any fun ids => !ids.contains documentId then
      ({ response with destroyed := response.destroyed ++ [destroyId] },
        destroyIds ++ [documentId])
    else
      ({ response with
          notDestroyed := response.notDestroyed ++ [(destroyId, .destroyForbidden)] },
        destroyIds)
  else
    ({ response with notDestroyed := response.notDestroyed ++ [(destroyId, .notFound)] },
      destroyIds)

/-- `emails_delete`: the destroyed emails leave the store. -/
def MessageStoreCache.delete (cache : MessageStoreCache K) (destroyIds : List UInt32) :
    MessageStoreCache K :=
  { cache with emails := cache.emails.filter fun email => !destroyIds.contains email.documentId }

/-- The mailboxes on which the caller holds `acl`, when the account is shared with it; `none`,
which lets every mailbox through, when it is not. -/
def canMailboxIds (cache : MessageStoreCache K) (token : AccessToken) (accountId : UInt32)
    (acl : Acl) : Option (List UInt32) :=
  if token.isShared accountId then some (cache.sharedMailboxes token (.ofItem acl)) else none

/-- The update loop over the request's updates, with the rights read off the cache. -/
def updateLoop (cache : MessageStoreCache K) (token : AccessToken) (accountId : UInt32)
    (request : SetRequest K) : UpdateState K :=
  let canAdd := canMailboxIds cache token accountId .addItems
  let canDelete := canMailboxIds cache token accountId .removeItems
  let canModify := canMailboxIds cache token accountId .modifyItems
  request.update.foldl (updateStep cache canAdd canDelete canModify request.destroy)
    ⟨⟨[], [], [], []⟩, [], []⟩

/-- The destroy loop over `will_destroy`, with the emails the caller may destroy read off the
cache: it gives the response and the document ids to delete. -/
def destroyLoop (cache : MessageStoreCache K) (token : AccessToken) (accountId : UInt32)
    (response : SetResponse) (willDestroy : List UInt64) : SetResponse × List UInt32 :=
  let canDestroy :=
    if token.isShared accountId then some (cache.sharedMessages token (.ofItem .removeItems))
    else none
  willDestroy.foldl (destroyStep cache.emailDocumentIds canDestroy) (response, [])

/-- `email_set`, its updates and destructions: the updates are checked against the stored data
and written in one batch, then the destructions are checked against the cache read before it. -/
def emailSet (cache : MessageStoreCache K) (token : AccessToken) (accountId : UInt32)
    (request : SetRequest K) (committed : Bool) : SetResponse × MessageStoreCache K :=
  let updated := commitUpdates cache committed (updateLoop cache token accountId request)
  if request.destroy.isEmpty then updated
  else
    let destroyed := destroyLoop cache token accountId updated.1 request.destroy
    (destroyed.1, updated.2.delete destroyed.2)

end Request

/-! ## Rights nothing checks -/

/-- An account shared with account 100: it holds nothing on mailbox 1, `AddItems` on mailbox 2,
`RemoveItems` on mailbox 3 and `ModifyItems` on mailbox 4. Email 10 is in mailbox 1, email 11 in
mailboxes 1 and 3, email 12 in mailboxes 4 and 1. -/
def sharedCache : MessageStoreCache String :=
  ⟨[⟨1, []⟩, ⟨2, [⟨100, .ofList [.addItems]⟩]⟩, ⟨3, [⟨100, .ofList [.removeItems]⟩]⟩,
      ⟨4, [⟨100, .ofList [.modifyItems]⟩]⟩],
    [⟨10, ⟨[(1, 1)], []⟩⟩, ⟨11, ⟨[(1, 2), (3, 1)], []⟩⟩, ⟨12, ⟨[(4, 1), (1, 3)], []⟩⟩]⟩

/-- The token of account 100, to which account 1 is shared. -/
def sharedToken : AccessToken :=
  ⟨100, [], [1], false⟩

/-- `mailboxIds/2: true` on email 10; on email 12, `mailboxIds` set to mailbox 4 under two ids
(`2^32 + 4` has document id 4) and the keyword `$flagged`; and the destruction of email 11. -/
def sharedRequest : SetRequest String :=
  ⟨[(10, [.pointer (.mailboxId 2) (.bool true)]),
      (12, [.mailboxIds [4, 4294967300], .keywords ["$flagged"]])],
    [11]⟩

theorem shared_rights_unchecked :
    sharedToken.isShared 1 = true ∧
      (emailSet sharedCache sharedToken 1 sharedRequest true).1 = ⟨[10, 12], [], [11], []⟩ ∧
      (emailSet sharedCache sharedToken 1 sharedRequest true).2.emails =
        [⟨10, ⟨[(1, 1), (2, 0)], []⟩⟩, ⟨12, ⟨[(4, 0), (4, 0)], ["$flagged"]⟩⟩] ∧
      (∀ mailbox ∈ ([1, 2, 3, 4] : List UInt32),
        sharedCache.holds sharedToken .readItems mailbox = false) ∧
      sharedCache.holds sharedToken .removeItems 1 = false := by
  refine ⟨by decide, by decide +kernel, by decide +kernel, ?_, by decide⟩
  intro mailbox hmailbox
  simp only [List.mem_cons, List.not_mem_nil, or_false] at hmailbox
  rcases hmailbox with rfl | rfl | rfl | rfl <;> decide

end Stalwart.Jmap.EmailSet
