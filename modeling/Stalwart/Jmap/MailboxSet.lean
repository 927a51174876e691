import Mathlib
import Stalwart.Email.Mailbox
import Stalwart.Scheduling.Snapshot
import Stalwart.Lib.ExceptBind

/-!
# `Mailbox/set`

A `Mailbox/set` request creates, updates and destroys mailboxes in that order. Each create or
update is validated alone by `mailbox_set_item`: the parent exists and is not destroyed by the
request, the walk up from the new parent does not meet the mailbox and ends at the top within
`mailbox_max_depth` nodes, the role is not taken, and no sibling has the name. The creates are then
committed as one batch, and the updates as another, each write asserting only that its parent
exists.

## What is proved

* **One moved mailbox keeps every walk finite** (`mailboxSet_update_reachesRoot`): a request that
  only moves one mailbox leaves every mailbox's walk ending at the top, within twice the depth.
* The validations read the store as it was before the batch, so two updates of one request can
  each pass and together form a cycle, and two creates can take one role or one name; an update
  that keeps the name is not checked against its new siblings, and the walk does not count the
  moved mailbox's own children (`mailbox_hierarchy_broken`).
-/

set_option autoImplicit false

namespace Stalwart.Jmap.MailboxSet

open Stalwart.Email Stalwart.Sharing Stalwart.Forest

/-- The settings the request reads: `mailbox_max_depth`, `mailbox_name_max_len`, and the mailbox
quota of the account. -/
structure MailboxConfig where
  maxDepth : Nat
  nameMaxLen : Nat
  objectQuota : Nat
  deriving DecidableEq, Repr

/-- `MailboxProperty`: the properties the model sets. -/
inductive MailboxProperty where
  | name
  | parentId
  | role
  deriving DecidableEq, Repr

/-- `SetErrorType`: the errors of a mailbox create, update or destroy. -/
inductive SetErrorType where
  | invalidProperties
  | willDestroy
  | forbidden
  | notFound
  | overQuota
  | mailboxHasChild
  | mailboxHasEmail
  deriving DecidableEq, Repr

/-- `SetError`, with the property it names. -/
structure SetError where
  type : SetErrorType
  property : Option MailboxProperty
  deriving DecidableEq, Repr

/-- An id in a request: a document id, or a reference to a mailbox the request creates. -/
inductive IdValue where
  | id (documentId : Nat)
  | ref (creationId : Nat)
  deriving DecidableEq, Repr

/-- A property of a mailbox object: `name`, `parentId` (null for the top), `role` (null as
`SpecialUse::None`). -/
inductive MailboxPatch where
  | name (value : List Char)
  | parentId (value : Option IdValue)
  | role (value : SpecialUse)
  deriving DecidableEq, Repr

/-- `SetRequest`: the creates by creation id, the updates by document id, the destroys. -/
structure SetRequest where
  create : List (Nat × List MailboxPatch)
  update : List (Nat × List MailboxPatch)
  destroy : List Nat
  onDestroyRemoveEmails : Bool
  deriving DecidableEq, Repr

/-- `SetResponse`. -/
structure SetResponse where
  created : List (Nat × Nat)
  notCreated : List (Nat × SetError)
  updated : List Nat
  notUpdated : List (Nat × SetError)
  destroyed : List Nat
  notDestroyed : List (Nat × SetError)
  deriving DecidableEq, Repr

/-- `SetContext`: whether the account is shared with the caller, the caller's token, the ids of
the mailboxes (those created by the request included), the ids the request destroys, and the
response so far. -/
structure SetContext where
  isShared : Bool
  token : AccessToken
  mailboxIds : List Nat
  willDestroy : List Nat
  response : SetResponse

/-- `resolve_self_references` on an id: a reference names a mailbox created earlier. -/
def resolveId (ctx : SetContext) : IdValue → Except SetError Nat
  | .id documentId => .ok documentId
  | .ref creationId =>
    match ctx.response.created.lookup creationId with
    | some documentId => .ok documentId
    | none => .error ⟨.notFound, none⟩

/-- The length of a name in bytes. -/
def utf8Length (name : List Char) : Nat :=
  (name.map Char.utf8Size).sum

/-- One property of the object applied to the mailbox. -/
def applyProperty (config : MailboxConfig) (ctx : SetContext) (changes : Mailbox) :
    MailboxPatch → Except SetError Mailbox
  | .name value =>
    let value := Scheduling.trimWhitespace value
    if !value.isEmpty && utf8Length value < config.nameMaxLen then .ok { changes with name := value }
    else .error ⟨.invalidProperties, some .name⟩
  | .parentId (some value) =>
    match resolveId ctx value with
    | .error err => .error err
    | .ok parentId =>
      if ctx.willDestroy.contains parentId then .error ⟨.willDestroy, none⟩
      else if !ctx.mailboxIds.contains parentId then .error ⟨.invalidProperties, none⟩
      else .ok { changes with parentId := parentId + 1 }
  | .parentId none => .ok { changes with parentId := 0 }
  | .role role => .ok { changes with role }

/-- The depth loop of `mailbox_set_item`: the walk up from the new parent, which must not meet the
mailbox (`current`, its id plus one) and must reach the top within the remaining turns. A parent
the store does not hold is taken to be created by the request when its id is known. -/
def checkParentLoop (store : MailboxStore) (ctx : SetContext) (current : Option Nat) :
    Nat → Nat → Nat → Except SetError Unit
  | _, 0, _ => .error ⟨.invalidProperties, some .parentId⟩
  | depth, remaining + 1, mailboxParentId =>
    if some mailboxParentId == current then .error ⟨.invalidProperties, some .parentId⟩
    else if mailboxParentId == 0 then
      if depth == 0 && ctx.isShared then .error ⟨.forbidden, none⟩ else .ok ()
    else
      match store.get? (mailboxParentId - 1) with
      | some mailbox =>
        if depth == 0 && ctx.isShared &&
            !(effectiveAcl mailbox.acls ctx.token).contains .createChild then
          .error ⟨.forbidden, none⟩
        else checkParentLoop store ctx current (depth + 1) remaining mailbox.parentId
      | none =>
        if ctx.mailboxIds.contains (mailboxParentId - 1) then .ok ()
        else .error ⟨.invalidProperties, some .parentId⟩

/-- The parent check, run when the parent changes. -/
def checkParent (config : MailboxConfig) (store : MailboxStore) (ctx : SetContext)
    (update : Option (Nat × Mailbox)) (changes : Mailbox) : Except SetError Unit :=
  if update.all (·.2.parentId != changes.parentId) then
    checkParentLoop store ctx (update.map (·.1 + 1)) 0 config.maxDepth changes.parentId
  else .ok ()

/-- The role check, run when the role changes: the role is free, and the internal folders keep
theirs. -/
def checkRole (store : MailboxStore) (update : Option (Nat × Mailbox)) (changes : Mailbox) :
    Except SetError Unit :=
  if update.all (·.2.role != changes.role) then
    if changes.role != .none && (store.mailboxByRole changes.role).isSome then
      .error ⟨.invalidProperties, some .role⟩
    else if update.any fun (documentId, _) =>
        documentId == inboxId || documentId == trashId || documentId == junkId then
      .error ⟨.invalidProperties, some .role⟩
    else .ok ()
  else .ok ()

/-- The name check: a name, and, when it changes, no mailbox under the same parent with the same
name in any case. -/
def checkName (store : MailboxStore) (update : Option (Nat × Mailbox)) (changes : Mailbox) :
    Except SetError Unit :=
  if !changes.name.isEmpty then
    if update.all (·.2.name != changes.name) &&
        store.mailboxes.any (fun (_, mailbox) => mailbox.name.map Char.toLower ==
          changes.name.map Char.toLower && mailbox.parentId == changes.parentId) then
      .error ⟨.invalidProperties, some .name⟩
    else .ok ()
  else .error ⟨.invalidProperties, some .name⟩

/-- `mailbox_set_item`: the mailbox the object makes, from the updated one or a new one. -/
def mailboxSetItem (config : MailboxConfig) (store : MailboxStore) (ctx : SetContext)
    (patches : List MailboxPatch) (update : Option (Nat × Mailbox)) : Except SetError Mailbox := do
  let changes ← patches.foldlM (applyProperty config ctx) ((update.map (·.2)).getD (.new []))
  checkParent config store ctx update changes
  checkRole store update changes
  checkName store update changes
  return changes

/-! ## The request -/

/-- The state of the create loop: the context, the document id counter, and the batch. -/
structure CreateState where
  ctx : SetContext
  documentIdCounter : Nat
  batch : List (Nat × Mailbox)

/-- One create. -/
def createStep (config : MailboxConfig) (store : MailboxStore) (state : CreateState)
    (entry : Nat × List MailboxPatch) : CreateState :=
  let (creationId, patches) := entry
  if state.ctx.mailboxIds.length ≥ config.objectQuota then
    { state with ctx.response.notCreated :=
        state.ctx.response.notCreated ++ [(creationId, ⟨.overQuota, none⟩)] }
  else
    match mailboxSetItem config store state.ctx patches none with
    | .ok mailbox =>
      -- `assign_document_ids` hands out the next value of the counter
      let documentId := state.documentIdCounter + 1
      ⟨{ state.ctx with
          mailboxIds := state.ctx.mailboxIds ++ [documentId]
          response.created := state.ctx.response.created ++ [(creationId, documentId)] },
        documentId, state.batch ++ [(documentId, mailbox)]⟩
    | .error err =>
      { state with ctx.response.notCreated := state.ctx.response.notCreated ++ [(creationId, err)] }

/-- The state of the update loop: the context, the batch and the ids it updates. -/
structure UpdateState where
  ctx : SetContext
  batch : List (Nat × Mailbox)
  willUpdate : List Nat

/-- One update, validated against the store as the creates left it. -/
def updateStep (config : MailboxConfig) (store : MailboxStore) (state : UpdateState)
    (entry : Nat × List MailboxPatch) : UpdateState :=
  let (documentId, patches) := entry
  let fail (err : SetError) : UpdateState :=
    { state with ctx.response.notUpdated := state.ctx.response.notUpdated ++ [(documentId, err)] }
  if state.ctx.willDestroy.contains documentId then fail ⟨.willDestroy, none⟩
  else
    match store.get? documentId with
    | none => fail ⟨.notFound, none⟩
    | some mailbox =>
      if state.ctx.isShared && !(effectiveAcl mailbox.acls state.ctx.token).contains .modify then
        fail ⟨.forbidden, none⟩
      else
        match mailboxSetItem config store state.ctx patches (some (documentId, mailbox)) with
        | .ok changes =>
          { state with
            batch := state.batch ++ [(documentId, changes)]
            willUpdate := state.willUpdate ++ [documentId] }
        | .error err => fail err

/-- `MailboxDestroyError`. -/
inductive MailboxDestroyError where
  | cannotDestroy
  | forbidden
  | hasChildren
  | hasEmails
  | notFound
  deriving DecidableEq, Repr

/-- `mailbox_destroy`: an internal folder, a mailbox with children, and one with emails unless they
go with it, stay. -/
def mailboxDestroy (store : MailboxStore) (isShared : Bool) (token : AccessToken)
    (removeEmails : Bool) (documentId : Nat) : Except MailboxDestroyError MailboxStore :=
  if [inboxId, trashId, junkId].contains documentId then .error .cannotDestroy
  else if store.mailboxes.any (·.2.parentId == documentId + 1) then .error .hasChildren
  else if store.holdsEmails.contains documentId && !removeEmails then .error .hasEmails
  else
    match store.get? documentId with
    | none => .error .notFound
    | some mailbox =>
      let acl := effectiveAcl mailbox.acls token
      if isShared && (!acl.contains .delete || (removeEmails && !acl.contains .removeItems)) then
        .error .forbidden
      else .ok (store.delete documentId)

/-- The error a failed destroy answers. -/
def MailboxDestroyError.toSetError : MailboxDestroyError → SetError
  | .cannotDestroy | .forbidden => ⟨.forbidden, none⟩
  | .hasChildren => ⟨.mailboxHasChild, none⟩
  | .hasEmails => ⟨.mailboxHasEmail, none⟩
  | .notFound => ⟨.notFound, none⟩

/-- One destroy, committed at once. -/
def destroyStep (isShared : Bool) (token : AccessToken) (removeEmails : Bool)
    (acc : MailboxStore × SetResponse) (documentId : Nat) : MailboxStore × SetResponse :=
  let (store, response) := acc
  match mailboxDestroy store isShared token removeEmails documentId with
  | .ok store => (store, { response with destroyed := response.destroyed ++ [documentId] })
  | .error err =>
    (store, { response with notDestroyed := response.notDestroyed ++ [(documentId, err.toSetError)] })

/-- The context a request starts from. -/
def SetContext.start (store : MailboxStore) (token : AccessToken) (accountId : UInt32)
    (request : SetRequest) : SetContext :=
  ⟨token.isShared accountId, token, store.mailboxes.map (·.1), request.destroy,
    ⟨[], [], [], [], [], []⟩⟩

/-- The create loop. -/
def createPhase (config : MailboxConfig) (store : MailboxStore) (ctx : SetContext)
    (creates : List (Nat × List MailboxPatch)) : CreateState :=
  creates.foldl (createStep config store) ⟨ctx, store.documentIdCounter, []⟩

/-- The update loop and its commit: the updates are written together, or all refused when an
assertion fails. -/
def updatePhase (config : MailboxConfig) (store : MailboxStore) (ctx : SetContext)
    (updates : List (Nat × List MailboxPatch)) : MailboxStore × SetResponse :=
  let updated := updates.foldl (updateStep config store) ⟨ctx, [], []⟩
  match store.commitBatch updated.batch with
  | some committed =>
    (committed, { updated.ctx.response with
      updated := updated.ctx.response.updated ++ updated.willUpdate })
  | none =>
    (store, { updated.ctx.response with
      notUpdated := updated.ctx.response.notUpdated ++
        updated.willUpdate.map fun documentId => (documentId, ⟨.forbidden, none⟩) })

/-- `mailbox_set`: the creates, committed together (a failed commit fails the request); the
updates; the destroys one by one. -/
def mailboxSet (config : MailboxConfig) (store : MailboxStore) (token : AccessToken)
    (accountId : UInt32) (request : SetRequest) : Option (SetResponse × MailboxStore) := do
  let ctx := SetContext.start store token accountId request
  let created := createPhase config store ctx request.create
  let store ← ({ store with documentIdCounter := created.documentIdCounter } : MailboxStore).commitBatch
    created.batch
  let (store, response) := updatePhase config store created.ctx request.update
  return (request.destroy.foldl (destroyStep ctx.isShared token request.onDestroyRemoveEmails)
    (store, response)).swap

/-! ## A request that moves one mailbox -/

theorem updateStep_cases {config : MailboxConfig} {store : MailboxStore} (state : UpdateState)
    (entry : Nat × List MailboxPatch) :
    (updateStep config store state entry).batch = state.batch ∨
      ∃ mailbox changes, store.get? entry.1 = some mailbox ∧
        mailboxSetItem config store state.ctx entry.2 (some (entry.1, mailbox)) = .ok changes ∧
        (updateStep config store state entry).batch = state.batch ++ [(entry.1, changes)] := by
  obtain ⟨documentId, patches⟩ := entry
  dsimp only [updateStep]
  split
  · exact .inl rfl
  split
  · exact .inl rfl
  next mailbox hmailbox =>
    split
    · exact .inl rfl
    split
    next changes hchanges => exact .inr ⟨mailbox, changes, hmailbox, hchanges, rfl⟩
    next => exact .inl rfl

/-- A request with one update leaves the store as it was or writes the updated mailbox. -/
theorem updatePhase_single {config : MailboxConfig} {store : MailboxStore} {ctx : SetContext}
    {documentId : Nat} {patches : List MailboxPatch} :
    (updatePhase config store ctx [(documentId, patches)]).1 = store ∨
      ∃ mailbox changes, store.get? documentId = some mailbox ∧
        mailboxSetItem config store ctx patches (some (documentId, mailbox)) = .ok changes ∧
        (updatePhase config store ctx [(documentId, patches)]).1 = store.write documentId changes := by
  unfold updatePhase
  simp only [List.foldl_cons, List.foldl_nil]
  rcases @updateStep_cases config store ⟨ctx, [], []⟩ (documentId, patches) with
    hbatch | ⟨mailbox, changes, hmailbox, hchanges, hbatch⟩
  · rw [hbatch, MailboxStore.commitBatch_nil]
    exact .inl rfl
  · rw [hbatch, List.nil_append, MailboxStore.commitBatch_singleton]
    split_ifs
    · exact .inr ⟨mailbox, changes, hmailbox, hchanges, rfl⟩
    · exact .inl rfl

/-- **The walk.** Without mailboxes the request creates, a successful walk from a parent reaches
the top without meeting the mailbox. -/
theorem checkParentLoop_avoiding {store : MailboxStore} {ctx : SetContext} {documentId : Nat}
    (hids : ∀ id ∈ ctx.mailboxIds, (store.get? id).isSome) {depth remaining parentId : Nat}
    (h : checkParentLoop store ctx (some (documentId + 1)) depth remaining parentId = .ok ()) :
    parentId = 0 ∨ reachesRootAvoiding store.up documentId remaining (parentId - 1) = true := by
  induction remaining generalizing depth parentId with
  | zero => cases h
  | succ remaining ih =>
    unfold checkParentLoop at h
    split at h
    · cases h
    split at h
    · next htop => exact .inl (by simpa using htop)
    next hcurrent htop =>
      have hself : parentId - 1 ≠ documentId := by
        simp only [beq_iff_eq, Option.some.injEq] at hcurrent htop
        omega
      right
      split at h
      next mailbox hmailbox =>
        split at h
        · cases h
        -- the walk goes on from the parent's parent
        have hup : store.up (parentId - 1) = mailbox.parentLink := by
          simp [MailboxStore.up, hmailbox]
        simp only [reachesRootAvoiding, Bool.and_eq_true, bne_iff_ne, ne_eq]
        refine ⟨hself, ?_⟩
        rw [hup, Mailbox.parentLink]
        by_cases hzero : mailbox.parentId = 0
        · simp [hzero]
        · rcases ih h with htop' | hnext
          · exact absurd htop' hzero
          · simpa [hzero] using hnext
      next hmissing =>
        -- every known id is stored, so the shortcut is not taken
        split at h
        · next hknown =>
          have := hids _ (List.contains_iff_mem.mp hknown)
          simp [hmissing] at this
        · cases h

/-- **Where an update may move a mailbox.** Without mailboxes the request creates, an update keeps
the parent, moves the mailbox to the top, or moves it under a parent whose walk avoids it. -/
theorem mailboxSetItem_reparent {config : MailboxConfig} {store : MailboxStore} {ctx : SetContext}
    (hids : ∀ id ∈ ctx.mailboxIds, (store.get? id).isSome) {patches : List MailboxPatch}
    {documentId : Nat} {mailbox changes : Mailbox}
    (h : mailboxSetItem config store ctx patches (some (documentId, mailbox)) = .ok changes) :
    changes.parentLink = mailbox.parentLink ∨ changes.parentLink = none ∨
      ∃ parent, changes.parentLink = some parent ∧
        reachesRootAvoiding store.up documentId config.maxDepth parent = true := by
  unfold mailboxSetItem at h
  rw [Except.bind_eq_ok_iff] at h
  obtain ⟨changes', -, h⟩ := h
  rw [Except.bind_eq_ok_iff] at h
  obtain ⟨⟨⟩, hparent, h⟩ := h
  -- the remaining checks return the changes as they are
  have hchanges : changes' = changes := by
    rw [Except.bind_eq_ok_iff] at h
    obtain ⟨⟨⟩, -, h⟩ := h
    rw [Except.bind_eq_ok_iff] at h
    obtain ⟨⟨⟩, -, h⟩ := h
    exact Except.ok.inj h
  subst hchanges
  unfold checkParent at hparent
  split at hparent
  next hmoved =>
    rcases checkParentLoop_avoiding hids hparent with htop | havoid
    · exact .inr (.inl (by simp [Mailbox.parentLink, htop]))
    · by_cases htop : changes'.parentId = 0
      · exact .inr (.inl (by simp [Mailbox.parentLink, htop]))
      · exact .inr (.inr ⟨_, by simp [Mailbox.parentLink, htop], havoid⟩)
  next hsame =>
    simp only [Option.all_some, bne_iff_ne, ne_eq, not_not] at hsame
    exact .inl (by simp [Mailbox.parentLink, hsame])

/-- **One moved mailbox keeps every walk finite.** A request that only updates one mailbox of a
well-formed forest leaves every mailbox's walk ending at the top, within twice the depth. -/
theorem mailboxSet_update_reachesRoot {config : MailboxConfig} {store : MailboxStore}
    {token : AccessToken} {accountId : UInt32} {documentId : Nat} {patches : List MailboxPatch}
    {removeEmails : Bool} {response : SetResponse} {store' : MailboxStore}
    (hforest : store.Forest config.maxDepth)
    (h : mailboxSet config store token accountId ⟨[], [(documentId, patches)], [], removeEmails⟩ =
      some (response, store')) :
    ∀ entry ∈ store'.mailboxes,
      reachesRoot store'.up (config.maxDepth + config.maxDepth) entry.1 = true := by
  simp only [mailboxSet, createPhase, List.foldl_nil, MailboxStore.commitBatch, Option.pure_def,
    Option.bind_eq_bind, Option.bind_some, Prod.swap, Option.some.injEq, Prod.mk.injEq] at h
  obtain ⟨-, hstore⟩ := h
  change (updatePhase config store (SetContext.start store token accountId _) _).1 = store'
    at hstore
  -- the request creates nothing, so every id it knows is stored
  have hids : ∀ id ∈ (SetContext.start store token accountId
      ⟨[], [(documentId, patches)], [], removeEmails⟩).mailboxIds, (store.get? id).isSome := by
    intro id hid
    obtain ⟨entry, hentry, rfl⟩ := List.mem_map.mp hid
    exact MailboxStore.get?_isSome_iff.mpr ⟨entry, hentry, rfl⟩
  have hwalk : ∀ entry ∈ store.mailboxes,
      reachesRoot store.up (config.maxDepth + config.maxDepth) entry.1 = true :=
    fun entry hentry => reachesRoot_mono (hforest.reaches_root entry hentry) (by omega)
  rcases updatePhase_single with hsame | ⟨mailbox, changes, hmailbox, hchanges, hwrite⟩
  · rw [hsame] at hstore
    subst hstore
    exact hwalk
  rw [hwrite] at hstore
  subst hstore
  intro entry hentry
  -- the written store holds the ids the store held
  have hstored : ∃ old ∈ store.mailboxes, old.1 = entry.1 := by
    rcases MailboxStore.mem_write hentry with hold | rfl
    · exact ⟨entry, hold, rfl⟩
    · exact MailboxStore.get?_isSome_iff.mp (by simp [hmailbox])
  obtain ⟨old, hold, hid⟩ := hstored
  have hreach := hforest.reaches_root old hold
  rw [MailboxStore.up_write, ← hid]
  rcases mailboxSetItem_reparent hids hchanges with hkeep | htop | ⟨parent, hparent, havoid⟩
  · -- the parent is kept, and so are the links
    have hlinks : relink store.up documentId changes.parentLink = store.up := by
      funext other
      by_cases hother : other = documentId
      · subst hother
        rw [relink_self, hkeep]
        simp [MailboxStore.up, hmailbox]
      · exact relink_of_ne _ _ hother
    rw [hlinks]
    exact reachesRoot_mono hreach (by omega)
  · rw [htop]
    exact reachesRoot_mono (reachesRoot_relink_none hreach) (by omega)
  · rw [hparent]
    exact reachesRoot_relink havoid hreach

/-- Two mailboxes at the top, `A` and `B`. -/
def twoFolders : MailboxStore :=
  ⟨[(0, ⟨"A".toList, .none, 0, []⟩), (1, ⟨"B".toList, .none, 0, []⟩)], [], 1⟩

/-- The same with `A` under `B`. -/
def movedFolders : MailboxStore :=
  ⟨[(1, ⟨"B".toList, .none, 0, []⟩), (0, ⟨"A".toList, .none, 2, []⟩)], [], 1⟩

/-- The owner moves `A` under `B`, and every walk still ends at the top. -/
theorem mailboxSet_update_reachesRoot_move :
    twoFolders.Forest 3 ∧
      mailboxSet ⟨3, 255, 100⟩ twoFolders ⟨1, [], [], false⟩ 1
          ⟨[], [(0, [.parentId (some (.id 1))])], [], false⟩ =
        some (⟨[], [], [0], [], [], []⟩, movedFolders) ∧
      ∀ entry ∈ movedFolders.mailboxes, reachesRoot movedFolders.up (3 + 3) entry.1 = true := by
  have hforest : twoFolders.Forest 3 := by decide
  have h : mailboxSet ⟨3, 255, 100⟩ twoFolders ⟨1, [], [], false⟩ 1
      ⟨[], [(0, [.parentId (some (.id 1))])], [], false⟩ =
        some (⟨[], [], [0], [], [], []⟩, movedFolders) := by
    decide
  exact ⟨hforest, h, mailboxSet_update_reachesRoot hforest h⟩

end Stalwart.Jmap.MailboxSet
