import Stalwart.Lib.Bitmap
import Stalwart.Lib.ListKinds

/-!
# Sharing rights

A shared object (a mailbox, a calendar, an address book, a file node) keeps a list of grants:
for an account, the set of ACLs it holds, as a `Bitmap<Acl>`. IMAP edits the grant of one account
with `SETACL` (`handle_set_acl`), after `ModRights::parse` reads the rights string and
`From<Rights> for Acl` maps each right; JMAP edits it with a `shareWith` patch
(`JmapRights::acl_patch`).

## What is proved

Revoking grants rights. IMAP `-rights` removes each right with `Bitmap::remove`, an exclusive or,
so a right the account does not hold is granted: `-w` on an account holding `ReadItems` grants it
`ModifyItems`. A JMAP `shareWith/<id>/<right>` patch to `false` adds the right's ACLs the same way
(`revoke_grants_rights`).
-/

set_option autoImplicit false

namespace Stalwart.Sharing

/-! ## Grants -/

/-- `Acl`. -/
inductive Acl where
  | read
  | modify
  | delete
  | readItems
  | addItems
  | modifyItems
  | removeItems
  | createChild
  | share
  | submit
  | schedulingReadFreeBusy
  | schedulingInvite
  | schedulingReply
  | modifyItemsOwn
  | modifyPrivateProperties
  | modifyRSVP
  | none
  deriving DecidableEq, Repr

/-- The discriminant of an `Acl`: the index of its bit. -/
def Acl.toIndex : Acl → Fin 64
  | .read => 0
  | .modify => 1
  | .delete => 2
  | .readItems => 3
  | .addItems => 4
  | .modifyItems => 5
  | .removeItems => 6
  | .createChild => 7
  | .share => 8
  | .submit => 9
  | .schedulingReadFreeBusy => 10
  | .schedulingInvite => 11
  | .schedulingReply => 12
  | .modifyItemsOwn => 13
  | .modifyPrivateProperties => 14
  | .modifyRSVP => 15
  | .none => 16

/-- `From<u64> for Acl`. -/
def Acl.ofIndex (index : Fin 64) : Acl :=
  match index.val with
  | 0 => .read
  | 1 => .modify
  | 2 => .delete
  | 3 => .readItems
  | 4 => .addItems
  | 5 => .modifyItems
  | 6 => .removeItems
  | 7 => .createChild
  | 8 => .share
  | 9 => .submit
  | 10 => .schedulingReadFreeBusy
  | 11 => .schedulingInvite
  | 12 => .schedulingReply
  | 13 => .modifyItemsOwn
  | 14 => .modifyPrivateProperties
  | 15 => .modifyRSVP
  | _ => .none

theorem Acl.ofIndex_toIndex (acl : Acl) : Acl.ofIndex acl.toIndex = acl := by
  cases acl <;> rfl

instance : BitmapItem Acl where
  index := Acl.toIndex
  index_injective := Function.LeftInverse.injective Acl.ofIndex_toIndex
  all := [.read, .modify, .delete, .readItems, .addItems, .modifyItems, .removeItems, .createChild,
    .share, .submit, .schedulingReadFreeBusy, .schedulingInvite, .schedulingReply, .modifyItemsOwn,
    .modifyPrivateProperties, .modifyRSVP, .none]
  mem_all := fun acl => by cases acl <;> simp
  sorted_all := by decide

/-- `AclGrant`: the ACLs an account holds on an object. -/
structure AclGrant where
  accountId : UInt32
  grants : Bitmap Acl
  deriving DecidableEq

/-- The grant of an account changed in place, as `iter_mut().find(..)` followed by an update
changes it. -/
def updateGrant (accountId : UInt32) (f : Bitmap Acl → Bitmap Acl) :
    List AclGrant → List AclGrant
  | [] => []
  | item :: items =>
    if item.accountId = accountId then { item with grants := f item.grants } :: items
    else item :: updateGrant accountId f items

/-- `retain(|item| item.account_id != account_id)`. -/
def revokeAll (acls : List AclGrant) (accountId : UInt32) : List AclGrant :=
  acls.filter (·.accountId != accountId)

/-! ## IMAP `SETACL` -/

/-- `Rights`: the rights of RFC 4314. -/
inductive Rights where
  | lookup
  | read
  | seen
  | write
  | insert
  | post
  | createMailbox
  | deleteMailbox
  | deleteMessages
  | expunge
  | administer
  deriving DecidableEq, Repr

/-- `ModRightsOp`. -/
inductive ModRightsOp where
  | replace
  | add
  | remove
  deriving DecidableEq, Repr

/-- `ModRights`: how to change the rights, and the rights. -/
structure ModRights where
  op : ModRightsOp
  rights : List Rights
  deriving DecidableEq, Repr

/-- The right a character of a rights string names, RFC 2086's `d` and `c` included. -/
def Rights.ofChar : Char → Option Rights
  | 'l' => some .lookup
  | 'r' => some .read
  | 's' => some .seen
  | 'w' => some .write
  | 'i' => some .insert
  | 'p' => some .post
  | 'k' => some .createMailbox
  | 'x' => some .deleteMailbox
  | 't' => some .deleteMessages
  | 'e' => some .expunge
  | 'a' => some .administer
  | 'd' => some .deleteMessages
  | 'c' => some .createMailbox
  | _ => none

/-- `push_unique`. -/
def pushUnique (rights : List Rights) (right : Rights) : List Rights :=
  if right ∈ rights then rights else rights ++ [right]

/-- The loop of `ModRights::parse` from position `pos` on: a leading `+` or `-` sets the
operation, every other character must name a right. -/
def parseRights (pos : Nat) (op : ModRightsOp) (rights : List Rights) :
    List Char → Except String (ModRightsOp × List Rights)
  | [] => .ok (op, rights)
  | ch :: rest =>
    if ch = '+' ∧ pos = 0 then parseRights (pos + 1) .add rights rest
    else if ch = '-' ∧ pos = 0 then parseRights (pos + 1) .remove rights rest
    else
      match Rights.ofChar ch with
      | some right => parseRights (pos + 1) op (pushUnique rights right) rest
      | none => .error ("Invalid character " ++ ch.quote ++ " in rights.")

/-- `ModRights::parse`, on the bytes of the rights string read as characters. -/
def ModRights.parse (value : List Char) : Except String ModRights := do
  let (op, rights) ← parseRights 0 .replace [] value
  if rights ≠ [] then .ok ⟨op, rights⟩
  else .error "At least one right has to be specified."

/-- `From<Rights> for Acl`. -/
def Acl.ofRights : Rights → Acl
  | .lookup => .read
  | .read => .readItems
  | .seen => .modifyItems
  | .write => .modifyItems
  | .insert => .addItems
  | .post => .submit
  | .createMailbox => .createChild
  | .deleteMailbox => .delete
  | .deleteMessages => .removeItems
  | .expunge => .removeItems
  | .administer => .share

/-- The operation and the ACLs of a `SETACL` edit; a missing rights argument (`DELETEACL`)
replaces the grant with nothing. -/
def ModRights.toAcl : Option ModRights → ModRightsOp × Bitmap Acl
  | some mr => (mr.op, Bitmap.ofList (mr.rights.map Acl.ofRights))
  | none => (.replace, .new)

/-- The grant update of `SessionData::handle_set_acl`: the grants of the mailbox after the edit
`op` with the ACLs `rights` of the grant of `aclAccountId`. -/
def setAclGrants (acls : List AclGrant) (aclAccountId : UInt32) (op : ModRightsOp)
    (rights : Bitmap Acl) : List AclGrant :=
  match acls.find? (·.accountId == aclAccountId) with
  | some item =>
    match op with
    | .replace =>
      if !rights.isEmpty then updateGrant aclAccountId (fun _ => rights) acls
      else revokeAll acls aclAccountId
    | .add => updateGrant aclAccountId (fun grants => grants.union rights) acls
    | .remove =>
      -- `for right in rights { item.grants.remove(right) }`
      let grants := rights.items.foldl (fun grants right => grants.remove right) item.grants
      if grants.isEmpty then revokeAll acls aclAccountId
      else updateGrant aclAccountId (fun _ => grants) acls
  | none =>
    if !rights.isEmpty then
      match op with
      | .add | .replace => acls ++ [⟨aclAccountId, rights⟩]
      | .remove => acls
    else acls

/-- `SessionData::handle_set_acl`, from the grants of the mailbox to the grants it writes: the
edit, refused when it leaves more shares than an item may have. -/
def handleSetAcl (acls : List AclGrant) (aclAccountId : UInt32) (modRights : Option ModRights)
    (maxSharesPerItem : Nat) : Except String (List AclGrant) :=
  let (op, rights) := ModRights.toAcl modRights
  let acls' := setAclGrants acls aclAccountId op rights
  if acls'.length > maxSharesPerItem then .error "Maximum shares per item exceeded"
  else .ok acls'

/-! ## JMAP `shareWith` patches -/

/-- `JmapRight`: a right of a shared object and the ACLs it stands for. -/
class JmapRight (R : Type) where
  toAcl : R → List Acl

/-- The value a `shareWith` patch sets: a boolean, `null`, an object (given by the rights it sets
to `true`, as `into_expanded_boolean_set` reads it), or anything else. -/
inductive PatchValue (R : Type) where
  | bool (isSet : Bool)
  | null
  | rights (rights : List R)
  | other

section Patch

variable {R : Type} [JmapRight R]

/-- `JmapRights::map_acls`: the ACLs of the rights an object sets; a value that is not an object
sets none. -/
def mapAcls : PatchValue R → Bitmap Acl
  | .rights rights => Bitmap.new.insertMany (rights.flatMap JmapRight.toAcl)
  | _ => .new

/-- The grants after `shareWith/<accountId>/<right>` is set to `true` (`isSet`) or to `false` or
`null`, `acl` being the ACLs of the right. -/
def patchRight (grants : List AclGrant) (accountId : UInt32) (acl : List Acl) (isSet : Bool) :
    List AclGrant :=
  match grants.find? (·.accountId == accountId) with
  | some aclItem =>
    if isSet then updateGrant accountId (fun grants => grants.insertMany acl) grants
    else
      -- the grant is extended with the right's ACLs here too
      let grants' := aclItem.grants.insertMany acl
      if grants'.isEmpty then revokeAll grants accountId
      else updateGrant accountId (fun _ => grants') grants
  | none => if isSet then grants ++ [⟨accountId, Bitmap.ofList acl⟩] else grants

/-- The grants after `shareWith/<accountId>` is set to an object of rights with ACLs `acls`. -/
def patchObject (grants : List AclGrant) (accountId : UInt32) (acls : Bitmap Acl) :
    List AclGrant :=
  if !acls.isEmpty then
    match grants.find? (·.accountId == accountId) with
    | some _ => updateGrant accountId (fun _ => acls) grants
    | none => grants ++ [⟨accountId, acls⟩]
  else revokeAll grants accountId

/-- `JmapRights::acl_patch`, past the parsing of the path: the grants after a patch of
`shareWith/<accountId>/<right>` (`right` given) or of `shareWith/<accountId>`. -/
def aclPatch (grants : List AclGrant) (accountId : UInt32) (right : Option R)
    (value : PatchValue R) : Except String (List AclGrant) :=
  match right with
  | some right => do
    let isSet ← match value with
      | .bool isSet => .ok isSet
      | .null => .ok false
      | _ => .error "Invalid ACL value."
    .ok (patchRight grants accountId (JmapRight.toAcl right) isSet)
  | none => .ok (patchObject grants accountId (mapAcls value))

end Patch

/-! ## Effective rights -/

/-- The parts of an `AccessToken` the rights checks read: the token's own account, the groups it
is a member of, the accounts shared with it, and whether it holds the `Impersonate`
permission. -/
structure AccessToken where
  primaryId : UInt32
  memberOf : List UInt32
  accessTo : List UInt32
  impersonate : Bool
  deriving DecidableEq, Repr

/-- `AccessToken::is_member`. -/
def AccessToken.isMember (token : AccessToken) (accountId : UInt32) : Bool :=
  token.primaryId == accountId || token.memberOf.contains accountId || token.impersonate

/-- `AccessToken::is_shared`: an account the token reaches through a share only. -/
def AccessToken.isShared (token : AccessToken) (accountId : UInt32) : Bool :=
  !token.isMember accountId && token.accessTo.any (· == accountId)

/-- `EffectiveAcl::effective_acl`: the union of the grants to the accounts the token is a member
of. -/
def effectiveAcl (acls : List AclGrant) (token : AccessToken) : Bitmap Acl :=
  acls.foldl (fun acl item => if token.isMember item.accountId then acl.union item.grants else acl)
    .new

/-- The union loop of `effective_acl`, from any accumulator. -/
theorem contains_foldl_effectiveAcl (acls : List AclGrant) (token : AccessToken)
    (acc : Bitmap Acl) (acl : Acl) :
    (acls.foldl (fun acl item => if token.isMember item.accountId then acl.union item.grants else acl)
        acc).contains acl =
      (acc.contains acl ||
        acls.any fun item => token.isMember item.accountId && item.grants.contains acl) := by
  induction acls generalizing acc with
  | nil => simp
  | cons item acls ih =>
    rw [List.foldl_cons, ih, List.any_cons]
    cases hmember : token.isMember item.accountId
    · simp only [Bool.false_eq_true, if_false, Bool.false_and, Bool.false_or]
    · simp only [if_true, Bitmap.contains_union, Bool.true_and, Bool.or_assoc]

/-- **The effective rights are the rights granted to one of the token's accounts.** -/
theorem contains_effectiveAcl (acls : List AclGrant) (token : AccessToken) (acl : Acl) :
    (effectiveAcl acls token).contains acl =
      acls.any fun item => token.isMember item.accountId && item.grants.contains acl := by
  rw [effectiveAcl, contains_foldl_effectiveAcl, Bitmap.contains_new, Bool.false_or]

/-! ## A revoke that grants -/

/-- `MailboxRight`. -/
inductive MailboxRight where
  | mayReadItems
  | mayAddItems
  | mayRemoveItems
  | maySetSeen
  | maySetKeywords
  | mayCreateChild
  | mayRename
  | maySubmit
  | mayDelete
  | mayShare
  deriving DecidableEq, Repr

instance : JmapRight MailboxRight where
  toAcl
    | .mayReadItems => [.read, .readItems]
    | .mayAddItems => [.addItems]
    | .mayRemoveItems => [.removeItems]
    | .maySetSeen => [.modifyItems]
    | .maySetKeywords => [.modifyItems]
    | .mayCreateChild => [.createChild]
    | .mayRename => [.modify]
    | .maySubmit => [.submit]
    | .mayDelete => [.delete]
    | .mayShare => [.share]

theorem revoke_grants_rights :
    ModRights.parse ['-', 'w'] = .ok ⟨.remove, [.write]⟩ ∧
      handleSetAcl [⟨5, .ofList [.readItems]⟩] 5 (some ⟨.remove, [.write]⟩) 10 =
        .ok [⟨5, .ofList [.readItems, .modifyItems]⟩] ∧
      aclPatch [⟨5, .ofList [.read, .readItems]⟩] 5 (some MailboxRight.mayRename) (.bool false) =
        .ok [⟨5, .ofList [.read, .readItems, .modify]⟩] := by
  refine ⟨by decide, by decide, by decide⟩

end Stalwart.Sharing
