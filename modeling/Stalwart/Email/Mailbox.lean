import Stalwart.Lib.Forest
import Stalwart.Lib.ListKinds
import Stalwart.Sharing.Acl

/-!
# The mailboxes of an account

An account's mailboxes are archives keyed by document id. A mailbox names its parent by
`parent_id`: `0` for a mailbox at the top, the parent's document id plus one otherwise. The
mailboxes form a well-formed forest (`MailboxStore.Forest`) when every parent exists, the walk up
from every mailbox ends at the top within the configured depth, no two siblings share a name, and no
two mailboxes share a role other than none.

Writes replace or add one archive, deletes remove one, and the forest's links change as
`Forest.relink` says (`up_write`), so the general lemmas on parent links apply to the store.
-/

set_option autoImplicit false

namespace Stalwart.Email

open Stalwart.Sharing Stalwart.Forest

/-- `SpecialUse`: the role of a mailbox. -/
inductive SpecialUse where
  | inbox
  | trash
  | junk
  | drafts
  | archive
  | sent
  | shared
  | important
  | none
  | memos
  | scheduled
  | snoozed
  deriving DecidableEq, Repr

/-- `Mailbox`: the fields the hierarchy, the roles and the rights checks read. -/
structure Mailbox where
  name : List Char
  role : SpecialUse
  parentId : Nat
  acls : List AclGrant
  deriving DecidableEq

/-- `Mailbox::new`. -/
def Mailbox.new (name : List Char) : Mailbox :=
  ⟨name, .none, 0, []⟩

/-- `INBOX_ID`. -/
def inboxId : Nat := 0

/-- `TRASH_ID`. -/
def trashId : Nat := 1

/-- `JUNK_ID`. -/
def junkId : Nat := 2

/-- The parent a mailbox links to, by document id: none at the top. -/
def Mailbox.parentLink (mailbox : Mailbox) : Option Nat :=
  if mailbox.parentId = 0 then none else some (mailbox.parentId - 1)

/-- The mailbox archives of an account, the mailboxes that hold emails, and the counter the store
assigns document ids from (`assign_document_ids` adds to it and returns the sum). -/
structure MailboxStore where
  mailboxes : List (Nat × Mailbox)
  holdsEmails : List Nat
  documentIdCounter : Nat
  deriving DecidableEq

namespace MailboxStore

variable (store : MailboxStore)

/-- The archive of a document id. -/
def get? (documentId : Nat) : Option Mailbox :=
  (store.mailboxes.find? (·.1 == documentId)).map (·.2)

/-- The parent links of the mailboxes; an unknown id links nowhere. -/
def up (documentId : Nat) : Option Nat :=
  (store.get? documentId).bind Mailbox.parentLink

/-- `mailbox_by_role`. -/
def mailboxByRole (role : SpecialUse) : Option (Nat × Mailbox) :=
  store.mailboxes.find? (·.2.role == role)

/-- An archive written: it replaces the one of its id, and comes last. -/
def write (documentId : Nat) (mailbox : Mailbox) : MailboxStore :=
  { store with mailboxes := store.mailboxes.filter (·.1 != documentId) ++ [(documentId, mailbox)] }

/-- An archive deleted, with the emails it held untagged. -/
def delete (documentId : Nat) : MailboxStore :=
  { store with
    mailboxes := store.mailboxes.filter (·.1 != documentId)
    holdsEmails := store.holdsEmails.filter (· != documentId) }

/-- A batch of archive writes committed: each asserts that its parent exists when it is written, and
a failed assertion rejects the batch. -/
def commitBatch : MailboxStore → List (Nat × Mailbox) → Option MailboxStore
  | store, [] => some store
  | store, (documentId, mailbox) :: batch =>
    if mailbox.parentId = 0 ∨ (store.get? (mailbox.parentId - 1)).isSome then
      commitBatch (store.write documentId mailbox) batch
    else none

/-- **The well-formed forest.** -/
structure Forest (maxDepth : Nat) : Prop where
  ids_nodup : (store.mailboxes.map (·.1)).Nodup
  parents_exist : ∀ entry ∈ store.mailboxes, entry.2.parentId ≠ 0 →
    (store.get? (entry.2.parentId - 1)).isSome
  reaches_root : ∀ entry ∈ store.mailboxes, reachesRoot store.up maxDepth entry.1
  names_unique : store.mailboxes.Pairwise fun a b => a.2.parentId = b.2.parentId → a.2.name ≠ b.2.name
  roles_unique : store.mailboxes.Pairwise fun a b => a.2.role ≠ .none → a.2.role ≠ b.2.role

instance (maxDepth : Nat) : Decidable (store.Forest maxDepth) :=
  decidable_of_iff ((store.mailboxes.map (·.1)).Nodup ∧
      (∀ entry ∈ store.mailboxes, entry.2.parentId ≠ 0 →
        (store.get? (entry.2.parentId - 1)).isSome) ∧
      (∀ entry ∈ store.mailboxes, reachesRoot store.up maxDepth entry.1) ∧
      store.mailboxes.Pairwise (fun a b => a.2.parentId = b.2.parentId → a.2.name ≠ b.2.name) ∧
      store.mailboxes.Pairwise (fun a b => a.2.role ≠ .none → a.2.role ≠ b.2.role))
    ⟨fun ⟨h₁, h₂, h₃, h₄, h₅⟩ => ⟨h₁, h₂, h₃, h₄, h₅⟩,
      fun ⟨h₁, h₂, h₃, h₄, h₅⟩ => ⟨h₁, h₂, h₃, h₄, h₅⟩⟩

/-! ## What a write changes -/

variable {store}

theorem get?_write (documentId : Nat) (mailbox : Mailbox) (other : Nat) :
    (store.write documentId mailbox).get? other =
      if other = documentId then some mailbox else store.get? other := by
  unfold write get?
  rw [List.find?_append]
  by_cases hother : other = documentId
  · -- the written archive is the only one of its id
    subst hother
    have hnone : (store.mailboxes.filter (·.1 != other)).find? (·.1 == other) = none := by
      rw [List.find?_eq_none]
      intro entry hentry
      simpa using (List.mem_filter.mp hentry).2
    simp [hnone]
  · -- the other archives are kept, and none of them is the written one
    have hkept : (store.mailboxes.filter (·.1 != documentId)).find? (·.1 == other) =
        store.mailboxes.find? (·.1 == other) :=
      List.find?_filter_of_imp (fun entry hentry => by
        simp only [beq_iff_eq] at hentry
        simp [hentry, hother]) _
    have hlast : [(documentId, mailbox)].find? (·.1 == other) = none := by
      simp [Ne.symm hother]
    simp [hkept, hlast, hother]

theorem get?_isSome_iff {documentId : Nat} :
    (store.get? documentId).isSome ↔ ∃ entry ∈ store.mailboxes, entry.1 = documentId := by
  simp [get?, List.find?_isSome]

theorem mem_write {documentId : Nat} {mailbox : Mailbox} {entry : Nat × Mailbox}
    (h : entry ∈ (store.write documentId mailbox).mailboxes) :
    entry ∈ store.mailboxes ∨ entry = (documentId, mailbox) := by
  simp only [write, List.mem_append, List.mem_filter, List.mem_singleton] at h
  rcases h with ⟨hmem, -⟩ | rfl
  · exact .inl hmem
  · exact .inr rfl

theorem commitBatch_nil : store.commitBatch [] = some store :=
  rfl

theorem commitBatch_singleton (documentId : Nat) (mailbox : Mailbox) :
    store.commitBatch [(documentId, mailbox)] =
      if mailbox.parentId = 0 ∨ (store.get? (mailbox.parentId - 1)).isSome then
        some (store.write documentId mailbox)
      else none :=
  rfl

theorem up_write (documentId : Nat) (mailbox : Mailbox) :
    (store.write documentId mailbox).up = relink store.up documentId mailbox.parentLink := by
  funext other
  unfold up relink
  rw [get?_write]
  by_cases hother : other = documentId <;> simp [hother]

end MailboxStore

end Stalwart.Email
