import Stalwart.Sharing.Acl

/-!
# Shared calendars, address books and file nodes (`DavResources`)

The resource cache of a DAV collection lists its resources, containers and items, and the paths
that place each resource under its parent. A container (a calendar, an address book, a file
node) carries its grants (`acls()`); an item carries none. Four methods of the cache check what a
token may do with the containers: `container_acl` returns the token's rights on one container,
`has_access_to_container` checks some rights on one, `shared_containers` lists the containers the
token may use, and `shared_items` the items inside them.

The rights of a token on a container are those of `effective_acl`: the union of the grants to the
accounts the token is a member of (`containerRights`).

## What is proved

`has_access_to_container` answers from the first entry of an account of the token
(`hasAccessIn_iff`). What it grants the effective ACL grants (`hasAccessToContainer_sound`), but a
right that a later entry grants is missed, and `shared_containers` never joins two entries. A
token of account 1, member of group 2, on a calendar that grants reading to 1 and modifying to 2,
holds both rights; `has_access_to_container` refuses it modifying, and `shared_containers` does not
list the calendar for the two rights together (`container_access_misses_group_grant`).
-/

set_option autoImplicit false

namespace Stalwart.Sharing

/-- What the sharing checks read of a `DavResource`: its document id, and `acls()`, the grants of
a container; an item has none. -/
structure DavResource where
  documentId : UInt32
  acls : Option (List AclGrant)
  deriving DecidableEq

/-- What `shared_items` reads of a `DavPath`: the parent container, and the index of the path's
resource. -/
structure DavPath where
  parentId : Option UInt32
  resourceIdx : Nat
  deriving DecidableEq, Repr

/-- `DavResources`. The cache builders give each path the index of its resource, so every index
is in range and `self.resources[path.resource_idx]` does not panic. -/
structure DavResources where
  paths : List DavPath
  resources : List DavResource
  valid_paths : ∀ path ∈ paths, path.resourceIdx < resources.length

namespace DavResources

/-- `self.resources[path.resource_idx]`. -/
def resourceOf (cache : DavResources) (path : DavPath) (h : path ∈ cache.paths) : DavResource :=
  cache.resources.get ⟨path.resourceIdx, cache.valid_paths path h⟩

/-- The test of `shared_containers` on one entry: its grants hold every right checked, or, with
`match_any`, one of them. -/
def entryMatches (grants checkAcls : Bitmap Acl) (matchAny : Bool) : Bool :=
  let grants := grants.intersection checkAcls
  grants == checkAcls || (matchAny && !grants.isEmpty)

/-- `DavResources::shared_containers`. -/
def sharedContainers (cache : DavResources) (token : AccessToken) (checkAcls : List Acl)
    (matchAny : Bool) : Finset UInt32 :=
  let checkAcls := Bitmap.ofList checkAcls
  cache.resources.foldl (fun documentIds resource =>
    match resource.acls with
    | some acls =>
      acls.foldl (fun documentIds acl =>
        if token.isMember acl.accountId && entryMatches acl.grants checkAcls matchAny then
          insert resource.documentId documentIds
        else documentIds) documentIds
    | none => documentIds) ∅

/-- `DavResources::shared_items`. -/
def sharedItems (cache : DavResources) (token : AccessToken) (checkAcls : List Acl)
    (matchAny : Bool) : Finset UInt32 :=
  let sharedContainers := cache.sharedContainers token checkAcls matchAny
  if sharedContainers.Nonempty then
    cache.paths.attach.foldl (fun documentIds path =>
      match path.1.parentId with
      | some parentId =>
        if parentId ∈ sharedContainers then
          insert (cache.resourceOf path.1 path.2).documentId documentIds
        else documentIds
      | none => documentIds) ∅
  else sharedContainers

/-- The loop of `has_access_to_container`: the first container of the id answers, from its first
entry of an account the token is a member of (`return`), or refuses when it has none
(`break`). -/
def hasAccessIn (token : AccessToken) (documentId : UInt32) (checkAcls : Bitmap Acl) :
    List DavResource → Bool
  | [] => false
  | resource :: resources =>
    match resource.documentId == documentId, resource.acls with
    | true, some acls =>
      match acls.find? fun acl => token.isMember acl.accountId with
      | some acl => !(acl.grants.intersection checkAcls).isEmpty
      | none => false
    | _, _ => hasAccessIn token documentId checkAcls resources

/-- `DavResources::has_access_to_container`. -/
def hasAccessToContainer (cache : DavResources) (token : AccessToken) (documentId : UInt32)
    (checkAcls : Bitmap Acl) : Bool :=
  hasAccessIn token documentId checkAcls cache.resources

/-- The loop of `container_acl`: the union of the grants of the first container of the id to the
accounts the token is a member of, then `break`. -/
def containerAclIn (token : AccessToken) (documentId : UInt32) :
    List DavResource → Bitmap Acl
  | [] => .new
  | resource :: resources =>
    match resource.documentId == documentId, resource.acls with
    | true, some acls =>
      acls.foldl (fun accountAcls acl =>
        if token.isMember acl.accountId then accountAcls.union acl.grants else accountAcls) .new
    | _, _ => containerAclIn token documentId resources

/-- `DavResources::container_acl`. -/
def containerAcl (cache : DavResources) (token : AccessToken) (documentId : UInt32) :
    Bitmap Acl :=
  containerAclIn token documentId cache.resources

/-! ## The rights of a token on a container -/

/-- The grants of the container of id `documentId`: those of the first resource of that id that
has grants. -/
def containerOf (resources : List DavResource) (documentId : UInt32) : Option (List AclGrant) :=
  resources.findSome? fun resource =>
    if resource.documentId = documentId then resource.acls else none

/-- The rights of a token on a container: the effective ACL of its grants, and none on an id that
is no container's. -/
def containerRights (cache : DavResources) (token : AccessToken) (documentId : UInt32) :
    Bitmap Acl :=
  ((containerOf cache.resources documentId).map (effectiveAcl · token)).getD .new

theorem containerOf_cons_of_container {resource : DavResource} {documentId : UInt32}
    {acls : List AclGrant} (hid : resource.documentId = documentId)
    (hacls : resource.acls = some acls) (resources : List DavResource) :
    containerOf (resource :: resources) documentId = some acls := by
  simp [containerOf, hid, hacls]

/-- A resource that is not a container of the id is passed over. -/
theorem containerOf_cons_of_not_container {resource : DavResource} {documentId : UInt32}
    (h : ∀ acls, (resource.documentId == documentId) = true → resource.acls = some acls → False)
    (resources : List DavResource) :
    containerOf (resource :: resources) documentId = containerOf resources documentId := by
  have hnone : (if resource.documentId = documentId then resource.acls else none) = none := by
    split_ifs with hid
    · cases hacls : resource.acls with
      | none => rfl
      | some acls => exact (h acls (beq_iff_eq.mpr hid) hacls).elim
    · rfl
  rw [containerOf, List.findSome?_cons, hnone]
  rfl

/-! ## `has_access_to_container` -/

/-- `has_access_to_container` grants when the first entry of an account of the token, in the
container asked for, holds one of the rights checked. -/
theorem hasAccessIn_iff (token : AccessToken) (documentId : UInt32) (checkAcls : Bitmap Acl) :
    ∀ resources : List DavResource, hasAccessIn token documentId checkAcls resources = true ↔
      ∃ acls, containerOf resources documentId = some acls ∧
        ∃ acl, acls.find? (fun acl => token.isMember acl.accountId) = some acl ∧
          ∃ right, acl.grants.contains right ∧ checkAcls.contains right
  | [] => by simp [hasAccessIn, containerOf]
  | resource :: resources => by
    rw [hasAccessIn]
    split
    next acls hid hacls =>
      rw [containerOf_cons_of_container (beq_iff_eq.mp hid) hacls]
      simp only [Option.some.injEq, exists_eq_left']
      cases hfind : acls.find? fun acl => token.isMember acl.accountId with
      | none => simp
      | some acl =>
        simp only [Option.some.injEq, exists_eq_left', Bool.not_eq_true']
        exact Bitmap.isEmpty_intersection_eq_false acl.grants checkAcls
    next hnot =>
      rw [containerOf_cons_of_not_container hnot, hasAccessIn_iff token documentId checkAcls]

/-- **What `has_access_to_container` grants, the effective ACL grants.** -/
theorem hasAccessToContainer_sound {cache : DavResources} {token : AccessToken}
    {documentId : UInt32} {checkAcls : Bitmap Acl}
    (h : cache.hasAccessToContainer token documentId checkAcls = true) :
    ∃ right, checkAcls.contains right ∧ (cache.containerRights token documentId).contains right := by
  obtain ⟨acls, hcontainer, acl, hfind, right, hgrant, hcheck⟩ :=
    (hasAccessIn_iff token documentId checkAcls cache.resources).mp h
  -- the first entry of an account of the token is one of the entries the union runs over
  have hmember : token.isMember acl.accountId = true := by simpa using List.find?_some hfind
  have hmem : acl ∈ acls := List.mem_of_find?_eq_some hfind
  refine ⟨right, hcheck, ?_⟩
  rw [containerRights, hcontainer, Option.map_some, Option.getD_some, contains_effectiveAcl,
    List.any_eq_true]
  exact ⟨acl, hmem, by simp [hmember, hgrant]⟩

/-! ## A right granted to a group -/

/-- A token of account 1, a member of group 2. -/
def groupMember : AccessToken := ⟨1, [2], [], false⟩

/-- A calendar 7 that grants reading to account 1 and modifying to group 2. -/
def groupSharedCalendar : DavResources :=
  ⟨[], [⟨7, some [⟨1, .ofList [.read]⟩, ⟨2, .ofList [.modify]⟩]⟩], by simp⟩

/-- Reading, which the first entry of an account of the token grants, is granted, and the
effective ACL grants it. -/
theorem hasAccessToContainer_sound_read :
    groupSharedCalendar.hasAccessToContainer groupMember 7 (.ofList [.read]) = true ∧
      ∃ right, (Bitmap.ofList [Acl.read]).contains right ∧
        (groupSharedCalendar.containerRights groupMember 7).contains right := by
  have h : groupSharedCalendar.hasAccessToContainer groupMember 7 (.ofList [.read]) = true := by
    decide
  exact ⟨h, hasAccessToContainer_sound h⟩

theorem container_access_misses_group_grant :
    (groupSharedCalendar.containerRights groupMember 7).contains .modify ∧
      groupSharedCalendar.hasAccessToContainer groupMember 7 (.ofList [.modify]) = false ∧
      (∀ right ∈ [Acl.read, .modify],
        (groupSharedCalendar.containerRights groupMember 7).contains right) ∧
      7 ∉ groupSharedCalendar.sharedContainers groupMember [.read, .modify] false := by
  decide

end DavResources

end Stalwart.Sharing
