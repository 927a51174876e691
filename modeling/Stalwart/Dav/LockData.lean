import Mathlib.Data.List.Nodup

/-!
# WebDAV lock data

The locks of one collection of an account are kept together, as a map from resource paths to the
locks taken on them. A lock has an id (its token), an owner, an expiry time, a depth (the resource
alone, or the resource and everything under it) and a scope (shared or exclusive).

`find_locks` collects the unexpired locks that bear on a resource: those on the resource, those of
infinite depth on the paths above it, and, when asked, those on the paths below it. The walk up
takes the part before the last `/` until none is left, so it passes exactly the resource and its
`/`-ancestors (`mem_resourceParts`), and `LockData.mem_findLocks` says which locks are found.

Two locks conflict when they differ, both are unexpired, one is exclusive, and one covers the other's
path (`conflicting`); the lock data is sound when no two of its locks conflict
(`LockData.NoConflict`). Sound data stays sound as time passes, as locks are removed, and when a lock
that conflicts with none is added.
-/

set_option autoImplicit false

namespace Stalwart.Dav

/-- `LockItem`: the lock's id, owner, expiry, depth and scope. -/
structure LockItem where
  lockId : UInt64
  owner : UInt32
  expires : Nat
  depthInfinity : Bool
  exclusive : Bool
  deriving DecidableEq, Repr

/-- `LockItem::default`. -/
def LockItem.default : LockItem :=
  ⟨0, 0, 0, false, false⟩

/-! ## Paths -/

/-- `rsplit_once`: the parts before and after the last `sep`. -/
def rsplitOnce (sep : Char) : List Char → Option (List Char × List Char)
  | [] => none
  | c :: rest =>
    match rsplitOnce sep rest with
    | some (before, after) => some (c :: before, after)
    | none => if c = sep then some ([], rest) else none

section RsplitOnce

attribute [local simp] rsplitOnce

theorem rsplitOnce_eq_none_iff {sep : Char} :
    ∀ {s : List Char}, rsplitOnce sep s = none ↔ sep ∉ s
  | [] => by simp
  | c :: rest => by
    have ih : rsplitOnce sep rest = none ↔ sep ∉ rest := rsplitOnce_eq_none_iff
    cases hrest : rsplitOnce sep rest with
    | none =>
      rw [hrest] at ih
      by_cases hc : c = sep
      · simp [hrest, hc]
      · simp [hrest, hc, ih.mp rfl, Ne.symm hc]
    | some split =>
      rw [hrest] at ih
      simp only [rsplitOnce, hrest, reduceCtorEq, false_iff, List.mem_cons, not_or, not_and, not_not]
      exact fun _ => by simpa using ih

theorem rsplitOnce_eq_some {sep : Char} :
    ∀ {s before after : List Char}, rsplitOnce sep s = some (before, after) →
      s = before ++ sep :: after ∧ sep ∉ after
  | [], _, _, h => by cases h
  | c :: rest, before, after, h => by
    unfold rsplitOnce at h
    split at h
    · -- the last separator is in the rest
      next before' after' hrest =>
      cases h
      obtain ⟨rfl, hafter⟩ := rsplitOnce_eq_some hrest
      exact ⟨rfl, hafter⟩
    · -- the rest has none, and this character is the separator
      next hrest =>
      split at h
      · cases h
        exact ⟨by simp [*], rsplitOnce_eq_none_iff.mp hrest⟩
      · cases h

theorem rsplitOnce_append {sep : Char} {after : List Char} (hafter : sep ∉ after) :
    ∀ before : List Char, rsplitOnce sep (before ++ sep :: after) = some (before, after)
  | [] => by simp [rsplitOnce_eq_none_iff.mpr hafter]
  | c :: before => by simp [rsplitOnce_append hafter before]

end RsplitOnce

theorem length_lt_of_rsplitOnce {sep : Char} {s before after : List Char}
    (h : rsplitOnce sep s = some (before, after)) : before.length < s.length := by
  obtain ⟨rfl, -⟩ := rsplitOnce_eq_some h
  simp

/-- The parts `find_locks` looks up: the resource, then the part before the last `/`, until no `/`
is left. -/
def resourceParts (resource : List Char) : List (List Char) :=
  resource :: match h : rsplitOnce '/' resource with
    | some (part, _) =>
      have := length_lt_of_rsplitOnce h
      resourceParts part
    | none => []
termination_by resource.length

theorem resourceParts_of_rsplitOnce {resource part after : List Char}
    (h : rsplitOnce '/' resource = some (part, after)) :
    resourceParts resource = resource :: resourceParts part := by
  rw [resourceParts]
  split <;> simp_all

theorem mem_resourceParts_self (resource : List Char) : resource ∈ resourceParts resource := by
  rw [resourceParts]
  exact List.mem_cons_self

/-- **The walk up passes every `/`-ancestor.** -/
theorem mem_resourceParts_of_ancestor {part : List Char} :
    ∀ {resource : List Char}, part ++ ['/'] <+: resource → part ∈ resourceParts resource
  | _, ⟨rest, rfl⟩ => by
    by_cases hsep : '/' ∈ rest
    · -- a later `/` splits first, and the part before it still has `part` above it
      obtain ⟨⟨middle, after⟩, hsplit⟩ := Option.ne_none_iff_exists'.mp
        (mt rsplitOnce_eq_none_iff.mp (not_not.mpr hsep))
      obtain ⟨rfl, hafter⟩ := rsplitOnce_eq_some hsplit
      have hwhole : part ++ ['/'] ++ (middle ++ '/' :: after) =
          (part ++ '/' :: middle) ++ '/' :: after := by simp
      have hshorter : (part ++ '/' :: middle).length < (part ++ ['/'] ++ (middle ++ '/' :: after)).length := by
        simp
      rw [hwhole, resourceParts_of_rsplitOnce (rsplitOnce_append hafter _)]
      exact List.mem_cons_of_mem _ (mem_resourceParts_of_ancestor ⟨middle, by simp⟩)
    · -- the `/` after `part` is the last one
      have hwhole : part ++ ['/'] ++ rest = part ++ '/' :: rest := by simp
      rw [hwhole, resourceParts_of_rsplitOnce (rsplitOnce_append hsep part)]
      exact List.mem_cons_of_mem _ (mem_resourceParts_self part)
termination_by resource => resource.length

/-! ## The lock data -/

/-- `LockData`: the locks by resource path, each path once. -/
structure LockData where
  locks : List (List Char × List LockItem)
  keys_nodup : (locks.map (·.1)).Nodup
  deriving DecidableEq

/-- `entry(path).or_insert_with(Default::default)`, then a change of the path's locks. -/
def modifyOrInsert (path : List Char) (f : List LockItem → List LockItem) :
    List (List Char × List LockItem) → List (List Char × List LockItem)
  | [] => [(path, f [])]
  | (key, items) :: rest =>
    if key = path then (key, f items) :: rest else (key, items) :: modifyOrInsert path f rest

theorem mem_keys_modifyOrInsert {path : List Char} {f : List LockItem → List LockItem} {key : List Char} :
    ∀ {locks : List (List Char × List LockItem)},
      key ∈ (modifyOrInsert path f locks).map (·.1) → key ∈ locks.map (·.1) ∨ key = path
  | [], h => by simpa [modifyOrInsert] using h
  | (key', items) :: rest, h => by
    unfold modifyOrInsert at h
    split at h
    · exact .inl (by simpa using h)
    · simp only [List.map_cons, List.mem_cons] at h
      rcases h with rfl | h
      · exact .inl List.mem_cons_self
      · rcases mem_keys_modifyOrInsert h with h | rfl
        · exact .inl (List.mem_cons_of_mem _ h)
        · exact .inr rfl

theorem nodup_modifyOrInsert {path : List Char} {f : List LockItem → List LockItem} :
    ∀ {locks : List (List Char × List LockItem)}, (locks.map (·.1)).Nodup →
      ((modifyOrInsert path f locks).map (·.1)).Nodup
  | [], _ => List.nodup_singleton _
  | (key, items) :: rest, h => by
    rw [List.map_cons, List.nodup_cons] at h
    unfold modifyOrInsert
    split
    · simpa using h
    · next hkey =>
      rw [List.map_cons, List.nodup_cons]
      refine ⟨fun hmem => ?_, nodup_modifyOrInsert h.2⟩
      rcases mem_keys_modifyOrInsert hmem with hmem | rfl
      · exact h.1 hmem
      · exact hkey rfl

namespace LockData

/-- No locks. -/
def empty : LockData :=
  ⟨[], List.nodup_nil⟩

variable (data : LockData)

/-- `locks.get(path)`. -/
def get? (path : List Char) : Option (List LockItem) :=
  (data.locks.find? (·.1 == path)).map (·.2)

/-- Every lock, with its path. -/
def entries : List (List Char × LockItem) :=
  data.locks.flatMap fun (path, items) => items.map (path, ·)

/-- `entry(path).or_insert_with(Default::default).push(item)`. -/
def push (path : List Char) (item : LockItem) : LockData :=
  ⟨modifyOrInsert path (· ++ [item]) data.locks, nodup_modifyOrInsert data.keys_nodup⟩

variable {data}

theorem mem_entries {entry : List Char × LockItem} :
    entry ∈ data.entries ↔ ∃ items, (entry.1, items) ∈ data.locks ∧ entry.2 ∈ items := by
  constructor
  · intro h
    obtain ⟨⟨path, items⟩, hmem, hentry⟩ := List.mem_flatMap.mp h
    obtain ⟨lock, hlock, rfl⟩ := List.mem_map.mp hentry
    exact ⟨items, hmem, hlock⟩
  · rintro ⟨items, hmem, hlock⟩
    exact List.mem_flatMap.mpr ⟨_, hmem, List.mem_map.mpr ⟨_, hlock, rfl⟩⟩

theorem mem_of_get? {path : List Char} {items : List LockItem} (h : data.get? path = some items) :
    (path, items) ∈ data.locks := by
  obtain ⟨⟨key, items⟩, hfind, rfl⟩ := Option.map_eq_some_iff.mp h
  have hkey : key = path := by simpa using List.find?_some hfind
  subst hkey
  exact List.mem_of_find?_eq_some hfind

/-- Under distinct paths, a lookup finds the locks the map holds. -/
theorem get?_of_mem {path : List Char} {items : List LockItem} (h : (path, items) ∈ data.locks) :
    data.get? path = some items := by
  have hfind : ∀ {locks : List (List Char × List LockItem)}, (locks.map (·.1)).Nodup →
      (path, items) ∈ locks → locks.find? (·.1 == path) = some (path, items) := by
    intro locks hnodup hmem
    induction locks with
    | nil => cases hmem
    | cons entry rest ih =>
      rw [List.map_cons, List.nodup_cons] at hnodup
      rcases List.mem_cons.mp hmem with rfl | hrest
      · simp
      · have hne : ¬ entry.1 = path := fun heq =>
          hnodup.1 (List.mem_map.mpr ⟨_, hrest, heq.symm⟩)
        simp [hne, ih hnodup.2 hrest]
  simp [get?, hfind data.keys_nodup h]

theorem mem_entries_push {path : List Char} {item : LockItem} {entry : List Char × LockItem} :
    entry ∈ (data.push path item).entries ↔ entry ∈ data.entries ∨ entry = (path, item) := by
  unfold entries push
  dsimp only
  generalize data.locks = locks
  induction locks with
  | nil => simp [modifyOrInsert]
  | cons head rest ih =>
    obtain ⟨key, items⟩ := head
    unfold modifyOrInsert
    split
    · next hkey =>
      subst hkey
      simp only [List.flatMap_cons, List.map_append, List.mem_append, List.map_cons, List.map_nil,
        List.mem_singleton]
      tauto
    · simp only [List.flatMap_cons, List.mem_append, ih]
      tauto

end LockData

/-! ## Changing and removing locks -/

/-- The first element that satisfies `p`, changed by `f`. -/
def modifyFirst {α : Type} (p : α → Bool) (f : α → α) : List α → List α
  | [] => []
  | a :: rest => if p a then f a :: rest else a :: modifyFirst p f rest

/-- The first lock of an id, in the order of the paths, changed: none without one. -/
def rewriteIn (lockId : UInt64) (f : LockItem → LockItem) :
    List (List Char × List LockItem) → Option (List (List Char × List LockItem))
  | [] => none
  | (path, items) :: rest =>
    if items.any (·.lockId == lockId) then
      some ((path, modifyFirst (·.lockId == lockId) f items) :: rest)
    else (rewriteIn lockId f rest).map ((path, items) :: ·)

theorem keys_rewriteIn {lockId : UInt64} {f : LockItem → LockItem} :
    ∀ {locks locks' : List (List Char × List LockItem)}, rewriteIn lockId f locks = some locks' →
      locks'.map (·.1) = locks.map (·.1)
  | [], _, h => by cases h
  | (path, items) :: rest, locks', h => by
    unfold rewriteIn at h
    split at h
    · cases h
      rfl
    · obtain ⟨rest', hrest, rfl⟩ := Option.map_eq_some_iff.mp h
      simp [keys_rewriteIn hrest]

/-- `values_mut().flat_map(..).find(|lock| lock.lock_id == id)`, changed by `f`: none without
such a lock. -/
def LockData.rewriteLock (data : LockData) (lockId : UInt64) (f : LockItem → LockItem) :
    Option LockData :=
  match h : rewriteIn lockId f data.locks with
  | some locks => some ⟨locks, by rw [keys_rewriteIn h]; exact data.keys_nodup⟩
  | none => none

/-- `Vec::swap_remove`: the last element takes the place of the removed one. -/
def swapRemove {α : Type} (items : List α) (index : Nat) : List α :=
  if index + 1 = items.length then items.dropLast
  else match items.getLast? with
    | some last => (items.set index last).dropLast
    | none => items

theorem mem_swapRemove {α : Type} {items : List α} {index : Nat} {a : α}
    (h : a ∈ swapRemove items index) : a ∈ items := by
  unfold swapRemove at h
  split at h
  · exact (List.dropLast_sublist _).subset h
  · split at h
    · next last hlast =>
      rcases List.mem_or_eq_of_mem_set ((List.dropLast_sublist _).subset h) with h | rfl
      · exact h
      · exact List.mem_of_getLast? hlast
    · exact h

/-- The first lock of an id removed, and its path with it when it was the path's last: none
without one. -/
def removeIn (lockId : UInt64) :
    List (List Char × List LockItem) → Option (List (List Char × List LockItem))
  | [] => none
  | (path, items) :: rest =>
    match items.findIdx? (·.lockId == lockId) with
    | some index =>
      let items := swapRemove items index
      some (if items.isEmpty then rest else (path, items) :: rest)
    | none => (removeIn lockId rest).map ((path, items) :: ·)

theorem keys_removeIn {lockId : UInt64} :
    ∀ {locks locks' : List (List Char × List LockItem)}, removeIn lockId locks = some locks' →
      (locks'.map (·.1)).Sublist (locks.map (·.1))
  | [], _, h => by cases h
  | (path, items) :: rest, locks', h => by
    unfold removeIn at h
    split at h
    · cases h
      split
      · exact List.sublist_cons_self _ _
      · exact List.Sublist.refl _
    · obtain ⟨rest', hrest, rfl⟩ := Option.map_eq_some_iff.mp h
      exact (keys_removeIn hrest).cons_cons _

theorem mem_removeIn {lockId : UInt64} {path : List Char} {items : List LockItem} {lock : LockItem} :
    ∀ {locks locks' : List (List Char × List LockItem)}, removeIn lockId locks = some locks' →
      (path, items) ∈ locks' → lock ∈ items → ∃ items', (path, items') ∈ locks ∧ lock ∈ items'
  | [], _, h, _, _ => by cases h
  | (path', items') :: rest, locks', h, hmem, hlock => by
    unfold removeIn at h
    split at h
    · -- the lock was removed here: the path's other locks stay
      cases h
      split at hmem
      · exact ⟨items, List.mem_cons_of_mem _ hmem, hlock⟩
      · rcases List.mem_cons.mp hmem with heq | hmem
        · cases heq
          exact ⟨items', List.mem_cons_self, mem_swapRemove hlock⟩
        · exact ⟨items, List.mem_cons_of_mem _ hmem, hlock⟩
    · obtain ⟨rest', hrest, rfl⟩ := Option.map_eq_some_iff.mp h
      rcases List.mem_cons.mp hmem with heq | hmem
      · cases heq
        exact ⟨items, List.mem_cons_self, hlock⟩
      · obtain ⟨items'', hmem'', hlock''⟩ := mem_removeIn hrest hmem hlock
        exact ⟨items'', List.mem_cons_of_mem _ hmem'', hlock''⟩

/-- `LockData::remove_lock`: none when no lock has the id. -/
def LockData.removeLock (data : LockData) (lockId : UInt64) : Option LockData :=
  match h : removeIn lockId data.locks with
  | some locks => some ⟨locks, (keys_removeIn h).nodup data.keys_nodup⟩
  | none => none

theorem keys_filterMap_sublist {α β γ : Type} {f : α × β → Option (α × γ)}
    (hf : ∀ entry entry', f entry = some entry' → entry'.1 = entry.1) :
    ∀ l : List (α × β), ((l.filterMap f).map (·.1)).Sublist (l.map (·.1))
  | [] => List.Sublist.slnil
  | entry :: rest => by
    rw [List.filterMap_cons]
    cases hentry : f entry with
    | none => exact (keys_filterMap_sublist hf rest).cons _
    | some entry' =>
      rw [List.map_cons, List.map_cons, hf _ _ hentry]
      exact (keys_filterMap_sublist hf rest).cons_cons _

/-- The locks of one path that are unexpired at `now`, and the path with them: none when none is
left. -/
def retainUnexpired (now : Nat) (entry : List Char × List LockItem) :
    Option (List Char × List LockItem) :=
  let kept := entry.2.filter (now < ·.expires)
  if kept.isEmpty then none else some (entry.1, kept)

theorem retainUnexpired_eq_some {now : Nat} {entry entry' : List Char × List LockItem}
    (h : retainUnexpired now entry = some entry') :
    entry' = (entry.1, entry.2.filter (now < ·.expires)) := by
  dsimp only [retainUnexpired] at h
  split at h
  · cases h
  · cases h
    rfl

/-- `LockData::remove_expired`: the locks that expire after `now`, and the latest expiry, `0`
when none is left. -/
def LockData.removeExpired (data : LockData) (now : Nat) : LockData × Nat :=
  let locks := data.locks.filterMap (retainUnexpired now)
  (⟨locks, (keys_filterMap_sublist (fun _ _ h => by rw [retainUnexpired_eq_some h])
      data.locks).nodup data.keys_nodup⟩,
    (locks.flatMap (·.2)).foldl (fun latest lock => max latest lock.expires) 0)

namespace LockData

variable {data : LockData}

theorem mem_entries_removeLock {lockId : UInt64} {data' : LockData}
    (h : data.removeLock lockId = some data') {entry : List Char × LockItem}
    (hentry : entry ∈ data'.entries) : entry ∈ data.entries := by
  unfold removeLock at h
  split at h
  · next locks hremove =>
    cases h
    obtain ⟨items, hmem, hlock⟩ := mem_entries.mp hentry
    obtain ⟨items', hmem', hlock'⟩ := mem_removeIn hremove hmem hlock
    exact mem_entries.mpr ⟨items', hmem', hlock'⟩
  · cases h

/-- After `remove_expired`, the locks left are the unexpired ones. -/
theorem mem_entries_removeExpired {now : Nat} {entry : List Char × LockItem} :
    entry ∈ (data.removeExpired now).1.entries ↔ entry ∈ data.entries ∧ now < entry.2.expires := by
  simp only [mem_entries, removeExpired, List.mem_filterMap]
  constructor
  · rintro ⟨items, ⟨⟨path, items'⟩, hmem, hkept⟩, hlock⟩
    obtain ⟨rfl, rfl⟩ := Prod.mk.inj (retainUnexpired_eq_some hkept)
    obtain ⟨hlock, hlive⟩ := List.mem_filter.mp hlock
    exact ⟨⟨items', hmem, hlock⟩, of_decide_eq_true hlive⟩
  · rintro ⟨⟨items, hmem, hlock⟩, hlive⟩
    have hkept : entry.2 ∈ items.filter (now < ·.expires) :=
      List.mem_filter.mpr ⟨hlock, decide_eq_true hlive⟩
    refine ⟨_, ⟨_, hmem, ?_⟩, hkept⟩
    unfold retainUnexpired
    rw [if_neg (List.ne_nil_of_mem hkept ∘ List.isEmpty_iff.mp)]

end LockData

/-! ## Finding the locks of a resource -/

/-- The walk up passes only the resource and its `/`-ancestors. -/
theorem prefix_of_mem_resourceParts {part : List Char} :
    ∀ {resource : List Char}, part ∈ resourceParts resource →
      part = resource ∨ part ++ ['/'] <+: resource
  | resource, h => by
    rw [resourceParts] at h
    rcases List.mem_cons.mp h with rfl | h
    · exact .inl rfl
    · split at h
      · next before after hsplit =>
        have hshorter := length_lt_of_rsplitOnce hsplit
        obtain ⟨rfl, -⟩ := rsplitOnce_eq_some hsplit
        rcases prefix_of_mem_resourceParts h with rfl | ⟨rest, rfl⟩
        · exact .inr ⟨after, by simp⟩
        · exact .inr ⟨rest ++ '/' :: after, by simp⟩
      · cases h
termination_by resource => resource.length

theorem mem_resourceParts {part resource : List Char} :
    part ∈ resourceParts resource ↔ part = resource ∨ part ++ ['/'] <+: resource := by
  refine ⟨prefix_of_mem_resourceParts, ?_⟩
  rintro (rfl | hbelow)
  · exact mem_resourceParts_self _
  · exact mem_resourceParts_of_ancestor hbelow

/-- `find_locks`: the unexpired locks on the resource and the infinite ones above it, then, with
`includeChildren`, the unexpired locks below it. -/
def LockData.findLocks (data : LockData) (now : Nat) (resource : List Char)
    (includeChildren : Bool) : List (List Char × LockItem) :=
  (resourceParts resource).flatMap (fun part =>
    match data.get? part with
    | some items =>
      (items.filter fun lock => now < lock.expires && (resource == part || lock.depthInfinity)).map
        (part, ·)
    | none => []) ++
  if includeChildren then
    data.locks.flatMap fun (part, items) =>
      if (resource ++ ['/']).isPrefixOf part then (items.filter (now < ·.expires)).map (part, ·)
      else []
  else []

/-- **What `find_locks` finds**: the unexpired locks on the resource, the unexpired infinite locks on
its ancestors, and, with `includeChildren`, the unexpired locks on its descendants. -/
theorem LockData.mem_findLocks {data : LockData} {now : Nat} {resource : List Char}
    {includeChildren : Bool} {entry : List Char × LockItem} :
    entry ∈ data.findLocks now resource includeChildren ↔
      entry ∈ data.entries ∧ now < entry.2.expires ∧
        (entry.1 = resource ∨ entry.2.depthInfinity ∧ entry.1 ++ ['/'] <+: resource ∨
          includeChildren ∧ resource ++ ['/'] <+: entry.1) := by
  -- the walk up: a part it passes, the part's locks, and the depth filter
  have hparts : entry ∈ (resourceParts resource).flatMap (fun part =>
        match data.get? part with
        | some items =>
          (items.filter fun lock => now < lock.expires && (resource == part || lock.depthInfinity)).map
            (part, ·)
        | none => []) ↔
      entry ∈ data.entries ∧ now < entry.2.expires ∧
        (entry.1 = resource ∨ entry.2.depthInfinity ∧ entry.1 ++ ['/'] <+: resource) := by
    rw [List.mem_flatMap]
    constructor
    · rintro ⟨part, hpart, hfound⟩
      split at hfound
      · next items hget =>
        obtain ⟨lock, hlock, rfl⟩ := List.mem_map.mp hfound
        obtain ⟨hlock, hkeep⟩ := List.mem_filter.mp hlock
        simp only [Bool.and_eq_true, decide_eq_true_eq, Bool.or_eq_true, beq_iff_eq] at hkeep
        refine ⟨mem_entries.mpr ⟨items, mem_of_get? hget, hlock⟩, hkeep.1, ?_⟩
        rcases mem_resourceParts.mp hpart with rfl | hbelow
        · exact .inl rfl
        · rcases hkeep.2 with rfl | hinfinity
          · exact .inl rfl
          · exact .inr ⟨hinfinity, hbelow⟩
      · cases hfound
    · rintro ⟨hmem, hlive, hcover⟩
      obtain ⟨items, hitems, hlock⟩ := mem_entries.mp hmem
      have hpart : entry.1 ∈ resourceParts resource := by
        rcases hcover with heq | ⟨-, hbelow⟩
        · rw [heq]
          exact mem_resourceParts_self _
        · exact mem_resourceParts_of_ancestor hbelow
      refine ⟨entry.1, hpart, ?_⟩
      rw [get?_of_mem hitems]
      refine List.mem_map.mpr ⟨entry.2, List.mem_filter.mpr ⟨hlock, ?_⟩, rfl⟩
      simp only [Bool.and_eq_true, decide_eq_true_eq, Bool.or_eq_true, beq_iff_eq]
      rcases hcover with heq | ⟨hinfinity, -⟩
      · exact ⟨hlive, .inl heq.symm⟩
      · exact ⟨hlive, .inr hinfinity⟩
  -- the paths below the resource
  have hchildren : entry ∈ data.locks.flatMap (fun (part, items) =>
        if (resource ++ ['/']).isPrefixOf part then (items.filter (now < ·.expires)).map (part, ·)
        else []) ↔
      entry ∈ data.entries ∧ now < entry.2.expires ∧ resource ++ ['/'] <+: entry.1 := by
    rw [List.mem_flatMap, mem_entries]
    constructor
    · rintro ⟨⟨part, items⟩, hitems, hfound⟩
      dsimp only at hfound
      split at hfound
      · next hbelow =>
        obtain ⟨lock, hlock, rfl⟩ := List.mem_map.mp hfound
        obtain ⟨hlock, hlive⟩ := List.mem_filter.mp hlock
        exact ⟨⟨items, hitems, hlock⟩, of_decide_eq_true hlive, List.isPrefixOf_iff_prefix.mp hbelow⟩
      · cases hfound
    · rintro ⟨⟨items, hitems, hlock⟩, hlive, hbelow⟩
      refine ⟨_, hitems, ?_⟩
      dsimp only
      rw [if_pos (List.isPrefixOf_iff_prefix.mpr hbelow)]
      exact List.mem_map.mpr ⟨entry.2, List.mem_filter.mpr ⟨hlock, decide_eq_true hlive⟩, rfl⟩
  unfold findLocks
  cases includeChildren
  · simp only [if_false, List.append_nil, hparts, Bool.false_eq_true, false_and, or_false]
  · simp only [if_true, List.mem_append, hparts, hchildren, true_and]
    tauto

/-! ## Conflicts -/

/-- A lock on `path` covers `other`: the same path, or a path under it when the lock has infinite
depth. -/
def covers (path : List Char) (lock : LockItem) (other : List Char) : Bool :=
  path == other || lock.depthInfinity && (path ++ ['/']).isPrefixOf other

/-- Two locks conflict: they differ, both are unexpired at `now`, one is exclusive, and one covers
the other's path. -/
def conflicting (now : Nat) (a b : List Char × LockItem) : Bool :=
  a.2 != b.2 && now < a.2.expires && now < b.2.expires && (a.2.exclusive || b.2.exclusive) &&
    (covers a.1 a.2 b.1 || covers b.1 b.2 a.1)

theorem conflicting_comm (now : Nat) (a b : List Char × LockItem) :
    conflicting now a b = conflicting now b a := by
  unfold conflicting
  rw [bne_comm (a := a.2), Bool.or_comm a.2.exclusive, Bool.or_comm (covers a.1 a.2 b.1)]
  -- the two expiry conjuncts change places
  cases decide (now < a.2.expires) <;> cases decide (now < b.2.expires) <;> simp

/-- A conflict at a later time was one at any earlier time: locks only expire. -/
theorem conflicting_of_le {now later : Nat} {a b : List Char × LockItem} (hle : now ≤ later)
    (h : conflicting later a b = true) : conflicting now a b = true := by
  simp only [conflicting, Bool.and_eq_true, decide_eq_true_eq] at h ⊢
  obtain ⟨⟨⟨⟨hne, ha⟩, hb⟩, hexclusive⟩, hcover⟩ := h
  exact ⟨⟨⟨⟨hne, by omega⟩, by omega⟩, hexclusive⟩, hcover⟩

/-- **No two locks conflict.** -/
def LockData.NoConflict (data : LockData) (now : Nat) : Prop :=
  ∀ a ∈ data.entries, ∀ b ∈ data.entries, conflicting now a b = false

instance (data : LockData) (now : Nat) : Decidable (data.NoConflict now) :=
  inferInstanceAs (Decidable (∀ a ∈ data.entries, ∀ b ∈ data.entries, conflicting now a b = false))

namespace LockData.NoConflict

variable {data : LockData} {now : Nat}

theorem of_le (h : data.NoConflict now) {later : Nat} (hle : now ≤ later) :
    data.NoConflict later := by
  intro a ha b hb
  cases hconflict : conflicting later a b
  · rfl
  · rw [← h a ha b hb, conflicting_of_le hle hconflict]

theorem of_subset (h : data.NoConflict now) {data' : LockData}
    (hsub : ∀ entry ∈ data'.entries, entry ∈ data.entries) : data'.NoConflict now :=
  fun a ha b hb => h a (hsub a ha) b (hsub b hb)

/-- A lock added without a conflict with any lock keeps the data sound. -/
theorem push (h : data.NoConflict now) {path : List Char} {item : LockItem}
    (hfree : ∀ entry ∈ data.entries, conflicting now entry (path, item) = false) :
    (data.push path item).NoConflict now := by
  have hself : conflicting now (path, item) (path, item) = false := by
    simp [conflicting]
  intro a ha b hb
  rcases mem_entries_push.mp ha with ha | rfl <;> rcases mem_entries_push.mp hb with hb | rfl
  · exact h a ha b hb
  · exact hfree a ha
  · rw [conflicting_comm]
    exact hfree b hb
  · exact hself

end LockData.NoConflict

end Stalwart.Dav
