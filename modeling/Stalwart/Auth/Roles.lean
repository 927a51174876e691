import Mathlib

/-!
# Role permissions (`common::auth::roles`)

A role grants and revokes permissions, and inherits those of its parent roles. Three roles are
built in: `ROLE_USER` and `ROLE_TENANT_ADMIN` enable fixed sets, and `ROLE_ADMIN` enables every
permission. `build_role_permissions` gathers the permissions of a role and of the roles it
inherits from: a depth-first walk with an explicit stack of parent lists and a set of the roles
already fetched. A role already in the permissions cache adds its cached sets and is not walked
further, and a role read from the directory without parents is cached with its own sets.
`RolePermissions::finalize` then takes the enabled permissions that are not disabled.

The walk is the loop of the source, one turn at a time (`BuildState.step`), run with fuel. The
fuel given is a bound on the turns the loop makes (`potential`), so it never runs out.

## What is proved

* **The walk ends** (`buildRolePermissions_isSome`): every turn lowers `potential`, the length of
  the lists left to walk plus, for each role of the directory not fetched yet, the length of its
  parent list and one (`potential_step_lt`).
* **Without `ROLE_ADMIN` among the roles reached, the walk gathers the closure**
  (`buildRolePermissions_closure`): the enabled and the disabled sets are the unions of those of
  the roles reachable through the parent lists, for every directory (cycles included) and every
  cache that holds the closure of the roles it holds. It leaves the cache so (`CacheSound`).
* `ROLE_ADMIN` stops the walk (`break 'outer`), and the roles left on the lists are never
  fetched. A role whose parents are `ROLE_ADMIN` and a role that revokes a permission keeps that
  permission when `ROLE_ADMIN` comes first and loses it when it comes second
  (`role_permissions_depend_on_parent_order`).
-/

set_option autoImplicit false

namespace Stalwart.Auth

/-- `ROLE_ADMIN`. -/
def roleAdmin : UInt32 := 4294967295

/-- `ROLE_TENANT_ADMIN`. -/
def roleTenantAdmin : UInt32 := 4294967294

/-- `ROLE_USER`. -/
def roleUser : UInt32 := 4294967293

/-- `RolePermissions`: the permissions a role enables and those it disables, each a
`Permissions` bitset kept as the set of the permission ids it holds. -/
structure RolePermissions where
  enabled : Finset Nat
  disabled : Finset Nat
  deriving DecidableEq

namespace RolePermissions

/-- `RolePermissions::default`. -/
def empty : RolePermissions := ⟨∅, ∅⟩

/-- `RolePermissions::union`. -/
def union (self other : RolePermissions) : RolePermissions :=
  ⟨self.enabled ∪ other.enabled, self.disabled ∪ other.disabled⟩

/-- `RolePermissions::finalize`: the enabled permissions that are not disabled. -/
def finalize (self : RolePermissions) : Finset Nat :=
  self.enabled \ self.disabled

end RolePermissions

/-- The static sets of the built-in roles. `Permissions` is a bitset of `words` machine words of
64 bits (`PERMISSIONS_BITSET_SIZE`, at least one); the sets of `ROLE_USER` and
`ROLE_TENANT_ADMIN` are those their permissions' `is_user_permission` and
`is_tenant_admin_permission` pick. -/
structure Builtins where
  words : Nat
  words_pos : 0 < words
  user : Finset Nat
  tenantAdmin : Finset Nat

namespace Builtins

/-- `Permissions::all()`: every bit of the bitset. -/
def all (builtins : Builtins) : Finset Nat :=
  Finset.range (64 * builtins.words)

/-- `user_permissions()`. -/
def userPermissions (builtins : Builtins) : RolePermissions :=
  ⟨builtins.user, ∅⟩

/-- `admin_permissions()`. -/
def adminPermissions (builtins : Builtins) : RolePermissions :=
  ⟨builtins.all, ∅⟩

/-- `tenant_admin_permissions()`. -/
def tenantAdminPermissions (builtins : Builtins) : RolePermissions :=
  ⟨builtins.tenantAdmin, ∅⟩

end Builtins

/-- What `build_role_permissions` reads of a role's principal: its permissions, each granted or
revoked (`permissions()`), and its parent roles (`roles()`), in the order stored. -/
structure Principal where
  permissions : List (Nat × Bool)
  roles : List UInt32
  deriving DecidableEq

/-- The role's own sets, as the loop `Add permissions` sets them. -/
def Principal.rolePermissions (principal : Principal) : RolePermissions :=
  principal.permissions.foldl (fun rolePermissions (permission, grant) =>
    if grant then { rolePermissions with enabled := insert permission rolePermissions.enabled }
    else { rolePermissions with disabled := insert permission rolePermissions.disabled })
    .empty

/-! ## The walk -/

/-- What the `match role_id` of the loop does with a role it has not fetched yet. -/
inductive RoleVisit where
  /-- The role's sets are added and the walk goes on with the current list; the cache after. -/
  | gathered (permissions : RolePermissions) (cache : List (UInt32 × RolePermissions))
  /-- `ROLE_ADMIN`: its sets are added and the walk stops (`break 'outer`). -/
  | stop (permissions : RolePermissions)
  /-- A role with parents: its sets are added and the walk goes down to its parents. -/
  | descend (permissions : RolePermissions) (parents : List UInt32)
  /-- The role is not in the directory (`SecurityEvent::Unauthorized`). -/
  | notFound

/-- The `match role_id` of `build_role_permissions`: the built-in roles, then the cache, then the
directory. A role read from the directory without parents is cached. -/
def visitRole (builtins : Builtins) (directory : List (UInt32 × Principal))
    (cache : List (UInt32 × RolePermissions)) (roleId : UInt32) : RoleVisit :=
  if roleId = roleUser then .gathered builtins.userPermissions cache
  else if roleId = roleAdmin then .stop builtins.adminPermissions
  else if roleId = roleTenantAdmin then .gathered builtins.tenantAdminPermissions cache
  else
    match cache.lookup roleId with
    | some rolePermissions => .gathered rolePermissions cache
    | none =>
      match directory.lookup roleId with
      | none => .notFound
      | some principal =>
        match principal.roles with
        | [] => .gathered principal.rolePermissions ((roleId, principal.rolePermissions) :: cache)
        | parents => .descend principal.rolePermissions parents

/-- The variables of the loop of `build_role_permissions`: what is left of the current list
(`role_ids`), the lists below it (`role_ids_stack`), the roles fetched, the sets gathered, and the
permissions cache. -/
structure BuildState where
  roleIds : List UInt32
  roleIdsStack : List (List UInt32)
  fetchedRoleIds : Finset UInt32
  returnPermissions : RolePermissions
  cache : List (UInt32 × RolePermissions)

/-- What one turn of the loop leads to. -/
inductive BuildStep where
  | next (state : BuildState)
  | done (state : BuildState)
  | notFound (roleId : UInt32)

namespace BuildState

/-- The state before the loop: the role asked for alone on the list. -/
def init (roleId : UInt32) (cache : List (UInt32 × RolePermissions)) : BuildState :=
  ⟨[roleId], [], ∅, .empty, cache⟩

/-- One turn of the `'outer` loop. -/
def step (builtins : Builtins) (directory : List (UInt32 × Principal)) (s : BuildState) :
    BuildStep :=
  match s.roleIds with
  | roleId :: roleIds =>
    -- skip if already fetched
    if roleId ∈ s.fetchedRoleIds then .next { s with roleIds := roleIds }
    else
      match visitRole builtins directory s.cache roleId with
      | .gathered permissions cache =>
        .next
          { s with
            roleIds := roleIds
            fetchedRoleIds := insert roleId s.fetchedRoleIds
            returnPermissions := s.returnPermissions.union permissions
            cache := cache }
      | .stop permissions =>
        .done
          { s with
            roleIds := roleIds
            fetchedRoleIds := insert roleId s.fetchedRoleIds
            returnPermissions := s.returnPermissions.union permissions }
      | .descend permissions parents =>
        .next
          { s with
            roleIds := parents
            roleIdsStack := roleIds :: s.roleIdsStack
            fetchedRoleIds := insert roleId s.fetchedRoleIds
            returnPermissions := s.returnPermissions.union permissions }
      | .notFound => .notFound roleId
  | [] =>
    match s.roleIdsStack with
    | prevRoleIds :: roleIdsStack =>
      .next { s with roleIds := prevRoleIds, roleIdsStack := roleIdsStack }
    | [] => .done s

/-- The roles still on the lists. -/
def pending (s : BuildState) : List UInt32 :=
  s.roleIds ++ s.roleIdsStack.flatten

end BuildState

/-- For each role of the directory not fetched yet, the length of its parent list and one: what
the roles still to read can put on the lists. -/
def unfetchedWeight (directory : List (UInt32 × Principal)) (fetched : Finset UInt32) : Nat :=
  ((directory.filter (·.1 ∉ fetched)).map (·.2.roles.length + 1)).sum

/-- The bound on the turns left: the roles on the lists, one for each list below, and what the
roles not fetched yet can add. -/
def BuildState.potential (directory : List (UInt32 × Principal)) (s : BuildState) : Nat :=
  s.roleIds.length + (s.roleIdsStack.map (·.length + 1)).sum +
    unfetchedWeight directory s.fetchedRoleIds

/-- The loop, for at most `fuel` turns: the state it breaks with, or the role not found. -/
def buildLoop (builtins : Builtins) (directory : List (UInt32 × Principal)) :
    Nat → BuildState → Option (Except UInt32 BuildState)
  | 0, _ => none
  | fuel + 1, s =>
    match s.step builtins directory with
    | .next s => buildLoop builtins directory fuel s
    | .done s => some (.ok s)
    | .notFound roleId => some (.error roleId)

/-- `build_role_permissions`: the sets gathered and the cache after, or the role the directory
does not hold. The loop is given as many turns as `potential` bounds. -/
def buildRolePermissions (builtins : Builtins) (directory : List (UInt32 × Principal))
    (cache : List (UInt32 × RolePermissions)) (roleId : UInt32) :
    Option (Except UInt32 (RolePermissions × List (UInt32 × RolePermissions))) :=
  let s := BuildState.init roleId cache
  (buildLoop builtins directory (s.potential directory + 1) s).map
    (·.map fun s => (s.returnPermissions, s.cache))

/-! ## What a turn can do -/

section Turn

variable {builtins : Builtins} {directory : List (UInt32 × Principal)}

theorem visitRole_stop {cache : List (UInt32 × RolePermissions)} {roleId : UInt32}
    {permissions : RolePermissions}
    (h : visitRole builtins directory cache roleId = .stop permissions) : roleId = roleAdmin := by
  unfold visitRole at h
  split_ifs at h with huser hadmin
  · exact hadmin
  · split at h
    · cases h
    · split at h
      · cases h
      · split at h <;> cases h

/-- A role the walk goes down from is no built-in role, is not cached, and is read from the
directory with the parents it goes down to. -/
theorem visitRole_descend {cache : List (UInt32 × RolePermissions)} {roleId : UInt32}
    {permissions : RolePermissions} {parents : List UInt32}
    (h : visitRole builtins directory cache roleId = .descend permissions parents) :
    roleId ≠ roleUser ∧ roleId ≠ roleAdmin ∧ roleId ≠ roleTenantAdmin ∧
      cache.lookup roleId = none ∧ ∃ principal, directory.lookup roleId = some principal ∧
        principal.roles = parents ∧ principal.rolePermissions = permissions := by
  unfold visitRole at h
  split_ifs at h with huser hadmin htenant
  split at h
  · cases h
  · next hcache =>
    split at h
    · cases h
    · next principal hprincipal =>
      split at h
      · cases h
      · cases h
        exact ⟨huser, hadmin, htenant, hcache, principal, hprincipal, rfl, rfl⟩

namespace BuildState

variable {s s' : BuildState}

/-- **What a turn that goes on does**: it skips a role fetched already, gathers a role, goes down
to a role's parents, or goes back to the list below. -/
theorem step_next_cases (h : s.step builtins directory = .next s') :
    (∃ roleId roleIds, s.roleIds = roleId :: roleIds ∧ roleId ∈ s.fetchedRoleIds ∧
      s' = { s with roleIds := roleIds }) ∨
    (∃ roleId roleIds permissions cache, s.roleIds = roleId :: roleIds ∧
      roleId ∉ s.fetchedRoleIds ∧
      visitRole builtins directory s.cache roleId = .gathered permissions cache ∧
      s' = { s with
        roleIds := roleIds
        fetchedRoleIds := insert roleId s.fetchedRoleIds
        returnPermissions := s.returnPermissions.union permissions
        cache := cache }) ∨
    (∃ roleId roleIds permissions parents, s.roleIds = roleId :: roleIds ∧
      roleId ∉ s.fetchedRoleIds ∧
      visitRole builtins directory s.cache roleId = .descend permissions parents ∧
      s' = { s with
        roleIds := parents
        roleIdsStack := roleIds :: s.roleIdsStack
        fetchedRoleIds := insert roleId s.fetchedRoleIds
        returnPermissions := s.returnPermissions.union permissions }) ∨
    (s.roleIds = [] ∧ ∃ prevRoleIds roleIdsStack, s.roleIdsStack = prevRoleIds :: roleIdsStack ∧
      s' = { s with roleIds := prevRoleIds, roleIdsStack := roleIdsStack }) := by
  unfold step at h
  split at h
  · next roleId roleIds hids =>
    split_ifs at h with hfetched
    · exact .inl ⟨roleId, roleIds, hids, hfetched, (BuildStep.next.inj h).symm⟩
    · split at h
      · next permissions cache hvisit =>
        exact .inr (.inl ⟨roleId, roleIds, permissions, cache, hids, hfetched, hvisit,
          (BuildStep.next.inj h).symm⟩)
      · cases h
      · next permissions parents hvisit =>
        exact .inr (.inr (.inl ⟨roleId, roleIds, permissions, parents, hids, hfetched, hvisit,
          (BuildStep.next.inj h).symm⟩))
      · cases h
  · next hids =>
    split at h
    · next prevRoleIds roleIdsStack hstack =>
      exact .inr (.inr (.inr ⟨hids, prevRoleIds, roleIdsStack, hstack,
        (BuildStep.next.inj h).symm⟩))
    · cases h

/-- A turn that breaks has nothing left on the lists, or has met `ROLE_ADMIN`. -/
theorem step_done_cases (h : s.step builtins directory = .done s') :
    (s.pending = [] ∧ s' = s) ∨ roleAdmin ∈ s.pending := by
  unfold step at h
  split at h
  · next roleId roleIds hids =>
    split_ifs at h with hfetched
    split at h
    · cases h
    · next permissions hvisit =>
      right
      rw [pending, hids, ← visitRole_stop hvisit]
      exact List.mem_cons_self
    · cases h
    · cases h
  · next hids =>
    split at h
    · cases h
    · next hstack =>
      exact .inl ⟨by simp [pending, hids, hstack], (BuildStep.done.inj h).symm⟩

end BuildState

end Turn

/-! ## The walk ends -/

theorem lookup_cons_of_ne {α β : Type} [BEq α] [LawfulBEq α] {key a : α} (value : β)
    (entries : List (α × β)) (h : a ≠ key) :
    ((key, value) :: entries).lookup a = entries.lookup a := by
  rw [List.lookup_cons, beq_eq_false_iff_ne.mpr h]

theorem unfetchedWeight_cons (key : UInt32) (entry : Principal)
    (directory : List (UInt32 × Principal)) (fetched : Finset UInt32) :
    unfetchedWeight ((key, entry) :: directory) fetched =
      (if key ∈ fetched then 0 else entry.roles.length + 1) + unfetchedWeight directory fetched := by
  by_cases h : key ∈ fetched <;> simp [unfetchedWeight, h]

theorem unfetchedWeight_insert_le (fetched : Finset UInt32) (roleId : UInt32) :
    ∀ directory : List (UInt32 × Principal),
      unfetchedWeight directory (insert roleId fetched) ≤ unfetchedWeight directory fetched
  | [] => le_rfl
  | (key, entry) :: directory => by
    have ih := unfetchedWeight_insert_le fetched roleId directory
    rw [unfetchedWeight_cons, unfetchedWeight_cons]
    by_cases hnew : key ∈ insert roleId fetched
    · rw [if_pos hnew]
      split_ifs <;> omega
    · -- an entry not fetched after the insertion was not fetched before
      have hold : key ∉ fetched := fun h => hnew (Finset.mem_insert_of_mem h)
      rw [if_neg hnew, if_neg hold]
      omega

/-- Fetching a role of the directory takes its part out of the weight. -/
theorem unfetchedWeight_insert_add_le {principal : Principal} {fetched : Finset UInt32}
    {roleId : UInt32} (hnew : roleId ∉ fetched) :
    ∀ {directory : List (UInt32 × Principal)}, directory.lookup roleId = some principal →
      unfetchedWeight directory (insert roleId fetched) + (principal.roles.length + 1) ≤
        unfetchedWeight directory fetched
  | [], h => by cases h
  | (key, entry) :: directory, h => by
    rw [unfetchedWeight_cons, unfetchedWeight_cons]
    by_cases hkey : roleId = key
    · -- the first entry of the role: counted before the fetch and not after
      subst hkey
      rw [List.lookup_cons_self, Option.some.injEq] at h
      subst h
      have hle := unfetchedWeight_insert_le fetched roleId directory
      rw [if_pos (Finset.mem_insert_self roleId fetched), if_neg hnew]
      omega
    · rw [lookup_cons_of_ne _ _ hkey] at h
      have ih := unfetchedWeight_insert_add_le hnew h
      have hsame : key ∈ insert roleId fetched ↔ key ∈ fetched := by
        simp [Finset.mem_insert, Ne.symm hkey]
      simp only [hsame]
      split_ifs <;> omega

namespace BuildState

variable {builtins : Builtins} {directory : List (UInt32 × Principal)} {s s' : BuildState}

/-- **Every turn that goes on lowers the potential.** -/
theorem potential_step_lt (h : s.step builtins directory = .next s') :
    s'.potential directory < s.potential directory := by
  rcases step_next_cases h with
    ⟨roleId, roleIds, hids, -, rfl⟩ |
    ⟨roleId, roleIds, permissions, cache, hids, -, -, rfl⟩ |
    ⟨roleId, roleIds, permissions, parents, hids, hnew, hvisit, rfl⟩ |
    ⟨hids, prevRoleIds, roleIdsStack, hstack, rfl⟩
  · simp [potential, hids]
  · have hle := unfetchedWeight_insert_le s.fetchedRoleIds roleId directory
    simp only [potential, hids, List.length_cons]
    omega
  · -- going down puts the role's parents on the lists, and the role's weight pays for them
    obtain ⟨-, -, -, -, principal, hprincipal, hroles, -⟩ := visitRole_descend hvisit
    have hle := unfetchedWeight_insert_add_le hnew hprincipal
    rw [hroles] at hle
    simp only [potential, hids, List.length_cons, List.map_cons, List.sum_cons]
    omega
  · simp [potential, hids, hstack]

end BuildState

/-- With more fuel than the potential, the loop breaks or finds a role missing. -/
theorem buildLoop_isSome (builtins : Builtins) (directory : List (UInt32 × Principal)) :
    ∀ (fuel : Nat) (s : BuildState), s.potential directory < fuel →
      (buildLoop builtins directory fuel s).isSome
  | 0, _, h => absurd h (Nat.not_lt_zero _)
  | fuel + 1, s, h => by
    rw [buildLoop]
    cases hstep : s.step builtins directory with
    | next s' =>
      have hlt := BuildState.potential_step_lt hstep
      exact buildLoop_isSome builtins directory fuel s' (by omega)
    | done s' => rfl
    | notFound roleId => rfl

/-- **`build_role_permissions` returns**, for every directory and every cache. -/
theorem buildRolePermissions_isSome (builtins : Builtins) (directory : List (UInt32 × Principal))
    (cache : List (UInt32 × RolePermissions)) (roleId : UInt32) :
    (buildRolePermissions builtins directory cache roleId).isSome := by
  rw [buildRolePermissions, Option.isSome_map]
  exact buildLoop_isSome builtins directory _ _ (Nat.lt_succ_self _)

/-! ## The closure of a role -/

/-- One of the two sets of a `RolePermissions`. -/
inductive Side where
  | enabled
  | disabled

/-- The set on that side. -/
def Side.get : Side → RolePermissions → Finset Nat
  | .enabled, permissions => permissions.enabled
  | .disabled, permissions => permissions.disabled

@[simp] theorem Side.get_union (side : Side) (permissions other : RolePermissions) :
    side.get (permissions.union other) = side.get permissions ∪ side.get other := by
  cases side <;> rfl

section Closure

variable (builtins : Builtins) (directory : List (UInt32 × Principal))

/-- The parent roles of a role: none for a built-in role, those of its principal otherwise. -/
def parentsOf (roleId : UInt32) : List UInt32 :=
  if roleId = roleUser ∨ roleId = roleAdmin ∨ roleId = roleTenantAdmin then []
  else ((directory.lookup roleId).map Principal.roles).getD []

/-- The sets a role holds itself. -/
def ownPermissions (roleId : UInt32) : RolePermissions :=
  if roleId = roleUser then builtins.userPermissions
  else if roleId = roleAdmin then builtins.adminPermissions
  else if roleId = roleTenantAdmin then builtins.tenantAdminPermissions
  else ((directory.lookup roleId).map Principal.rolePermissions).getD .empty

/-- `role` is reached from `roleId` through the parent lists. -/
def Reaches (roleId role : UInt32) : Prop :=
  Relation.ReflTransGen (fun role parent => parent ∈ parentsOf directory role) roleId role

/-- A permission of the closure of a role: one of the roles it reaches holds it on that side. -/
def InClosure (side : Side) (roleId : UInt32) (permission : Nat) : Prop :=
  ∃ role, Reaches directory roleId role ∧ permission ∈ side.get (ownPermissions builtins directory role)

/-- A cache that holds, for each role it holds, the closure of that role. A role without parents
has its own sets as closure. -/
def CacheSound (cache : List (UInt32 × RolePermissions)) : Prop :=
  ∀ roleId permissions, cache.lookup roleId = some permissions →
    ∀ side permission, permission ∈ side.get permissions ↔ InClosure builtins directory side roleId permission

end Closure

section ClosureLemmas

variable {builtins : Builtins} {directory : List (UInt32 × Principal)} {side : Side}

theorem InClosure.of_reaches {roleId role : UInt32} {permission : Nat}
    (hreach : Reaches directory roleId role) (h : InClosure builtins directory side role permission) :
    InClosure builtins directory side roleId permission := by
  obtain ⟨held, hheld, hmem⟩ := h
  exact ⟨held, hreach.trans hheld, hmem⟩

theorem InClosure.own {roleId : UInt32} {permission : Nat}
    (h : permission ∈ side.get (ownPermissions builtins directory roleId)) :
    InClosure builtins directory side roleId permission :=
  ⟨roleId, Relation.ReflTransGen.refl, h⟩

/-- A role without parents reaches only itself. -/
theorem inClosure_iff_of_parentsOf_nil {roleId : UInt32} (h : parentsOf directory roleId = [])
    (permission : Nat) :
    InClosure builtins directory side roleId permission ↔
      permission ∈ side.get (ownPermissions builtins directory roleId) := by
  refine ⟨?_, InClosure.own⟩
  rintro ⟨role, hreach, hmem⟩
  rcases Relation.ReflTransGen.cases_head hreach with rfl | ⟨parent, hparent, -⟩
  · exact hmem
  · rw [h] at hparent
    cases hparent

/-- **A set of fetched roles closed under the parent lists holds the closure**: when each role of
it has its closure gathered, or its own sets gathered and its parents in the set, the closure of
each is gathered. -/
theorem InClosure.mem_of_closed {fetched : Finset UInt32} {gathered : Finset Nat}
    (hclosed : ∀ role ∈ fetched,
      (∀ permission, InClosure builtins directory side role permission → permission ∈ gathered) ∨
        ((∀ permission ∈ side.get (ownPermissions builtins directory role), permission ∈ gathered) ∧
          ∀ parent ∈ parentsOf directory role, parent ∈ fetched))
    {roleId : UInt32} (hfetched : roleId ∈ fetched) {permission : Nat}
    (h : InClosure builtins directory side roleId permission) : permission ∈ gathered := by
  obtain ⟨held, hreach, hmem⟩ := h
  -- induction on the path from the role to the role holding the permission, from its start
  induction hreach using Relation.ReflTransGen.head_induction_on with
  | refl =>
    rcases hclosed held hfetched with hall | ⟨hown, -⟩
    · exact hall permission (InClosure.own hmem)
    · exact hown permission hmem
  | head hparent hrest ih =>
    rcases hclosed _ hfetched with hall | ⟨-, hparents⟩
    · exact hall permission ⟨held, Relation.ReflTransGen.head hparent hrest, hmem⟩
    · exact ih (hparents _ hparent)

theorem cacheSound_cons {cache : List (UInt32 × RolePermissions)}
    (hcache : CacheSound builtins directory cache) {roleId : UInt32} {permissions : RolePermissions}
    (h : ∀ side permission, permission ∈ side.get permissions ↔
      InClosure builtins directory side roleId permission) :
    CacheSound builtins directory ((roleId, permissions) :: cache) := by
  intro role cached hlookup
  by_cases hrole : role = roleId
  · subst hrole
    rw [List.lookup_cons_self, Option.some.injEq] at hlookup
    subst hlookup
    exact h
  · rw [lookup_cons_of_ne _ _ hrole] at hlookup
    exact hcache role cached hlookup

/-- A role the walk gathers adds its closure, and leaves a cache that holds closures. -/
theorem visitRole_gathered {cache cache' : List (UInt32 × RolePermissions)} {roleId : UInt32}
    {permissions : RolePermissions} (hcache : CacheSound builtins directory cache)
    (h : visitRole builtins directory cache roleId = .gathered permissions cache') :
    (∀ side permission, permission ∈ side.get permissions ↔
      InClosure builtins directory side roleId permission) ∧ CacheSound builtins directory cache' := by
  unfold visitRole at h
  split_ifs at h with huser hadmin htenant
  · -- `ROLE_USER`: no parents, its static sets
    cases h
    refine ⟨fun side permission => ?_, hcache⟩
    rw [inClosure_iff_of_parentsOf_nil (by simp [parentsOf, huser]), ownPermissions, if_pos huser]
  · cases h
    refine ⟨fun side permission => ?_, hcache⟩
    rw [inClosure_iff_of_parentsOf_nil (by simp [parentsOf, htenant]), ownPermissions,
      if_neg huser, if_neg hadmin, if_pos htenant]
  · split at h
    · -- a cached role: the cache holds its closure
      next cached hcached =>
      cases h
      exact ⟨hcache roleId permissions hcached, hcache⟩
    · split at h
      · cases h
      · next principal hprincipal =>
        split at h
        · -- a role without parents: its own sets are its closure, and they are cached
          next hroles =>
          cases h
          have hown : ownPermissions builtins directory roleId = principal.rolePermissions := by
            rw [ownPermissions, if_neg huser, if_neg hadmin, if_neg htenant, hprincipal]
            rfl
          have hparents : parentsOf directory roleId = [] := by
            rw [parentsOf, if_neg (by tauto), hprincipal]
            exact hroles
          have hclosure : ∀ side permission, permission ∈ side.get principal.rolePermissions ↔
              InClosure builtins directory side roleId permission := by
            intro side permission
            rw [inClosure_iff_of_parentsOf_nil hparents, hown]
          exact ⟨hclosure, cacheSound_cons hcache hclosure⟩
        · cases h

/-- A role the walk goes down from adds its own sets and puts its parents on the lists. -/
theorem visitRole_descend_closure {cache : List (UInt32 × RolePermissions)} {roleId : UInt32}
    {permissions : RolePermissions} {parents : List UInt32}
    (h : visitRole builtins directory cache roleId = .descend permissions parents) :
    ownPermissions builtins directory roleId = permissions ∧ parentsOf directory roleId = parents := by
  obtain ⟨huser, hadmin, htenant, -, principal, hprincipal, hroles, hpermissions⟩ :=
    visitRole_descend h
  constructor
  · rw [ownPermissions, if_neg huser, if_neg hadmin, if_neg htenant, hprincipal, ← hpermissions]
    rfl
  · rw [parentsOf, if_neg (by tauto), hprincipal, ← hroles]
    rfl

end ClosureLemmas

/-! ## The walk gathers the closure -/

namespace BuildState

variable {builtins : Builtins} {directory : List (UInt32 × Principal)} {side : Side}

/-- A role the walk has fetched or still has on its lists. -/
def Seen (s : BuildState) (roleId : UInt32) : Prop :=
  roleId ∈ s.fetchedRoleIds ∨ roleId ∈ s.pending

/-- A fetched role whose part of the closure is gathered or on its way: its closure is gathered,
or its own sets are and its parents are seen. -/
def Covered (builtins : Builtins) (directory : List (UInt32 × Principal)) (side : Side)
    (s : BuildState) (roleId : UInt32) : Prop :=
  (∀ permission, InClosure builtins directory side roleId permission →
      permission ∈ side.get s.returnPermissions) ∨
    ((∀ permission ∈ side.get (ownPermissions builtins directory roleId),
        permission ∈ side.get s.returnPermissions) ∧
      ∀ parent ∈ parentsOf directory roleId, s.Seen parent)

theorem Covered.mono {s s' : BuildState} {roleId : UInt32}
    (h : Covered builtins directory side s roleId)
    (hgathered : side.get s.returnPermissions ⊆ side.get s'.returnPermissions)
    (hseen : ∀ role, s.Seen role → s'.Seen role) :
    Covered builtins directory side s' roleId := by
  rcases h with hall | ⟨hown, hparents⟩
  · exact .inl fun permission hmem => hgathered (hall permission hmem)
  · exact .inr ⟨fun permission hmem => hgathered (hown permission hmem),
      fun parent hparent => hseen parent (hparents parent hparent)⟩

/-- The invariant of the walk from `root`, on one side: the roles fetched and on the lists are
reached from `root`, `root` is seen, what is gathered is in the closure of `root`, every fetched
role is covered, and the cache holds closures. -/
structure BuildInv (builtins : Builtins) (directory : List (UInt32 × Principal)) (side : Side)
    (root : UInt32) (s : BuildState) : Prop where
  reaches_pending : ∀ roleId ∈ s.pending, Reaches directory root roleId
  reaches_fetched : ∀ roleId ∈ s.fetchedRoleIds, Reaches directory root roleId
  root_seen : s.Seen root
  sound : ∀ permission ∈ side.get s.returnPermissions,
    InClosure builtins directory side root permission
  covered : ∀ roleId ∈ s.fetchedRoleIds, Covered builtins directory side s roleId
  cache_sound : CacheSound builtins directory s.cache

theorem BuildInv.init {cache : List (UInt32 × RolePermissions)}
    (hcache : CacheSound builtins directory cache) (root : UInt32) :
    BuildInv builtins directory side root (init root cache) where
  reaches_pending := by
    intro roleId hmem
    simp only [pending, BuildState.init, List.flatten_nil, List.append_nil,
      List.mem_singleton] at hmem
    rw [hmem]
    exact Relation.ReflTransGen.refl
  reaches_fetched := by simp [BuildState.init]
  root_seen := .inr (by simp [pending, BuildState.init])
  sound := by cases side <;> simp [BuildState.init, Side.get, RolePermissions.empty]
  covered := by simp [BuildState.init]
  cache_sound := hcache

/-- A role taken off the front of the lists is seen after the turn when it is fetched. -/
theorem seen_of_pop {s s' : BuildState} {roleId : UInt32} {roleIds : List UInt32}
    (hids : s.roleIds = roleId :: roleIds) (hfetched : roleId ∈ s'.fetchedRoleIds)
    (hfetched' : s.fetchedRoleIds ⊆ s'.fetchedRoleIds)
    (hpending : ∀ role ∈ roleIds ++ s.roleIdsStack.flatten, role ∈ s'.pending) :
    ∀ role, s.Seen role → s'.Seen role := by
  rintro role (hold | hmem)
  · exact .inl (hfetched' hold)
  · simp only [pending, hids, List.cons_append, List.mem_cons] at hmem
    rcases hmem with rfl | hmem
    · exact .inl hfetched
    · exact .inr (hpending role hmem)

/-- **Every turn that goes on keeps the invariant.** -/
theorem BuildInv.step {root : UInt32} {s s' : BuildState}
    (hinv : BuildInv builtins directory side root s) (h : s.step builtins directory = .next s') :
    BuildInv builtins directory side root s' := by
  obtain ⟨hpending, hfetched, hroot, hsound, hcovered, hcache⟩ := hinv
  rcases step_next_cases h with
    ⟨roleId, roleIds, hids, hold, rfl⟩ |
    ⟨roleId, roleIds, permissions, cache, hids, hnew, hvisit, rfl⟩ |
    ⟨roleId, roleIds, permissions, parents, hids, hnew, hvisit, rfl⟩ |
    ⟨hids, prevRoleIds, roleIdsStack, hstack, rfl⟩
  · -- a role fetched already is skipped
    have hseen := @seen_of_pop _ ({ s with roleIds := roleIds }) _ _ hids hold subset_rfl
      (fun role hmem => by simpa [pending] using hmem)
    refine ⟨fun role hmem => hpending role ?_, hfetched, hseen root hroot, hsound,
      fun role hrole => (hcovered role hrole).mono subset_rfl hseen, hcache⟩
    simp only [pending, hids, List.cons_append, List.mem_cons] at hmem ⊢
    exact .inr hmem
  · -- a role is gathered with its closure
    have hreach : Reaches directory root roleId := hpending roleId (by simp [pending, hids])
    obtain ⟨hclosure, hcache'⟩ := visitRole_gathered hcache hvisit
    have hseen := @seen_of_pop _ ({ s with
        roleIds := roleIds
        fetchedRoleIds := insert roleId s.fetchedRoleIds
        returnPermissions := s.returnPermissions.union permissions
        cache := cache }) _ _ hids (Finset.mem_insert_self _ _) (Finset.subset_insert _ _)
      (fun role hmem => by simpa [pending] using hmem)
    have hgrow : side.get s.returnPermissions ⊆ side.get (s.returnPermissions.union permissions) := by
      rw [Side.get_union]
      exact Finset.subset_union_left
    refine ⟨fun role hmem => hpending role ?_, ?_, hseen root hroot, ?_, ?_, hcache'⟩
    · simp only [pending, hids, List.cons_append, List.mem_cons] at hmem ⊢
      exact .inr hmem
    · intro role hrole
      rcases Finset.mem_insert.mp hrole with rfl | hrole
      · exact hreach
      · exact hfetched role hrole
    · intro permission hmem
      rw [Side.get_union, Finset.mem_union] at hmem
      rcases hmem with hmem | hmem
      · exact hsound permission hmem
      · exact ((hclosure side permission).mp hmem).of_reaches hreach
    · intro role hrole
      rcases Finset.mem_insert.mp hrole with rfl | hrole
      · refine .inl fun permission hmem => ?_
        rw [Side.get_union, Finset.mem_union]
        exact .inr ((hclosure side permission).mpr hmem)
      · exact (hcovered role hrole).mono hgrow hseen
  · -- the walk goes down to the parents of a role
    have hreach : Reaches directory root roleId := hpending roleId (by simp [pending, hids])
    obtain ⟨hown, hparents⟩ := visitRole_descend_closure hvisit
    have hseen := @seen_of_pop _ ({ s with
        roleIds := parents
        roleIdsStack := roleIds :: s.roleIdsStack
        fetchedRoleIds := insert roleId s.fetchedRoleIds
        returnPermissions := s.returnPermissions.union permissions }) _ _
      hids (Finset.mem_insert_self _ _) (Finset.subset_insert _ _)
      (fun role hmem => by simp only [pending, List.flatten_cons, List.mem_append] at hmem ⊢; tauto)
    have hgrow : side.get s.returnPermissions ⊆ side.get (s.returnPermissions.union permissions) := by
      rw [Side.get_union]
      exact Finset.subset_union_left
    refine ⟨fun role hmem => ?_, ?_, hseen root hroot, ?_, ?_, hcache⟩
    · simp only [pending, List.flatten_cons, List.mem_append] at hmem
      rcases hmem with hparent | hmem | hmem
      · rw [← hparents] at hparent
        exact hreach.tail hparent
      · exact hpending role (by simp [pending, hids, hmem])
      · exact hpending role (by simp [pending, hids, hmem])
    · intro role hrole
      rcases Finset.mem_insert.mp hrole with rfl | hrole
      · exact hreach
      · exact hfetched role hrole
    · intro permission hmem
      rw [Side.get_union, Finset.mem_union] at hmem
      rcases hmem with hmem | hmem
      · exact hsound permission hmem
      · rw [← hown] at hmem
        exact (InClosure.own hmem).of_reaches hreach
    · intro role hrole
      rcases Finset.mem_insert.mp hrole with rfl | hrole
      · refine .inr ⟨fun permission hmem => ?_, fun parent hparent => .inr ?_⟩
        · rw [Side.get_union, Finset.mem_union, ← hown]
          exact .inr hmem
        · rw [hparents] at hparent
          simp [pending, hparent]
      · exact (hcovered role hrole).mono hgrow hseen
  · -- the walk goes back to the list below: the same roles are on the lists
    have hsame : ({ s with roleIds := prevRoleIds, roleIdsStack := roleIdsStack } : BuildState).pending =
        s.pending := by
      simp [pending, hids, hstack]
    have hseen : ∀ role, s.Seen role →
        ({ s with roleIds := prevRoleIds, roleIdsStack := roleIdsStack } : BuildState).Seen role := by
      intro role hrole
      simpa only [Seen, hsame] using hrole
    refine ⟨fun role hmem => hpending role (hsame ▸ hmem), hfetched, hseen root hroot, hsound,
      fun role hrole => (hcovered role hrole).mono subset_rfl hseen, hcache⟩

/-- When nothing is left on the lists, what is gathered is the closure of `root`. -/
theorem BuildInv.closure {root : UInt32} {s : BuildState}
    (hinv : BuildInv builtins directory side root s) (hempty : s.pending = []) (permission : Nat) :
    permission ∈ side.get s.returnPermissions ↔ InClosure builtins directory side root permission := by
  refine ⟨hinv.sound permission, fun h => ?_⟩
  have hseen : ∀ roleId, s.Seen roleId → roleId ∈ s.fetchedRoleIds := by
    rintro roleId (hfetched | hmem)
    · exact hfetched
    · rw [hempty] at hmem
      cases hmem
  apply InClosure.mem_of_closed _ (hseen root hinv.root_seen) h
  intro role hrole
  rcases hinv.covered role hrole with hall | ⟨hown, hparents⟩
  · exact .inl hall
  · exact .inr ⟨hown, fun parent hparent => hseen parent (hparents parent hparent)⟩

end BuildState

/-- The loop keeps the invariant to the end, and ends with nothing left on the lists, when
`ROLE_ADMIN` is not reached. -/
theorem buildLoop_inv (builtins : Builtins) (directory : List (UInt32 × Principal)) (side : Side)
    {root : UInt32} (hadmin : ¬ Reaches directory root roleAdmin) :
    ∀ (fuel : Nat) (s s' : BuildState), BuildState.BuildInv builtins directory side root s →
      buildLoop builtins directory fuel s = some (.ok s') →
      BuildState.BuildInv builtins directory side root s' ∧ s'.pending = []
  | 0, _, _, _, h => by cases h
  | fuel + 1, s, s', hinv, h => by
    rw [buildLoop] at h
    cases hstep : s.step builtins directory with
    | next s'' =>
      rw [hstep] at h
      exact buildLoop_inv builtins directory side hadmin fuel s'' s' (hinv.step hstep) h
    | done s'' =>
      rw [hstep] at h
      cases h
      rcases BuildState.step_done_cases hstep with ⟨hempty, rfl⟩ | hmem
      · exact ⟨hinv, hempty⟩
      · exact absurd (hinv.reaches_pending _ hmem) hadmin
    | notFound roleId =>
      rw [hstep] at h
      cases h

/-- **Without `ROLE_ADMIN` among the roles reached, `build_role_permissions` gathers the closure**:
the enabled and the disabled sets are those of the roles the role reaches, from every cache that
holds closures, and the cache after holds closures too. -/
theorem buildRolePermissions_closure {builtins : Builtins} {directory : List (UInt32 × Principal)}
    {cache : List (UInt32 × RolePermissions)} (hcache : CacheSound builtins directory cache)
    {roleId : UInt32} (hadmin : ¬ Reaches directory roleId roleAdmin)
    {permissions : RolePermissions} {cache' : List (UInt32 × RolePermissions)}
    (h : buildRolePermissions builtins directory cache roleId = some (.ok (permissions, cache'))) :
    (∀ side permission, permission ∈ side.get permissions ↔
      InClosure builtins directory side roleId permission) ∧ CacheSound builtins directory cache' := by
  rw [buildRolePermissions, Option.map_eq_some_iff] at h
  obtain ⟨result, hloop, hresult⟩ := h
  cases result with
  | error roleId' => cases hresult
  | ok s =>
    cases hresult
    have hend : ∀ side, BuildState.BuildInv builtins directory side roleId s ∧ s.pending = [] :=
      fun side => buildLoop_inv builtins directory side hadmin _ _ s
        (BuildState.BuildInv.init hcache roleId) hloop
    refine ⟨fun side permission => ?_, (hend .enabled).1.cache_sound⟩
    exact (hend side).1.closure (hend side).2 permission

/-- One word of permissions, and no user or tenant-admin permission. -/
def oneWord : Builtins := ⟨1, Nat.one_pos, ∅, ∅⟩

/-- Role 1 with the parents given, and role 2 that revokes permission 0. -/
def withParents (parents : List UInt32) : List (UInt32 × Principal) :=
  [(1, ⟨[], parents⟩), (2, ⟨[(0, false)], []⟩)]

/-- Role 1 inherits from role 2, which revokes permission 0. From an empty cache the walk gathers
the closure of role 1, the revocation of role 2 with it. -/
theorem buildRolePermissions_closure_inherited :
    CacheSound oneWord (withParents [2]) [] ∧ ¬ Reaches (withParents [2]) 1 roleAdmin ∧
      ∃ permissions cache,
        buildRolePermissions oneWord (withParents [2]) [] 1 = some (.ok (permissions, cache)) ∧
        0 ∈ permissions.disabled ∧
        (∀ side permission, permission ∈ side.get permissions ↔
          InClosure oneWord (withParents [2]) side 1 permission) ∧
        CacheSound oneWord (withParents [2]) cache := by
  have hcache : CacheSound oneWord (withParents [2]) [] := fun _ _ h => nomatch h
  -- the roles reached from role 1 are roles 1 and 2
  have hreached : ∀ role, Reaches (withParents [2]) 1 role → role = 1 ∨ role = 2 := by
    intro role h
    induction h with
    | refl => exact .inl rfl
    | tail _ hstep ih =>
      rcases ih with rfl | rfl
      · have hparents : parentsOf (withParents [2]) 1 = [2] := by decide
        rw [hparents, List.mem_singleton] at hstep
        exact .inr hstep
      · have hparents : parentsOf (withParents [2]) 2 = [] := by decide
        rw [hparents] at hstep
        exact absurd hstep List.not_mem_nil
  have hadmin : ¬ Reaches (withParents [2]) 1 roleAdmin := fun h => by
    rcases hreached _ h with h | h <;> simp [roleAdmin] at h
  refine ⟨hcache, hadmin, _, _, rfl, ?_, buildRolePermissions_closure hcache hadmin rfl⟩
  simp [RolePermissions.union, RolePermissions.empty, Principal.rolePermissions]

/-! ## `ROLE_ADMIN` first -/

theorem role_permissions_depend_on_parent_order (builtins : Builtins) :
    (∃ permissions cache,
      buildRolePermissions builtins (withParents [roleAdmin, 2]) [] 1 = some (.ok (permissions, cache)) ∧
        0 ∈ permissions.finalize) ∧
    (∃ permissions cache,
      buildRolePermissions builtins (withParents [2, roleAdmin]) [] 1 = some (.ok (permissions, cache)) ∧
        0 ∉ permissions.finalize) := by
  have hall : 0 ∈ builtins.all := by
    simp [Builtins.all, builtins.words_pos]
  constructor
  · refine ⟨_, _, rfl, ?_⟩
    simp [RolePermissions.finalize, RolePermissions.union, RolePermissions.empty,
      BuildState.init, Principal.rolePermissions, Builtins.adminPermissions, hall]
  · refine ⟨_, _, rfl, ?_⟩
    simp [RolePermissions.finalize, RolePermissions.union, RolePermissions.empty,
      Principal.rolePermissions, Builtins.adminPermissions]

end Stalwart.Auth
