import Stalwart.Dav.Headers
import Stalwart.Lib.ExceptBind

/-!
# `handle_lock_request`

`LOCK` and `UNLOCK` change the lock data of the request's account and collection, which the
in-memory store keeps as one value. The handler reads it, checks the request's headers with
`validate_headers`, and then:

* a `LOCK` with a body (`LockRequest::Lock`) is refused when a lock found for the resource
  conflicts with the new one, unless it is the lock whose token the `If` header names; when the `If`
  header names a lock's token, that lock is rewritten in place, wherever it is, and otherwise a new
  lock is added on the resource;
* a `LOCK` without a body (`LockRequest::Refresh`) sets the expiry of the named lock, or, when the
  `If` header names none, adds `LockItem::default()` with the new expiry, and makes no conflict check;
* `UNLOCK` removes the lock of the `Lock-Token` header.

The expired locks are dropped before the data is stored back, and the key is deleted when none is
left.

## What is proved

When the conflict check passes, a new lock conflicts with no unexpired lock of nonzero id
(`conflicting_eq_false_of_lockConflicts`). A `LOCK` with a body that names no lock token adds such
a lock, and `UNLOCK` only removes locks (`handleLockRequest_sound`); so the runs made of these
requests keep the lock data free of conflicts (`Reachable.lockData_sound`). Refreshes and rewrites
escape the conflict check, and reachable lock data can hold conflicting locks
(`lock_conflict_reachable`).
-/

set_option autoImplicit false

namespace Stalwart.Dav

open Stalwart.Sharing

/-- The settings the handler reads: `max_lock_timeout`, `max_locks_per_user` and
`dead_property_size`. -/
structure LockConfig where
  maxLockTimeout : Nat
  maxLocksPerUser : Nat
  deadPropertySize : Option Nat
  deriving DecidableEq, Repr

/-- `LockInfo`: the scope asked for, and the size of the owner element when there is one. -/
structure LockInfo where
  exclusive : Bool
  ownerSize : Option Nat
  deriving DecidableEq, Repr

/-- `LockRequest`. -/
inductive LockRequest where
  | lock (info : LockInfo)
  | unlock
  | refresh
  deriving DecidableEq, Repr

/-- `OwnedUri`: the request URI as `validate_uri` resolves it. -/
structure OwnedUri where
  accountId : UInt32
  collection : Collection
  resource : Option (List Char)
  deriving DecidableEq, Repr

/-- What the handler answers: a lock granted, with its status and href, or a lock removed. -/
inductive LockResponse where
  | granted (status : StatusCode) (href : List Char) (lock : LockItem)
  | unlocked
  deriving DecidableEq, Repr

/-- The first lock token among the state tokens of the `If` header, `0` without one. -/
def ifLockToken (headers : RequestHeaders) : UInt64 :=
  ((headers.if_.flatMap (·.list)).findSome? fun
    | .stateToken _ token => (Urn.parse token).bind Urn.tryUnwrapLock
    | _ => none).getD 0

/-- The owner element is larger than `dead_property_size`, `512` by default. -/
def LockConfig.ownerTooLarge (config : LockConfig) (info : LockInfo) : Bool :=
  info.ownerSize.any (· > config.deadPropertySize.getD 512)

/-- The conflict check of a `LOCK` with a body: the hrefs of the locks found for the resource, other
than the one the `If` header names, that overlap the new lock with one of them exclusive. A lock
found above the resource is infinite and one found below it is longer, so the lengths tell the three
kinds apart. -/
def lockConflicts (data : LockData) (now : Nat) (baseUri path : List Char) (ifLockToken : UInt64)
    (isExclusive isInfinity : Bool) : List (List Char) :=
  (data.findLocks now path true).filterMap fun (lockPath, lock) =>
    if ifLockToken != lock.lockId && (lock.exclusive || isExclusive) &&
        (lockPath.length == path.length || lock.depthInfinity && path.length > lockPath.length ||
          isInfinity && lockPath.length > path.length) then
      some (baseUri ++ '/' :: lockPath)
    else none

/-- The number of locks of an owner. -/
def LockData.locksOwned (data : LockData) (owner : UInt32) : Nat :=
  (data.entries.filter (·.2.owner == owner)).length

/-- The checks a `LOCK` with a body makes against the stored locks: the conflicts, the owner's size,
and the locks per user. -/
def lockPrecheck (config : LockConfig) (now : Nat) (token : AccessToken) (headers : RequestHeaders)
    (path : List Char) (data : LockData) (info : LockInfo) : Except DavError Unit :=
  let failed := lockConflicts data now headers.baseUri path (ifLockToken headers) info.exclusive
    (headers.depth == .infinity)
  if !failed.isEmpty then .error (.condition .locked (.lockTokenSubmitted failed))
  else if config.ownerTooLarge info then .error (.code .payloadTooLarge)
  else if config.maxLocksPerUser > 0 && data.locksOwned token.primaryId ≥ config.maxLocksPerUser then
    .error (.code .tooManyRequests)
  else .ok ()

/-- The method `validate_headers` is told: `LOCK` for a lock request, `UNLOCK` otherwise. -/
def LockRequest.method (request : LockRequest) : DavMethod :=
  if request = .unlock then .unlock else .lock

/-- The stored lock data the request works on, after `validate_headers` and the checks of a `LOCK`
with a body; an `UNLOCK` needs some. -/
def loadLockData (config : LockConfig) (server : DavServer) (now : Nat) (token : AccessToken)
    (accessTo : List (UInt32 × List Collection)) (headers : RequestHeaders) (uri : OwnedUri)
    (path : List Char) (request : LockRequest) : Except DavError LockData :=
  let resources := [⟨uri.accountId, uri.collection, none, none, path⟩]
  match server.locks uri.accountId uri.collection.mainCollection with
  | some data => do
    validateHeaders server now token accessTo headers resources request.method
    match request with
    | .lock info => do
      lockPrecheck config now token headers path data info
      return data
    | _ => return data
  | none =>
    if request = .unlock then .error (.condition .conflict .lockTokenMatchesRequestUri)
    else do
      validateHeaders server now token accessTo headers resources .lock
      return LockData.empty

/-- The timeout asked for, at most `max_lock_timeout`, which is also the default. -/
def lockTimeout (config : LockConfig) (headers : RequestHeaders) : Nat :=
  match headers.timeout with
  | .second seconds => min seconds config.maxLockTimeout
  | _ => config.maxLockTimeout

/-- What a `LOCK` writes into its lock item: the expiry; with a body also a new id (`random ^
expires`), the owner, the depth and the scope. -/
def LockRequest.apply (request : LockRequest) (expires : Nat) (random : UInt64) (owner : UInt32)
    (depthInfinity : Bool) (lock : LockItem) : LockItem :=
  match request with
  | .lock info =>
    { lock with
      expires := expires
      lockId := random ^^^ UInt64.ofNat expires
      owner := owner
      depthInfinity := depthInfinity
      exclusive := info.exclusive }
  | _ => { lock with expires := expires }

/-- The owner's size, checked again for a `LOCK` with a body. -/
def LockRequest.checkOwner (config : LockConfig) : LockRequest → Except DavError Unit
  | .lock info => if config.ownerTooLarge info then .error (.code .payloadTooLarge) else .ok ()
  | _ => .ok ()

/-- The change a request makes to the loaded lock data, and the answer. -/
def applyLockRequest (config : LockConfig) (now : Nat) (random : UInt64) (token : AccessToken)
    (headers : RequestHeaders) (path : List Char) (request : LockRequest) (data : LockData) :
    Except DavError (LockResponse × LockData) :=
  match request with
  | .unlock =>
    match (headers.lockToken.bind Urn.parse).bind Urn.tryUnwrapLock with
    | none => .error (.code .badRequest)
    | some lockId =>
      match data.removeLock lockId with
      | some data => .ok (.unlocked, data)
      | none => .error (.condition .conflict .lockTokenMatchesRequestUri)
  | request =>
    let expires := now + lockTimeout config headers
    let update := request.apply expires random token.primaryId (headers.depth == .infinity)
    let href := headers.baseUri ++ '/' :: path
    let lockId := ifLockToken headers
    if lockId > 0 then
      -- the named lock is changed in place, wherever it is
      match data.entries.find? (·.2.lockId == lockId), data.rewriteLock lockId update with
      | some (_, lock), some data => do
        request.checkOwner config
        return (.granted .ok href (update lock), data)
      | _, _ => .error (.code .preconditionFailed)
    else do
      request.checkOwner config
      return (.granted .created href (update .default), data.push path (update .default))

/-- `handle_lock_request`: the answer, and what the store keeps for the account's collection, none
when no unexpired lock is left. -/
def handleLockRequest (config : LockConfig) (server : DavServer) (now : Nat) (random : UInt64)
    (token : AccessToken) (accessTo : List (UInt32 × List Collection)) (headers : RequestHeaders)
    (uri : OwnedUri) (request : LockRequest) : Except DavError (LockResponse × Option LockData) :=
  match uri.resource with
  | none => .error (.code .conflict)
  | some path =>
    if !token.isMember uri.accountId then .error (.code .forbidden)
    else do
      let data ← loadLockData config server now token accessTo headers uri path request
      let (response, data) ← applyLockRequest config now random token headers path request data
      let (data, maxExpire) := data.removeExpired now
      return (response, if maxExpire > 0 then some data else none)

/-! ## What a request can do -/

section Steps

variable {config : LockConfig} {server : DavServer} {now : Nat} {random : UInt64}
  {token : AccessToken} {accessTo : List (UInt32 × List Collection)} {headers : RequestHeaders}
  {uri : OwnedUri} {request : LockRequest}

theorem handleLockRequest_eq_ok {response : LockResponse} {stored : Option LockData}
    (h : handleLockRequest config server now random token accessTo headers uri request =
      .ok (response, stored)) :
    ∃ path data data', uri.resource = some path ∧
      loadLockData config server now token accessTo headers uri path request = .ok data ∧
      applyLockRequest config now random token headers path request data = .ok (response, data') ∧
      stored = if (data'.removeExpired now).2 > 0 then some (data'.removeExpired now).1 else none := by
  unfold handleLockRequest at h
  split at h
  · cases h
  · next path hpath =>
    split_ifs at h
    obtain ⟨data, hload, h⟩ := Except.bind_eq_ok_iff.mp h
    obtain ⟨⟨response', data'⟩, happly, h⟩ := Except.bind_eq_ok_iff.mp h
    cases h
    exact ⟨path, data, data', hpath, hload, happly, rfl⟩

/-- The data loaded is the stored data, after the checks of a `LOCK` with a body, or none at all. -/
theorem loadLockData_eq_ok {path : List Char} {data : LockData}
    (h : loadLockData config server now token accessTo headers uri path request = .ok data) :
    (server.locks uri.accountId uri.collection.mainCollection = some data ∧
      ∀ info, request = .lock info → lockPrecheck config now token headers path data info = .ok ()) ∨
    (server.locks uri.accountId uri.collection.mainCollection = none ∧ data = LockData.empty) := by
  unfold loadLockData at h
  split at h
  · next stored hstored =>
    obtain ⟨-, -, h⟩ := Except.bind_eq_ok_iff.mp h
    refine .inl ⟨?_, fun info hinfo => ?_⟩
    · split at h
      · obtain ⟨⟨⟩, -, h⟩ := Except.bind_eq_ok_iff.mp h
        cases h
        exact hstored
      · cases h
        exact hstored
    · subst hinfo
      obtain ⟨⟨⟩, hcheck, h⟩ := Except.bind_eq_ok_iff.mp h
      cases h
      exact hcheck
  · next hstored =>
    split_ifs at h
    obtain ⟨-, -, h⟩ := Except.bind_eq_ok_iff.mp h
    cases h
    exact .inr ⟨hstored, rfl⟩

/-- A `LOCK` with a body that names no lock token adds its new lock on the resource. -/
theorem applyLockRequest_lock {path : List Char} {info : LockInfo} {data data' : LockData}
    {response : LockResponse} (htoken : ifLockToken headers = 0)
    (h : applyLockRequest config now random token headers path (.lock info) data = .ok (response, data')) :
    data' = data.push path ((LockRequest.lock info).apply (now + lockTimeout config headers) random
      token.primaryId (headers.depth == .infinity) .default) := by
  simp only [applyLockRequest, htoken, gt_iff_lt, UInt64.lt_irrefl, if_false] at h
  obtain ⟨⟨⟩, -, h⟩ := Except.bind_eq_ok_iff.mp h
  cases h
  rfl

/-- An `UNLOCK` removes one lock. -/
theorem applyLockRequest_unlock {path : List Char} {data data' : LockData} {response : LockResponse}
    (h : applyLockRequest config now random token headers path .unlock data = .ok (response, data')) :
    ∃ lockId, data.removeLock lockId = some data' := by
  simp only [applyLockRequest] at h
  split at h
  · cases h
  · next lockId _ =>
    split at h
    · next removed hremoved =>
      cases h
      exact ⟨lockId, hremoved⟩
    · cases h

end Steps

/-! ## The conflict check of a new lock -/

/-- Lock data the conflict check can keep sound: no two locks conflict, and no unexpired lock has
the id `0`, which the check passes over when the `If` header names no lock. -/
def LockData.Sound (data : LockData) (now : Nat) : Prop :=
  data.NoConflict now ∧ ∀ entry ∈ data.entries, now < entry.2.expires → entry.2.lockId ≠ 0

namespace LockData.Sound

variable {data : LockData} {now : Nat}

theorem of_le (h : data.Sound now) {later : Nat} (hle : now ≤ later) : data.Sound later :=
  ⟨h.1.of_le hle, fun entry hentry hlive => h.2 entry hentry (by omega)⟩

theorem of_subset (h : data.Sound now) {data' : LockData}
    (hsub : ∀ entry ∈ data'.entries, entry ∈ data.entries) : data'.Sound now :=
  ⟨h.1.of_subset hsub, fun entry hentry => h.2 entry (hsub entry hentry)⟩

theorem removeExpired (h : data.Sound now) (later : Nat) : (data.removeExpired later).1.Sound now :=
  h.of_subset fun _ hentry => (LockData.mem_entries_removeExpired.mp hentry).1

end LockData.Sound

theorem LockData.sound_empty (now : Nat) : LockData.empty.Sound now :=
  ⟨fun _ h => (nomatch h), fun _ h => (nomatch h)⟩

/-- **The conflict check finds every conflict of the new lock.** When it fails no lock, the new lock
conflicts with no unexpired lock of nonzero id, whatever its own id and expiry. -/
theorem conflicting_eq_false_of_lockConflicts {data : LockData} {now : Nat}
    {baseUri path : List Char} {isExclusive isInfinity : Bool}
    (hnil : lockConflicts data now baseUri path 0 isExclusive isInfinity = [])
    (hids : ∀ entry ∈ data.entries, now < entry.2.expires → entry.2.lockId ≠ 0)
    {item : LockItem} (hexclusive : item.exclusive = isExclusive)
    (hinfinity : item.depthInfinity = isInfinity) :
    ∀ entry ∈ data.entries, conflicting now entry (path, item) = false := by
  intro entry hentry
  cases hconflict : conflicting now entry (path, item)
  · rfl
  simp only [conflicting, covers, Bool.and_eq_true, Bool.or_eq_true, beq_iff_eq,
    List.isPrefixOf_iff_prefix, decide_eq_true_eq] at hconflict
  obtain ⟨⟨⟨⟨-, hlive⟩, -⟩, hscope⟩, hcover⟩ := hconflict
  -- the lock is found for the resource
  have hfound : entry ∈ data.findLocks now path true := by
    refine LockData.mem_findLocks.mpr ⟨hentry, hlive, ?_⟩
    rcases hcover with (heq | ⟨hdepth, hbelow⟩) | (heq | ⟨-, hbelow⟩)
    · exact .inl heq
    · exact .inr (.inl ⟨hdepth, hbelow⟩)
    · exact .inl heq.symm
    · exact .inr (.inr ⟨rfl, hbelow⟩)
  -- and the check flags it
  have hflagged : (0 != entry.2.lockId && (entry.2.exclusive || isExclusive) &&
      (entry.1.length == path.length || entry.2.depthInfinity && path.length > entry.1.length ||
        isInfinity && entry.1.length > path.length)) = true := by
    have hid : entry.2.lockId ≠ 0 := hids entry hentry hlive
    have hlength : ∀ {shorter longer : List Char}, shorter ++ ['/'] <+: longer →
        shorter.length < longer.length := by
      intro shorter longer hbelow
      have := hbelow.length_le
      simp at this
      omega
    simp only [Bool.and_eq_true, bne_iff_ne, ne_eq, Bool.or_eq_true, beq_iff_eq,
      decide_eq_true_eq]
    refine ⟨⟨Ne.symm hid, by rw [← hexclusive]; exact hscope⟩, ?_⟩
    rcases hcover with (heq | ⟨hdepth, hbelow⟩) | (heq | ⟨hdepth, hbelow⟩)
    · exact .inl (.inl (by rw [heq]))
    · exact .inl (.inr ⟨hdepth, hlength hbelow⟩)
    · exact .inl (.inl (by rw [heq]))
    · exact .inr ⟨by rw [← hinfinity]; exact hdepth, hlength hbelow⟩
  have hnone := List.filterMap_eq_nil_iff.mp hnil entry hfound
  simp only [hflagged, if_true] at hnone
  cases hnone

theorem lockPrecheck_eq_ok {config : LockConfig} {now : Nat} {token : AccessToken}
    {headers : RequestHeaders} {path : List Char} {data : LockData} {info : LockInfo}
    (h : lockPrecheck config now token headers path data info = .ok ()) :
    lockConflicts data now headers.baseUri path (ifLockToken headers) info.exclusive
      (headers.depth == .infinity) = [] := by
  simp only [lockPrecheck] at h
  by_contra hfailed
  rw [if_pos (by simpa using hfailed)] at h
  cases h

theorem lockConflicts_empty (now : Nat) (baseUri path : List Char) (ifLockToken : UInt64)
    (isExclusive isInfinity : Bool) :
    lockConflicts .empty now baseUri path ifLockToken isExclusive isInfinity = [] := by
  simp [lockConflicts, LockData.findLocks, LockData.get?, LockData.empty]

theorem LockData.Sound.push {data : LockData} {now : Nat} (h : data.Sound now) {path : List Char}
    {item : LockItem} (hfree : ∀ entry ∈ data.entries, conflicting now entry (path, item) = false)
    (hid : item.lockId ≠ 0) : (data.push path item).Sound now := by
  refine ⟨h.1.push hfree, fun entry hentry hlive => ?_⟩
  rcases LockData.mem_entries_push.mp hentry with hentry | rfl
  · exact h.2 entry hentry hlive
  · exact hid

/-! ## Runs -/

/-- The requests the conflict check covers: `UNLOCK`, and a `LOCK` with a body that names no lock
token and whose new id is not `0`. -/
def SafeRequest (config : LockConfig) (now : Nat) (random : UInt64) (headers : RequestHeaders) :
    LockRequest → Prop
  | .unlock => True
  | .lock _ => ifLockToken headers = 0 ∧ random ^^^ UInt64.ofNat (now + lockTimeout config headers) ≠ 0
  | .refresh => False

/-- **A request the conflict check covers keeps the lock data sound.** -/
theorem handleLockRequest_sound {config : LockConfig} {server : DavServer} {now : Nat}
    {random : UInt64} {token : AccessToken} {accessTo : List (UInt32 × List Collection)}
    {headers : RequestHeaders} {uri : OwnedUri} {request : LockRequest} {response : LockResponse}
    {stored : Option LockData} (hsafe : SafeRequest config now random headers request)
    (hstored : ∀ data, server.locks uri.accountId uri.collection.mainCollection = some data →
      data.Sound now)
    (h : handleLockRequest config server now random token accessTo headers uri request =
      .ok (response, stored)) :
    ∀ data, stored = some data → data.Sound now := by
  obtain ⟨path, data, data', -, hload, happly, rfl⟩ := handleLockRequest_eq_ok h
  have hdata : data.Sound now := by
    rcases loadLockData_eq_ok hload with ⟨hsome, -⟩ | ⟨-, rfl⟩
    · exact hstored data hsome
    · exact LockData.sound_empty now
  have hdata' : data'.Sound now := by
    cases request with
    | unlock =>
      obtain ⟨lockId, hremove⟩ := applyLockRequest_unlock happly
      exact hdata.of_subset fun _ => LockData.mem_entries_removeLock hremove
    | refresh => exact hsafe.elim
    | lock info =>
      obtain ⟨htoken, hid⟩ := hsafe
      rw [applyLockRequest_lock htoken happly]
      -- the conflict check passed, or there was nothing to check against
      have hcheck : lockConflicts data now headers.baseUri path 0 info.exclusive
          (headers.depth == .infinity) = [] := by
        rcases loadLockData_eq_ok hload with ⟨-, hprecheck⟩ | ⟨-, rfl⟩
        · rw [← htoken]
          exact lockPrecheck_eq_ok (hprecheck info rfl)
        · exact lockConflicts_empty _ _ _ _ _ _
      exact hdata.push (conflicting_eq_false_of_lockConflicts hcheck hdata.2 rfl rfl) hid
  intro stored hstored'
  split at hstored'
  · cases hstored'
    exact hdata'.removeExpired now
  · cases hstored'

/-- The lock data one account's collection can hold, under the requests `allowed` admits: none at
first, then what each request the handler accepts stores, at times that do not go back. A request
may come from any member of the account, on any resource of the collection, with the rest of the
server in any state. -/
inductive Reachable (config : LockConfig) (accountId : UInt32) (collection : Collection)
    (allowed : Nat → UInt64 → RequestHeaders → LockRequest → Prop) : Option LockData → Nat → Prop
  | init (now : Nat) : Reachable config accountId collection allowed none now
  | step {stored stored' : Option LockData} {now later : Nat} (server : DavServer) (random : UInt64)
      (token : AccessToken) (accessTo : List (UInt32 × List Collection)) (headers : RequestHeaders)
      (uri : OwnedUri) (request : LockRequest) (response : LockResponse)
      (hreach : Reachable config accountId collection allowed stored now) (hle : now ≤ later)
      (hallowed : allowed later random headers request)
      (huri : uri.accountId = accountId ∧ uri.collection.mainCollection = collection)
      (hstored : server.locks accountId collection = stored)
      (h : handleLockRequest config server later random token accessTo headers uri request =
        .ok (response, stored')) :
      Reachable config accountId collection allowed stored' later

/-- **The runs of requests the conflict check covers keep the lock data sound.** -/
theorem Reachable.lockData_sound {config : LockConfig} {accountId : UInt32} {collection : Collection}
    {stored : Option LockData} {now : Nat}
    (h : Reachable config accountId collection (SafeRequest config) stored now) :
    ∀ data, stored = some data → data.Sound now := by
  induction h with
  | init => intro data h; cases h
  | step server random token accessTo headers uri request response _ hle hallowed huri hstored h ih =>
    refine handleLockRequest_sound hallowed (fun data hdata => ?_) h
    rw [huri.1, huri.2, hstored] at hdata
    exact (ih data hdata).of_le hle

/-! ## Runs of two members -/

/-- The settings of the runs below: locks last at most 100 seconds, with no limit per user. -/
def lockSettings : LockConfig :=
  ⟨100, 0, none⟩

/-- A member of account 1. -/
def accountMember (user : UInt32) : AccessToken :=
  ⟨user, [1], [], false⟩

/-- The files of account 1 with the given lock data. -/
def filesStoring (stored : Option LockData) : DavServer :=
  ⟨fun accountId collection => if accountId = 1 ∧ collection = .fileNode then stored else none,
    fun _ _ _ => none, fun _ _ _ => none, fun _ _ => 0, fun _ => none⟩

/-- Headers with a depth and `If` lists, and nothing else. -/
def lockHeaders (depth : Depth) (ifs : List If) : RequestHeaders :=
  ⟨depth, .none, none, false, ifs, []⟩

/-- A path of the files of account 1. -/
def fileUri (path : String) : OwnedUri :=
  ⟨1, .fileNode, some path.toList⟩

/-- User 2's shared infinite lock on `a`, taken at time 10. -/
def sharedOnA : LockItem :=
  ⟨5 ^^^ 110, 2, 110, true, false⟩

/-- User 3's shared lock on `a/x`, taken at time 15. -/
def sharedOnAX : LockItem :=
  ⟨6 ^^^ 115, 3, 115, false, false⟩

/-- `a` after user 2's lock. -/
def lockedA : LockData :=
  ⟨[("a".toList, [sharedOnA])], by decide⟩

/-- `a` and `a/x` after both shared locks. -/
def lockedAAndAX : LockData :=
  ⟨[("a".toList, [sharedOnA]), ("a/x".toList, [sharedOnAX])], by decide⟩

/-- Two members' shared locks, on `a` with infinite depth and then on `a/x`, each taken by a
`LOCK` the conflict check covers: the data they leave is sound. -/
theorem Reachable.lockData_sound_shared :
    Reachable lockSettings 1 .fileNode (SafeRequest lockSettings) (some lockedAAndAX) 15 ∧
      lockedAAndAX.Sound 15 := by
  have hlockA : Reachable lockSettings 1 .fileNode (SafeRequest lockSettings) (some lockedA) 10 :=
    .step (filesStoring none) 5 (accountMember 2) [] (lockHeaders .infinity []) (fileUri "a")
      (.lock ⟨false, none⟩) (.granted .created "/a".toList sharedOnA) (.init 0) (by decide)
      (by unfold SafeRequest; decide) ⟨rfl, rfl⟩ rfl (by decide +kernel)
  have hlockAX : Reachable lockSettings 1 .fileNode (SafeRequest lockSettings) (some lockedAAndAX)
      15 :=
    .step (filesStoring (some lockedA)) 6 (accountMember 3) [] (lockHeaders .zero []) (fileUri "a/x")
      (.lock ⟨false, none⟩) (.granted .created "/a/x".toList sharedOnAX) hlockA (by decide)
      (by unfold SafeRequest; decide) ⟨rfl, rfl⟩ rfl (by decide +kernel)
  exact ⟨hlockAX, hlockAX.lockData_sound _ rfl⟩

/-! ## Conflicting locks -/

/-- User 2's exclusive lock on `doc`, taken at time 10. -/
def exclusiveOnDoc : LockItem :=
  ⟨5 ^^^ 110, 2, 110, false, true⟩

/-- `doc` after the exclusive lock. -/
def lockedDoc : LockData :=
  ⟨[("doc".toList, [exclusiveOnDoc])], by decide⟩

/-- `doc` after a `LOCK` without a body from user 3 at time 20. -/
def refreshedDoc : LockData :=
  ⟨[("doc".toList, [exclusiveOnDoc, ⟨0, 0, 120, false, false⟩])], by decide⟩

/-- The lock on `a` after user 2's exclusive infinite `LOCK` on `a/y` names its token at time 20. -/
def upgradedA : LockData :=
  ⟨[("a".toList, [⟨7 ^^^ 120, 2, 120, true, true⟩]), ("a/x".toList, [sharedOnAX])], by decide⟩

theorem lock_conflict_reachable :
    -- a `LOCK` without a body adds a shared lock beside another member's exclusive one
    Reachable lockSettings 1 .fileNode (fun _ _ _ _ => True) (some refreshedDoc) 20 ∧
      ¬ refreshedDoc.NoConflict 20 ∧
    -- a `LOCK` naming the token of a shared infinite lock above its resource makes that lock
    -- exclusive over another member's lock under it
    Reachable lockSettings 1 .fileNode (fun _ _ _ _ => True) (some upgradedA) 20 ∧
      ¬ upgradedA.NoConflict 20 := by
  have hlockDoc : Reachable lockSettings 1 .fileNode (fun _ _ _ _ => True) (some lockedDoc) 10 :=
    .step (filesStoring none) 5 (accountMember 2) [] (lockHeaders .zero []) (fileUri "doc")
      (.lock ⟨true, none⟩) (.granted .created "/doc".toList exclusiveOnDoc) (.init 0) (by decide)
      trivial ⟨rfl, rfl⟩ rfl (by decide +kernel)
  have hlockA : Reachable lockSettings 1 .fileNode (fun _ _ _ _ => True) (some lockedA) 10 :=
    .step (filesStoring none) 5 (accountMember 2) [] (lockHeaders .infinity []) (fileUri "a")
      (.lock ⟨false, none⟩) (.granted .created "/a".toList sharedOnA) (.init 0) (by decide)
      trivial ⟨rfl, rfl⟩ rfl (by decide +kernel)
  have hlockAX : Reachable lockSettings 1 .fileNode (fun _ _ _ _ => True) (some lockedAAndAX) 15 :=
    .step (filesStoring (some lockedA)) 6 (accountMember 3) [] (lockHeaders .zero []) (fileUri "a/x")
      (.lock ⟨false, none⟩) (.granted .created "/a/x".toList sharedOnAX) hlockA (by decide)
      trivial ⟨rfl, rfl⟩ rfl (by decide +kernel)
  refine ⟨?_, by decide, ?_, by decide⟩
  · exact .step (filesStoring (some lockedDoc)) 0 (accountMember 3) [] (lockHeaders .zero [])
      (fileUri "doc") .refresh (.granted .created "/doc".toList ⟨0, 0, 120, false, false⟩) hlockDoc
      (by decide) trivial ⟨rfl, rfl⟩ rfl (by decide +kernel)
  · exact .step (filesStoring (some lockedAAndAX)) 7 (accountMember 2) []
      (lockHeaders .infinity [⟨none, [.stateToken false sharedOnA.urn.toString]⟩]) (fileUri "a/y")
      (.lock ⟨true, none⟩) (.granted .ok "/a/y".toList ⟨7 ^^^ 120, 2, 120, true, true⟩) hlockAX
      (by decide) trivial ⟨rfl, rfl⟩ rfl (by decide +kernel)

end Stalwart.Dav
