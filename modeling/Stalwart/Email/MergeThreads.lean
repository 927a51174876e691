import Mathlib.Data.Finset.Basic
import Stalwart.Lib.ByteOrder
import Mathlib.Data.List.Flatten
import Stalwart.Lib.ExceptBind

/-!
# Merging threads

`merge_threads` moves the messages of threads that turned out to be one conversation into a
single thread. Each pass of its `'retry` loop scans the Threading index entries of the thread's
hash, groups the documents it finds under the thread ids to merge (`ThreadMerge`), chooses the
thread id of the largest group (`merge_thread_id`), and builds one batch that logs the other
threads as deleted and moves each of their documents: its `MessageData` thread id and its
Threading index value. A document whose `MessageData` no longer holds the thread id its group
has sends the loop back to the scan; so does a commit that fails an assertion, while fewer than
`MAX_RETRIES` attempts were counted.

The store is shared with concurrent writers, so the model takes every answer it gives as the
environment's (`Env`): the entries of each scan, the thread id of each `MessageData` read and
the outcome of each commit, each indexed by the number of operations of its kind before it. The
loop runs on fuel (`mergeThreadsLoop`), one pass per unit.

## What is proved

`merge_thread_id` chooses the thread id of a largest group, the smallest among ties, whatever the
order of the groups (`mergeThreadId_spec`). A first pass over a scan whose documents are distinct
never panics (`mergePass_first_ne_panicked`).

Later passes do not start over: the groups and the map of index values built by earlier scans
are kept, so a rescan adds every document a second time. One commit that fails an assertion is
enough for the next pass to move a document twice and to find its index value gone the second
time. The stale-read retry never looks at the attempt counter, so an environment whose
`MessageData` keeps disagreeing with the index keeps the loop scanning for ever.
-/

set_option autoImplicit false

namespace Stalwart.Email

open ByteOrder

/-- `MAX_RETRIES`. -/
def maxRetries : Nat := 5

/-- `u32::MAX`. -/
def u32Max : UInt32 := 4294967295

/-- `deserialize_be_u32`: the four bytes at `index`, when there are four. -/
def deserializeBeU32 (bytes : List UInt8) (index : Nat) : Option UInt32 :=
  if index + 4 ≤ bytes.length then some (UInt32.ofNat (fromBeBytes ((bytes.drop index).take 4)))
  else none

/-- `MergeThreadIds<AHashSet<u32>>`: the hash of the thread's references and the thread ids to
merge. -/
structure MergeThreadIds where
  threadHash : List UInt8
  mergeIds : Finset UInt32

/-- The length of a Threading index key of a hash: `IndexKeyPrefix::len()`, the hash and the
document id. -/
def keyLen (threadHash : List UInt8) : Nat := 6 + threadHash.length + 4

/-! ## `ThreadMerge` -/

/-- `ThreadMerge`: the documents found under each thread id, in the order they were added. The
map is iterated in the order its thread ids were first added. -/
structure ThreadMerge where
  entries : List (UInt32 × List UInt32) := []
  deriving DecidableEq, Repr

namespace ThreadMerge

/-- `ThreadMerge::add`: `entry(thread_id).or_default().push(document_id)`. -/
def add (merge : ThreadMerge) (threadId documentId : UInt32) : ThreadMerge :=
  if merge.entries.any (·.1 == threadId) then
    ⟨merge.entries.map fun entry =>
      if entry.1 == threadId then (entry.1, entry.2 ++ [documentId]) else entry⟩
  else ⟨merge.entries ++ [(threadId, [documentId])]⟩

/-- `ThreadMerge::num_thread_ids`. -/
def numThreadIds (merge : ThreadMerge) : Nat := merge.entries.length

/-- `ThreadMerge::thread_ids`. -/
def threadIds (merge : ThreadMerge) : List UInt32 := merge.entries.map Prod.fst

/-- One group of `merge_thread_id`'s loop: a larger group takes over, and a group of the same size
keeps the smaller thread id. -/
def mergeStep (best : UInt32 × Nat) (entry : UInt32 × List UInt32) : UInt32 × Nat :=
  if best.2 < entry.2.length then (entry.1, entry.2.length)
  else if entry.2.length = best.2 then (if entry.1 < best.1 then entry.1 else best.1, best.2)
  else best

/-- `ThreadMerge::merge_thread_id`. -/
def mergeThreadId (merge : ThreadMerge) : UInt32 :=
  (merge.entries.foldl mergeStep (u32Max, 0)).1

/-- The documents of every group, group after group. -/
def documents (merge : ThreadMerge) : List UInt32 := merge.entries.flatMap (·.2)

end ThreadMerge

/-! ## One pass -/

/-- `thread_index.insert(document_id, value)`. -/
def indexInsert (threadIndex : List (UInt32 × List UInt8)) (documentId : UInt32)
    (value : List UInt8) : List (UInt32 × List UInt8) :=
  (documentId, value) :: threadIndex.filter (·.1 != documentId)

/-- `thread_index.remove(&document_id)`: the value, and the map without it. -/
def indexRemove (threadIndex : List (UInt32 × List UInt8)) (documentId : UInt32) :
    Option (List UInt8) × List (UInt32 × List UInt8) :=
  (threadIndex.lookup documentId, threadIndex.filter (·.1 != documentId))

/-- What a batch of `merge_threads` writes. The `ThreadingId` entries of each moved message are
left out: nothing here reads them. -/
inductive BatchOp where
  /-- `log_container_delete(SyncCollection::Thread)` of a thread id. -/
  | deleteThread (threadId : UInt32)
  /-- The `MessageData` of a document, with the chosen thread id. -/
  | setMessageThreadId (documentId threadId : UInt32)
  /-- The Threading index value of a document. -/
  | setThreadIndex (documentId : UInt32) (value : List UInt8)
  deriving DecidableEq, Repr

/-- How a commit ends: `is_assertion_failure` tells the two failures apart. -/
inductive CommitOutcome where
  | ok
  | assertionFailure
  | failure
  deriving DecidableEq, Repr

/-- The store as `merge_threads` sees it, each answer after any concurrent change. -/
structure Env where
  /-- The Threading index entries of the `n`-th scan, keys and values, in key order. -/
  scan : Nat → List (List UInt8 × List UInt8)
  /-- The thread id the `n`-th `MessageData` read finds for a document, if the message exists. -/
  messageThreadId : Nat → UInt32 → Option UInt32
  /-- The outcome of the `n`-th commit. -/
  commit : Nat → CommitOutcome

/-- What the `'retry` loop keeps from one pass to the next, and how many operations of each kind
it has made. -/
structure MergeState where
  threadMerge : ThreadMerge := {}
  threadIndex : List (UInt32 × List UInt8) := []
  tryCount : Nat := 0
  scans : Nat := 0
  reads : Nat := 0
  commits : Nat := 0

/-- The callback of the scan: an entry whose key has the length of the hash's keys and whose
value starts with a thread id to merge adds its document to that thread's group and keeps its
value; a value too short for a thread id is an error. -/
def scanEntry (request : MergeThreadIds) (acc : ThreadMerge × List (UInt32 × List UInt8))
    (entry : List UInt8 × List UInt8) : Except Unit (ThreadMerge × List (UInt32 × List UInt8)) :=
  if entry.1.length = keyLen request.threadHash then
    match deserializeBeU32 entry.2 0 with
    | none => .error ()
    | some threadId =>
      if threadId ∈ request.mergeIds then
        match deserializeBeU32 entry.1 (keyLen request.threadHash - 4) with
        | none => .error ()
        | some documentId =>
          .ok (acc.1.add threadId documentId, indexInsert acc.2 documentId entry.2)
      else .ok acc
  else .ok acc

/-- The documents to move, each with its group's thread id: those of every group but the chosen
thread id's, in the map's order. -/
def moves (merge : ThreadMerge) (threadId : UInt32) : List (UInt32 × UInt32) :=
  (merge.entries.filter fun entry => threadId != entry.1).flatMap fun entry =>
    entry.2.map (entry.1, ·)

/-- How moving the documents ends: back to the scan after a stale read, a panic, or a batch. -/
inductive MoveResult where
  | stale (reads : Nat) (threadIndex : List (UInt32 × List UInt8))
  | panicked
  | built (batch : List BatchOp) (reads : Nat) (threadIndex : List (UInt32 × List UInt8))

/-- The loop over the documents to move. A missing message is skipped; a message in another
thread than its group is a stale read; otherwise the message and its index value move to the
chosen thread, the value taken out of `thread_index` by `remove(..).unwrap()`. -/
def moveDocuments (env : Env) (threadId : UInt32) :
    List (UInt32 × UInt32) → Nat → List (UInt32 × List UInt8) → List BatchOp → MoveResult
  | [], reads, threadIndex, batch => .built batch reads threadIndex
  | (groupThreadId, documentId) :: rest, reads, threadIndex, batch =>
    match env.messageThreadId reads documentId with
    | none => moveDocuments env threadId rest (reads + 1) threadIndex batch
    | some dataThreadId =>
      if dataThreadId ≠ groupThreadId then .stale (reads + 1) threadIndex
      else
        match indexRemove threadIndex documentId with
        | (none, _) => .panicked
        | (some value, threadIndex) =>
          moveDocuments env threadId rest (reads + 1) threadIndex
            (batch ++ [.setMessageThreadId documentId threadId,
              .setThreadIndex documentId (toBeBytes 4 threadId.toNat ++ value.drop 4)])

/-- How `merge_threads` returns: `Ok` with fewer than two threads found, `Ok` after a commit,
`Err`, or a panic. -/
inductive Outcome where
  | alreadyMerged
  | committed (batch : List BatchOp)
  | failed
  | panicked
  deriving DecidableEq, Repr

/-- What a pass of the loop comes to: a return, or the next pass. -/
inductive Pass where
  | done (outcome : Outcome)
  | retry (state : MergeState)

/-- One pass of the `'retry` loop. -/
def mergePass (env : Env) (request : MergeThreadIds) (state : MergeState) : Pass :=
  match (env.scan state.scans).foldlM (scanEntry request) (state.threadMerge, state.threadIndex) with
  | .error () => .done .failed
  | .ok (threadMerge, threadIndex) =>
    if threadMerge.numThreadIds < 2 then .done .alreadyMerged
    else
      let threadId := threadMerge.mergeThreadId
      let deletes := (threadMerge.threadIds.filter (· != threadId)).map BatchOp.deleteThread
      match moveDocuments env threadId (moves threadMerge threadId) state.reads threadIndex
          deletes with
      | .panicked => .done .panicked
      | .stale reads threadIndex =>
        -- `try_count += 1; continue 'retry`, with no look at the count
        .retry
          { threadMerge, threadIndex, reads
            tryCount := state.tryCount + 1
            scans := state.scans + 1
            commits := state.commits }
      | .built batch reads threadIndex =>
        match env.commit state.commits with
        | .ok => .done (.committed batch)
        | .assertionFailure =>
          if state.tryCount < maxRetries then
            .retry
              { threadMerge, threadIndex, reads
                tryCount := state.tryCount + 1
                scans := state.scans + 1
                commits := state.commits + 1 }
          else .done .failed
        | .failure => .done .failed

/-- The `'retry` loop, one pass per unit of fuel; `none` when the fuel runs out. -/
def mergeThreadsLoop (env : Env) (request : MergeThreadIds) : Nat → MergeState → Option Outcome
  | 0, _ => none
  | fuel + 1, state =>
    match mergePass env request state with
    | .done outcome => some outcome
    | .retry state => mergeThreadsLoop env request fuel state

/-- `merge_threads`, allowed `fuel` passes. -/
def mergeThreads (env : Env) (request : MergeThreadIds) (fuel : Nat) : Option Outcome :=
  mergeThreadsLoop env request fuel {}

/-! ## The thread chosen -/

namespace ThreadMerge

theorem fst_add_entry (threadId documentId : UInt32) (entry : UInt32 × List UInt32) :
    (if entry.1 == threadId then (entry.1, entry.2 ++ [documentId]) else entry).1 = entry.1 := by
  split <;> rfl

theorem any_eq_true_iff (merge : ThreadMerge) (threadId : UInt32) :
    merge.entries.any (·.1 == threadId) = true ↔ threadId ∈ merge.threadIds := by
  simp [threadIds, List.any_eq_true]

theorem threadIds_add (merge : ThreadMerge) (threadId documentId : UInt32) :
    (merge.add threadId documentId).threadIds =
      if threadId ∈ merge.threadIds then merge.threadIds else merge.threadIds ++ [threadId] := by
  unfold add
  by_cases hmem : threadId ∈ merge.threadIds
  · rw [if_pos ((any_eq_true_iff merge threadId).mpr hmem), if_pos hmem]
    simp only [threadIds, List.map_map]
    exact List.map_congr_left fun entry _ => fst_add_entry threadId documentId entry
  · rw [if_neg (fun h => hmem ((any_eq_true_iff merge threadId).mp h)), if_neg hmem]
    simp [threadIds]

theorem nodup_threadIds_add {merge : ThreadMerge} (hnodup : merge.threadIds.Nodup)
    (threadId documentId : UInt32) : (merge.add threadId documentId).threadIds.Nodup := by
  rw [threadIds_add]
  split
  · exact hnodup
  · exact hnodup.append (List.nodup_singleton _) (by simpa)

/-- Adding a document to a merge whose thread ids are distinct adds it once, to one group. -/
theorem documents_add_perm {merge : ThreadMerge} (hnodup : merge.threadIds.Nodup)
    (threadId documentId : UInt32) :
    (merge.add threadId documentId).documents.Perm (merge.documents ++ [documentId]) := by
  unfold add
  split
  · rename_i hany
    obtain ⟨entry, hentry, hkey⟩ := List.any_eq_true.mp hany
    obtain ⟨pre, post, hsplit⟩ := List.append_of_mem hentry
    have hkey : entry.1 = threadId := by simpa using hkey
    -- the thread id is the key of this one entry only
    have hfst : (pre ++ entry :: post).map Prod.fst = pre.map Prod.fst ++ threadId :: post.map Prod.fst := by
      simp [hkey]
    rw [threadIds, hsplit, hfst, List.nodup_middle, List.nodup_cons] at hnodup
    have hpre : ∀ x ∈ pre, x.1 ≠ threadId := fun x hx h =>
      hnodup.1 (List.mem_append_left _ (List.mem_map.mpr ⟨x, hx, h⟩))
    have hpost : ∀ x ∈ post, x.1 ≠ threadId := fun x hx h =>
      hnodup.1 (List.mem_append_right _ (List.mem_map.mpr ⟨x, hx, h⟩))
    have hmap : ∀ l : List (UInt32 × List UInt32), (∀ x ∈ l, x.1 ≠ threadId) →
        l.map (fun entry => if entry.1 == threadId then (entry.1, entry.2 ++ [documentId]) else entry) = l := by
      intro l hl
      conv => rhs; rw [← List.map_id l]
      exact List.map_congr_left fun x hx => by simp [hl x hx]
    simp only [documents, hsplit, List.map_append, List.map_cons, hmap pre hpre, hmap post hpost, hkey,
      beq_self_eq_true, if_true, List.flatMap_append, List.flatMap_cons, List.append_assoc]
    exact List.Perm.append_left _ (List.Perm.append_left _ (List.perm_append_singleton _ _).symm)
  · simp [documents]
theorem le_u32Max (x : UInt32) : x ≤ u32Max := by
  have := x.toNat_lt_size
  rw [UInt32.le_iff_toNat_le]
  simp only [u32Max, UInt32.reduceToNat]
  simp only [UInt32.size] at this
  omega

/-- What `merge_thread_id`'s loop knows after some groups: its count is the size of the largest,
its thread id is at most that of every group of that size, and it is a group's unless no group
was seen yet. -/
def Leads (seen : List (UInt32 × List UInt32)) (best : UInt32 × Nat) : Prop :=
  (∀ entry ∈ seen, entry.2.length ≤ best.2) ∧
    (∀ entry ∈ seen, entry.2.length = best.2 → best.1 ≤ entry.1) ∧
    (best = (u32Max, 0) ∨ ∃ entry ∈ seen, entry.1 = best.1 ∧ entry.2.length = best.2)

theorem leads_mergeStep {seen : List (UInt32 × List UInt32)} {best : UInt32 × Nat}
    (h : Leads seen best) (entry : UInt32 × List UInt32) :
    Leads (seen ++ [entry]) (mergeStep best entry) := by
  obtain ⟨hle, hmin, hwit⟩ := h
  have hwit' : best = (u32Max, 0) ∨
      ∃ e, (e ∈ seen ∨ e = entry) ∧ e.1 = best.1 ∧ e.2.length = best.2 := by
    rcases hwit with hbest | ⟨e, he, hwit⟩
    · exact .inl hbest
    · exact .inr ⟨e, .inl he, hwit⟩
  obtain ⟨b, c⟩ := best
  simp only [Leads, List.mem_append, List.mem_singleton]
  unfold mergeStep
  split_ifs with hgt heq hlt
  · -- a larger group takes over
    refine ⟨?_, ?_, .inr ⟨entry, .inr rfl, rfl, rfl⟩⟩
    · rintro e (he | rfl)
      · exact (hle e he).trans hgt.le
      · exact Nat.le_refl _
    · rintro e (he | rfl) hlen
      · exact absurd hlen (by have := hle e he; omega)
      · exact UInt32.le_refl _
  · -- a group of the same size with a smaller thread id
    refine ⟨?_, ?_, .inr ⟨entry, .inr rfl, rfl, heq⟩⟩
    · rintro e (he | rfl)
      · exact hle e he
      · exact heq.le
    · rintro e (he | rfl) hlen
      · exact UInt32.le_of_lt (UInt32.lt_of_lt_of_le hlt (hmin e he hlen))
      · exact UInt32.le_refl _
  · -- a group of the same size with a larger thread id
    refine ⟨?_, ?_, hwit'⟩
    · rintro e (he | rfl)
      · exact hle e he
      · exact heq.le
    · rintro e (he | rfl) hlen
      · exact hmin e he hlen
      · exact UInt32.not_lt.mp hlt
  · refine ⟨?_, ?_, hwit'⟩
    · rintro e (he | rfl)
      · exact hle e he
      · omega
    · rintro e (he | rfl) hlen
      · exact hmin e he hlen
      · omega

theorem leads_foldl : ∀ (entries seen : List (UInt32 × List UInt32)) (best : UInt32 × Nat),
    Leads seen best → Leads (seen ++ entries) (entries.foldl mergeStep best)
  | [], seen, best, h => by simpa using h
  | entry :: entries, seen, best, h => by
    have := leads_foldl entries (seen ++ [entry]) (mergeStep best entry) (leads_mergeStep h entry)
    simpa using this

/-- **`merge_thread_id` chooses a largest group, and the smallest thread id among the largest.** -/
theorem mergeThreadId_spec {merge : ThreadMerge} (hne : merge.entries ≠ []) :
    ∃ entry ∈ merge.entries, entry.1 = merge.mergeThreadId ∧
      (∀ other ∈ merge.entries, other.2.length ≤ entry.2.length) ∧
      ∀ other ∈ merge.entries, other.2.length = entry.2.length → merge.mergeThreadId ≤ other.1 := by
  obtain ⟨hle, hmin, hwit⟩ := leads_foldl merge.entries [] (u32Max, 0)
    ⟨by simp, by simp, .inl rfl⟩
  simp only [List.nil_append] at hle hmin hwit
  -- the loop's result is a group's, also when every group is empty
  obtain ⟨entry, hentry, hid, hlen⟩ : ∃ entry ∈ merge.entries,
      entry.1 = (merge.entries.foldl mergeStep (u32Max, 0)).1 ∧
      entry.2.length = (merge.entries.foldl mergeStep (u32Max, 0)).2 := by
    rcases hwit with hbest | hwit
    · obtain ⟨entry, hentry⟩ := List.exists_mem_of_ne_nil _ hne
      have hlen : entry.2.length = 0 := by simpa [hbest] using hle entry hentry
      have hmax : u32Max ≤ entry.1 := by simpa [hbest] using hmin entry hentry (by simp [hbest, hlen])
      exact ⟨entry, hentry, by rw [hbest]; exact UInt32.le_antisymm (le_u32Max _) hmax, by simp [hbest, hlen]⟩
    · exact hwit
  refine ⟨entry, hentry, hid, fun other hother => hlen ▸ hle other hother,
    fun other hother hsize => hmin other hother (hsize.trans hlen)⟩

end ThreadMerge

/-! ## Reading entries -/

theorem deserializeBeU32_toBeBytes (pre : List UInt8) (value : UInt32) (post : List UInt8) :
    deserializeBeU32 (pre ++ toBeBytes 4 value.toNat ++ post) pre.length = some value := by
  have hbytes : ((pre ++ toBeBytes 4 value.toNat ++ post).drop pre.length).take 4 =
      toBeBytes 4 value.toNat := by
    rw [List.append_assoc, List.drop_left, List.take_left' (length_toBeBytes 4 _)]
  rw [deserializeBeU32, if_pos (by simp), hbytes, fromBeBytes_toBeBytes,
    Nat.mod_eq_of_lt (by simpa using value.toNat_lt_size), UInt32.ofNat_toNat]

/-- The scan keeps an entry of the hash's keys whose value starts with a thread id to merge. -/
theorem scanEntry_of_mem {request : MergeThreadIds} {key value : List UInt8}
    {threadId documentId : UInt32} (hlen : key.length = keyLen request.threadHash)
    (hvalue : deserializeBeU32 value 0 = some threadId) (hmem : threadId ∈ request.mergeIds)
    (hkey : deserializeBeU32 key (keyLen request.threadHash - 4) = some documentId)
    (acc : ThreadMerge × List (UInt32 × List UInt8)) :
    scanEntry request acc (key, value) =
      .ok (acc.1.add threadId documentId, indexInsert acc.2 documentId value) := by
  simp only [scanEntry, if_pos hlen, hvalue, if_pos hmem, hkey]

theorem mem_keys_indexInsert {threadIndex : List (UInt32 × List UInt8)} {documentId d : UInt32}
    {value : List UInt8} :
    d ∈ (indexInsert threadIndex documentId value).map Prod.fst ↔
      d = documentId ∨ d ∈ threadIndex.map Prod.fst := by
  by_cases hd : d = documentId
  · simp [indexInsert, hd]
  · simp [indexInsert, hd]

theorem mem_keys_indexRemove {threadIndex : List (UInt32 × List UInt8)} {documentId d : UInt32}
    (hd : d ≠ documentId) (hmem : d ∈ threadIndex.map Prod.fst) :
    d ∈ (indexRemove threadIndex documentId).2.map Prod.fst := by
  obtain ⟨p, hp, rfl⟩ := List.mem_map.mp hmem
  exact List.mem_map.mpr ⟨p, List.mem_filter.mpr ⟨hp, by simpa using hd⟩, rfl⟩

/-- The document id a scan entry spells, when its key has the length of the hash's keys. -/
def scanDocument (request : MergeThreadIds) (entry : List UInt8 × List UInt8) : Option UInt32 :=
  if entry.1.length = keyLen request.threadHash then
    deserializeBeU32 entry.1 (keyLen request.threadHash - 4)
  else none

/-- A scan entry leaves the groups alone, or adds the document its key spells. -/
theorem scanEntry_eq_ok {request : MergeThreadIds} {acc acc' : ThreadMerge × List (UInt32 × List UInt8)}
    {entry : List UInt8 × List UInt8} (h : scanEntry request acc entry = .ok acc') :
    acc' = acc ∨ ∃ threadId documentId, scanDocument request entry = some documentId ∧
      acc' = (acc.1.add threadId documentId, indexInsert acc.2 documentId entry.2) := by
  unfold scanEntry at h
  split at h
  · rename_i hlen
    split at h
    · cases h
    · rename_i threadId _
      split at h
      · split at h
        · cases h
        · rename_i documentId hkey
          cases h
          exact .inr ⟨threadId, documentId, by rw [scanDocument, if_pos hlen, hkey], rfl⟩
      · cases h
        exact .inl rfl
  · cases h
    exact .inl rfl
/-! ## The first pass -/

/-- What the first scan keeps true: the thread ids and the documents of the groups are distinct,
and every document of a group has its value in the map. -/
structure ScanInv (acc : ThreadMerge × List (UInt32 × List UInt8)) : Prop where
  nodup_threadIds : acc.1.threadIds.Nodup
  nodup_documents : acc.1.documents.Nodup
  mem_index : ∀ d ∈ acc.1.documents, d ∈ acc.2.map Prod.fst

theorem ScanInv.add {acc : ThreadMerge × List (UInt32 × List UInt8)} (h : ScanInv acc)
    {documentId : UInt32} (hnew : documentId ∉ acc.1.documents) (threadId : UInt32)
    (value : List UInt8) :
    ScanInv (acc.1.add threadId documentId, indexInsert acc.2 documentId value) where
  nodup_threadIds := ThreadMerge.nodup_threadIds_add h.nodup_threadIds _ _
  nodup_documents := (ThreadMerge.documents_add_perm h.nodup_threadIds _ _).nodup_iff.mpr
    (h.nodup_documents.append (List.nodup_singleton _) (by simpa using hnew))
  mem_index d hd := by
    have hd' := (ThreadMerge.documents_add_perm h.nodup_threadIds threadId documentId).subset hd
    rcases List.mem_append.mp hd' with hold | hnew
    · exact mem_keys_indexInsert.mpr (.inr (h.mem_index d hold))
    · exact mem_keys_indexInsert.mpr (.inl (List.mem_singleton.mp hnew))

/-- **The first scan.** Over entries that spell distinct documents, none of them in a group yet,
the scan keeps the groups' documents distinct and in the map. -/
theorem scanInv_foldlM (request : MergeThreadIds) :
    ∀ (entries : List (List UInt8 × List UInt8)) (acc acc' : ThreadMerge × List (UInt32 × List UInt8)),
      entries.foldlM (scanEntry request) acc = .ok acc' → ScanInv acc →
      (∀ d ∈ entries.filterMap (scanDocument request), d ∉ acc.1.documents) →
      (entries.filterMap (scanDocument request)).Nodup → ScanInv acc'
  | [], acc, acc', h, hinv, _, _ => by
    cases h
    exact hinv
  | entry :: entries, acc, acc', h, hinv, hnew, hnodup => by
    rw [List.foldlM_cons, Except.bind_eq_ok_iff] at h
    obtain ⟨acc₁, hstep, hrest⟩ := h
    have hsub : List.Sublist (entries.filterMap (scanDocument request))
        ((entry :: entries).filterMap (scanDocument request)) :=
      List.Sublist.filterMap _ (List.sublist_cons_self _ _)
    rcases scanEntry_eq_ok hstep with rfl | ⟨threadId, documentId, hdoc, rfl⟩
    · exact scanInv_foldlM request entries acc₁ acc' hrest hinv
        (fun d hd => hnew d (hsub.subset hd)) (hnodup.sublist hsub)
    · rw [List.filterMap_cons_some hdoc] at hnew hnodup
      obtain ⟨hfresh, hnodup⟩ := List.nodup_cons.mp hnodup
      refine scanInv_foldlM request entries _ acc' hrest
        (hinv.add (hnew documentId List.mem_cons_self) threadId entry.2) (fun d hd hmem => ?_) hnodup
      -- a later document is neither an earlier one nor this one
      rcases List.mem_append.mp ((ThreadMerge.documents_add_perm hinv.nodup_threadIds threadId
        documentId).subset hmem) with hold | hthis
      · exact hnew d (List.mem_cons_of_mem _ hd) hold
      · exact hfresh (List.mem_singleton.mp hthis ▸ hd)

/-- **Moving distinct documents never panics**, when each has its value in the map. -/
theorem moveDocuments_ne_panicked (env : Env) (threadId : UInt32) :
    ∀ (pending : List (UInt32 × UInt32)) (reads : Nat) (threadIndex : List (UInt32 × List UInt8))
      (batch : List BatchOp), (pending.map Prod.snd).Nodup →
      (∀ move ∈ pending, move.2 ∈ threadIndex.map Prod.fst) →
      moveDocuments env threadId pending reads threadIndex batch ≠ .panicked
  | [], _, _, _, _, _ => by simp [moveDocuments]
  | (groupThreadId, documentId) :: rest, reads, threadIndex, batch, hnodup, hmem => by
    rw [List.map_cons, List.nodup_cons] at hnodup
    have hrest : ∀ move ∈ rest, move.2 ∈ threadIndex.map Prod.fst :=
      fun move hmove => hmem move (List.mem_cons_of_mem _ hmove)
    unfold moveDocuments
    split
    · exact moveDocuments_ne_panicked env threadId rest _ threadIndex batch hnodup.2 hrest
    · split
      · simp
      · -- the document's value is in the map, and the others' stay in it
        obtain ⟨p, hp, hkey⟩ := List.mem_map.mp (hmem (groupThreadId, documentId) List.mem_cons_self)
        have hsome : (threadIndex.lookup documentId).isSome :=
          List.lookup_isSome_iff.mpr ⟨p, hp, by simpa using hkey.symm⟩
        obtain ⟨value, hvalue⟩ := Option.isSome_iff_exists.mp hsome
        simp only [indexRemove, hvalue]
        refine moveDocuments_ne_panicked env threadId rest _ _ _ hnodup.2 fun move hmove => ?_
        have hfresh : documentId ∉ rest.map Prod.snd := hnodup.1
        have hne : move.2 ≠ documentId := fun h =>
          hfresh (h ▸ List.mem_map.mpr ⟨move, hmove, rfl⟩)
        exact mem_keys_indexRemove hne (hrest move hmove)

theorem sublist_map_snd_moves (merge : ThreadMerge) (threadId : UInt32) :
    List.Sublist ((moves merge threadId).map Prod.snd) merge.documents := by
  have hmap : (moves merge threadId).map Prod.snd =
      (merge.entries.filter fun entry => threadId != entry.1).flatMap (·.2) := by
    simp [moves, List.map_flatMap, Function.comp_def]
  rw [hmap, ThreadMerge.documents]
  exact (List.filter_sublist).flatMap _

/-- A pass panics only in moving the documents of its scan. -/
theorem panicked_of_mergePass {env : Env} {request : MergeThreadIds} {state : MergeState}
    (h : mergePass env request state = .done .panicked) :
    ∃ threadMerge threadIndex,
      (env.scan state.scans).foldlM (scanEntry request) (state.threadMerge, state.threadIndex) =
        .ok (threadMerge, threadIndex) ∧
      moveDocuments env threadMerge.mergeThreadId (moves threadMerge threadMerge.mergeThreadId)
        state.reads threadIndex ((threadMerge.threadIds.filter
          (· != threadMerge.mergeThreadId)).map BatchOp.deleteThread) = .panicked := by
  unfold mergePass at h
  split at h
  · cases h
  · rename_i threadMerge threadIndex hscan
    refine ⟨threadMerge, threadIndex, hscan, ?_⟩
    split at h
    · cases h
    · simp only at h
      split at h
      · assumption
      · cases h
      · split at h
        · cases h
        · split at h <;> cases h
        · cases h

/-- **A first pass never panics** when its scan spells distinct documents. -/
theorem mergePass_first_ne_panicked (env : Env) (request : MergeThreadIds)
    (hdistinct : ((env.scan 0).filterMap (scanDocument request)).Nodup) :
    mergePass env request {} ≠ .done .panicked := by
  intro h
  obtain ⟨threadMerge, threadIndex, hscan, hmove⟩ := panicked_of_mergePass h
  have hinv := scanInv_foldlM request (env.scan 0) _ _ hscan
    ⟨List.nodup_nil, List.nodup_nil, by simp [ThreadMerge.documents]⟩
    (by simp [ThreadMerge.documents]) hdistinct
  have hsub := sublist_map_snd_moves threadMerge threadMerge.mergeThreadId
  exact moveDocuments_ne_panicked env _ _ _ _ _ (hinv.nodup_documents.sublist hsub)
    (fun move hmove => hinv.mem_index _ (hsub.subset (List.mem_map_of_mem hmove))) hmove

/-! ## Retries -/

/-- A Threading index entry of the hash `[7]`: the key ends with the document id, and the value
starts with the thread id. -/
def threadingEntry (documentId threadId : UInt32) : List UInt8 × List UInt8 :=
  ([0, 0, 0, 1, 0, 0, 7] ++ toBeBytes 4 documentId.toNat, toBeBytes 4 threadId.toNat)

/-- Threads 10 and 20 of the hash `[7]`, to merge. -/
def twoThreads : MergeThreadIds := ⟨[7], {10, 20}⟩

/-- A store where document 1 is in thread 10 and document 2 in thread 20, in the index and in
their messages, whose first commit fails an assertion. -/
def retryEnv : Env where
  scan _ := [threadingEntry 1 10, threadingEntry 2 20]
  messageThreadId _ documentId :=
    if documentId = 1 then some 10 else if documentId = 2 then some 20 else none
  commit n := if n = 0 then .assertionFailure else .ok

/-- A store whose index keeps document 2 in thread 20 while its message is read in thread 30. -/
def staleEnv : Env where
  scan _ := [threadingEntry 1 10, threadingEntry 2 20]
  messageThreadId _ _ := some 30
  commit _ := .ok

theorem scanEntry_threadingEntry (documentId threadId : UInt32)
    (hmem : threadId ∈ twoThreads.mergeIds) (acc : ThreadMerge × List (UInt32 × List UInt8)) :
    scanEntry twoThreads acc (threadingEntry documentId threadId) =
      .ok (acc.1.add threadId documentId,
        indexInsert acc.2 documentId (toBeBytes 4 threadId.toNat)) := by
  have hkey : keyLen twoThreads.threadHash - 4 = [(0 : UInt8), 0, 0, 1, 0, 0, 7].length := rfl
  exact scanEntry_of_mem (by simp [keyLen, twoThreads])
    (by simpa using deserializeBeU32_toBeBytes [] threadId [])
    hmem (by rw [hkey]; simpa using deserializeBeU32_toBeBytes [0, 0, 0, 1, 0, 0, 7] documentId [])
    acc

/-- **A stale pass.** After `k + 1` scans of `staleEnv` each group holds its document `k + 1`
times; the next pass adds it once more and goes back to the scan. -/
theorem mergePass_staleEnv (k : Nat) (state : MergeState)
    (hmerge : state.threadMerge =
      ⟨[(10, List.replicate (k + 1) 1), (20, List.replicate (k + 1) 2)]⟩) :
    ∃ state', mergePass staleEnv twoThreads state = .retry state' ∧
      state'.threadMerge = ⟨[(10, List.replicate (k + 2) 1), (20, List.replicate (k + 2) 2)]⟩ := by
  have hscan : (staleEnv.scan state.scans).foldlM (scanEntry twoThreads)
      (state.threadMerge, state.threadIndex) =
      .ok (⟨[(10, List.replicate (k + 2) 1), (20, List.replicate (k + 2) 2)]⟩,
        indexInsert (indexInsert state.threadIndex 1 (toBeBytes 4 10)) 2 (toBeBytes 4 20)) := by
    simp only [staleEnv, List.foldlM_cons, List.foldlM_nil,
      scanEntry_threadingEntry 1 10 (by decide), scanEntry_threadingEntry 2 20 (by decide),
      Except.ok_bind_eq, hmerge]
    simp [ThreadMerge.add, List.replicate_succ']
    rfl
  -- the groups tie, so thread 10 is kept and document 2 of thread 20 is read first
  have hid : ThreadMerge.mergeThreadId
      ⟨[(10, List.replicate (k + 2) 1), (20, List.replicate (k + 2) 2)]⟩ = 10 := by
    simp [ThreadMerge.mergeThreadId, ThreadMerge.mergeStep]
  have hmoves : moves ⟨[(10, List.replicate (k + 2) 1), (20, List.replicate (k + 2) 2)]⟩ 10 =
      (List.replicate (k + 2) (2 : UInt32)).map ((20 : UInt32), ·) := by
    simp [moves]
  rw [mergePass, hscan]
  dsimp only
  rw [if_neg (by simp [ThreadMerge.numThreadIds]), hid, hmoves, List.replicate_succ, List.map_cons,
    moveDocuments]
  exact ⟨_, rfl, rfl⟩

theorem mergeThreadsLoop_staleEnv : ∀ (fuel k : Nat) (state : MergeState),
    state.threadMerge = ⟨[(10, List.replicate (k + 1) 1), (20, List.replicate (k + 1) 2)]⟩ →
    mergeThreadsLoop staleEnv twoThreads fuel state = none
  | 0, _, _, _ => rfl
  | fuel + 1, k, state, hmerge => by
    obtain ⟨state', hpass, hmerge'⟩ := mergePass_staleEnv k state hmerge
    rw [mergeThreadsLoop, hpass]
    exact mergeThreadsLoop_staleEnv fuel (k + 1) state' hmerge'

theorem merge_threads_can_panic_or_loop :
    (∀ merge : ThreadMerge, merge.entries ≠ [] →
      ∃ entry ∈ merge.entries, entry.1 = merge.mergeThreadId ∧
        (∀ other ∈ merge.entries, other.2.length ≤ entry.2.length) ∧
        ∀ other ∈ merge.entries, other.2.length = entry.2.length →
          merge.mergeThreadId ≤ other.1) ∧
    (∀ (env : Env) (request : MergeThreadIds),
      ((env.scan 0).filterMap (scanDocument request)).Nodup →
        mergePass env request {} ≠ .done .panicked) ∧
    (∀ fuel, mergeThreads retryEnv twoThreads (fuel + 2) = some .panicked) ∧
    ∀ fuel, mergeThreads staleEnv twoThreads fuel = none := by
  refine ⟨fun _ hne => ThreadMerge.mergeThreadId_spec hne,
    fun env request hdistinct => mergePass_first_ne_panicked env request hdistinct,
    fun _ => rfl, fun fuel => ?_⟩
  -- the first pass of the stale run starts the groups with one document each
  cases fuel with
  | zero => rfl
  | succ fuel =>
    obtain ⟨state, hpass, hmerge⟩ : ∃ state, mergePass staleEnv twoThreads {} = .retry state ∧
        state.threadMerge = ⟨[(10, List.replicate 1 1), (20, List.replicate 1 2)]⟩ :=
      ⟨_, rfl, rfl⟩
    rw [mergeThreads, mergeThreadsLoop, hpass]
    exact mergeThreadsLoop_staleEnv fuel 0 state hmerge

end Stalwart.Email
