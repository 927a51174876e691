import Mathlib.Data.List.Chain
import Mathlib.Data.List.Sort
import Stalwart.Imap.Mailbox
import Stalwart.Lib.KeepIdx

/-!
# Announcing the changes of a selected mailbox

A client that has selected a mailbox knows its messages by sequence number. When the mailbox
changes, `write_mailbox_changes` tells it what happened: one `EXPUNGE n` per message that left
(each numbered as the client counts at that moment), or under QRESYNC one `VANISHED` with the uids
that left, and then `EXISTS n` with the new number of messages. Between two announcements the
session may synchronize several times; the messages that left pile up as pending deletions under
the numbers the client still uses.

## What is proved

`fetch_messages` numbers the messages of a mailbox 1, 2, … in uid order (`fetchMessages_lookup`).
Over any run of synchronizations, the state keeps the old numbering and gathers each message gone
from the newest cache once (`Tracks`, `Tracks.foldl_synchronize`). The announcements then move the
client's list of messages, read as IMAP prescribes (`applyUntagged`), from the old state's list to
the new state's, in both modes (`writeMailboxChanges_client_view`).
-/

namespace Stalwart.Imap

/-- The uids of a mailbox in the cache, in uid order. -/
def MessageCache.uids (cache : MessageCache) (mailboxId : UInt32) : List UInt32 :=
  (cache.uidMap mailboxId).map Prod.fst

theorem MessageCache.uids_sorted (cache : MessageCache) (mailboxId : UInt32) :
    (cache.uids mailboxId).Pairwise (· < ·) :=
  List.pairwise_map.mpr ((cache.uidMap_sorted mailboxId).imp UInt32.lt_iff_toNat_lt.mpr)

/-- The uids of a state's messages in sequence-number order. -/
def MailboxState.uidsBySeqnum (state : MailboxState) : List UInt32 :=
  ((state.idToImap.entries.map (·.2)).mergeSort fun a b => decide (a.seqnum ≤ b.seqnum)).map (·.uid)

/-! ## How `fetch_messages` numbers the messages -/

/-- Numbering from one, below `u32::MAX`. -/
theorem toNat_ofNat_add_one {i : Nat} (hi : i + 1 < UInt32.size) :
    (UInt32.ofNat i + 1).toNat = i + 1 := by
  simp [UInt32.toNat_add, UInt32.toNat_ofNat']
  omega

/-- **The loop of `fetch_messages`**, entry by entry: a document gets the uid of its entry and the
sequence number one past the entry's position. -/
theorem lookup_foldl_fetchStep :
    ∀ (entries : List ((UInt32 × UInt32) × Nat)) (acc : UInt32 × U32Map ImapId × U32Map UInt32),
      (entries.map (·.1.2)).Nodup → (∀ x ∈ entries, x.1.2 ∉ acc.2.1) →
      ∀ id imapId, (entries.foldl fetchStep acc).2.1.lookup id = some imapId ↔
        acc.2.1.lookup id = some imapId ∨
          ∃ x ∈ entries, x.1.2 = id ∧ imapId = ⟨x.1.1, UInt32.ofNat x.2 + 1⟩
  | [], _, _, _, _, _ => by simp
  | ((uid, doc), seqnum) :: rest, acc, hids, hfresh, id, imapId => by
    simp only [List.map_cons, List.nodup_cons] at hids
    have hstep : (fetchStep acc ((uid, doc), seqnum)).2.1 =
        acc.2.1.insert doc ⟨uid, UInt32.ofNat seqnum + 1⟩ := rfl
    have hrest_fresh : ∀ x ∈ rest, x.1.2 ∉ (fetchStep acc ((uid, doc), seqnum)).2.1 := by
      intro x hx
      rw [hstep, AList.mem_insert, not_or]
      exact ⟨fun h => hids.1 (h ▸ List.mem_map_of_mem hx), hfresh x (List.mem_cons_of_mem _ hx)⟩
    rw [List.foldl_cons, lookup_foldl_fetchStep rest _ hids.2 hrest_fresh, hstep]
    simp only [List.mem_cons, or_and_right, exists_or, exists_eq_left]
    by_cases hid : id = doc
    · -- the document of this entry: neither the map nor the later entries have it
      subst hid
      have hnone : acc.2.1.lookup id = none :=
        AList.lookup_eq_none.mpr (hfresh _ List.mem_cons_self)
      have hlater : ¬ ∃ x ∈ rest, x.1.2 = id ∧ imapId = ⟨x.1.1, UInt32.ofNat x.2 + 1⟩ :=
        fun ⟨x, hx, hdoc, _⟩ => hids.1 (hdoc ▸ List.mem_map_of_mem hx)
      simp only [AList.lookup_insert, hnone, hlater, Option.some.injEq, true_and, or_false,
        reduceCtorEq, false_or]
      exact eq_comm
    · simp only [AList.lookup_insert_ne hid, Ne.symm hid, false_and, false_or]

theorem fetchMessages_modseq {cache : MessageCache} {mailboxId : UInt32}
    {currentState : Option UInt64} {state : MailboxState}
    (h : fetchMessages cache mailboxId currentState = some state) : state.modseq = cache.changeId := by
  unfold fetchMessages at h
  split at h
  · cases h
  · cases h; rfl

/-- A fetch that finds a newer cache builds the state that a first fetch builds. -/
theorem fetchMessages_none_of_some {cache : MessageCache} {mailboxId : UInt32}
    {currentState : Option UInt64} {state : MailboxState}
    (h : fetchMessages cache mailboxId currentState = some state) :
    fetchMessages cache mailboxId none = some state := by
  unfold fetchMessages at h ⊢
  split at h
  · cases h
  · exact h

/-- A fetch finds nothing new exactly when the cache is at the caller's change id. -/
theorem fetchMessages_eq_none {cache : MessageCache} {mailboxId : UInt32} {modseq : UInt64} :
    fetchMessages cache mailboxId (some modseq) = none ↔ modseq = cache.changeId := by
  unfold fetchMessages
  split <;> simp_all

/-- The state fetched depends on the cache through its change id and the mailbox's uid map. -/
theorem fetchMessages_congr {cache cache' : MessageCache} {mailboxId : UInt32}
    (hid : cache'.changeId = cache.changeId) (hmap : cache'.uidMap mailboxId = cache.uidMap mailboxId)
    (currentState : Option UInt64) :
    fetchMessages cache' mailboxId currentState = fetchMessages cache mailboxId currentState := by
  unfold fetchMessages
  rw [hid, hmap]

/-- The largest uid of the loop of `fetch_messages` is at least each uid it has seen. -/
theorem le_foldl_fetchStep :
    ∀ (entries : List ((UInt32 × UInt32) × Nat)) (acc : UInt32 × U32Map ImapId × U32Map UInt32),
      acc.1 ≤ (entries.foldl fetchStep acc).1 ∧ ∀ x ∈ entries, x.1.1 ≤ (entries.foldl fetchStep acc).1
  | [], _ => ⟨UInt32.le_refl _, fun _ hx => absurd hx List.not_mem_nil⟩
  | ((uid, doc), seqnum) :: rest, acc => by
    obtain ⟨hstep, hrest⟩ := le_foldl_fetchStep rest (fetchStep acc ((uid, doc), seqnum))
    have hacc : acc.1 ≤ (fetchStep acc ((uid, doc), seqnum)).1 := by
      simp only [fetchStep]
      split <;> grind
    have huid : uid ≤ (fetchStep acc ((uid, doc), seqnum)).1 := by
      simp only [fetchStep]
      split <;> grind
    refine ⟨UInt32.le_trans hacc hstep, fun x hx => ?_⟩
    rcases List.mem_cons.mp hx with rfl | hx
    · exact UInt32.le_trans huid hstep
    · exact hrest x hx

/-- The loop of `fetch_messages` adds one message per entry, the entries having distinct document
ids not in the map yet. -/
theorem length_foldl_fetchStep :
    ∀ (entries : List ((UInt32 × UInt32) × Nat)) (acc : UInt32 × U32Map ImapId × U32Map UInt32),
      (entries.map (·.1.2)).Nodup → (∀ x ∈ entries, x.1.2 ∉ acc.2.1) →
      (entries.foldl fetchStep acc).2.1.entries.length = acc.2.1.entries.length + entries.length
  | [], _, _, _ => rfl
  | ((uid, doc), seqnum) :: rest, acc, hids, hfresh => by
    simp only [List.map_cons, List.nodup_cons] at hids
    have hstep : (fetchStep acc ((uid, doc), seqnum)).2.1 =
        acc.2.1.insert doc ⟨uid, UInt32.ofNat seqnum + 1⟩ := rfl
    have hrest_fresh : ∀ x ∈ rest, x.1.2 ∉ (fetchStep acc ((uid, doc), seqnum)).2.1 := by
      intro x hx
      rw [hstep, AList.mem_insert, not_or]
      exact ⟨fun h => hids.1 (h ▸ List.mem_map_of_mem hx), hfresh x (List.mem_cons_of_mem _ hx)⟩
    rw [List.foldl_cons, length_foldl_fetchStep rest _ hids.2 hrest_fresh, hstep,
      AList.entries_insert_of_notMem (hfresh _ List.mem_cons_self), List.length_cons,
      List.length_cons]
    omega

/-- The messages of a mailbox as `fetch_messages` numbers them, in uid order. -/
def MessageCache.numbered (cache : MessageCache) (mailboxId : UInt32) : List ImapId :=
  ((cache.uidMap mailboxId).zipIdx).map fun x => ⟨x.1.1, UInt32.ofNat x.2 + 1⟩

theorem MessageCache.mem_numbered {cache : MessageCache} {mailboxId : UInt32} {imapId : ImapId} :
    imapId ∈ cache.numbered mailboxId ↔
      ∃ i id, (cache.uidMap mailboxId)[i]? = some (imapId.uid, id) ∧
        imapId.seqnum = UInt32.ofNat i + 1 := by
  unfold MessageCache.numbered
  rw [List.mem_map]
  constructor
  · rintro ⟨⟨⟨uid, id⟩, i⟩, hmem, rfl⟩
    exact ⟨i, id, List.mem_zipIdx_iff_getElem?.mp hmem, rfl⟩
  · rintro ⟨i, id, hget, hseq⟩
    exact ⟨((imapId.uid, id), i), List.mem_zipIdx_iff_getElem?.mpr hget, by rw [← hseq]⟩

/-- Below `u32::MAX` messages, the numbering is strictly increasing. -/
theorem MessageCache.numbered_sorted {cache : MessageCache} {mailboxId : UInt32}
    (hlen : (cache.uidMap mailboxId).length < UInt32.size) :
    (cache.numbered mailboxId).Pairwise fun a b => a.seqnum < b.seqnum := by
  have hpos : ((cache.uidMap mailboxId).zipIdx).Pairwise fun a b => a.2 < b.2 := by
    rw [← List.pairwise_map (R := fun i j => i < j), List.zipIdx_map_snd]
    exact List.pairwise_lt_range'
  unfold MessageCache.numbered
  rw [List.pairwise_map]
  refine hpos.imp_of_mem fun {a b} ha hb hab => ?_
  have ha' := (List.mem_zipIdx_iff_getElem?.mp ha)
  have hb' := (List.mem_zipIdx_iff_getElem?.mp hb)
  have hai := (List.getElem?_eq_some_iff.mp ha').1
  have hbi := (List.getElem?_eq_some_iff.mp hb').1
  rw [UInt32.lt_iff_toNat_lt, toNat_ofNat_add_one (by omega), toNat_ofNat_add_one (by omega)]
  omega

section Fetched

variable {cache : MessageCache} {mailboxId : UInt32} {currentState : Option UInt64}
  {state : MailboxState}

/-- **`fetch_messages` numbers the messages in uid order**: a document has the uid of its entry of
the uid map and, as sequence number, one past the entry's position. -/
theorem fetchMessages_lookup (hdocs : cache.DocumentsDistinct)
    (h : fetchMessages cache mailboxId currentState = some state) (id : UInt32) (imapId : ImapId) :
    state.idToImap.lookup id = some imapId ↔
      ∃ i, (cache.uidMap mailboxId)[i]? = some (imapId.uid, id) ∧
        imapId.seqnum = UInt32.ofNat i + 1 := by
  unfold fetchMessages at h
  split at h
  · cases h
  · cases h
    have hids : (((cache.uidMap mailboxId).zipIdx).map (·.1.2)).Nodup := by
      rw [show (fun x : (UInt32 × UInt32) × Nat => x.1.2) = Prod.snd ∘ Prod.fst from rfl,
        ← List.map_map, List.zipIdx_map_fst]
      exact (cache.uidMap_nodup mailboxId hdocs).2
    rw [lookup_foldl_fetchStep _ _ hids (fun x _ => AList.notMem_empty _)]
    simp only [AList.lookup_empty, reduceCtorEq, false_or]
    constructor
    · rintro ⟨⟨⟨uid, doc⟩, i⟩, hmem, rfl, rfl⟩
      exact ⟨i, List.mem_zipIdx_iff_getElem?.mp hmem, rfl⟩
    · rintro ⟨i, hget, hseq⟩
      exact ⟨((imapId.uid, id), i), List.mem_zipIdx_iff_getElem?.mpr hget, rfl, by rw [← hseq]⟩

theorem fetchMessages_uid_mem (hdocs : cache.DocumentsDistinct)
    (h : fetchMessages cache mailboxId currentState = some state) {id : UInt32} {imapId : ImapId}
    (hlookup : state.idToImap.lookup id = some imapId) : imapId.uid ∈ cache.uids mailboxId := by
  obtain ⟨i, hget, -⟩ := (fetchMessages_lookup hdocs h id imapId).mp hlookup
  exact List.mem_map.mpr ⟨_, List.mem_of_getElem? hget, rfl⟩

/-- A uid names one message of a fetched state. -/
theorem fetchMessages_uid_inj (hdocs : cache.DocumentsDistinct)
    (h : fetchMessages cache mailboxId currentState = some state) {id id' : UInt32}
    {imapId imapId' : ImapId} (hlookup : state.idToImap.lookup id = some imapId)
    (hlookup' : state.idToImap.lookup id' = some imapId') (huid : imapId.uid = imapId'.uid) :
    id = id' ∧ imapId = imapId' := by
  obtain ⟨i, hget, hseq⟩ := (fetchMessages_lookup hdocs h id imapId).mp hlookup
  obtain ⟨j, hget', hseq'⟩ := (fetchMessages_lookup hdocs h id' imapId').mp hlookup'
  -- the uid map has distinct uids, so both entries sit at one position
  have hij : i = j := by
    have hfst : ((cache.uidMap mailboxId).map Prod.fst)[i]? =
        ((cache.uidMap mailboxId).map Prod.fst)[j]? := by
      rw [List.getElem?_map, List.getElem?_map, hget, hget', huid]
      rfl
    have hnd := List.nodup_iff_getElem?_ne_getElem?.mp (cache.uidMap_nodup mailboxId hdocs).1
    have hi := (List.getElem?_eq_some_iff.mp hget).1
    have hj := (List.getElem?_eq_some_iff.mp hget').1
    rcases Nat.lt_trichotomy i j with hlt | heq | hgt
    · exact absurd hfst (hnd i j hlt (by simpa using hj))
    · exact heq
    · exact absurd hfst.symm (hnd j i hgt (by simpa using hi))
  subst hij
  rw [hget', Option.some.injEq, Prod.mk.injEq] at hget
  refine ⟨hget.2.symm, ?_⟩
  cases imapId
  cases imapId'
  simp_all

/-- Below `u32::MAX` messages, a sequence number names one message of a fetched state. -/
theorem fetchMessages_seqnum_inj (hdocs : cache.DocumentsDistinct)
    (h : fetchMessages cache mailboxId currentState = some state)
    (hlen : (cache.uidMap mailboxId).length < UInt32.size) {id id' : UInt32}
    {imapId imapId' : ImapId} (hlookup : state.idToImap.lookup id = some imapId)
    (hlookup' : state.idToImap.lookup id' = some imapId') (hseq : imapId.seqnum = imapId'.seqnum) :
    id = id' ∧ imapId = imapId' := by
  obtain ⟨i, hget, hseqi⟩ := (fetchMessages_lookup hdocs h id imapId).mp hlookup
  obtain ⟨j, hget', hseqj⟩ := (fetchMessages_lookup hdocs h id' imapId').mp hlookup'
  have hi := (List.getElem?_eq_some_iff.mp hget).1
  have hj := (List.getElem?_eq_some_iff.mp hget').1
  have hij : i = j := by
    have := congrArg UInt32.toNat (hseqi.symm.trans (hseq.trans hseqj))
    rw [toNat_ofNat_add_one (by omega), toNat_ofNat_add_one (by omega)] at this
    omega
  subst hij
  rw [hget', Option.some.injEq, Prod.mk.injEq] at hget
  refine ⟨hget.2.symm, ?_⟩
  cases imapId
  cases imapId'
  simp_all

/-- The uids of a fetched state are the uids of the mailbox in the cache. -/
theorem fetchMessages_hasUid (hdocs : cache.DocumentsDistinct)
    (h : fetchMessages cache mailboxId currentState = some state) (uid : UInt32) :
    state.hasUid uid = true ↔ uid ∈ cache.uids mailboxId := by
  have hinv := fetchMessages_uidsInverse hdocs h
  constructor
  · intro huid
    obtain ⟨id, imapId, hlookup, rfl⟩ := hinv.2 uid (AList.lookup_isSome.mp huid)
    exact fetchMessages_uid_mem hdocs h hlookup
  · intro huid
    obtain ⟨⟨uid', id⟩, hmem, rfl⟩ := List.mem_map.mp huid
    obtain ⟨i, hget⟩ := List.getElem?_of_mem hmem
    have hlookup := (fetchMessages_lookup hdocs h id ⟨uid', UInt32.ofNat i + 1⟩).mpr ⟨i, hget, rfl⟩
    simp [MailboxState.hasUid, hinv.1 _ _ hlookup]

theorem fetchMessages_le_uidMax (h : fetchMessages cache mailboxId currentState = some state) :
    ∀ uid ∈ cache.uids mailboxId, uid ≤ state.uidMax := by
  unfold fetchMessages at h
  split at h
  · cases h
  · cases h
    intro uid huid
    obtain ⟨⟨uid', id⟩, hmem, rfl⟩ := List.mem_map.mp huid
    obtain ⟨i, hget⟩ := List.getElem?_of_mem hmem
    exact (le_foldl_fetchStep _ _).2 ((uid', id), i) (List.mem_zipIdx_iff_getElem?.mpr hget)

theorem fetchMessages_totalMessages (hdocs : cache.DocumentsDistinct)
    (h : fetchMessages cache mailboxId currentState = some state) :
    state.totalMessages = (cache.uidMap mailboxId).length := by
  unfold fetchMessages at h
  split at h
  · cases h
  · cases h
    have hids : (((cache.uidMap mailboxId).zipIdx).map (·.1.2)).Nodup := by
      rw [show (fun x : (UInt32 × UInt32) × Nat => x.1.2) = Prod.snd ∘ Prod.fst from rfl,
        ← List.map_map, List.zipIdx_map_fst]
      exact (cache.uidMap_nodup mailboxId hdocs).2
    dsimp only
    rw [length_foldl_fetchStep _ _ hids (fun x _ => AList.notMem_empty _), List.length_zipIdx]
    exact Nat.zero_add _

/-- The messages of a fetched state are the cache's, as numbered. -/
theorem fetchMessages_perm_numbered (hdocs : cache.DocumentsDistinct)
    (h : fetchMessages cache mailboxId currentState = some state)
    (hlen : (cache.uidMap mailboxId).length < UInt32.size) :
    List.Perm (state.idToImap.entries.map (·.2)) (cache.numbered mailboxId) := by
  have hmem : ∀ imapId, imapId ∈ state.idToImap.entries.map (·.2) ↔ ∃ id, state.idToImap.lookup id = some imapId := by
    intro imapId
    rw [List.mem_map]
    constructor
    · rintro ⟨⟨id, x⟩, hx, rfl⟩
      exact ⟨id, AList.mem_lookup_iff.mpr hx⟩
    · rintro ⟨id, hx⟩
      exact ⟨⟨id, imapId⟩, AList.mem_lookup_iff.mp hx, rfl⟩
  -- two entries with one message are one entry, as a uid names one message
  have hnodup : (state.idToImap.entries.map (·.2)).Nodup := by
    refine (List.NodupKeys.nodup state.idToImap.nodupKeys).map_on fun x hx y hy hxy => ?_
    have hx' := AList.mem_lookup_iff.mpr hx
    have hy' := AList.mem_lookup_iff.mpr hy
    rw [hxy] at hx'
    obtain ⟨hid, -⟩ := fetchMessages_uid_inj hdocs h hx' hy' rfl
    exact Sigma.ext hid (heq_of_eq hxy)
  have hnumbered : (cache.numbered mailboxId).Nodup :=
    (MessageCache.numbered_sorted hlen).imp fun hlt heq => by
      rw [heq] at hlt
      exact UInt32.lt_irrefl _ hlt
  refine (List.perm_ext_iff_of_nodup hnodup hnumbered).mpr fun imapId => ?_
  rw [hmem, MessageCache.mem_numbered]
  constructor
  · rintro ⟨id, hlookup⟩
    obtain ⟨i, hget, hseq⟩ := (fetchMessages_lookup hdocs h id imapId).mp hlookup
    exact ⟨i, id, hget, hseq⟩
  · rintro ⟨i, id, hget, hseq⟩
    exact ⟨id, (fetchMessages_lookup hdocs h id imapId).mpr ⟨i, hget, hseq⟩⟩

/-- **The list of a fetched state by sequence number is the mailbox's list by uid.** -/
theorem fetchMessages_uidsBySeqnum (hdocs : cache.DocumentsDistinct)
    (h : fetchMessages cache mailboxId currentState = some state)
    (hbound : state.totalMessages < UInt32.size) :
    state.uidsBySeqnum = cache.uids mailboxId := by
  have hlen : (cache.uidMap mailboxId).length < UInt32.size :=
    fetchMessages_totalMessages hdocs h ▸ hbound
  have hsorted := MessageCache.numbered_sorted hlen
  -- sorting a permutation of the numbered list gives it back, as its numbers are distinct
  have hperm := (List.mergeSort_perm (state.idToImap.entries.map (·.2))
    fun a b => decide (a.seqnum ≤ b.seqnum)).trans (fetchMessages_perm_numbered hdocs h hlen)
  have hsorted_sort : ((state.idToImap.entries.map (·.2)).mergeSort
      fun a b => decide (a.seqnum ≤ b.seqnum)).Pairwise fun a b => a.seqnum ≤ b.seqnum := by
    refine (List.pairwise_mergeSort (fun (a b c : ImapId) hab hbc => ?_)
      (fun (a b : ImapId) => ?_) _).imp fun hab => of_decide_eq_true hab
    · simp only [decide_eq_true_eq] at hab hbc ⊢
      exact UInt32.le_trans hab hbc
    · simpa using UInt32.le_total a.seqnum b.seqnum
  -- sorting a permutation of the numbered list gives it back, as its numbers are distinct
  have hsort : ((state.idToImap.entries.map (·.2)).mergeSort fun a b => decide (a.seqnum ≤ b.seqnum)) =
      cache.numbered mailboxId := by
    refine List.Perm.eq_of_pairwise (fun a b ha hb hab hba => ?_) hsorted_sort
      (hsorted.imp UInt32.le_of_lt) hperm
    obtain ⟨i, _, hai, hsa⟩ := MessageCache.mem_numbered.mp (hperm.subset ha)
    obtain ⟨j, _, hbj, hsb⟩ := MessageCache.mem_numbered.mp hb
    have hia := (List.getElem?_eq_some_iff.mp hai).1
    have hjb := (List.getElem?_eq_some_iff.mp hbj).1
    have hij : i = j := by
      have hle := UInt32.le_antisymm hab hba
      rw [hsa, hsb] at hle
      have := congrArg UInt32.toNat hle
      rw [toNat_ofNat_add_one (by omega), toNat_ofNat_add_one (by omega)] at this
      omega
    subst hij
    rw [hai, Option.some.injEq, Prod.mk.injEq] at hbj
    cases a
    cases b
    simp_all
  unfold MailboxState.uidsBySeqnum
  rw [hsort]
  unfold MessageCache.numbered MessageCache.uids
  rw [List.map_map, show ((·.uid) ∘ fun x : (UInt32 × UInt32) × Nat =>
      (⟨x.1.1, UInt32.ofNat x.2 + 1⟩ : ImapId)) = Prod.fst ∘ Prod.fst from rfl, ← List.map_map,
    List.zipIdx_map_fst]

end Fetched

/-! ## What a run of synchronizations keeps -/

/-- The deletions a state holds back: those of the newer state it waits on. -/
def MailboxState.pendingDeletions (state : MailboxState) : List ImapId :=
  (state.nextState.map (·.deletions)).getD []

/-- Two successive caches of an account, seen from a mailbox selected at `cache₀`: a change id
names one content, and a uid of the selected mailbox, once gone, does not come back (IMAP never
reuses a uid). -/
structure MessageCache.Follows (cache₀ : MessageCache) (mailboxId : UInt32)
    (cache cache' : MessageCache) : Prop where
  same_of_changeId : cache'.changeId = cache.changeId →
    cache'.uidMap mailboxId = cache.uidMap mailboxId
  gone : ∀ uid ∈ cache₀.uids mailboxId, uid ∈ cache'.uids mailboxId → uid ∈ cache.uids mailboxId

/-- A state that synchronizations have brought from the state `old`, fetched from `cache₀`, up to
the cache `cache`: it keeps the largest uid of `old`, the messages of `old` still in `cache` under
their old numbers, and holds back the messages of `old` gone from `cache`, once each, beside the
state fetched from `cache`. -/
structure Tracks (cache₀ : MessageCache) (mailboxId : UInt32) (old : MailboxState)
    (cache : MessageCache) (state : MailboxState) : Prop where
  uidMax_eq : state.uidMax = old.uidMax
  modseq_eq : state.modseq = cache.changeId
  lookup_iff : ∀ id imapId, state.idToImap.lookup id = some imapId ↔
    old.idToImap.lookup id = some imapId ∧ imapId.uid ∈ cache.uids mailboxId
  deletions_nodup : state.pendingDeletions.Nodup
  mem_deletions : ∀ imapId, imapId ∈ state.pendingDeletions ↔
    (∃ id, old.idToImap.lookup id = some imapId) ∧ imapId.uid ∉ cache.uids mailboxId
  fetched : ∀ next, state.nextState = some next →
    fetchMessages cache mailboxId none = some next.nextState
  unchanged : state.nextState = none → cache.uidMap mailboxId = cache₀.uidMap mailboxId

section Run

variable {cache₀ : MessageCache} {mailboxId : UInt32} {currentState : Option UInt64}
  {old : MailboxState}

/-- A fetched state tracks its own cache. -/
theorem Tracks.init (hdocs₀ : cache₀.DocumentsDistinct)
    (hold : fetchMessages cache₀ mailboxId currentState = some old) :
    Tracks cache₀ mailboxId old cache₀ old where
  uidMax_eq := rfl
  modseq_eq := fetchMessages_modseq hold
  lookup_iff _ _ := ⟨fun h => ⟨h, fetchMessages_uid_mem hdocs₀ hold h⟩, And.left⟩
  deletions_nodup := by simp [MailboxState.pendingDeletions, fetchMessages_nextState hold]
  mem_deletions imapId := by
    simp only [MailboxState.pendingDeletions, fetchMessages_nextState hold, Option.map_none,
      Option.getD_none, List.not_mem_nil, false_iff, not_and, not_not]
    rintro ⟨id, hlookup⟩
    exact fetchMessages_uid_mem hdocs₀ hold hlookup
  fetched next hnext := by rw [fetchMessages_nextState hold] at hnext; cases hnext
  unchanged _ := rfl

/-- A cache at the same change id, with the same content, is tracked alike. -/
theorem Tracks.of_same {cache cache' : MessageCache} {state : MailboxState}
    (h : Tracks cache₀ mailboxId old cache state) (hid : cache'.changeId = cache.changeId)
    (hmap : cache'.uidMap mailboxId = cache.uidMap mailboxId) :
    Tracks cache₀ mailboxId old cache' state := by
  have huids : cache'.uids mailboxId = cache.uids mailboxId := by
    unfold MessageCache.uids
    rw [hmap]
  refine ⟨h.uidMax_eq, h.modseq_eq.trans hid.symm, ?_, h.deletions_nodup, ?_, ?_, ?_⟩
  · rw [huids]
    exact h.lookup_iff
  · rw [huids]
    exact h.mem_deletions
  · intro next hnext
    rw [fetchMessages_congr hid hmap]
    exact h.fetched next hnext
  · exact fun hnone => hmap.trans (h.unchanged hnone)

/-- **One synchronization keeps the tracking**, moved to the newer cache. -/
theorem Tracks.synchronize (hdocs₀ : cache₀.DocumentsDistinct)
    (hold : fetchMessages cache₀ mailboxId currentState = some old)
    {cache cache' : MessageCache} {state : MailboxState}
    (h : Tracks cache₀ mailboxId old cache state) (hdocs : cache'.DocumentsDistinct)
    (hfollows : cache₀.Follows mailboxId cache cache') :
    Tracks cache₀ mailboxId old cache' (synchronizeMessages cache' mailboxId state).1 := by
  unfold synchronizeMessages
  cases hfetch : fetchMessages cache' mailboxId (some state.modseq) with
  | none =>
    -- the cache is at the state's change id: it is the cache the state tracks
    have hid : cache'.changeId = cache.changeId :=
      (fetchMessages_eq_none.mp hfetch).symm.trans h.modseq_eq
    exact h.of_same hid (hfollows.same_of_changeId hid)
  | some newState =>
    obtain ⟨hdels, hkept, -⟩ := foldl_syncStep newState state.idToImap.entries
      (state.pendingDeletions, ∅, state.uidToId) state.idToImap.nodupKeys
      (fun x _ => AList.notMem_empty _)
    have hhas := fetchMessages_hasUid hdocs hfetch
    -- a message of the state is a message of the old state still in the tracked cache
    have hstate : ∀ {x : Σ _ : UInt32, ImapId}, x ∈ state.idToImap.entries →
        old.idToImap.lookup x.1 = some x.2 ∧ x.2.uid ∈ cache.uids mailboxId := fun hx =>
      (h.lookup_iff _ _).mp (AList.mem_lookup_iff.mpr hx)
    have hold_uid : ∀ {id imapId}, old.idToImap.lookup id = some imapId →
        imapId.uid ∈ cache₀.uids mailboxId := fun hlookup =>
      fetchMessages_uid_mem hdocs₀ hold hlookup
    have hmodseq := fetchMessages_modseq hfetch
    refine ⟨h.uidMax_eq, hmodseq, fun id imapId => ?_, ?_, fun imapId => ?_, ?_, ?_⟩
    · -- the messages kept
      refine (hkept id imapId).trans ⟨?_, ?_⟩
      · rintro (hempty | ⟨hmem, hnew⟩)
        · simp [AList.lookup_empty] at hempty
        · exact ⟨(hstate hmem).1, (hhas _).mp hnew⟩
      · rintro ⟨hlookup, hnew⟩
        have hmem := AList.mem_lookup_iff.mp
          ((h.lookup_iff id imapId).mpr ⟨hlookup, hfollows.gone _ (hold_uid hlookup) hnew⟩)
        exact Or.inr ⟨hmem, (hhas _).mpr hnew⟩
    · -- the deletions gathered: those held back, then the messages gone now, once each
      show (List.foldl (syncStep newState) (state.pendingDeletions, ∅, state.uidToId)
        state.idToImap.entries).1.Nodup
      rw [hdels, List.nodup_append]
      refine ⟨h.deletions_nodup, ?_, ?_⟩
      · refine ((List.NodupKeys.nodup state.idToImap.nodupKeys).filter _).map_on
          fun x hx y hy hxy => ?_
        have hx' := hstate (List.mem_of_mem_filter hx)
        have hy' := hstate (List.mem_of_mem_filter hy)
        rw [hxy] at hx'
        exact Sigma.ext (fetchMessages_uid_inj hdocs₀ hold hx'.1 hy'.1 rfl).1 (heq_of_eq hxy)
      · intro a ha b hb hab
        subst hab
        obtain ⟨x, hx, rfl⟩ := List.mem_map.mp hb
        exact ((h.mem_deletions _).mp ha).2 (hstate (List.mem_of_mem_filter hx)).2
    · show imapId ∈ (List.foldl (syncStep newState) (state.pendingDeletions, ∅, state.uidToId)
        state.idToImap.entries).1 ↔ _
      rw [hdels, List.mem_append, h.mem_deletions]
      constructor
      · rintro (⟨hold_mem, hgone⟩ | hnew)
        · exact ⟨hold_mem, fun hin => hgone
            (hfollows.gone _ (hold_uid hold_mem.choose_spec) hin)⟩
        · obtain ⟨x, hx, rfl⟩ := List.mem_map.mp hnew
          obtain ⟨hmem, hgone⟩ := List.mem_filter.mp hx
          refine ⟨⟨x.1, (hstate hmem).1⟩, fun hin => ?_⟩
          rw [← hhas] at hin
          simp [hin] at hgone
      · rintro ⟨⟨id, hlookup⟩, hgone⟩
        by_cases hin : imapId.uid ∈ cache.uids mailboxId
        · -- still there at the last synchronization: gone now
          refine Or.inr (List.mem_map.mpr ⟨⟨id, imapId⟩, List.mem_filter.mpr ⟨?_, ?_⟩, rfl⟩)
          · exact AList.mem_lookup_iff.mp ((h.lookup_iff id imapId).mpr ⟨hlookup, hin⟩)
          · simpa [← hhas] using hgone
        · exact Or.inl ⟨⟨id, hlookup⟩, hin⟩
    · rintro next hnext
      cases hnext
      exact fetchMessages_none_of_some hfetch
    · intro hnone
      cases hnone

/-- **A run of synchronizations keeps the tracking**, up to the last cache it saw. -/
theorem Tracks.foldl_synchronize (hdocs₀ : cache₀.DocumentsDistinct)
    (hold : fetchMessages cache₀ mailboxId currentState = some old) :
    ∀ (caches : List MessageCache) {cache : MessageCache} {state : MailboxState},
      Tracks cache₀ mailboxId old cache state → (∀ c ∈ caches, c.DocumentsDistinct) →
      (cache :: caches).IsChain (cache₀.Follows mailboxId) →
      Tracks cache₀ mailboxId old ((cache :: caches).getLast (List.cons_ne_nil _ _))
        (caches.foldl (fun state c => (synchronizeMessages c mailboxId state).1) state)
  | [], _, _, h, _, _ => h
  | c :: caches, _, _, h, hdocs, hchain => by
    rw [List.isChain_cons_cons] at hchain
    rw [List.foldl_cons, List.getLast_cons (List.cons_ne_nil _ _)]
    exact Tracks.foldl_synchronize hdocs₀ hold caches
      (h.synchronize hdocs₀ hold (hdocs c List.mem_cons_self) hchain.1)
      (fun c' hc' => hdocs c' (List.mem_cons_of_mem _ hc')) hchain.2

end Run

/-! ## The client's reading of the announcements -/

/-- The client's reading of an untagged response, as IMAP prescribes it, on its list of the
mailbox's messages in sequence-number order, each known by its uid or not fetched yet (`none`):
`EXPUNGE n` removes the n-th message, `VANISHED` removes the messages of the given uids, and
`EXISTS n` extends the list to n messages with messages not fetched yet. -/
def applyUntagged (view : List (Option UInt32)) : Untagged → List (Option UInt32)
  | .expunge seqnum => view.eraseIdx (seqnum.toNat - 1)
  | .vanished _ ids => view.filter fun message => message.all fun uid => !ids.contains uid
  | .exists totalMessages => view ++ List.replicate (totalMessages - view.length) none

/-- **EXPUNGE numbering.** The EXPUNGE responses of ascending sequence numbers, each shifted down
by the EXPUNGEs before it, remove from the client's list exactly the messages of those numbers. -/
theorem foldl_applyUntagged_expunge (view : List (Option UInt32)) {seqnums : List UInt32}
    (hsorted : seqnums.Pairwise (· < ·)) (hpos : ∀ seqnum ∈ seqnums, 0 < seqnum) :
    (expungeResponses false seqnums).foldl applyUntagged view =
      view.keepIdx fun i => decide (i ∉ seqnums.map (·.toNat - 1)) := by
  have hnat : (seqnums.map UInt32.toNat).Pairwise (· < ·) :=
    List.pairwise_map.mpr (hsorted.imp UInt32.lt_iff_toNat_lt.mp)
  -- the n-th EXPUNGE is of a number above n, so the shift never saturates
  have hrank : ∀ x ∈ seqnums.zipIdx, x.2 < x.1.toNat := by
    intro x hx
    refine List.snd_lt_fst_of_mem_zipIdx _ 0 hnat (fun n hn => ?_) (x.1.toNat, x.2) ?_
    · obtain ⟨seqnum, hmem, rfl⟩ := List.mem_map.mp hn
      exact UInt32.lt_iff_toNat_lt.mp (hpos seqnum hmem)
    · rw [List.zipIdx_map]
      exact List.mem_map_of_mem hx
  have hpositions : (seqnums.map (·.toNat - 1)).Pairwise (· < ·) := by
    refine List.pairwise_map.mpr (hsorted.imp_of_mem fun {a b} ha _ hab => ?_)
    have ha0 := UInt32.lt_iff_toNat_lt.mp (hpos a ha)
    have hab' := UInt32.lt_iff_toNat_lt.mp hab
    simp only [UInt32.toNat_zero] at ha0
    omega
  have hshifted := List.foldl_eraseIdx_shifted _ view hpositions
  rw [List.zipIdx_map, List.foldl_map] at hshifted
  rw [← hshifted]
  unfold expungeResponses
  rw [if_pos (show (!false) = true from rfl), List.foldl_map]
  refine List.foldl_ext _ _ _ fun l x hx => ?_
  obtain ⟨seqnum, k⟩ := x
  have hk : k < seqnum.toNat := hrank _ hx
  have hofNat : (UInt32.ofNat k).toNat = k := by
    rw [UInt32.toNat_ofNat']
    have := seqnum.toNat_lt
    omega
  have hle : UInt32.ofNat k ≤ seqnum := by
    rw [UInt32.le_iff_toNat_le, hofNat]
    omega
  simp only [applyUntagged, saturatingSub, if_pos hle, UInt32.toNat_sub_of_le _ _ hle, hofNat,
    Prod.map, id_eq]
  congr 1
  omega

/-- Sorting distinct numbers ascending sorts them strictly. -/
theorem pairwise_lt_mergeSort {l : List UInt32} (hnodup : l.Nodup) :
    (l.mergeSort fun a b => decide (a ≤ b)).Pairwise (· < ·) := by
  have hle : (l.mergeSort fun a b => decide (a ≤ b)).Pairwise fun a b => decide (a ≤ b) = true :=
    List.pairwise_mergeSort (fun a b c hab hbc => by
        simp only [decide_eq_true_eq] at hab hbc ⊢
        exact UInt32.le_trans hab hbc)
      (fun a b => by simpa using UInt32.le_total a b) l
  exact (hle.and ((List.mergeSort_perm l _).nodup_iff.mpr hnodup)).imp fun ⟨hab, hne⟩ =>
    UInt32.lt_of_le_of_ne (of_decide_eq_true hab) hne

/-- The client's list, once the messages at the positions of the gone messages are removed, holds
the messages that stayed. -/
theorem keepIdx_map_some {positions : List Nat} {uids kept : List UInt32}
    (hpositions : ∀ i, i ∈ positions ↔ ∃ uid, uids[i]? = some uid ∧ uid ∉ kept) :
    (uids.map some).keepIdx (fun i => decide (i ∉ positions)) =
      (uids.filter (· ∈ kept)).map some := by
  have hkeep : ∀ x ∈ (uids.map some).zipIdx,
      decide (x.2 ∉ positions) = x.1.all fun uid => decide (uid ∈ kept) := by
    rintro ⟨message, i⟩ hx
    rw [List.mem_zipIdx_iff_getElem?, List.getElem?_map] at hx
    obtain ⟨uid, huid, rfl⟩ := Option.map_eq_some_iff.mp hx
    have := hpositions i
    simp only [huid, Option.some.injEq, exists_eq_left'] at this
    by_cases hin : uid ∈ kept <;> simp [this, hin]
  rw [List.keepIdx_eq_filter hkeep, List.filter_map]
  rfl

/-! ## The announcements of `write_mailbox_changes` -/

/-- **The client's list after a change.** When the messages that stayed come first in the new
list, the list the client ends with, the messages that stayed and then as many unknown ones as the
new list has more, is the new list with the new messages unknown. -/
theorem view_of_split {old new : List UInt32}
    (hsplit : new = old.filter (· ∈ new) ++ new.filter (· ∉ old)) :
    (old.filter (· ∈ new)).map some ++
        List.replicate (new.length - (old.filter (· ∈ new)).length) none =
      new.map fun uid => if uid ∈ old then some uid else none := by
  have hlen : new.length - (old.filter (· ∈ new)).length = (new.filter (· ∉ old)).length := by
    have := congrArg List.length hsplit
    rw [List.length_append] at this
    omega
  have hstayed : (old.filter (· ∈ new)).map (fun uid => if uid ∈ old then some uid else none) =
      (old.filter (· ∈ new)).map some :=
    List.map_congr_left fun uid huid => if_pos (List.mem_filter.mp huid).1
  have hnew : (new.filter (· ∉ old)).map (fun uid => if uid ∈ old then some uid else none) =
      List.replicate (new.filter (· ∉ old)).length none := by
    refine List.eq_replicate_iff.mpr ⟨List.length_map _, fun x hx => ?_⟩
    obtain ⟨uid, huid, rfl⟩ := List.mem_map.mp hx
    exact if_neg (by simpa using (List.mem_filter.mp huid).2)
  rw [hlen]
  conv_rhs => rw [hsplit]
  rw [List.map_append, hstayed, hnew]

/-- **The messages that stayed come first**: the new list, sorted by uid, is the old list's
messages that stayed, then the new messages, whose uids are above all the old ones. -/
theorem uids_split {old new : List UInt32} (hold : old.Pairwise (· < ·))
    (hnew : new.Pairwise (· < ·)) (hfresh : ∀ uid ∈ new, uid ∉ old → ∀ uid' ∈ old, uid' < uid) :
    new = old.filter (· ∈ new) ++ new.filter (· ∉ old) := by
  have hasymm : ∀ {a b : UInt32}, a < b → ¬ b < a := fun hab => UInt32.lt_asymm hab
  have hparts := List.eq_filter_append_filter_not (fun uid => decide (uid ∈ old)) hasymm hnew
    fun x hx y hy hpx hpy => hfresh x hx (by simpa using hpx) y (by simpa using hpy)
  -- the messages that stayed, in either list's order, are one sorted list
  have hstayed : new.filter (· ∈ old) = old.filter (· ∈ new) := by
    have hnodup : ∀ {l : List UInt32}, l.Pairwise (· < ·) → l.Nodup := fun h =>
      h.imp fun hab heq => by rw [heq] at hab; exact UInt32.lt_irrefl _ hab
    refine List.Perm.eq_of_pairwise (fun a b _ _ hab hba => absurd hba (hasymm hab))
      (hnew.filter _) (hold.filter _) ((List.perm_ext_iff_of_nodup (hnodup (hnew.filter _))
        (hnodup (hold.filter _))).mpr fun uid => ?_)
    simp only [List.mem_filter, decide_eq_true_eq]
    exact And.comm
  rw [← hstayed]
  conv_lhs => rw [hparts]
  simp only [decide_not]

/-- `u32::saturating_sub` is positive exactly when it subtracts a smaller number. -/
theorem saturatingSub_pos {a b : UInt32} : 0 < saturatingSub a b ↔ b < a := by
  unfold saturatingSub
  split
  · rename_i hle
    rw [UInt32.lt_iff_toNat_lt, UInt32.toNat_sub_of_le _ _ hle, UInt32.lt_iff_toNat_lt]
    simp only [UInt32.toNat_zero]
    omega
  · rename_i hlt
    rw [UInt32.le_iff_toNat_le] at hlt
    simp only [UInt32.lt_irrefl, false_iff, UInt32.lt_iff_toNat_lt]
    omega

/-- The expunge responses are EXPUNGEs, or under QRESYNC one VANISHED of the uids given. -/
theorem mem_expungeResponses {isQresync : Bool} {ids : List UInt32} {response : Untagged}
    (h : response ∈ expungeResponses isQresync ids) :
    (∃ seqnum, response = .expunge seqnum) ∨ (isQresync = true ∧ response = .vanished false ids) := by
  unfold expungeResponses at h
  split at h
  · obtain ⟨⟨id, k⟩, -, rfl⟩ := List.mem_map.mp h
    exact Or.inl ⟨_, rfl⟩
  · rename_i hq
    exact Or.inr ⟨by simpa using hq, List.mem_singleton.mp h⟩

section Announce

variable {cache₀ cache : MessageCache} {mailboxId : UInt32} {currentState : Option UInt64}
  {old state : MailboxState} {next : NextMailboxState}

theorem pendingDeletions_of_nextState (hnext : state.nextState = some next) :
    state.pendingDeletions = next.deletions := by
  simp [MailboxState.pendingDeletions, hnext]

/-- The uids of the pending deletions: those of the old state gone from the cache. -/
theorem Tracks.mem_deletions_uid (hdocs₀ : cache₀.DocumentsDistinct)
    (hold : fetchMessages cache₀ mailboxId currentState = some old)
    (h : Tracks cache₀ mailboxId old cache state) (hnext : state.nextState = some next)
    (uid : UInt32) :
    uid ∈ next.deletions.map (·.uid) ↔ uid ∈ cache₀.uids mailboxId ∧ uid ∉ cache.uids mailboxId := by
  rw [← pendingDeletions_of_nextState hnext, List.mem_map]
  constructor
  · rintro ⟨imapId, hmem, rfl⟩
    obtain ⟨⟨id, hlookup⟩, hgone⟩ := (h.mem_deletions imapId).mp hmem
    exact ⟨fetchMessages_uid_mem hdocs₀ hold hlookup, hgone⟩
  · rintro ⟨hin, hgone⟩
    obtain ⟨⟨uid', id⟩, hmem, rfl⟩ := List.mem_map.mp hin
    obtain ⟨i, hget⟩ := List.getElem?_of_mem hmem
    have hlookup := (fetchMessages_lookup hdocs₀ hold id ⟨uid', UInt32.ofNat i + 1⟩).mpr
      ⟨i, hget, rfl⟩
    exact ⟨_, (h.mem_deletions _).mpr ⟨⟨id, hlookup⟩, hgone⟩, rfl⟩

/-- The positions of the pending deletions in the client's list: those of the old messages gone
from the cache. -/
theorem Tracks.mem_deletions_position (hdocs₀ : cache₀.DocumentsDistinct)
    (hold : fetchMessages cache₀ mailboxId currentState = some old)
    (hbound₀ : (cache₀.uidMap mailboxId).length < UInt32.size)
    (h : Tracks cache₀ mailboxId old cache state) (hnext : state.nextState = some next) (i : Nat) :
    i ∈ next.deletions.map (·.seqnum.toNat - 1) ↔
      ∃ uid, (cache₀.uids mailboxId)[i]? = some uid ∧ uid ∉ cache.uids mailboxId := by
  rw [← pendingDeletions_of_nextState hnext, List.mem_map]
  constructor
  · rintro ⟨imapId, hmem, rfl⟩
    obtain ⟨⟨id, hlookup⟩, hgone⟩ := (h.mem_deletions imapId).mp hmem
    obtain ⟨j, hget, hseq⟩ := (fetchMessages_lookup hdocs₀ hold id imapId).mp hlookup
    have hj := (List.getElem?_eq_some_iff.mp hget).1
    refine ⟨imapId.uid, ?_, hgone⟩
    rw [hseq, toNat_ofNat_add_one (by omega), Nat.add_sub_cancel, MessageCache.uids,
      List.getElem?_map, hget]
    rfl
  · rintro ⟨uid, hget, hgone⟩
    rw [MessageCache.uids, List.getElem?_map] at hget
    obtain ⟨⟨uid', id⟩, hget', rfl⟩ := Option.map_eq_some_iff.mp hget
    have hi := (List.getElem?_eq_some_iff.mp hget').1
    have hlookup := (fetchMessages_lookup hdocs₀ hold id ⟨uid', UInt32.ofNat i + 1⟩).mpr
      ⟨i, hget', rfl⟩
    refine ⟨_, (h.mem_deletions _).mpr ⟨⟨id, hlookup⟩, hgone⟩, ?_⟩
    show (UInt32.ofNat i + 1).toNat - 1 = i
    rw [toNat_ofNat_add_one (by omega)]
    rfl

/-- The pending deletions are old messages, once each: their sequence numbers are distinct and
positive, and so are their uids. -/
theorem Tracks.deletions_distinct (hdocs₀ : cache₀.DocumentsDistinct)
    (hold : fetchMessages cache₀ mailboxId currentState = some old)
    (hbound₀ : (cache₀.uidMap mailboxId).length < UInt32.size)
    (h : Tracks cache₀ mailboxId old cache state) (hnext : state.nextState = some next) :
    (next.deletions.map (·.seqnum)).Nodup ∧ (∀ seqnum ∈ next.deletions.map (·.seqnum), 0 < seqnum) ∧
      (next.deletions.map (·.uid)).Nodup := by
  have hdels := h.deletions_nodup
  rw [pendingDeletions_of_nextState hnext] at hdels
  have hold_of : ∀ imapId ∈ next.deletions, ∃ id, old.idToImap.lookup id = some imapId :=
    fun imapId hmem => ((h.mem_deletions imapId).mp
      (by rw [pendingDeletions_of_nextState hnext]; exact hmem)).1
  refine ⟨hdels.map_on fun a ha b hb hab => ?_, fun seqnum hseq => ?_,
    hdels.map_on fun a ha b hb hab => ?_⟩
  · obtain ⟨id, hida⟩ := hold_of a ha
    obtain ⟨id', hidb⟩ := hold_of b hb
    exact (fetchMessages_seqnum_inj hdocs₀ hold hbound₀ hida hidb hab).2
  · obtain ⟨imapId, hmem, rfl⟩ := List.mem_map.mp hseq
    obtain ⟨id, hlookup⟩ := hold_of imapId hmem
    obtain ⟨i, hget, hseq⟩ := (fetchMessages_lookup hdocs₀ hold id imapId).mp hlookup
    have hi := (List.getElem?_eq_some_iff.mp hget).1
    rw [UInt32.lt_iff_toNat_lt, hseq, toNat_ofNat_add_one (by omega)]
    exact Nat.succ_pos i
  · obtain ⟨id, hida⟩ := hold_of a ha
    obtain ⟨id', hidb⟩ := hold_of b hb
    exact (fetchMessages_uid_inj hdocs₀ hold hida hidb hab).2

/-- **The deletions, announced.** Applied to the client's list in the old numbering, the EXPUNGE
responses of the pending deletions, or their VANISHED response under QRESYNC, leave the messages
that stayed. -/
theorem Tracks.foldl_applyUntagged_deletions (hdocs₀ : cache₀.DocumentsDistinct)
    (hold : fetchMessages cache₀ mailboxId currentState = some old)
    (hbound₀ : (cache₀.uidMap mailboxId).length < UInt32.size)
    (h : Tracks cache₀ mailboxId old cache state) (hnext : state.nextState = some next)
    (isQresync : Bool) :
    (if (!next.deletions.isEmpty) = true then
        expungeResponses isQresync
          ((next.deletions.map fun id => if isQresync = true then id.uid else id.seqnum).mergeSort
            fun a b => decide (a ≤ b))
      else []).foldl applyUntagged ((cache₀.uids mailboxId).map some) =
      ((cache₀.uids mailboxId).filter (· ∈ cache.uids mailboxId)).map some := by
  obtain ⟨hseq_nodup, hseq_pos, huid_nodup⟩ := h.deletions_distinct hdocs₀ hold hbound₀ hnext
  split
  · cases isQresync
    · -- EXPUNGE, by sequence number in ascending order
      simp only [Bool.false_eq_true, if_false]
      rw [foldl_applyUntagged_expunge _ (pairwise_lt_mergeSort hseq_nodup)
        fun seqnum hseq => hseq_pos seqnum ((List.mergeSort_perm _ _).subset hseq)]
      refine keepIdx_map_some fun i => ?_
      rw [← h.mem_deletions_position hdocs₀ hold hbound₀ hnext i,
        ((List.mergeSort_perm _ _).map _).mem_iff, List.map_map]
      rfl
    · -- VANISHED, by uid
      simp only [if_true, expungeResponses, Bool.not_true, Bool.false_eq_true, if_false,
        List.foldl_cons, List.foldl_nil, applyUntagged, List.filter_map]
      congr 1
      refine List.filter_congr fun uid huid => ?_
      have hgone := h.mem_deletions_uid hdocs₀ hold hnext uid
      have hsorted_mem : uid ∈ (next.deletions.map (·.uid)).mergeSort (fun a b => decide (a ≤ b)) ↔
          uid ∈ next.deletions.map (·.uid) :=
        (List.mergeSort_perm _ _).mem_iff
      rw [Function.comp_apply, Option.all_some, List.contains_eq_mem]
      by_cases hin : uid ∈ cache.uids mailboxId <;> simp [hsorted_mem, hgone, huid, hin]
  · -- nothing gone: every message stayed
    rename_i hempty
    rw [List.foldl_nil, List.filter_eq_self.mpr fun uid huid => ?_]
    by_contra hgone
    have hmem := (h.mem_deletions_uid hdocs₀ hold hnext uid).mpr ⟨huid, by simpa using hgone⟩
    obtain ⟨imapId, himapId, -⟩ := List.mem_map.mp hmem
    simp [List.ne_nil_of_mem himapId] at hempty

end Announce

/-- **The announcements keep the client in step.** A client that selected a mailbox at the state
`old` fetched from `cache₀`, and that reads the responses of `write_mailbox_changes` after any
number of synchronizations, ends with the list of the state `new` fetched from the last cache,
the new messages not fetched yet: in its sequence-number order, the EXPUNGE responses (or the
VANISHED response under QRESYNC) remove exactly the messages gone, and EXISTS gives the new
number of messages. Under QRESYNC the VANISHED uids are exactly the uids gone. -/
theorem writeMailboxChanges_client_view {cache₀ cache : MessageCache}
    {syncs : List MessageCache} {mailboxId : UInt32} {currentState : Option UInt64}
    {old new : MailboxState} (hold : fetchMessages cache₀ mailboxId currentState = some old)
    (hnew : fetchMessages cache mailboxId none = some new)
    (hdocs : ∀ c ∈ cache₀ :: syncs ++ [cache], c.DocumentsDistinct)
    (hfollows : (cache₀ :: syncs ++ [cache]).IsChain (cache₀.Follows mailboxId))
    (hfresh : ∀ uid ∈ new.uidsBySeqnum, uid ∉ old.uidsBySeqnum → old.uidMax < uid)
    (hbound : old.totalMessages < UInt32.size ∧ new.totalMessages < UInt32.size)
    (isQresync : Bool) :
    let responses := (writeMailboxChanges cache mailboxId
      (syncs.foldl (fun state c => (synchronizeMessages c mailboxId state).1) old) isQresync).2.1
    responses.foldl applyUntagged (old.uidsBySeqnum.map some) =
        new.uidsBySeqnum.map (fun uid => if uid ∈ old.uidsBySeqnum then some uid else none) ∧
      (∀ n, Untagged.exists n ∈ responses → n = new.totalMessages) ∧
      ∀ earlier ids, Untagged.vanished earlier ids ∈ responses →
        isQresync = true ∧ ∀ uid, uid ∈ ids ↔ uid ∈ old.uidsBySeqnum ∧ uid ∉ new.uidsBySeqnum := by
  have hdocs₀ := hdocs cache₀ List.mem_cons_self
  have hdocsw := hdocs cache (List.mem_cons_of_mem _ (List.mem_append_right _ List.mem_cons_self))
  have hbound₀ := fetchMessages_totalMessages hdocs₀ hold ▸ hbound.1
  -- the run of synchronizations, the one `write_mailbox_changes` makes included
  have htracks : Tracks cache₀ mailboxId old cache (synchronizeMessages cache mailboxId
      (syncs.foldl (fun state c => (synchronizeMessages c mailboxId state).1) old)).1 := by
    have hrun := Tracks.foldl_synchronize hdocs₀ hold (syncs ++ [cache]) (Tracks.init hdocs₀ hold)
      (fun c hc => hdocs c (List.mem_cons_of_mem _ hc)) hfollows
    rwa [List.foldl_append, List.foldl_cons, List.foldl_nil, List.getLast_cons
      (by simp), List.getLast_append_singleton] at hrun
  rw [fetchMessages_uidsBySeqnum hdocs₀ hold hbound.1,
    fetchMessages_uidsBySeqnum hdocsw hnew hbound.2] at hfresh ⊢
  dsimp only
  unfold writeMailboxChanges
  generalize synchronizeMessages cache mailboxId
    (syncs.foldl (fun state c => (synchronizeMessages c mailboxId state).1) old) = synced at htracks
  obtain ⟨synced, modseq⟩ := synced
  dsimp only at htracks ⊢
  cases hnext : synced.nextState with
  | none =>
    -- nothing newer was fetched: the cache is still the selected one
    have huids : cache.uids mailboxId = cache₀.uids mailboxId := by
      unfold MessageCache.uids
      rw [htracks.unchanged hnext]
    refine ⟨?_, by simp, by simp⟩
    rw [huids, List.foldl_nil]
    exact (List.map_congr_left fun uid huid => if_pos huid).symm
  | some next =>
    dsimp only
    have hfetched : next.nextState = new :=
      Option.some.inj ((htracks.fetched next hnext).symm.trans hnew)
    rw [hfetched]
    have hview := htracks.foldl_applyUntagged_deletions hdocs₀ hold hbound₀ hnext isQresync
    generalize hbuf : (if (!next.deletions.isEmpty) = true then
        expungeResponses isQresync
          ((next.deletions.map fun id => if isQresync = true then id.uid else id.seqnum).mergeSort
            fun a b => decide (a ≤ b))
      else []) = buf at hview ⊢
    have hsplit := uids_split (cache₀.uids_sorted mailboxId) (cache.uids_sorted mailboxId)
      fun uid huid hgone uid' huid' =>
        UInt32.lt_of_le_of_lt (fetchMessages_le_uidMax hold uid' huid') (hfresh uid huid hgone)
    -- what the deletions announce: EXPUNGEs, or the VANISHED uids gone under QRESYNC
    have hbuf_mem : ∀ response ∈ buf, (∃ seqnum, response = .expunge seqnum) ∨
        (isQresync = true ∧ ∃ ids, response = .vanished false ids ∧
          ∀ uid, uid ∈ ids ↔ uid ∈ cache₀.uids mailboxId ∧ uid ∉ cache.uids mailboxId) := by
      intro response hresponse
      rw [← hbuf] at hresponse
      split at hresponse
      · rcases mem_expungeResponses hresponse with hexp | ⟨hq, rfl⟩
        · exact Or.inl hexp
        · subst hq
          refine Or.inr ⟨rfl, _, rfl, fun uid => ?_⟩
          rw [(List.mergeSort_perm _ _).mem_iff]
          exact htracks.mem_deletions_uid hdocs₀ hold hnext uid
      · cases hresponse
    have htotal : new.totalMessages = (cache.uids mailboxId).length := by
      rw [fetchMessages_totalMessages hdocsw hnew, MessageCache.uids, List.length_map]
    refine ⟨?_, fun n hn => ?_, fun earlier ids hvanished => ?_⟩
    · split
      · -- EXISTS follows: the client extends its list to the new number of messages
        rw [List.foldl_append, hview, List.foldl_cons, List.foldl_nil, htotal]
        simp only [applyUntagged, List.length_map]
        exact view_of_split hsplit
      · -- no EXISTS: nothing was announced, and no uid grew past the old largest one
        rename_i hquiet
        simp only [Bool.or_eq_true, Bool.not_eq_true', List.isEmpty_eq_false_iff, not_or,
          decide_eq_true_eq, not_not] at hquiet
        have hnone_new : (cache.uids mailboxId).filter (· ∉ cache₀.uids mailboxId) = [] := by
          refine List.filter_eq_nil_iff.mpr fun uid huid hgone => ?_
          have hgrew := UInt32.lt_of_lt_of_le (hfresh uid huid (by simpa using hgone))
            (fetchMessages_le_uidMax hnew uid huid)
          rw [← htracks.uidMax_eq] at hgrew
          exact hquiet.2 (saturatingSub_pos.mpr hgrew)
        rw [hview]
        conv_rhs => rw [hsplit, hnone_new, List.append_nil]
        exact (List.map_congr_left fun uid huid => if_pos (List.mem_filter.mp huid).1).symm
    · -- the only EXISTS is the one appended, of the new number of messages
      have hnot_buf : Untagged.exists n ∉ buf := fun hn => by
        rcases hbuf_mem _ hn with ⟨_, hexp⟩ | ⟨_, _, hvan, _⟩
        · cases hexp
        · cases hvan
      split at hn
      · rcases List.mem_append.mp hn with hn | hn
        · exact absurd hn hnot_buf
        · cases List.mem_singleton.mp hn
          rfl
      · exact absurd hn hnot_buf
    · -- a VANISHED is the one of the deletions
      have hmem : Untagged.vanished earlier ids ∈ buf := by
        split at hvanished
        · rcases List.mem_append.mp hvanished with hv | hv
          · exact hv
          · cases List.mem_singleton.mp hv
        · exact hvanished
      rcases hbuf_mem _ hmem with ⟨_, hexp⟩ | ⟨hq, ids', hvan, hids⟩
      · cases hexp
      · cases hvan
        exact ⟨hq, hids⟩

/-- A mailbox 1 of three messages, of uids 1, 2 and 3, at change 3. -/
def threeMessageCache : MessageCache := ⟨3, [⟨7, [(1, 1)]⟩, ⟨8, [(1, 2)]⟩, ⟨9, [(1, 3)]⟩]⟩

/-- The same mailbox at change 5: the message of uid 2 is gone, one of uid 4 has arrived. -/
def laterCache : MessageCache := ⟨5, [⟨7, [(1, 1)]⟩, ⟨9, [(1, 3)]⟩, ⟨10, [(1, 4)]⟩]⟩

theorem writeMailboxChanges_client_view_expunge : ∃ old new,
    fetchMessages threeMessageCache 1 none = some old ∧
    fetchMessages laterCache 1 none = some new ∧
    (writeMailboxChanges laterCache 1 old false).2.1.foldl applyUntagged
        (old.uidsBySeqnum.map some) =
      new.uidsBySeqnum.map fun uid => if uid ∈ old.uidsBySeqnum then some uid else none := by
  refine ⟨_, _, rfl, rfl, (@writeMailboxChanges_client_view threeMessageCache laterCache [] 1 none
    _ _ rfl rfl (by decide) ?_ ?_ ⟨by decide, by decide⟩ false).1⟩
  · exact List.IsChain.cons_cons ⟨fun hid => absurd hid (by decide), fun _ huid _ => huid⟩
      (List.IsChain.singleton _)
  · rw [@fetchMessages_uidsBySeqnum laterCache 1 none _ (by decide) rfl (by decide),
      @fetchMessages_uidsBySeqnum threeMessageCache 1 none _ (by decide) rfl (by decide)]
    -- decided along the list of uids, not over every `UInt32`
    exact @of_decide_eq_true _ (List.decidableBAll _ _) (by decide +kernel)

end Stalwart.Imap
