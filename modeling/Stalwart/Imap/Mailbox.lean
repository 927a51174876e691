import Mathlib.Data.List.AList
import Mathlib.Data.List.Nodup
import Stalwart.Lib.SortedMap

/-!
# The selected mailbox of an IMAP session

A session that has selected a mailbox keeps a `MailboxState`: its messages by document id with
their uid and sequence number (`id_to_imap`), the inverse map from uid to document id
(`uid_to_id`), the largest uid and the modification sequence it was built at. The state is built
from the account's message cache (`fetch_messages`), brought up to date with a newer cache
(`synchronize_messages`, which keeps the messages that vanished until they are announced), replaced
by the newer state once the changes are written to the client (`write_mailbox_changes`), and
patched with the messages the session appends itself (`append_messages`).

## What is proved

`fetch_messages`, `synchronize_messages` and `write_mailbox_changes` keep the two maps inverse
(`UidsInverse`), over any run of them (`Reachable.consistent`). `append_messages` does not: it
maps each appended uid to itself rather than to the appended message's document id.
-/

namespace Stalwart.Imap

/-- `ImapId`: a message's uid and its sequence number in the session's view. -/
structure ImapId where
  uid : UInt32
  seqnum : UInt32
  deriving DecidableEq, Repr

/-- `ImapUidToId`: a message the session appended, by uid and document id. -/
structure ImapUidToId where
  uid : UInt32
  id : UInt32
  deriving DecidableEq, Repr

/-- An `AHashMap<u32, V>`: one value per key. Its iteration order is not specified; the model
iterates the entries in list order. -/
abbrev U32Map (V : Type) := AList (fun _ : UInt32 => V)

mutual

/-- `MailboxState`. -/
structure MailboxState where
  uidMax : UInt32
  idToImap : U32Map ImapId
  uidToId : U32Map UInt32
  totalMessages : Nat
  modseq : UInt64
  nextState : Option NextMailboxState

/-- `NextMailboxState`: the newer state of the mailbox, and the messages of the current one that
are gone from it and not announced yet. -/
structure NextMailboxState where
  nextState : MailboxState
  deletions : List ImapId

end

/-- A message of the account's message cache: its document id, and its uid in each mailbox
that holds it, as `(mailbox_id, uid)`. -/
structure CachedMessage where
  documentId : UInt32
  mailboxes : List (UInt32 × UInt32)
  deriving DecidableEq, Repr

/-- The email part of an account's message cache: its change id and its messages. -/
structure MessageCache where
  changeId : UInt64
  items : List CachedMessage
  deriving DecidableEq, Repr

/-- The uid of a cached message in a mailbox (the `find_map` over its mailboxes). -/
def CachedMessage.uidIn (mailboxId : UInt32) (item : CachedMessage) : Option UInt32 :=
  (item.mailboxes.find? (·.1 == mailboxId)).map (·.2)

/-- The `(uid, document_id)` pairs of the messages of a mailbox, in cache order. -/
def MessageCache.uidEntries (cache : MessageCache) (mailboxId : UInt32) :
    List (UInt32 × UInt32) :=
  cache.items.filterMap fun item => (item.uidIn mailboxId).map (·, item.documentId)

/-- `uid_map`: the messages of a mailbox collected into a `BTreeMap` from uid to document id,
listed in uid order. -/
def MessageCache.uidMap (cache : MessageCache) (mailboxId : UInt32) : List (UInt32 × UInt32) :=
  (cache.uidEntries mailboxId).foldl
    (fun map entry => map.insertSorted UInt32.toNat entry.1 entry.2) []

/-- One step of the loop of `fetch_messages`: the message of uid `uid` and document id
`messageId` gets sequence number `seqnum + 1`. -/
def fetchStep (acc : UInt32 × U32Map ImapId × U32Map UInt32)
    (entry : (UInt32 × UInt32) × Nat) : UInt32 × U32Map ImapId × U32Map UInt32 :=
  let ((uid, messageId), seqnum) := entry
  (if uid > acc.1 then uid else acc.1,
    acc.2.1.insert messageId ⟨uid, UInt32.ofNat seqnum + 1⟩,
    acc.2.2.insert uid messageId)

/-- `fetch_messages`: the state of a mailbox from the message cache; `none` when the cache is at
the change id the caller already has. -/
def fetchMessages (cache : MessageCache) (mailboxId : UInt32) (currentState : Option UInt64) :
    Option MailboxState :=
  if currentState.any (· == cache.changeId) then none
  else
    let (uidMax, idToImap, uidToId) :=
      ((cache.uidMap mailboxId).zipIdx).foldl fetchStep (0, ∅, ∅)
    some { totalMessages := idToImap.entries.length, idToImap, uidToId, uidMax,
           modseq := cache.changeId, nextState := none }

/-- One step of the loop of `synchronize_messages` over the current messages: a message whose uid
is gone from the newer state is added to the deletions and its uid forgotten; the others stay. -/
def syncStep (newState : MailboxState) (acc : List ImapId × U32Map ImapId × U32Map UInt32)
    (entry : Σ _ : UInt32, ImapId) : List ImapId × U32Map ImapId × U32Map UInt32 :=
  if (newState.uidToId.lookup entry.2.uid).isNone then
    (acc.1 ++ [entry.2], acc.2.1, acc.2.2.erase entry.2.uid)
  else (acc.1, acc.2.1.insert entry.1 entry.2, acc.2.2)

/-- `synchronize_messages`, on the message cache as it stands: with a newer cache, the messages
gone from it leave the current maps and join the pending deletions, and the newer state waits in
`next_state`. Returns the state and its modification sequence. -/
def synchronizeMessages (cache : MessageCache) (mailboxId : UInt32) (state : MailboxState) :
    MailboxState × UInt64 :=
  match fetchMessages cache mailboxId (some state.modseq) with
  | none => (state, state.modseq)
  | some newState =>
    let (deletions, idToImap, uidToId) := state.idToImap.entries.foldl (syncStep newState)
      ((state.nextState.map (·.deletions)).getD [], ∅, state.uidToId)
    ({ state with idToImap, uidToId, modseq := newState.modseq,
                  nextState := some ⟨newState, deletions⟩ }, newState.modseq)

/-- `u32::saturating_sub`. -/
def saturatingSub (a b : UInt32) : UInt32 := if b ≤ a then a - b else 0

/-- The untagged responses that announce changes to a selected mailbox. -/
inductive Untagged where
  /-- `* n EXPUNGE` -/
  | expunge (seqnum : UInt32)
  /-- `* VANISHED [(EARLIER)] uids` -/
  | vanished (earlier : Bool) (ids : List UInt32)
  /-- `* n EXISTS` -/
  | exists (totalMessages : Nat)
  deriving DecidableEq, Repr

/-- `expunge::Response::serialize_to`: one EXPUNGE per sequence number, each shifted down by the
number of EXPUNGEs before it; under QRESYNC a single VANISHED of all the uids. -/
def expungeResponses (isQresync : Bool) (ids : List UInt32) : List Untagged :=
  if !isQresync then
    ids.zipIdx.map fun (id, numDeletions) => .expunge (saturatingSub id (UInt32.ofNat numDeletions))
  else [.vanished false ids]

/-- `write_mailbox_changes`: synchronizes, then announces the pending deletions (as sequence
numbers, or uids under QRESYNC, sorted), then the new number of messages when something was
expunged or the largest uid grew, and moves to the newer state. -/
def writeMailboxChanges (cache : MessageCache) (mailboxId : UInt32) (state : MailboxState)
    (isQresync : Bool) : MailboxState × List Untagged × UInt64 :=
  let (state, modseq) := synchronizeMessages cache mailboxId state
  match state.nextState with
  | none => (state, [], modseq)
  | some next =>
    let buf := if !next.deletions.isEmpty then
        expungeResponses isQresync
          ((next.deletions.map fun id => if isQresync then id.uid else id.seqnum).mergeSort
            (fun a b => decide (a ≤ b)))
      else []
    let buf := if !buf.isEmpty || saturatingSub next.nextState.uidMax state.uidMax > 0 then
        buf ++ [.exists next.nextState.totalMessages]
      else buf
    (next.nextState, buf, modseq)

/-- One step of the loop of `append_messages`: the message takes the next sequence number. -/
def appendStep (acc : MailboxState × UInt32) (id : ImapUidToId) : MailboxState × UInt32 :=
  let totalMessages := acc.1.totalMessages + 1
  ({ acc.1 with
      totalMessages
      uidToId := acc.1.uidToId.insert id.uid id.uid
      idToImap := acc.1.idToImap.insert id.id ⟨id.uid, UInt32.ofNat totalMessages⟩ }, id.uid)

/-- `append_messages`: the session adds the messages it appended, when the change that appended
them is newer than the state. The largest uid becomes the last appended one. -/
def appendMessages (state : MailboxState) (ids : List ImapUidToId) (modseq : Option UInt64) :
    MailboxState :=
  if modseq.getD 0 > state.modseq then
    let (state, uidMax) := ids.foldl appendStep (state, 0)
    { state with uidMax }
  else state

/-! ## The two maps are inverse -/

/-- `uid_to_id` inverts `id_to_imap`: the uid of each message maps back to its document id, and
every uid the map has is the uid of a message. -/
def Inverse (idToImap : U32Map ImapId) (uidToId : U32Map UInt32) : Prop :=
  (∀ id imapId, idToImap.lookup id = some imapId → uidToId.lookup imapId.uid = some id) ∧
    ∀ uid ∈ uidToId, ∃ id imapId, idToImap.lookup id = some imapId ∧ imapId.uid = uid

/-- The invariant of a selected state: its maps are inverse. -/
def MailboxState.UidsInverse (state : MailboxState) : Prop :=
  Inverse state.idToImap state.uidToId

theorem Inverse.empty : Inverse ∅ ∅ :=
  ⟨fun id imapId h => by simp [AList.lookup_empty] at h,
    fun uid h => absurd h (AList.notMem_empty uid)⟩

/-- **Adding a message** of a fresh document id and a fresh uid keeps the maps inverse. -/
theorem Inverse.insert {idToImap : U32Map ImapId} {uidToId : U32Map UInt32}
    (h : Inverse idToImap uidToId) {id uid : UInt32} (hid : id ∉ idToImap)
    (huid : uid ∉ uidToId) (seqnum : UInt32) :
    Inverse (idToImap.insert id ⟨uid, seqnum⟩) (uidToId.insert uid id) := by
  constructor
  · intro id' imapId hlookup
    by_cases hid' : id' = id
    · subst hid'
      rw [AList.lookup_insert] at hlookup
      cases hlookup
      exact AList.lookup_insert _
    · rw [AList.lookup_insert_ne hid'] at hlookup
      have hback := h.1 id' imapId hlookup
      -- the old message's uid is not the fresh one
      have hne : imapId.uid ≠ uid := fun heq =>
        huid (heq ▸ AList.lookup_isSome.mp (by rw [hback]; rfl))
      rw [AList.lookup_insert_ne hne]
      exact hback
  · intro uid' hmem
    rcases (AList.mem_insert _).mp hmem with rfl | hmem
    · exact ⟨id, ⟨uid', seqnum⟩, AList.lookup_insert _, rfl⟩
    · obtain ⟨id', imapId, hlookup, rfl⟩ := h.2 uid' hmem
      have hne : id' ≠ id := fun heq =>
        hid (heq ▸ AList.lookup_isSome.mp (by rw [hlookup]; rfl))
      exact ⟨id', imapId, by rw [AList.lookup_insert_ne hne]; exact hlookup, rfl⟩

/-- **The loop of `fetch_messages`** keeps the maps inverse when its entries have distinct uids,
distinct document ids, and none already in the maps. -/
theorem inverse_foldl_fetchStep :
    ∀ (entries : List ((UInt32 × UInt32) × Nat)) (acc : UInt32 × U32Map ImapId × U32Map UInt32),
      Inverse acc.2.1 acc.2.2 → (∀ x ∈ entries, x.1.2 ∉ acc.2.1 ∧ x.1.1 ∉ acc.2.2) →
      (entries.map (·.1.1)).Nodup → (entries.map (·.1.2)).Nodup →
      Inverse (entries.foldl fetchStep acc).2.1 (entries.foldl fetchStep acc).2.2
  | [], _, h, _, _, _ => h
  | ((uid, id), seqnum) :: rest, acc, h, hfresh, huids, hids => by
    simp only [List.map_cons, List.nodup_cons] at huids hids
    obtain ⟨hid, huid⟩ := hfresh _ List.mem_cons_self
    apply inverse_foldl_fetchStep rest (fetchStep acc ((uid, id), seqnum))
      (h.insert hid huid _) _ huids.2 hids.2
    -- the entries left stay fresh: their uids and document ids differ from this one's
    intro x hx
    have hx_uid : x.1.1 ≠ uid := fun heq => huids.1 (heq ▸ List.mem_map_of_mem hx)
    have hx_id : x.1.2 ≠ id := fun heq => hids.1 (heq ▸ List.mem_map_of_mem hx)
    obtain ⟨hfresh_id, hfresh_uid⟩ := hfresh x (List.mem_cons_of_mem _ hx)
    simp only [fetchStep, AList.mem_insert, not_or]
    exact ⟨⟨hx_id, hfresh_id⟩, ⟨hx_uid, hfresh_uid⟩⟩

/-! ## The uid map of the cache -/

theorem MessageCache.uidMap_sorted (cache : MessageCache) (mailboxId : UInt32) :
    List.SortedByKey UInt32.toNat (cache.uidMap mailboxId) :=
  List.sortedByKey_foldl_insertSorted _ List.Pairwise.nil

/-- Each message contributes at most its own document id. -/
theorem MessageCache.uidEntries_ids_sublist (cache : MessageCache) (mailboxId : UInt32) :
    ((cache.uidEntries mailboxId).map Prod.snd).Sublist (cache.items.map (·.documentId)) := by
  unfold MessageCache.uidEntries
  induction cache.items with
  | nil => exact List.Sublist.slnil
  | cons item items ih =>
    cases huid : item.uidIn mailboxId with
    | none => simpa [List.filterMap_cons, huid] using ih.cons item.documentId
    | some uid => simpa [List.filterMap_cons, huid] using ih.cons_cons item.documentId

/-- With distinct document ids in the cache, the uid map has distinct uids and distinct document
ids. -/
theorem MessageCache.uidMap_nodup {cache : MessageCache} (mailboxId : UInt32)
    (hdocs : (cache.items.map (·.documentId)).Nodup) :
    ((cache.uidMap mailboxId).map Prod.fst).Nodup ∧
      ((cache.uidMap mailboxId).map Prod.snd).Nodup := by
  have hkeys := (cache.uidMap_sorted mailboxId).nodup_keys
  refine ⟨hkeys, ?_⟩
  have hentries : ((cache.uidEntries mailboxId).map Prod.snd).Nodup :=
    hdocs.sublist (cache.uidEntries_ids_sublist mailboxId)
  -- the map's entries are entries of the cache, where a document id names one entry
  have hsub : ∀ x ∈ cache.uidMap mailboxId, x ∈ cache.uidEntries mailboxId := fun x hx =>
    (List.mem_foldl_insertSorted _ [] x hx).resolve_right (List.not_mem_nil)
  exact (List.Nodup.of_map Prod.fst hkeys).map_on fun x hx y hy heq =>
    List.inj_on_of_nodup_map hentries (hsub x hx) (hsub y hy) heq

/-- **`fetch_messages` builds inverse maps**, when the cache has one entry per document. -/
theorem fetchMessages_uidsInverse {cache : MessageCache} {mailboxId : UInt32}
    {currentState : Option UInt64} {state : MailboxState}
    (hdocs : (cache.items.map (·.documentId)).Nodup)
    (h : fetchMessages cache mailboxId currentState = some state) : state.UidsInverse := by
  unfold fetchMessages at h
  split at h
  · cases h
  · cases h
    obtain ⟨huids, hids⟩ := cache.uidMap_nodup mailboxId hdocs
    have hfst : ∀ i, ((cache.uidMap mailboxId).zipIdx i).map (·.1.1) =
        (cache.uidMap mailboxId).map Prod.fst := fun i => by
      rw [show (fun x : (UInt32 × UInt32) × Nat => x.1.1) = Prod.fst ∘ Prod.fst from rfl,
        ← List.map_map, List.zipIdx_map_fst]
    have hsnd : ∀ i, ((cache.uidMap mailboxId).zipIdx i).map (·.1.2) =
        (cache.uidMap mailboxId).map Prod.snd := fun i => by
      rw [show (fun x : (UInt32 × UInt32) × Nat => x.1.2) = Prod.snd ∘ Prod.fst from rfl,
        ← List.map_map, List.zipIdx_map_fst]
    exact inverse_foldl_fetchStep _ _ Inverse.empty
      (fun x _ => ⟨AList.notMem_empty _, AList.notMem_empty _⟩)
      (by rw [hfst]; exact huids) (by rw [hsnd]; exact hids)

/-! ## Synchronizing keeps the maps inverse -/

/-- Whether a uid is still in the newer state. -/
def MailboxState.hasUid (state : MailboxState) (uid : UInt32) : Bool :=
  (state.uidToId.lookup uid).isSome

/-- **The loop of `synchronize_messages`**, entry by entry: the messages kept are those whose uid
the newer state still has, the uids forgotten are those of the others, and the others join the
deletions in order. -/
theorem foldl_syncStep (newState : MailboxState) :
    ∀ (rest : List (Σ _ : UInt32, ImapId)) (acc : List ImapId × U32Map ImapId × U32Map UInt32),
      rest.NodupKeys → (∀ x ∈ rest, x.1 ∉ acc.2.1) →
      (rest.foldl (syncStep newState) acc).1 =
          acc.1 ++ (rest.filter fun x => !newState.hasUid x.2.uid).map (·.2) ∧
        (∀ id imapId, (rest.foldl (syncStep newState) acc).2.1.lookup id = some imapId ↔
          acc.2.1.lookup id = some imapId ∨
            (⟨id, imapId⟩ ∈ rest ∧ newState.hasUid imapId.uid = true)) ∧
        ∀ uid, (rest.foldl (syncStep newState) acc).2.2.lookup uid =
          if newState.hasUid uid = false ∧ uid ∈ rest.map (·.2.uid) then none
          else acc.2.2.lookup uid
  | [], acc, _, _ => by simp
  | x :: rest, acc, hnodup, hfresh => by
    obtain ⟨hx, hrest⟩ := List.nodupKeys_cons.mp hnodup
    by_cases hgone : newState.hasUid x.2.uid = false
    · -- the message left: a deletion, and its uid is forgotten
      have hstep : syncStep newState acc x = (acc.1 ++ [x.2], acc.2.1, acc.2.2.erase x.2.uid) := by
        have hnone : (newState.uidToId.lookup x.2.uid).isNone = true := by
          simpa [MailboxState.hasUid] using hgone
        simp [syncStep, hnone]
      obtain ⟨hdel, hkept, huids⟩ := foldl_syncStep newState rest
        (acc.1 ++ [x.2], acc.2.1, acc.2.2.erase x.2.uid) hrest
        (fun y hy => hfresh y (List.mem_cons_of_mem _ hy))
      rw [List.foldl_cons, hstep]
      refine ⟨by simp [hdel, hgone], fun id imapId => ?_, fun uid => ?_⟩
      · rw [hkept]
        constructor
        · rintro (h | ⟨h, hhas⟩)
          · exact Or.inl h
          · exact Or.inr ⟨List.mem_cons_of_mem _ h, hhas⟩
        · rintro (h | ⟨h, hhas⟩)
          · exact Or.inl h
          · rcases List.mem_cons.mp h with rfl | h
            · simp [hgone] at hhas
            · exact Or.inr ⟨h, hhas⟩
      · rw [huids uid]
        by_cases huid : uid = x.2.uid
        · subst huid
          simp [hgone, AList.lookup_erase]
        · rw [AList.lookup_erase_ne huid]
          simp only [List.map_cons, List.mem_cons, huid, false_or]
    · -- the message stays, under its document id
      simp only [Bool.not_eq_false] at hgone
      have hstep : syncStep newState acc x = (acc.1, acc.2.1.insert x.1 x.2, acc.2.2) := by
        have hnone : (newState.uidToId.lookup x.2.uid).isNone = false := by
          simpa [MailboxState.hasUid] using hgone
        simp [syncStep, hnone]
      have hx_fresh := hfresh x List.mem_cons_self
      obtain ⟨hdel, hkept, huids⟩ := foldl_syncStep newState rest
        (acc.1, acc.2.1.insert x.1 x.2, acc.2.2) hrest
        (fun y hy => by
          simp only [AList.mem_insert, not_or]
          exact ⟨fun heq => hx (heq ▸ List.mem_keys_of_mem hy), hfresh y (List.mem_cons_of_mem _ hy)⟩)
      rw [List.foldl_cons, hstep]
      refine ⟨by simp [hdel, hgone], fun id imapId => ?_, fun uid => ?_⟩
      · rw [hkept]
        by_cases hid : id = x.1
        · subst hid
          -- the kept entry is the only one of its document id
          have hnot_rest : ⟨x.1, imapId⟩ ∉ rest := fun h => by
            have hkey := List.mem_keys_of_mem h
            exact hx hkey
          have hnot_acc : acc.2.1.lookup x.1 ≠ some imapId := fun h =>
            hx_fresh (AList.lookup_isSome.mp (by rw [h]; rfl))
          rw [AList.lookup_insert]
          constructor
          · rintro (h | ⟨h, -⟩)
            · cases h
              exact Or.inr ⟨List.mem_cons_self, hgone⟩
            · exact absurd h hnot_rest
          · rintro (h | ⟨h, hhas⟩)
            · exact absurd h hnot_acc
            · rcases List.mem_cons.mp h with h | h
              · have himap : imapId = x.2 := congrArg Sigma.snd h
                subst himap
                exact Or.inl rfl
              · exact absurd h hnot_rest
        · rw [AList.lookup_insert_ne hid]
          constructor
          · rintro (h | ⟨h, hhas⟩)
            · exact Or.inl h
            · exact Or.inr ⟨List.mem_cons_of_mem _ h, hhas⟩
          · rintro (h | ⟨h, hhas⟩)
            · exact Or.inl h
            · rcases List.mem_cons.mp h with h | h
              · cases h
                exact absurd rfl hid
              · exact Or.inr ⟨h, hhas⟩
      · rw [huids uid]
        by_cases huid : uid = x.2.uid
        · subst huid
          simp [hgone]
        · simp only [List.map_cons, List.mem_cons, huid, false_or]

/-- **`synchronize_messages` keeps the maps inverse**: a message stays with its uid, or leaves
with it. -/
theorem synchronizeMessages_uidsInverse (cache : MessageCache) (mailboxId : UInt32)
    {state : MailboxState} (h : state.UidsInverse) :
    (synchronizeMessages cache mailboxId state).1.UidsInverse := by
  unfold synchronizeMessages
  cases fetchMessages cache mailboxId (some state.modseq) with
  | none => exact h
  | some newState =>
    obtain ⟨-, hkept, huids⟩ := foldl_syncStep newState state.idToImap.entries
      ((state.nextState.map (·.deletions)).getD [], ∅, state.uidToId) state.idToImap.nodupKeys
      (fun x _ => AList.notMem_empty _)
    constructor
    · intro id imapId hlookup
      rcases (hkept id imapId).mp hlookup with hempty | ⟨hmem, hhas⟩
      · simp [AList.lookup_empty] at hempty
      · -- a kept message keeps its uid, which was not forgotten
        rw [huids, if_neg (by simp [hhas])]
        exact h.1 id imapId (AList.mem_lookup_iff.mpr hmem)
    · intro uid hmem
      have hsome := AList.lookup_isSome.mpr hmem
      rw [huids] at hsome
      split at hsome
      · simp at hsome
      · rename_i hkept_uid
        obtain ⟨id, imapId, hlookup, rfl⟩ := h.2 _ (AList.lookup_isSome.mp hsome)
        -- the uid survived, so the message that held it was kept
        have hmem : (⟨id, imapId⟩ : Sigma _) ∈ state.idToImap.entries :=
          AList.mem_lookup_iff.mp hlookup
        have hhas : newState.hasUid imapId.uid = true := by
          by_contra hgone
          exact hkept_uid ⟨by simpa using hgone, List.mem_map.mpr ⟨_, hmem, rfl⟩⟩
        exact ⟨id, imapId, (hkept id imapId).mpr (Or.inr ⟨hmem, hhas⟩), rfl⟩

/-! ## Any run without appends keeps the maps inverse -/

/-- The cache has one entry per document, as the store's document ids are keys. -/
def MessageCache.DocumentsDistinct (cache : MessageCache) : Prop :=
  (cache.items.map (·.documentId)).Nodup

instance : DecidablePred MessageCache.DocumentsDistinct :=
  fun cache => inferInstanceAs (Decidable (cache.items.map (·.documentId)).Nodup)

/-- The invariant of a selected mailbox: its maps are inverse, and so are those of the newer
state it holds back until it is announced, which is itself a fresh fetch. -/
def MailboxState.Consistent (state : MailboxState) : Prop :=
  state.UidsInverse ∧ ∀ next, state.nextState = some next →
    next.nextState.UidsInverse ∧ next.nextState.nextState = none

theorem fetchMessages_nextState {cache : MessageCache} {mailboxId : UInt32}
    {currentState : Option UInt64} {state : MailboxState}
    (h : fetchMessages cache mailboxId currentState = some state) : state.nextState = none := by
  unfold fetchMessages at h
  split at h
  · cases h
  · cases h; rfl

theorem fetchMessages_consistent {cache : MessageCache} {mailboxId : UInt32}
    {currentState : Option UInt64} {state : MailboxState} (hdocs : cache.DocumentsDistinct)
    (h : fetchMessages cache mailboxId currentState = some state) : state.Consistent :=
  ⟨fetchMessages_uidsInverse hdocs h, by simp [fetchMessages_nextState h]⟩

theorem synchronizeMessages_consistent {cache : MessageCache} (mailboxId : UInt32)
    {state : MailboxState} (hdocs : cache.DocumentsDistinct) (h : state.Consistent) :
    (synchronizeMessages cache mailboxId state).1.Consistent := by
  refine ⟨synchronizeMessages_uidsInverse cache mailboxId h.1, ?_⟩
  unfold synchronizeMessages
  cases hfetch : fetchMessages cache mailboxId (some state.modseq) with
  | none => exact h.2
  | some newState =>
    -- the state now waits on the newer fetch
    rintro next hnext
    cases hnext
    exact ⟨fetchMessages_uidsInverse hdocs hfetch, fetchMessages_nextState hfetch⟩

/-- The state `write_mailbox_changes` leaves: the newer state, once one is pending. -/
theorem writeMailboxChanges_fst (cache : MessageCache) (mailboxId : UInt32)
    (state : MailboxState) (isQresync : Bool) :
    (writeMailboxChanges cache mailboxId state isQresync).1 =
      match (synchronizeMessages cache mailboxId state).1.nextState with
      | none => (synchronizeMessages cache mailboxId state).1
      | some next => next.nextState := by
  unfold writeMailboxChanges
  generalize synchronizeMessages cache mailboxId state = synced
  obtain ⟨synced, modseq⟩ := synced
  dsimp only
  split <;> rfl

theorem writeMailboxChanges_consistent {cache : MessageCache} (mailboxId : UInt32)
    {state : MailboxState} (isQresync : Bool) (hdocs : cache.DocumentsDistinct)
    (h : state.Consistent) : (writeMailboxChanges cache mailboxId state isQresync).1.Consistent := by
  have hsync := synchronizeMessages_consistent mailboxId hdocs h
  rw [writeMailboxChanges_fst]
  split
  · exact hsync
  · rename_i next hnext
    obtain ⟨hinv, hnone⟩ := hsync.2 next hnext
    exact ⟨hinv, by simp [hnone]⟩

/-- The states a session's selected mailbox goes through, each cache with one entry per
document: selected by a fetch, then synchronized, written out, or, where `appends` allows it,
patched by `append_messages` with messages whose uids are above every uid of the state, in
increasing order, and whose document ids are new and distinct. -/
inductive Reachable (mailboxId : UInt32) (appends : Bool) : MailboxState → Prop
  | fetch {cache : MessageCache} {state : MailboxState} : cache.DocumentsDistinct →
      fetchMessages cache mailboxId none = some state → Reachable mailboxId appends state
  | synchronize {cache : MessageCache} {state : MailboxState} : cache.DocumentsDistinct →
      Reachable mailboxId appends state →
      Reachable mailboxId appends (synchronizeMessages cache mailboxId state).1
  | write {cache : MessageCache} {state : MailboxState} (isQresync : Bool) :
      cache.DocumentsDistinct → Reachable mailboxId appends state →
      Reachable mailboxId appends (writeMailboxChanges cache mailboxId state isQresync).1
  | append {state : MailboxState} {ids : List ImapUidToId} {modseq : Option UInt64} :
      appends = true → Reachable mailboxId appends state →
      (∀ id ∈ ids, ∀ uid ∈ state.uidToId, uid < id.uid) → (∀ id ∈ ids, id.id ∉ state.idToImap) →
      ids.Pairwise (fun a b => a.uid < b.uid ∧ a.id ≠ b.id) →
      Reachable mailboxId appends (appendMessages state ids modseq)

/-- **Fetching, synchronizing and writing keep the maps inverse**, over any run of them. -/
theorem Reachable.consistent {mailboxId : UInt32} {state : MailboxState}
    (h : Reachable mailboxId false state) : state.Consistent := by
  induction h with
  | fetch hdocs hfetch => exact fetchMessages_consistent hdocs hfetch
  | synchronize hdocs _ ih => exact synchronizeMessages_consistent mailboxId hdocs ih
  | write isQresync hdocs _ ih => exact writeMailboxChanges_consistent mailboxId isQresync hdocs ih
  | append happends => cases happends

/-- A mailbox with one message, document 7 with uid 1 in mailbox 1, at change 3. -/
def oneMessageCache : MessageCache := ⟨3, [⟨7, [(1, 1)]⟩]⟩

/-- The same mailbox at change 4, with document 8 added under uid 2. -/
def twoMessageCache : MessageCache := ⟨4, [⟨7, [(1, 1)]⟩, ⟨8, [(1, 2)]⟩]⟩

/-- Selected with one message, then synchronized with the cache of two: the state and the newer
state it keeps both have inverse maps. -/
theorem Reachable.consistent_synchronized : ∃ state,
    fetchMessages oneMessageCache 1 none = some state ∧
      Reachable 1 false (synchronizeMessages twoMessageCache 1 state).1 ∧
      (synchronizeMessages twoMessageCache 1 state).1.nextState.isSome ∧
      (synchronizeMessages twoMessageCache 1 state).1.Consistent := by
  have hreach : ∀ {state}, fetchMessages oneMessageCache 1 none = some state →
      Reachable 1 false (synchronizeMessages twoMessageCache 1 state).1 := fun hfetch =>
    .synchronize (by decide) (.fetch (by decide) hfetch)
  exact ⟨_, rfl, hreach rfl, by decide +kernel, (hreach rfl).consistent⟩

theorem appendMessages_uidToId_uid : ∃ state, fetchMessages oneMessageCache 1 none = some state ∧
    Reachable 1 true (appendMessages state [⟨2, 9⟩] (some 4)) ∧
    (appendMessages state [⟨2, 9⟩] (some 4)).uidToId.lookup 2 = some 2 ∧
    ¬ (appendMessages state [⟨2, 9⟩] (some 4)).UidsInverse := by
  refine ⟨_, rfl, .append rfl (.fetch (by decide) rfl) ?_ ?_ (by simp), by decide, ?_⟩
  · intro id hid uid huid
    rw [List.mem_singleton] at hid
    subst hid
    rw [AList.mem_keys] at huid
    revert uid
    -- decided along the list of keys, not over every `UInt32`
    exact @of_decide_eq_true _ (List.decidableBAll _ _) (by decide +kernel)
  · intro id hid
    rw [List.mem_singleton] at hid
    subst hid
    rw [AList.mem_keys]
    decide
  · -- the appended message 9 has uid 2, which maps back to 2
    rintro ⟨hinv, -⟩
    have hback := hinv 9 ⟨2, 2⟩ (by decide)
    revert hback
    decide

end Stalwart.Imap
