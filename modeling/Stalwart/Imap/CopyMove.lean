import Mathlib.Data.List.Sort
import Stalwart.Imap.Mailbox
import Stalwart.Jmap.EmailSet

/-!
# IMAP `COPY` and `MOVE`

`SessionData::copy_move` copies or moves the selected messages to another mailbox and answers with
`COPYUID`: the destination's UIDVALIDITY, the source uids and the destination uids. Within one
account it edits each message's list of mailboxes: a message already in the destination keeps
its uid there, and another is added with a uid taken from the destination's counter. Across
accounts it copies each message with `copy_message`. Either way it records, for each message, the
pair of its source uid and its destination uid. The response then sorts the source uids and the
destination uids, each list on its own.

## What is proved

* Each pair the loop within one account records is right: the message that has the first uid in
  the source mailbox is in the destination with the second once the loop is done
  (`copyLoop_pairs_in_destination`).
* Sorting the two lists apart breaks the pairing. A message already in the destination with a
  smaller uid than a newly copied one, but with a larger source uid, swaps the two destination
  uids in the response, in whatever order the messages are taken (`copyuid_sorted_apart`).
-/

set_option autoImplicit false

namespace Stalwart.Imap

open Stalwart.Jmap.EmailSet (MessageData)

variable {K : Type}

/-- The state of the loop of `copy_move` within one account: the message data written so far, the
uid counters of the mailboxes, the pairs `(source uid, destination uid)` recorded, and whether a
message left the source. -/
structure CopyState (K : Type) where
  written : List (UInt32 × MessageData K)
  uidCounter : UInt32 → UInt32
  copiedIds : List (UInt32 × UInt32)
  didMove : Bool

/-- The uids `assign_email_ids` gives the mailboxes of a message that have none, in order: each
the next value of its mailbox's counter, recorded with the source uid `srcUid`. -/
def assignUid (srcUid : UInt32)
    (acc : List (UInt32 × UInt32) × (UInt32 → UInt32) × List (UInt32 × UInt32))
    (mailbox : UInt32 × UInt32) :
    List (UInt32 × UInt32) × (UInt32 → UInt32) × List (UInt32 × UInt32) :=
  if mailbox.2 = 0 then
    let uid := acc.2.1 mailbox.1 + 1
    (acc.1 ++ [(mailbox.1, uid)], Function.update acc.2.1 mailbox.1 uid, acc.2.2 ++ [(srcUid, uid)])
  else (acc.1 ++ [mailbox], acc.2.1, acc.2.2)

/-- The data of a message with the destination added, without a uid yet, and the source taken
out for a move. -/
def withDestination (src dest : UInt32) (isMove : Bool) (data : MessageData K) : MessageData K :=
  let newData := data.addMailbox (dest, 0)
  if isMove then newData.removeMailbox src else newData

/-- One selected message of the loop within one account, `messages` the stored message data.
A message gone from the store or from the source mailbox is skipped. -/
def copyStep (src dest : UInt32) (isMove : Bool) (messages : List (UInt32 × MessageData K))
    (s : CopyState K) (entry : UInt32 × ImapId) : CopyState K :=
  match messages.lookup entry.1 with
  | none => s
  | some data =>
    if !data.mailboxes.any (·.1 == src) then s
    else
      match data.mailboxes.find? (·.1 == dest) with
      | some (_, uid) =>
        { s with
          copiedIds := s.copiedIds ++ [(entry.2.uid, uid)]
          written := if isMove then s.written ++ [(entry.1, data.removeMailbox src)] else s.written
          didMove := s.didMove || isMove }
      | none =>
        let newData := withDestination src dest isMove data
        let assigned :=
          newData.mailboxes.foldl (assignUid entry.2.uid) ([], s.uidCounter, s.copiedIds)
        { written := s.written ++ [(entry.1, newData.setMailboxes assigned.1)]
          uidCounter := assigned.2.1
          copiedIds := assigned.2.2
          didMove := s.didMove || isMove }

/-- The loop of `copy_move` within one account, over the selected messages in the order
`sequence_to_ids` gives them, from the mailboxes' uid counters `uidCounter`. -/
def copyLoop (src dest : UInt32) (isMove : Bool) (messages : List (UInt32 × MessageData K))
    (uidCounter : UInt32 → UInt32) (ids : List (UInt32 × ImapId)) : CopyState K :=
  ids.foldl (copyStep src dest isMove messages) ⟨[], uidCounter, [], false⟩

/-- `CopyMessageError`. -/
inductive CopyMessageError where
  | overQuota
  | notFound
  deriving DecidableEq, Repr

/-- The state of the loop of `copy_move` across accounts: the pairs recorded, the messages to
take out of the source, and whether one went over the quota. -/
structure CrossCopyState where
  copiedIds : List (UInt32 × UInt32)
  destroyIds : List UInt32
  overQuota : Bool

/-- One selected message copied across accounts; `copyMessage` is `copy_message`, with the uids
the copy got in its mailboxes. -/
def crossCopyStep (copyMessage : UInt32 → Except CopyMessageError (List UInt32)) (isMove : Bool)
    (s : CrossCopyState) (entry : UInt32 × ImapId) : CrossCopyState :=
  match copyMessage entry.1 with
  | .ok imapUids =>
    { s with
      copiedIds := s.copiedIds ++ (imapUids.head?.map (entry.2.uid, ·)).toList
      destroyIds := if isMove then s.destroyIds ++ [entry.1] else s.destroyIds }
  | .error .overQuota => { s with overQuota := true }
  | .error .notFound => s

/-- The loop of `copy_move` across accounts. -/
def crossCopyLoop (copyMessage : UInt32 → Except CopyMessageError (List UInt32)) (isMove : Bool)
    (ids : List (UInt32 × ImapId)) : CrossCopyState :=
  ids.foldl (crossCopyStep copyMessage isMove) ⟨[], [], false⟩

/-- The `COPYUID` of the recorded pairs: the destination's UIDVALIDITY, the source uids sorted and
the destination uids sorted (`sort_unstable`; on numbers every sort gives the one sorted list).
`none` where nothing was copied: the command answers without it. -/
def copyUid (uidValidity : UInt32) (copiedIds : List (UInt32 × UInt32)) :
    Option (UInt32 × List UInt32 × List UInt32) :=
  if copiedIds.isEmpty then none
  else
    some (uidValidity, (copiedIds.map (·.1)).insertionSort (· ≤ ·),
      (copiedIds.map (·.2)).insertionSort (· ≤ ·))

/-- The data of a message once the loop is done: what it wrote last, or what was stored. -/
def CopyState.dataOf (messages : List (UInt32 × MessageData K)) (s : CopyState K) (id : UInt32) :
    Option (MessageData K) :=
  (s.written.reverse.lookup id).orElse fun _ => messages.lookup id

/-- The uid of a message in a mailbox, where it is there. -/
def mailboxUid (mailboxId : UInt32) (data : MessageData K) : Option UInt32 :=
  (data.mailboxes.find? (·.1 == mailboxId)).map (·.2)

/-! ## The pairs the loop records -/

/-- Every stored message has a uid in each of its mailboxes. -/
def UidsAssigned (messages : List (UInt32 × MessageData K)) : Prop :=
  ∀ id data, messages.lookup id = some data → ∀ mailbox ∈ data.mailboxes, mailbox.2 ≠ 0

section Pairs

variable {src dest : UInt32} {isMove : Bool} {messages : List (UInt32 × MessageData K)}

theorem foldl_assignUid_of_ne_zero (srcUid : UInt32) :
    ∀ {mailboxes : List (UInt32 × UInt32)}, (∀ mailbox ∈ mailboxes, mailbox.2 ≠ 0) →
      ∀ acc, mailboxes.foldl (assignUid srcUid) acc = (acc.1 ++ mailboxes, acc.2.1, acc.2.2)
  | [], _, acc => by simp
  | mailbox :: mailboxes, hne, acc => by
    rw [List.foldl_cons, assignUid, if_neg (hne mailbox List.mem_cons_self),
      foldl_assignUid_of_ne_zero srcUid (fun m hm => hne m (List.mem_cons_of_mem _ hm))]
    simp

/-- Only the added destination lacks a uid: it takes the next value of its counter. -/
theorem foldl_assignUid_dest (srcUid dest : UInt32) {mailboxes : List (UInt32 × UInt32)}
    (hne : ∀ mailbox ∈ mailboxes, mailbox.2 ≠ 0) (acc) :
    (mailboxes ++ [(dest, 0)]).foldl (assignUid srcUid) acc =
      (acc.1 ++ mailboxes ++ [(dest, acc.2.1 dest + 1)],
        Function.update acc.2.1 dest (acc.2.1 dest + 1), acc.2.2 ++ [(srcUid, acc.2.1 dest + 1)]) := by
  rw [List.foldl_append, foldl_assignUid_of_ne_zero srcUid hne]
  simp [assignUid]

theorem mailboxUid_removeMailbox (hne : src ≠ dest) (data : MessageData K) :
    mailboxUid dest (data.removeMailbox src) = mailboxUid dest data := by
  have hpred : (fun m : UInt32 × UInt32 => decide ((m.1 != src) = true ∧ (m.1 == dest) = true)) =
      fun m => m.1 == dest := by
    funext m
    by_cases hm : m.1 = dest
    · simp [hm, Ne.symm hne]
    · simp [hm]
  simp only [mailboxUid, MessageData.removeMailbox, List.find?_filter, hpred]

/-- A message not yet in the destination gets it added last, the one mailbox without a uid; the
others it keeps are its own, none the destination. -/
theorem withDestination_mailboxes (hne : src ≠ dest) (isMove : Bool) {data : MessageData K}
    (hfind : data.mailboxes.find? (·.1 == dest) = none) :
    ∃ kept, (withDestination src dest isMove data).mailboxes = kept ++ [(dest, 0)] ∧
      ∀ {m}, m ∈ kept → m ∈ data.mailboxes ∧ m.1 ≠ dest := by
  have hnodest : ∀ m ∈ data.mailboxes, m.1 ≠ dest := by
    intro m hm
    simpa using List.find?_eq_none.mp hfind m hm
  have hadd : (data.addMailbox (dest, 0)).mailboxes = data.mailboxes ++ [(dest, 0)] := by
    have hany : data.mailboxes.any (·.1 == dest) = false := by
      simpa using fun m hm => hnodest m hm
    simp [MessageData.addMailbox, hany]
  cases isMove
  · exact ⟨data.mailboxes, by simpa [withDestination] using hadd, fun hm => ⟨hm, hnodest _ hm⟩⟩
  · refine ⟨data.mailboxes.filter (·.1 != src), ?_, fun hm => ?_⟩
    · simp [withDestination, MessageData.removeMailbox, hadd, List.filter_append, Ne.symm hne]
    · have hmem := List.mem_of_mem_filter hm
      exact ⟨hmem, hnodest _ hmem⟩

/-- **What one step of the loop does**: nothing, or it records one pair for its message, and the
data the message has afterwards, written or stored, holds the pair's destination uid. -/
theorem copyStep_cases (hne : src ≠ dest) (hassigned : UidsAssigned messages) (s : CopyState K)
    (entry : UInt32 × ImapId) :
    copyStep src dest isMove messages s entry = s ∨
      ∃ uid data,
        (copyStep src dest isMove messages s entry).copiedIds = s.copiedIds ++ [(entry.2.uid, uid)] ∧
        mailboxUid dest data = some uid ∧
        ((copyStep src dest isMove messages s entry).written = s.written ∧
            messages.lookup entry.1 = some data ∨
          (copyStep src dest isMove messages s entry).written = s.written ++ [(entry.1, data)]) := by
  unfold copyStep
  split
  · exact .inl rfl
  · rename_i data hdata
    split
    · exact .inl rfl
    · split
      · rename_i uid hfind
        have huid : mailboxUid dest data = some uid := by simp [mailboxUid, hfind]
        refine .inr ?_
        cases isMove
        · exact ⟨uid, data, rfl, huid, .inl ⟨rfl, hdata⟩⟩
        · exact ⟨uid, data.removeMailbox src, rfl, by rwa [mailboxUid_removeMailbox hne], .inr rfl⟩
      · rename_i hfind
        obtain ⟨kept, hkept, hsub⟩ := withDestination_mailboxes hne isMove hfind
        have hkeptUid : ∀ m ∈ kept, m.2 ≠ 0 := fun m hm => hassigned _ _ hdata m (hsub hm).1
        have hfold :=
          foldl_assignUid_dest entry.2.uid dest hkeptUid ([], s.uidCounter, s.copiedIds)
        refine .inr ⟨s.uidCounter dest + 1, (withDestination src dest isMove data).setMailboxes
          (kept ++ [(dest, s.uidCounter dest + 1)]), ?_, ?_, .inr ?_⟩
        · simp only [hkept, hfold]
        · have hnone : kept.find? (·.1 == dest) = none :=
            List.find?_eq_none.mpr fun m hm => by simpa using (hsub hm).2
          simp [mailboxUid, MessageData.setMailboxes, List.find?_append, hnone]
        · simp only [hkept, hfold, List.nil_append]

theorem dataOf_of_written_eq {s s' : CopyState K} (h : s'.written = s.written) (id : UInt32) :
    s'.dataOf messages id = s.dataOf messages id := by
  simp [CopyState.dataOf, h]

theorem dataOf_of_written_snoc {s s' : CopyState K} {id' : UInt32} {data : MessageData K}
    (h : s'.written = s.written ++ [(id', data)]) (id : UInt32) :
    s'.dataOf messages id = if id = id' then some data else s.dataOf messages id := by
  by_cases hid : id = id'
  · subst hid
    simp [CopyState.dataOf, h]
  · simp [CopyState.dataOf, h, hid, List.lookup_cons, beq_false_of_ne hid]

theorem dataOf_of_not_written {s : CopyState K} {id : UInt32} (h : ∀ w ∈ s.written, w.1 ≠ id) :
    s.dataOf messages id = messages.lookup id := by
  have hnone : s.written.reverse.lookup id = none := by
    rw [List.lookup_eq_none_iff]
    intro w hw
    exact bne_iff_ne.mpr (Ne.symm (h w (List.mem_reverse.mp hw)))
  simp [CopyState.dataOf, hnone]

/-- The invariant of the loop after the messages `taken`: each pair recorded is right for one of
them, and only they are written. -/
def PairsRight (dest : UInt32) (messages : List (UInt32 × MessageData K))
    (taken : List (UInt32 × ImapId)) (s : CopyState K) : Prop :=
  (∀ pair ∈ s.copiedIds, ∃ entry ∈ taken, entry.2.uid = pair.1 ∧
      (s.dataOf messages entry.1).bind (mailboxUid dest) = some pair.2) ∧
    ∀ w ∈ s.written, w.1 ∈ taken.map (·.1)

/-- A step on a message not taken before keeps the pairs right. -/
theorem PairsRight.step (hne : src ≠ dest) (hassigned : UidsAssigned messages)
    {taken : List (UInt32 × ImapId)} {s : CopyState K} {entry : UInt32 × ImapId}
    (hnew : entry.1 ∉ taken.map (·.1)) (h : PairsRight dest messages taken s) :
    PairsRight dest messages (taken ++ [entry]) (copyStep src dest isMove messages s entry) := by
  obtain ⟨hpairs, hwritten⟩ := h
  have hother : ∀ e ∈ taken, e.1 ≠ entry.1 := fun e he heq =>
    hnew (List.mem_map.mpr ⟨e, he, heq⟩)
  rcases copyStep_cases hne hassigned s entry with hsame | ⟨uid, data, hcopied, huid, hwrite⟩
  · rw [hsame]
    refine ⟨fun pair hpair => ?_, fun w hw => ?_⟩
    · obtain ⟨e, he, hrest⟩ := hpairs pair hpair
      exact ⟨e, List.mem_append_left _ he, hrest⟩
    · simpa using Or.inl (hwritten w hw)
  · set s' := copyStep src dest isMove messages s entry
    -- the message's data holds the new pair, and the messages taken before keep theirs
    have hdata : s'.dataOf messages entry.1 = some data := by
      rcases hwrite with ⟨hw, hlookup⟩ | hw
      · have hnotWritten : ∀ w ∈ s.written, w.1 ≠ entry.1 := by
          intro w hw' heq
          rw [← heq] at hnew
          exact hnew (hwritten w hw')
        rw [dataOf_of_written_eq hw, dataOf_of_not_written hnotWritten, hlookup]
      · rw [dataOf_of_written_snoc hw, if_pos rfl]
    have hkeep : ∀ e ∈ taken, s'.dataOf messages e.1 = s.dataOf messages e.1 := by
      intro e he
      rcases hwrite with ⟨hw, -⟩ | hw
      · exact dataOf_of_written_eq hw e.1
      · rw [dataOf_of_written_snoc hw, if_neg (hother e he)]
    refine ⟨fun pair hpair => ?_, fun w hw => ?_⟩
    · rw [hcopied, List.mem_append, List.mem_singleton] at hpair
      rcases hpair with hpair | rfl
      · obtain ⟨e, he, huid', hdest⟩ := hpairs pair hpair
        exact ⟨e, List.mem_append_left _ he, huid', by rw [hkeep e he]; exact hdest⟩
      · exact ⟨entry, List.mem_append_right _ (List.mem_singleton_self _), rfl,
          by rw [hdata]; exact huid⟩
    · rcases hwrite with ⟨hw', -⟩ | hw'
      · rw [hw'] at hw
        simpa using Or.inl (hwritten w hw)
      · rw [hw', List.mem_append, List.mem_singleton] at hw
        rcases hw with hw | rfl
        · simpa using Or.inl (hwritten w hw)
        · simp

variable (isMove) in
/-- The invariant along the loop, over messages taken once each. -/
theorem PairsRight.foldl (hne : src ≠ dest) (hassigned : UidsAssigned messages) :
    ∀ (ids taken : List (UInt32 × ImapId)) (s : CopyState K), ((taken ++ ids).map (·.1)).Nodup →
      PairsRight dest messages taken s →
      PairsRight dest messages (taken ++ ids) (ids.foldl (copyStep src dest isMove messages) s)
  | [], taken, s, _, h => by simpa using h
  | entry :: ids, taken, s, hnodup, h => by
    have hnew : entry.1 ∉ taken.map (·.1) := by
      intro hmem
      simp only [List.map_append, List.map_cons, List.nodup_append, List.nodup_cons] at hnodup
      exact hnodup.2.2 _ hmem _ List.mem_cons_self rfl
    have hrest := PairsRight.foldl hne hassigned ids (taken ++ [entry])
      (copyStep src dest isMove messages s entry) (by simpa using hnodup) (h.step hne hassigned hnew)
    simpa using hrest

/-- **Each pair the loop within one account records is right**: on messages with a uid in each of
their mailboxes, the message that had the pair's first uid in the source has the second in the
destination once the loop is done. -/
theorem copyLoop_pairs_in_destination (hne : src ≠ dest) (hassigned : UidsAssigned messages)
    (uidCounter : UInt32 → UInt32) {ids : List (UInt32 × ImapId)} (hids : (ids.map (·.1)).Nodup) :
    ∀ pair ∈ (copyLoop src dest isMove messages uidCounter ids).copiedIds,
      ∃ entry ∈ ids, entry.2.uid = pair.1 ∧
        ((copyLoop src dest isMove messages uidCounter ids).dataOf messages entry.1).bind
          (mailboxUid dest) = some pair.2 := by
  have hstart : PairsRight dest messages [] (⟨[], uidCounter, [], false⟩ : CopyState K) :=
    ⟨nofun, nofun⟩
  have hrun := PairsRight.foldl isMove hne hassigned ids [] _ (by simpa using hids) hstart
  simpa [copyLoop] using hrun.1

end Pairs

/-- Source uid `1` is copied fresh, and source uid `2` is in the destination already with uid `1`,
the destination's counter at `1`. -/
def copiedAndPresent : List (UInt32 × MessageData Unit) :=
  [(10, ⟨[(1, 1)], []⟩), (11, ⟨[(1, 2), (2, 1)], []⟩)]

theorem copyuid_sorted_apart :
    let ids : List (UInt32 × ImapId) := [(10, ⟨1, 1⟩), (11, ⟨2, 2⟩)]
    let run := copyLoop 1 2 false copiedAndPresent (fun _ => 1) ids
    let runReversed := copyLoop 1 2 false copiedAndPresent (fun _ => 1) ids.reverse
    copyUid 7 run.copiedIds = some (7, [1, 2], [1, 2]) ∧
      copyUid 7 runReversed.copiedIds = some (7, [1, 2], [1, 2]) ∧
      ((run.dataOf copiedAndPresent 10).bind (mailboxUid 2)) = some 2 ∧
      ((runReversed.dataOf copiedAndPresent 10).bind (mailboxUid 2)) = some 2 := by
  decide +kernel

/-- Both pairs the loop records for the two messages above are right. -/
theorem copyLoop_pairs_in_destination_both :
    (1 : UInt32) ≠ 2 ∧ UidsAssigned copiedAndPresent ∧
      (copyLoop 1 2 false copiedAndPresent (fun _ => 1) [(10, ⟨1, 1⟩), (11, ⟨2, 2⟩)]).copiedIds =
        [(1, 2), (2, 1)] ∧
      ∀ pair ∈ (copyLoop 1 2 false copiedAndPresent (fun _ => 1)
          [(10, ⟨1, 1⟩), (11, ⟨2, 2⟩)]).copiedIds,
        ∃ entry ∈ ([(10, ⟨1, 1⟩), (11, ⟨2, 2⟩)] : List (UInt32 × ImapId)), entry.2.uid = pair.1 ∧
          ((copyLoop 1 2 false copiedAndPresent (fun _ => 1) [(10, ⟨1, 1⟩), (11, ⟨2, 2⟩)]).dataOf
            copiedAndPresent entry.1).bind (mailboxUid 2) = some pair.2 := by
  have hassigned : UidsAssigned copiedAndPresent := by
    intro id data h mailbox hm
    -- every uid the two messages hold is positive
    have hall : ∀ entry ∈ copiedAndPresent, ∀ mailbox ∈ entry.2.mailboxes, mailbox.2 ≠ 0 := by
      simp only [copiedAndPresent, List.mem_cons, List.not_mem_nil,
        forall_eq_or_imp, forall_eq, or_false]
      decide
    exact hall _ (List.mem_of_lookup_eq_some h) mailbox hm
  exact ⟨by decide, hassigned, by decide +kernel,
    copyLoop_pairs_in_destination (by decide) hassigned _ (by decide)⟩

end Stalwart.Imap
