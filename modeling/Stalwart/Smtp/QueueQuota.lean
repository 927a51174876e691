import Mathlib.Data.List.Basic
import Mathlib.Tactic.Ring
import Stalwart.Lib.SortedMap

/-!
# The quotas of the SMTP queue

A message enters the queue once `has_quota` has found room for it under every configured quota
and recorded, in its `quota_keys`, one entry per quota counter it takes: a `Count` entry for one
message and a `Size` entry for its size, each with an id telling what it was taken for (0 for the
sender, `(i + 1) << 32` for the domain of recipient `i`, `i + 1` for recipient `i`). `queue` adds the
entries to the store's `QuotaCount` and `QuotaSize` counters. Delivery workers, one per virtual
queue, read the stored message, change the status of their own recipients, and write it back:
`save_changes` first releases the entries of the recipients that are done (`release_quota`), and
`remove` releases whatever entries the message still holds. When other queues still have work on
the message, `save_changes` writes it back through a merge that copies this queue's recipients
into the stored copy and keeps the stored copy's entries.

## What is proved

The counters are exact when they count the entries the stored messages hold (`Spool.QuotaExact`).
A single-queue `save_changes` keeps them exact, releasing exactly the entries it drops before it
writes its copy back (`MessageWrapper.saveChanges_quotaExact`). The merge of a multi-queue
`save_changes` does not: the entries `release_quota` released stay in the stored copy, and are
released again when the message is removed (`saveChanges_multiQueue_releases_twice`).

The admission check itself skips quotas. `has_quota` keeps one set of seen domains for all the
domain quotas, so the first domain quota fills it and the loops of the others check no recipient:
a full second quota does not stop a message (`has_quota_skips_domain_quotas`).
-/

namespace Stalwart.Smtp

/-- `Status` of a recipient, without the response or error it carries. -/
inductive Status where
  | scheduled
  | completed
  | temporaryFailure
  | permanentFailure
  deriving DecidableEq, Repr

/-- `Scheduled | TemporaryFailure(_)`: the recipient still has a delivery to make. -/
def Status.isPending : Status → Bool
  | .scheduled | .temporaryFailure => true
  | .completed | .permanentFailure => false

/-- `Completed(_) | PermanentFailure(_)`: the recipient is done with. -/
def Status.isFinished (status : Status) : Bool := !status.isPending

/-- A recipient of a queued message: the domain part of its address, its virtual queue and its
status. -/
structure Recipient where
  domain : String
  queue : Nat
  status : Status
  deriving DecidableEq, Repr

/-- `QuotaKey`: an entry of a quota counter that a message holds. -/
inductive QuotaKey where
  | size (key : String) (id : UInt64)
  | count (key : String) (id : UInt64)
  deriving DecidableEq, Repr

/-- A queued message: its recipients, its size and the quota entries it holds. -/
structure Message where
  recipients : List Recipient
  size : Nat
  quotaKeys : List QuotaKey
  deriving DecidableEq, Repr

/-- `MessageWrapper`: a message as a worker of the virtual queue `queueName` holds it. -/
structure MessageWrapper where
  queueId : Nat
  queueName : Nat
  isMultiQueue : Bool
  message : Message
  deriving DecidableEq, Repr

/-- The queue's part of the store: the queued messages by queue id, and the quota counters. -/
structure Spool where
  messages : List (Nat × Message)
  quotaCount : String → Int
  quotaSize : String → Int

/-- A change to a quota counter, as a write batch carries it (`batch.add`). -/
inductive QuotaChange where
  | count (key : String) (delta : Int)
  | size (key : String) (delta : Int)

/-- Applies a counter change. -/
def Spool.apply (spool : Spool) : QuotaChange → Spool
  | .count key delta =>
    { spool with quotaCount := fun k => if k = key then spool.quotaCount k + delta else spool.quotaCount k }
  | .size key delta =>
    { spool with quotaSize := fun k => if k = key then spool.quotaSize k + delta else spool.quotaSize k }

/-- Stores a message under its queue id, replacing the copy there. -/
def Spool.set (spool : Spool) (queueId : Nat) (message : Message) : Spool :=
  { spool with messages := (queueId, message) :: spool.messages.filter (·.1 ≠ queueId) }

/-- The change that takes (`sign = 1`) or releases (`sign = -1`) a quota entry of a message. -/
def QuotaKey.change (size : Nat) (sign : Int) : QuotaKey → QuotaChange
  | .count key _ => .count key sign
  | .size key _ => .size key (sign * size)

/-- The id an entry was taken for. -/
def QuotaKey.id : QuotaKey → UInt64
  | .count _ id | .size _ id => id

/-! ## Taking the quotas -/

/-- A configured quota (`QueueQuota`): whether it applies to an envelope, the counter key it uses
for it, and its limits. The envelope is the message's, or one recipient's. -/
structure QueueQuota where
  applies : Option Recipient → Bool
  key : Option Recipient → String
  size : Option Nat
  messages : Option Nat

/-- The configured quotas, by sender, by recipient domain and by recipient. -/
structure QueueQuotas where
  sender : List QueueQuota
  rcptDomain : List QueueQuota
  rcpt : List QueueQuota

/-- A counter as `has_quota` reads it: `get_counter(..) as u64`. -/
def counterValue (counter : Int) : UInt64 := UInt64.ofInt counter

/-- `check_quota`: where the quota applies, checks its limits against the counters and records the
entries the message will take; `none` when a limit would be passed. -/
def checkQuota (spool : Spool) (quota : QueueQuota) (envelope : Option Recipient) (size : Nat)
    (id : UInt64) (refs : List QuotaKey) : Option (List QuotaKey) :=
  if quota.applies envelope then
    let key := quota.key envelope
    let refs? : Option (List QuotaKey) := match quota.size with
      | some maxSize =>
        if counterValue (spool.quotaSize key) + UInt64.ofNat size > UInt64.ofNat maxSize then none
        else some (refs ++ [.size key id])
      | none => some refs
    refs?.bind fun refs => match quota.messages with
      | some maxMessages =>
        if counterValue (spool.quotaCount key) + 1 > UInt64.ofNat maxMessages then none
        else some (refs ++ [.count key id])
      | none => some refs
  else some refs

/-- `has_quota`: checks the sender quotas, the domain quotas once per recipient domain (the set of
domains seen is shared by all domain quotas), and the recipient quotas, and fills the message's
quota entries; `none` when a quota is exceeded. -/
def hasQuota (quotas : QueueQuotas) (spool : Spool) (message : Message) : Option Message := do
  let refs ← quotas.sender.foldlM
    (fun refs quota => checkQuota spool quota none message.size 0 refs) []
  let (refs, _) ← quotas.rcptDomain.foldlM (fun acc quota =>
      message.recipients.zipIdx.foldlM (fun (acc : List QuotaKey × List String) entry =>
        if entry.1.domain ∉ acc.2 then
          (checkQuota spool quota (some entry.1) message.size
            (UInt64.ofNat (entry.2 + 1) <<< 32) acc.1).map (·, entry.1.domain :: acc.2)
        else some acc) acc) (refs, [])
  let refs ← quotas.rcpt.foldlM (fun refs quota =>
      message.recipients.zipIdx.foldlM (fun refs entry =>
        checkQuota spool quota (some entry.1) message.size (UInt64.ofNat (entry.2 + 1)) refs) refs)
    refs
  return { message with quotaKeys := refs }

/-- `queue`: stores the message and takes its quota entries. -/
def MessageWrapper.queue (wrapper : MessageWrapper) (spool : Spool) : Spool :=
  ((wrapper.message.quotaKeys.map (QuotaKey.change wrapper.message.size 1)).foldl Spool.apply
    spool).set wrapper.queueId wrapper.message

/-! ## Delivering and releasing -/

/-- `read_message`: the stored message, as the worker of `queueName` holds it; it is multi-queue
when a recipient of another queue still has a delivery to make. -/
def readMessage (spool : Spool) (queueId queueName : Nat) : Option MessageWrapper :=
  (spool.messages.lookup queueId).map fun message =>
    { queueId, queueName, message
      isMultiQueue := message.recipients.any fun rcpt =>
        rcpt.status.isPending && rcpt.queue != queueName }

/-- A worker changes the status of the recipients of its own queue. -/
def MessageWrapper.deliver (wrapper : MessageWrapper) (update : Recipient → Status) :
    MessageWrapper :=
  { wrapper with message := { wrapper.message with
      recipients := wrapper.message.recipients.map fun rcpt =>
        if rcpt.queue = wrapper.queueName then { rcpt with status := update rcpt } else rcpt } }

/-- The ids `release_quota` releases: for each finished recipient, the id of its domain when it is
the first finished recipient of that domain, and its own id. -/
def quotaIds (recipients : List Recipient) : List UInt64 :=
  (recipients.zipIdx.foldl (fun (acc : List String × List UInt64) entry =>
    if entry.1.status.isFinished then
      let ids := if entry.1.domain ∉ acc.1 then acc.2 ++ [UInt64.ofNat (entry.2 + 1) <<< 32]
        else acc.2
      (entry.1.domain :: acc.1, ids ++ [UInt64.ofNat (entry.2 + 1)])
    else acc) ([], [])).2

/-- `release_quota`: releases the entries taken for finished recipients and drops them from the
message. -/
def MessageWrapper.releaseQuota (wrapper : MessageWrapper) : List QuotaChange × MessageWrapper :=
  let ids := quotaIds wrapper.message.recipients
  if wrapper.message.quotaKeys.isEmpty || ids.isEmpty then ([], wrapper)
  else
    let released := wrapper.message.quotaKeys.filter fun key => ids.contains key.id
    ((released.map (QuotaKey.change wrapper.message.size (-1))),
      { wrapper with message := { wrapper.message with
          quotaKeys := wrapper.message.quotaKeys.filter fun key => !ids.contains key.id } })

/-- The merge function of a multi-queue `save_changes`: into the stored copy go the recipients of
this queue, when the recipient lists match; the stored copy keeps its quota entries. -/
def mergeMessage (queueName : Nat) (new current : Message) : Option Message :=
  if current.recipients.length = new.recipients.length then
    some { current with recipients := (current.recipients.zip new.recipients).map fun rcpts =>
      if rcpts.2.queue = queueName then rcpts.2 else rcpts.1 }
  else none

/-- `save_changes`: releases the quota entries of the finished recipients, and writes the message
back, through the merge when it is multi-queue. A failed merge fails the whole write. -/
def MessageWrapper.saveChanges (wrapper : MessageWrapper) (spool : Spool) : Spool :=
  let (changes, wrapper) := wrapper.releaseQuota
  let released := changes.foldl Spool.apply spool
  if wrapper.isMultiQueue then
    match spool.messages.lookup wrapper.queueId with
    | none => spool
    | some current =>
      match mergeMessage wrapper.queueName wrapper.message current with
      | none => spool
      | some merged => released.set wrapper.queueId merged
  else released.set wrapper.queueId wrapper.message

/-- `remove`: releases every quota entry the message holds and deletes it. -/
def MessageWrapper.remove (wrapper : MessageWrapper) (spool : Spool) : Spool :=
  let released := (wrapper.message.quotaKeys.map (QuotaKey.change wrapper.message.size (-1))).foldl
    Spool.apply spool
  { released with messages := released.messages.filter (·.1 ≠ wrapper.queueId) }

/-! ## Runs of the queue -/

/-- The queue with the workers at work: the spool, and the messages the workers have read and
changed but not written back yet. -/
structure System where
  spool : Spool
  workers : List MessageWrapper

/-- The runs of the queue under the configured quotas: messages enter after `has_quota`, workers
read messages and change their own recipients, and write them back or remove them, in any
interleaving. -/
inductive Reachable (quotas : QueueQuotas) : System → Prop
  | empty : Reachable quotas ⟨⟨[], fun _ => 0, fun _ => 0⟩, []⟩
  | queue {system : System} {message queued : Message} (queueId : Nat) :
      Reachable quotas system → queueId ∉ system.spool.messages.map (·.1) →
      hasQuota quotas system.spool message = some queued →
      Reachable quotas ⟨(MessageWrapper.mk queueId 0 false queued).queue system.spool,
        system.workers⟩
  | read {system : System} {wrapper : MessageWrapper} (queueId queueName : Nat)
      (update : Recipient → Status) : Reachable quotas system →
      readMessage system.spool queueId queueName = some wrapper →
      Reachable quotas ⟨system.spool, (wrapper.deliver update) :: system.workers⟩
  | save {system : System} {wrapper : MessageWrapper} : Reachable quotas system →
      wrapper ∈ system.workers →
      Reachable quotas ⟨wrapper.saveChanges system.spool, system.workers.erase wrapper⟩
  | remove {system : System} {wrapper : MessageWrapper} : Reachable quotas system →
      wrapper ∈ system.workers →
      Reachable quotas ⟨wrapper.remove system.spool, system.workers.erase wrapper⟩

/-- A `Count` entry of the counter `key`. -/
def QuotaKey.isCountOf (key : String) : QuotaKey → Bool
  | .count k _ => k == key
  | .size _ _ => false

/-- A `Size` entry of the counter `key`. -/
def QuotaKey.isSizeOf (key : String) : QuotaKey → Bool
  | .size k _ => k == key
  | .count _ _ => false

/-- The quota entries of a key a message holds: its `Count` entries, and its size per `Size`
entry. -/
def Message.countHeld (key : String) (message : Message) : Nat :=
  (message.quotaKeys.filter (QuotaKey.isCountOf key)).length

def Message.sizeHeld (key : String) (message : Message) : Nat :=
  message.size * (message.quotaKeys.filter (QuotaKey.isSizeOf key)).length

/-- **Exact quota counters**: each counter is the total of the entries of its key that the
stored messages hold. -/
def Spool.QuotaExact (spool : Spool) : Prop :=
  ∀ key, spool.quotaCount key = (((spool.messages.map fun entry => entry.2.countHeld key).sum : Nat) : Int) ∧
    spool.quotaSize key = (((spool.messages.map fun entry => entry.2.sizeHeld key).sum : Nat) : Int)

/-! ## The accounting of the entries -/

@[simp] theorem Spool.apply_messages (spool : Spool) (change : QuotaChange) :
    (spool.apply change).messages = spool.messages := by
  cases change <;> rfl

/-- **Taking or releasing entries** moves each counter by the entries of its key, and leaves the
messages alone. -/
theorem foldl_apply_change (size : Nat) (sign : Int) (key : String) :
    ∀ (keys : List QuotaKey) (spool : Spool),
      ((keys.map (QuotaKey.change size sign)).foldl Spool.apply spool).messages = spool.messages ∧
      ((keys.map (QuotaKey.change size sign)).foldl Spool.apply spool).quotaCount key =
        spool.quotaCount key + sign * (keys.filter (QuotaKey.isCountOf key)).length ∧
      ((keys.map (QuotaKey.change size sign)).foldl Spool.apply spool).quotaSize key =
        spool.quotaSize key + sign * size * (keys.filter (QuotaKey.isSizeOf key)).length
  | [], spool => by simp
  | k :: keys, spool => by
    obtain ⟨hmsg, hcount, hsize⟩ :=
      foldl_apply_change size sign key keys (spool.apply (k.change size sign))
    rw [List.map_cons, List.foldl_cons]
    refine ⟨hmsg.trans (Spool.apply_messages _ _), ?_, ?_⟩
    · rw [hcount]
      cases k with
      | count k' _ =>
        by_cases hkey : key = k'
        · subst hkey
          simp [Spool.apply, QuotaKey.change, QuotaKey.isCountOf]
          ring
        · simp [Spool.apply, QuotaKey.change, QuotaKey.isCountOf, hkey, Ne.symm hkey]
      | size k' _ => simp [Spool.apply, QuotaKey.change, QuotaKey.isCountOf]
    · rw [hsize]
      cases k with
      | size k' _ =>
        by_cases hkey : key = k'
        · subst hkey
          simp [Spool.apply, QuotaKey.change, QuotaKey.isSizeOf]
          ring
        · simp [Spool.apply, QuotaKey.change, QuotaKey.isSizeOf, hkey, Ne.symm hkey]
      | count k' _ => simp [Spool.apply, QuotaKey.change, QuotaKey.isSizeOf]

/-- Splitting a list by a test splits the entries any other test accepts. -/
theorem length_filter_split {α : Type} (p q : α → Bool) (l : List α) :
    (l.filter q).length =
      ((l.filter p).filter q).length + ((l.filter fun x => !p x).filter q).length := by
  induction l with
  | nil => rfl
  | cons x l ih =>
    cases hp : p x <;> cases hq : q x <;> simp [hp, hq, ih] <;> omega

section Steps

variable {spool : Spool}

/-- **A single-queue `save_changes` keeps the counters exact**, when the worker's copy holds the
entries of the stored copy: the entries it releases are the ones it drops before writing its copy
back. -/
theorem MessageWrapper.saveChanges_quotaExact (h : spool.QuotaExact)
    (hids : (spool.messages.map (·.1)).Nodup) {wrapper : MessageWrapper} {stored : Message}
    (hstored : spool.messages.lookup wrapper.queueId = some stored)
    (hkeys : stored.quotaKeys = wrapper.message.quotaKeys)
    (hsize : stored.size = wrapper.message.size) (hsingle : wrapper.isMultiQueue = false) :
    (wrapper.saveChanges spool).QuotaExact := by
  intro key
  have hsplit_count := List.sum_map_eq_add_filter_ne (Message.countHeld key) _ _ hids hstored
  have hsplit_size := List.sum_map_eq_add_filter_ne (Message.sizeHeld key) _ _ hids hstored
  unfold MessageWrapper.saveChanges MessageWrapper.releaseQuota
  by_cases hnone : (wrapper.message.quotaKeys.isEmpty ||
      (quotaIds wrapper.message.recipients).isEmpty) = true
  · -- nothing to release: the copy written back holds the stored entries
    rw [if_pos hnone]
    simp only [List.foldl_nil, hsingle, Bool.false_eq_true, if_false, Spool.set, List.map_cons,
      List.sum_cons, Nat.cast_add]
    rw [(h key).1, (h key).2, hsplit_count, hsplit_size]
    simp only [Message.countHeld, Message.sizeHeld, hkeys, hsize]
    constructor <;> push_cast <;> ring
  · -- the released entries leave the counters and the copy written back alike
    rw [if_neg hnone]
    obtain ⟨hmsg, hcount, hsz⟩ := foldl_apply_change wrapper.message.size (-1) key
      (wrapper.message.quotaKeys.filter fun k => (quotaIds wrapper.message.recipients).contains k.id)
      spool
    simp only [hsingle, Bool.false_eq_true, if_false, Spool.set, hmsg, hcount, hsz,
      List.map_cons, List.sum_cons, Nat.cast_add]
    rw [(h key).1, (h key).2, hsplit_count, hsplit_size]
    have hsplit := length_filter_split
      (fun k : QuotaKey => (quotaIds wrapper.message.recipients).contains k.id)
    simp only [Message.countHeld, Message.sizeHeld, hkeys, hsize]
    rw [hsplit (QuotaKey.isCountOf key), hsplit (QuotaKey.isSizeOf key)]
    constructor <;> push_cast <;> ring

/-- A message to `a.org` holding one `Count` entry, stored under queue id 1. -/
def oneEntryMessage : Message :=
  ⟨[⟨"a.org", 1, .scheduled⟩], 100, [.count "a.org" 1]⟩

/-- The spool with that message and its one entry counted. -/
def oneEntrySpool : Spool :=
  ⟨[(1, oneEntryMessage)], fun key => if key = "a.org" then 1 else 0, fun _ => 0⟩

/-- The worker of queue 1 delivers the message and saves it: the entry is released, and the
counters stay exact. -/
theorem saveChanges_quotaExact_delivered :
    oneEntrySpool.QuotaExact ∧
      (MessageWrapper.saveChanges ⟨1, 1, false, { oneEntryMessage with
          recipients := [⟨"a.org", 1, .completed⟩] }⟩ oneEntrySpool).quotaCount "a.org" = 0 ∧
      (MessageWrapper.saveChanges ⟨1, 1, false, { oneEntryMessage with
          recipients := [⟨"a.org", 1, .completed⟩] }⟩ oneEntrySpool).QuotaExact := by
  have hexact : oneEntrySpool.QuotaExact := by
    intro key
    by_cases hkey : key = "a.org"
    · subst hkey
      decide
    · simp [oneEntrySpool, oneEntryMessage, hkey, Ne.symm hkey, Message.countHeld,
        Message.sizeHeld, QuotaKey.isCountOf, QuotaKey.isSizeOf]
  exact ⟨hexact, by decide, MessageWrapper.saveChanges_quotaExact hexact (by decide) rfl rfl rfl rfl⟩

end Steps

/-! ## The domain quotas -/

/-- The counter key of a domain quota: the recipient's domain. -/
def domainKey (envelope : Option Recipient) : String :=
  (envelope.map (·.domain)).getD ""

/-- At most a megabyte queued per recipient domain. -/
def domainSizeQuota : QueueQuota :=
  ⟨fun envelope => envelope.isSome, domainKey, some 1000000, none⟩

/-- At most 10 messages queued per recipient domain. -/
def domainCountQuota : QueueQuota :=
  ⟨fun envelope => envelope.isSome, domainKey, none, some 10⟩

/-- A spool where `a.org` has its 10 messages queued, of 1000 bytes in all. -/
def fullDomainSpool : Spool :=
  ⟨[], fun key => if key = "a.org" then 10 else 0, fun key => if key = "a.org" then 1000 else 0⟩

theorem has_quota_skips_domain_quotas :
    checkQuota fullDomainSpool domainCountQuota (some ⟨"a.org", 1, .scheduled⟩) 100
      ((1 : UInt64) <<< 32) [] =
      none ∧
    hasQuota ⟨[], [domainSizeQuota, domainCountQuota], []⟩ fullDomainSpool
        ⟨[⟨"a.org", 1, .scheduled⟩], 100, []⟩ =
      some ⟨[⟨"a.org", 1, .scheduled⟩], 100, [.size "a.org" ((1 : UInt64) <<< 32)]⟩ := by
  -- the message quota of `a.org` is full, but its loop finds `a.org` seen by the size quota
  constructor <;> decide

/-- One quota per recipient: at most 10 queued messages per recipient domain. -/
def perDomainQuotas : QueueQuotas where
  sender := []
  rcptDomain := []
  rcpt := [⟨fun envelope => envelope.isSome, fun envelope => (envelope.map (·.domain)).getD "",
    none, some 10⟩]

/-- A message of size 100 to `a.org`, delivered by virtual queue 1, and to `b.org`, delivered by
virtual queue 2. -/
def twoQueueMessage : Message :=
  ⟨[⟨"a.org", 1, .scheduled⟩, ⟨"b.org", 2, .scheduled⟩], 100, []⟩

theorem saveChanges_multiQueue_releases_twice : ∃ system : System,
    Reachable perDomainQuotas system ∧ system.spool.messages = [] ∧
      system.spool.quotaCount "a.org" = -1 ∧ ¬ system.spool.QuotaExact := by
  -- queue 1 delivers to `a.org` and saves through the merge; queue 2 then delivers to `b.org`
  -- and removes the message
  have hquota : hasQuota perDomainQuotas ⟨[], fun _ => 0, fun _ => 0⟩ twoQueueMessage =
      some { twoQueueMessage with quotaKeys := [.count "a.org" 1, .count "b.org" 2] } := by
    decide
  have hqueued := Reachable.queue 1 Reachable.empty (by decide) hquota
  have hread₁ := Reachable.read 1 1 (fun _ => .completed) hqueued rfl
  have hsaved := Reachable.save hread₁ List.mem_cons_self
  have hread₂ := Reachable.read 1 2 (fun _ => .completed) hsaved rfl
  have hrun := Reachable.remove hread₂ List.mem_cons_self
  refine ⟨_, hrun, by decide, by decide, fun hexact => ?_⟩
  have hcount := (hexact "a.org").1
  revert hcount
  decide

end Stalwart.Smtp
