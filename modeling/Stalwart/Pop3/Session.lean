import Mathlib.Data.Finset.Card
import Stalwart.Imap.Mailbox

/-!
# The transaction state of a POP3 session

Once authenticated, a POP3 session holds the maildrop `fetch_mailbox` builds: the inbox's messages
in uid order, numbered from 1, each with its document id, uid, size and a deleted mark. The
message count and the total size are computed once, when the maildrop is built. The transaction
commands read the maildrop (`STAT`, `LIST`, `UIDL`, `RETR`, `TOP`), mark and unmark messages
(`DELE`, `RSET`), and `QUIT` deletes the marked ones.

RFC 1939 describes the maildrop abstractly (`Maildrop`): the messages keep their numbers, a
message marked as deleted is named by no command, and `STAT` and the listings count the others.

## What is proved

* **The marks refine the RFC maildrop's** (`run_refines`): the maildrop `fetch_mailbox` builds
  stands for the RFC maildrop of its messages with none marked (`fetchMailbox_refines`), and on
  runs whose `DELE` numbers are all positive the session marks the messages RFC 1939 marks.
* `DELE 0` is accepted and marks message 1, which `STAT`, `LIST` and `TOP` go on counting and
  sending, where RFC 1939 names no message 0 (`transaction_dele_zero`).
-/

set_option autoImplicit false

namespace Stalwart.Pop3

open Imap (CachedMessage)

/-! ## The maildrop -/

/-- `INBOX_ID`. -/
def inboxId : UInt32 := 0

/-- A message of the account's message cache, with its size. -/
structure CachedEmail extends CachedMessage where
  size : UInt32
  deriving DecidableEq, Repr

/-- A mailbox of the account's cache, with whether its role is the inbox. -/
structure CachedMailbox where
  isInbox : Bool
  uidValidity : UInt32
  deriving DecidableEq, Repr

/-- The parts of the account's message cache `fetch_mailbox` reads. -/
structure MessageStoreCache where
  emails : List CachedEmail
  mailboxes : List CachedMailbox
  deriving DecidableEq, Repr

/-- A message of the maildrop. -/
structure Message where
  id : UInt32
  uid : UInt32
  size : UInt32
  deleted : Bool
  deriving DecidableEq, Repr

/-- `Mailbox`: the maildrop of a session, with the message count and total size it was built
with. -/
structure Mailbox where
  messages : List Message
  accountId : UInt32
  uidValidity : UInt32
  total : UInt32
  size : UInt32
  deriving DecidableEq, Repr

/-- `Mailbox::default()`. -/
def Mailbox.empty : Mailbox := ⟨[], 0, 0, 0, 0⟩

/-- The `BTreeMap` of `fetch_mailbox`: `(uid, (document_id, size))` for the messages in the inbox,
in uid order. -/
def messageMap (emails : List CachedEmail) : List (UInt32 × UInt32 × UInt32) :=
  (emails.filterMap fun email =>
      (email.uidIn inboxId).map fun uid => (uid, email.documentId, email.size)).foldl
    (fun map entry => map.insertSorted UInt32.toNat entry.1 entry.2) []

/-- One step of the loop of `fetch_mailbox`: the next message, unmarked, counted in the total and
the size. -/
def Mailbox.push (mailbox : Mailbox) (entry : UInt32 × UInt32 × UInt32) : Mailbox :=
  { mailbox with
    messages := mailbox.messages ++ [⟨entry.2.1, entry.1, entry.2.2, false⟩]
    total := mailbox.total + 1
    size := mailbox.size + entry.2.2 }

/-- `Session::fetch_mailbox`: the maildrop of an account, with the uid validity of its inbox. -/
def fetchMailbox (cache : MessageStoreCache) (accountId : UInt32) : Mailbox :=
  if cache.emails.isEmpty then Mailbox.empty
  else
    let uidValidity := ((cache.mailboxes.find? (·.isInbox)).map (·.uidValidity)).getD 0
    (messageMap cache.emails).foldl Mailbox.push ⟨[], accountId, uidValidity, 0, 0⟩

/-- The message a command names: `messages.get(msg.saturating_sub(1))`. -/
def Mailbox.message? (mailbox : Mailbox) (msg : Nat) : Option Message :=
  mailbox.messages[msg - 1]?

/-! ## Responses -/

/-- The bytes of a text of ASCII characters, as the responses' texts are. -/
def ascii (text : String) : List UInt8 :=
  text.toList.map fun c => c.toNat.toUInt8

/-- `Response`: a one-line answer, a multi-line listing numbered from 1, or a message with the
number of lines to send (all of them for 0). -/
inductive Response where
  | ok (message : String)
  | err (message : String)
  | list (items : List String)
  | message (bytes : List UInt8) (lines : Nat)
  deriving DecidableEq, Repr

/-- The transparency procedure of `Response::Message`, from one byte of the message on: a line
feed after anything but a carriage return gets one, and a dot that starts a line is doubled.
With a line limit, the loop stops after the line feed that completes that many lines. Returns the
bytes written and the last byte read. -/
def transparency (lines : Nat) : List UInt8 → Nat → UInt8 → List UInt8 × UInt8
  | [], _, lastByte => ([], lastByte)
  | byte :: bytes, lineCount, lastByte =>
    let written := (if byte == 10 && lastByte != 13 then [13] else []) ++
      (if byte == 46 && lastByte == 10 then [46] else []) ++ [byte]
    if lines > 0 && byte == 10 then
      if lineCount + 1 == lines then (written, byte)
      else
        let rest := transparency lines bytes (lineCount + 1) byte
        (written ++ rest.1, rest.2)
    else
      let rest := transparency lines bytes lineCount byte
      (written ++ rest.1, rest.2)

/-- `Response::serialize`. -/
def Response.serialize : Response → List UInt8
  | .ok text => ascii ("+OK " ++ text ++ "\r\n")
  | .err text => ascii ("-ERR " ++ text ++ "\r\n")
  | .list items =>
    ascii ("+OK " ++ toString items.length ++ " messages\r\n") ++
      (items.zipIdx.flatMap fun (item, num) => ascii (toString (num + 1) ++ " " ++ item ++ "\r\n")) ++
      ascii ".\r\n"
  | .message bytes lines =>
    let (written, lastByte) := transparency lines bytes 0 0
    ascii ("+OK " ++ toString bytes.length ++ " octets\r\n") ++ written ++
      (if lastByte != 10 then ascii "\r\n" else []) ++ ascii ".\r\n"

/-! ## The commands -/

section Handlers

variable (mailbox : Mailbox)

/-- `handle_list`. -/
def handleList : Option Nat → Response
  | some msg =>
    match mailbox.message? msg with
    | some message => .ok (toString msg ++ " " ++ toString message.size)
    | none => .err "No such message."
  | none => .list (mailbox.messages.map fun message => toString message.size)

/-- The unique id of a message: the uid validity followed by the uid, in decimal. -/
def uniqueId (uidValidity uid : UInt32) : String :=
  toString uidValidity ++ toString uid

/-- `handle_uidl`. -/
def handleUidl : Option Nat → Response
  | some msg =>
    match mailbox.message? msg with
    | some message => .ok (toString msg ++ " " ++ uniqueId mailbox.uidValidity message.uid)
    | none => .err "No such message."
  | none => .list (mailbox.messages.map fun message => uniqueId mailbox.uidValidity message.uid)

/-- `handle_stat`: the count and size the maildrop was built with. -/
def handleStat : Response :=
  .ok (toString mailbox.total ++ " " ++ toString mailbox.size)

/-- A stored message as `handle_fetch` reads it: the raw headers of its metadata, its blob, and
the offset of the body in the blob. A message without metadata or blob is `none`. -/
structure StoredMessage where
  rawHeaders : List UInt8
  blob : List UInt8
  blobBodyOffset : Nat
  deriving DecidableEq, Repr

/-- `handle_fetch`, for `RETR` (no line count) and `TOP`: the raw headers followed by the body. -/
def handleFetch (store : UInt32 → Option StoredMessage) (msg : Nat) (lines : Option Nat) :
    Response :=
  match mailbox.message? msg with
  | some message =>
    match store message.id with
    | some stored =>
      .message (stored.rawHeaders ++ stored.blob.drop stored.blobBodyOffset) (lines.getD 0)
    | none => .err "Failed to fetch message. Perhaps another session deleted it?"
  | none => .err "No such message."

/-- `handle_rset`: every mark is cleared, and the marks cleared are counted. -/
def handleRset : Response × Mailbox :=
  (.ok (toString (mailbox.messages.filter (·.deleted)).length ++ " messages undeleted"),
    { mailbox with messages := mailbox.messages.map fun message => { message with deleted := false } })

/-- The documents `handle_quit` asks the store to delete: those of the marked messages. -/
def quitDeletions : Finset UInt32 :=
  ((mailbox.messages.filter (·.deleted)).map (·.id)).toFinset

/-- `handle_quit` in the transaction state, given the documents the store fails to delete. -/
def handleQuit (emailsDelete : Finset UInt32 → Finset UInt32) : Response :=
  if quitDeletions mailbox = ∅ then
    .ok "Stalwart POP3 bids you farewell (no messages deleted)."
  else if emailsDelete (quitDeletions mailbox) = ∅ then
    .ok ("Stalwart POP3 bids you farewell (" ++ toString (quitDeletions mailbox).card ++
      " messages deleted).")
  else .err "Some messages could not be deleted"

end Handlers

/-- One message of the loop of `handle_dele`: a message not marked yet is marked. -/
def deleStep (acc : List Response × Mailbox) (msg : Nat) : List Response × Mailbox :=
  match acc.2.message? msg with
  | some message =>
    if !message.deleted then
      (acc.1 ++ [.ok ("message " ++ toString msg ++ " deleted")],
        { acc.2 with messages := acc.2.messages.set (msg - 1) { message with deleted := true } })
    else (acc.1 ++ [.err ("message " ++ toString msg ++ " already deleted")], acc.2)
  | none => (acc.1 ++ [.err "no such message"], acc.2)

/-- `handle_dele`, for one `DELE` or for consecutive ones grouped into `DeleMany`. -/
def handleDele (mailbox : Mailbox) (msgs : List Nat) : List Response × Mailbox :=
  msgs.foldl deleStep ([], mailbox)

/-- The commands of the transaction state, `QUIT` apart. -/
inductive Command where
  | stat
  | list (msg : Option Nat)
  | uidl (msg : Option Nat)
  | retr (msg : Nat)
  | top (msg n : Nat)
  | dele (msg : Nat)
  | deleMany (msgs : List Nat)
  | rset
  | noop
  deriving DecidableEq, Repr

/-- The dispatch of the session's command loop: the responses of a command and the maildrop
after it. -/
def step (store : UInt32 → Option StoredMessage) (mailbox : Mailbox) :
    Command → List Response × Mailbox
  | .stat => ([handleStat mailbox], mailbox)
  | .list msg => ([handleList mailbox msg], mailbox)
  | .uidl msg => ([handleUidl mailbox msg], mailbox)
  | .retr msg => ([handleFetch mailbox store msg none], mailbox)
  | .top msg n => ([handleFetch mailbox store msg (some n)], mailbox)
  | .dele msg => handleDele mailbox [msg]
  | .deleMany msgs => handleDele mailbox msgs
  | .rset => ([(handleRset mailbox).1], (handleRset mailbox).2)
  | .noop => ([.ok "NOOP"], mailbox)

/-- A run of commands: the responses in order, and the maildrop at the end. -/
def run (store : UInt32 → Option StoredMessage) : Mailbox → List Command → List Response × Mailbox
  | mailbox, [] => ([], mailbox)
  | mailbox, command :: commands =>
    let (responses, mailbox') := step store mailbox command
    let (rest, mailbox'') := run store mailbox' commands
    (responses ++ rest, mailbox'')

/-! ## Marks -/

/-- What a message is apart from its mark. -/
def Message.entry (message : Message) : UInt32 × UInt32 × UInt32 :=
  (message.id, message.uid, message.size)

@[simp] theorem Message.entry_mark (message : Message) (deleted : Bool) :
    Message.entry { message with deleted } = message.entry :=
  rfl

theorem set_eq_self_of_getElem? {α : Type} {l : List α} {i : Nat} {a : α}
    (h : l[i]? = some a) : l.set i a = l := by
  obtain ⟨hi, rfl⟩ := List.getElem?_eq_some_iff.mp h
  exact List.set_getElem_self hi

theorem run_cons_snd (store : UInt32 → Option StoredMessage) (mailbox : Mailbox)
    (command : Command) (commands : List Command) :
    (run store mailbox (command :: commands)).2 = (run store (step store mailbox command).2 commands).2 :=
  rfl

/-! ## The maildrop of RFC 1939 -/

/-- The maildrop of RFC 1939: its messages, numbered from 1 in order, and the numbers of the
messages marked as deleted. -/
structure Maildrop (α : Type) where
  messages : List α
  marked : Finset Nat

namespace Maildrop

variable {α : Type} (drop : Maildrop α)

/-- The message a number names: one of the maildrop's that is not marked. -/
def get? (n : Nat) : Option α :=
  if 1 ≤ n ∧ n ∉ drop.marked then drop.messages[n - 1]? else none

/-- `DELE n` marks the message `n` names, and fails when it names none. -/
def dele (n : Nat) : Option (Maildrop α) :=
  (drop.get? n).map fun _ => { drop with marked := insert n drop.marked }

/-- `RSET` unmarks every message. -/
def rset : Maildrop α := { drop with marked := ∅ }

/-- The messages not marked, with their indices (their numbers less one). -/
def kept : List (α × Nat) :=
  drop.messages.zipIdx.filter fun entry => entry.2 + 1 ∉ drop.marked

/-- `STAT`: how many messages are not marked, and their total size. -/
def stat (size : α → Nat) : Nat × Nat :=
  (drop.kept.length, (drop.kept.map fun entry => size entry.1).sum)

/-- What a command does to the marks. -/
def step : Command → Maildrop α
  | .dele msg => (drop.dele msg).getD drop
  | .deleMany msgs => msgs.foldl (fun drop msg => (drop.dele msg).getD drop) drop
  | .rset => drop.rset
  | _ => drop

/-- The maildrop after a run of commands. -/
def run (commands : List Command) : Maildrop α :=
  commands.foldl step drop

end Maildrop

/-- Whether the `DELE` numbers of a command are positive. -/
def Command.delePositive : Command → Bool
  | .dele msg => 0 < msg
  | .deleMany msgs => msgs.all (0 < ·)
  | _ => true

/-- A session's maildrop stands for the RFC maildrop of its entries: the same messages in the
same order, and the marked ones under the marked numbers. -/
def Refines (mailbox : Mailbox) (drop : Maildrop (UInt32 × UInt32 × UInt32)) : Prop :=
  drop.messages = mailbox.messages.map Message.entry ∧
    ∀ n, n ∈ drop.marked ↔ 1 ≤ n ∧ ∃ message, mailbox.message? n = some message ∧ message.deleted

/-- A maildrop with no marks stands for the RFC maildrop of its entries with none. -/
theorem refines_of_unmarked {mailbox : Mailbox}
    (h : ∀ message ∈ mailbox.messages, message.deleted = false) :
    Refines mailbox ⟨mailbox.messages.map Message.entry, ∅⟩ := by
  refine ⟨rfl, fun n => ⟨fun hn => absurd hn (Finset.notMem_empty n), ?_⟩⟩
  rintro ⟨-, message, hmessage, hdeleted⟩
  have hmem : message ∈ mailbox.messages := List.mem_of_getElem? hmessage
  rw [h message hmem] at hdeleted
  cases hdeleted

/-- Marking the message `msg` names changes what `msg` names and nothing else. -/
theorem message?_mark {mailbox : Mailbox} {msg n : Nat} {message : Message}
    (hmsg : 1 ≤ msg) (hn : 1 ≤ n) (hmessage : mailbox.message? msg = some message) (x : Message) :
    ({ mailbox with messages := mailbox.messages.set (msg - 1) x } : Mailbox).message? n =
      if n = msg then some x else mailbox.message? n := by
  have hlt : msg - 1 < mailbox.messages.length :=
    (List.getElem?_eq_some_iff.mp hmessage).1
  simp only [Mailbox.message?, List.getElem?_set, hlt, if_true]
  by_cases heq : n = msg
  · simp [heq]
  · have hne : ¬ msg - 1 = n - 1 := by omega
    simp only [hne, heq, if_false]

/-- **`DELE` refines**: a positive `DELE` marks what RFC 1939 marks. -/
theorem deleStep_refines {acc : List Response × Mailbox} {drop : Maildrop (UInt32 × UInt32 × UInt32)}
    {msg : Nat} (hmsg : 0 < msg) (h : Refines acc.2 drop) :
    Refines (deleStep acc msg).2 ((drop.dele msg).getD drop) := by
  obtain ⟨hmessages, hmarked⟩ := h
  have hget : drop.messages[msg - 1]? = (acc.2.message? msg).map Message.entry := by
    rw [hmessages, List.getElem?_map]
    rfl
  unfold deleStep
  cases hm : acc.2.message? msg with
  | none =>
    -- the number names no message: both refuse
    have hdele : drop.dele msg = none := by
      simp [Maildrop.dele, Maildrop.get?, hget, hm]
    rw [hdele, Option.getD_none]
    exact ⟨hmessages, hmarked⟩
  | some message =>
    by_cases hdeleted : message.deleted
    · -- the message is marked already: both refuse
      have hin : msg ∈ drop.marked := (hmarked msg).mpr ⟨hmsg, message, hm, hdeleted⟩
      have hdele : drop.dele msg = none := by
        simp [Maildrop.dele, Maildrop.get?, hin]
      simp only [hdeleted, Bool.not_true, Bool.false_eq_true, if_false, hdele, Option.getD_none]
      exact ⟨hmessages, hmarked⟩
    · -- both mark it
      have hout : msg ∉ drop.marked := by
        intro hin
        obtain ⟨-, message', hm', hdeleted'⟩ := (hmarked msg).mp hin
        rw [hm, Option.some_inj] at hm'
        exact hdeleted (hm' ▸ hdeleted')
      have hpos : msg ≠ 0 := Nat.pos_iff_ne_zero.mp hmsg
      have hdele : drop.dele msg = some { drop with marked := insert msg drop.marked } := by
        simp [Maildrop.dele, Maildrop.get?, hpos, hout, hget, hm]
      have hentry : (acc.2.messages.map Message.entry)[msg - 1]? = some message.entry := by
        rw [List.getElem?_map]
        exact congrArg (Option.map Message.entry) hm
      simp only [hdeleted, Bool.not_false, if_true, hdele, Option.getD_some]
      refine ⟨by rw [List.map_set, Message.entry_mark, set_eq_self_of_getElem? hentry, hmessages],
        fun n => ?_⟩
      rw [Finset.mem_insert, hmarked n]
      by_cases hn : 1 ≤ n
      · rw [message?_mark hmsg hn hm]
        by_cases heq : n = msg
        · simp [heq, Nat.one_le_iff_ne_zero.mpr hpos]
        · simp only [heq, false_or, if_false]
      · simp only [hn, false_and, or_false, iff_false]
        omega

theorem handleDele_refines {mailbox : Mailbox} {drop : Maildrop (UInt32 × UInt32 × UInt32)}
    {msgs : List Nat} (hmsgs : ∀ msg ∈ msgs, 0 < msg) (h : Refines mailbox drop) :
    Refines (handleDele mailbox msgs).2
      (msgs.foldl (fun drop msg => (drop.dele msg).getD drop) drop) := by
  suffices hfold : ∀ (acc : List Response × Mailbox) (drop : Maildrop (UInt32 × UInt32 × UInt32)),
      Refines acc.2 drop → Refines (msgs.foldl deleStep acc).2
        (msgs.foldl (fun drop msg => (drop.dele msg).getD drop) drop) from hfold _ _ h
  induction msgs with
  | nil => exact fun _ _ h => h
  | cons msg msgs ih =>
    intro acc drop h
    exact ih (fun m hm => hmsgs m (List.mem_cons_of_mem _ hm)) _ _
      (deleStep_refines (hmsgs msg List.mem_cons_self) h)

theorem handleRset_refines {mailbox : Mailbox} {drop : Maildrop (UInt32 × UInt32 × UInt32)}
    (h : Refines mailbox drop) : Refines (handleRset mailbox).2 drop.rset := by
  refine ⟨by simpa [handleRset, Maildrop.rset, List.map_map, Function.comp_def] using h.1,
    fun n => ?_⟩
  simp only [Maildrop.rset, Finset.notMem_empty, false_iff, not_and, not_exists]
  intro _ message hmessage
  simp only [handleRset, Mailbox.message?, List.getElem?_map, Option.map_eq_some_iff] at hmessage
  obtain ⟨_, -, rfl⟩ := hmessage
  simp

/-- **A command refines its RFC 1939 effect** when its `DELE` numbers are positive. -/
theorem step_refines (store : UInt32 → Option StoredMessage) {mailbox : Mailbox}
    {drop : Maildrop (UInt32 × UInt32 × UInt32)} (h : Refines mailbox drop) :
    ∀ {command : Command}, command.delePositive → Refines (step store mailbox command).2 (drop.step command)
  | .stat, _ | .list _, _ | .uidl _, _ | .retr _, _ | .top _ _, _ | .noop, _ => h
  | .dele msg, hpos => by
    simpa [step, Maildrop.step, handleDele] using
      deleStep_refines (by simpa [Command.delePositive] using hpos) h
  | .deleMany msgs, hpos =>
    handleDele_refines (by simpa [Command.delePositive] using hpos) h
  | .rset, _ => handleRset_refines h

/-- **A run refines its RFC 1939 run** when its `DELE` numbers are positive. -/
theorem run_refines (store : UInt32 → Option StoredMessage) :
    ∀ {mailbox : Mailbox} {drop : Maildrop (UInt32 × UInt32 × UInt32)} {commands : List Command},
      (∀ command ∈ commands, command.delePositive) → Refines mailbox drop →
        Refines (run store mailbox commands).2 (drop.run commands)
  | _, _, [], _, h => h
  | mailbox, drop, command :: commands, hpos, h => by
    have hstep := step_refines store h (hpos command List.mem_cons_self)
    rw [run_cons_snd]
    exact run_refines store (fun c hc => hpos c (List.mem_cons_of_mem _ hc)) hstep

/-! ## The maildrop `fetch_mailbox` builds -/

section Fetch

theorem foldl_push_messages (entries : List (UInt32 × UInt32 × UInt32)) (mailbox : Mailbox) :
    (entries.foldl Mailbox.push mailbox).messages =
      mailbox.messages ++ entries.map fun entry => ⟨entry.2.1, entry.1, entry.2.2, false⟩ := by
  induction entries generalizing mailbox with
  | nil => simp
  | cons entry entries ih => simp [ih, Mailbox.push]

variable (cache : MessageStoreCache) (accountId : UInt32)

/-- The messages of a fresh maildrop: those of the inbox in uid order, none marked. -/
theorem fetchMailbox_messages :
    (fetchMailbox cache accountId).messages =
      if cache.emails.isEmpty then []
      else (messageMap cache.emails).map fun entry => ⟨entry.2.1, entry.1, entry.2.2, false⟩ := by
  unfold fetchMailbox
  split <;> simp [Mailbox.empty, foldl_push_messages]

theorem fetchMailbox_unmarked :
    ∀ message ∈ (fetchMailbox cache accountId).messages, message.deleted = false := by
  rw [fetchMailbox_messages]
  split
  · simp
  · simp only [List.mem_map]
    rintro _ ⟨entry, -, rfl⟩
    rfl

/-- The maildrop a run starts from stands for the RFC maildrop of its messages, none marked. -/
theorem fetchMailbox_refines :
    Refines (fetchMailbox cache accountId)
      ⟨(fetchMailbox cache accountId).messages.map Message.entry, ∅⟩ :=
  refines_of_unmarked (fetchMailbox_unmarked cache accountId)

end Fetch

/-! ## A maildrop of one message -/

/-- An inbox of one message, document 1 with uid 1 and eleven octets, in a mailbox of uid
validity 7. -/
def oneMessageCache : MessageStoreCache :=
  ⟨[⟨⟨1, [(0, 1)]⟩, 11⟩], [⟨true, 7⟩]⟩

/-- The message: the header `S: a`, the blank line, and the body line `b`. -/
def oneMessageStore : UInt32 → Option StoredMessage :=
  fun _ => some ⟨ascii "S: a\r\n\r\n", ascii "b\r\n", 0⟩

/-- `DELE 1`, `STAT`, `RSET`, then `DELE 1` again on the one message: the session marks what
RFC 1939 marks, message 1 at the end. -/
theorem run_refines_one_message :
    (∀ command ∈ [Command.dele 1, .stat, .rset, .dele 1], command.delePositive) ∧
      Refines (run oneMessageStore (fetchMailbox oneMessageCache 1)
          [.dele 1, .stat, .rset, .dele 1]).2
        ((⟨(fetchMailbox oneMessageCache 1).messages.map Message.entry, ∅⟩ :
          Maildrop (UInt32 × UInt32 × UInt32)).run [.dele 1, .stat, .rset, .dele 1]) ∧
      ((⟨(fetchMailbox oneMessageCache 1).messages.map Message.entry, ∅⟩ :
          Maildrop (UInt32 × UInt32 × UInt32)).run [.dele 1, .stat, .rset, .dele 1]).marked =
        {1} := by
  have hpos : ∀ command ∈ [Command.dele 1, .stat, .rset, .dele 1], command.delePositive := by
    decide
  exact ⟨hpos, run_refines oneMessageStore hpos (fetchMailbox_refines oneMessageCache 1),
    by decide⟩

theorem transaction_dele_zero :
    run oneMessageStore (fetchMailbox oneMessageCache 1)
        [.dele 0, .stat, .list (some 1), .top 1 0] =
      ([.ok "message 0 deleted", .ok "1 11", .ok "1 11", .message (ascii "S: a\r\n\r\nb\r\n") 0],
        ⟨[⟨1, 1, 11, true⟩], 1, 7, 1, 11⟩) ∧
    (Response.message (ascii "S: a\r\n\r\nb\r\n") 0).serialize =
      ascii "+OK 11 octets\r\nS: a\r\n\r\nb\r\n.\r\n" ∧
    (⟨[(1, 1, 11)], ∅⟩ : Maildrop (UInt32 × UInt32 × UInt32)).dele 0 = none ∧
    (⟨[(1, 1, 11)], {1}⟩ : Maildrop (UInt32 × UInt32 × UInt32)).stat (fun entry => entry.2.2.toNat) =
      (0, 0) := by
  refine ⟨by decide, by decide, by decide, by decide⟩

end Stalwart.Pop3
