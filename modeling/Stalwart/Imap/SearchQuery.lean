import Stalwart.Imap.SearchParse
import Stalwart.Imap.Mailbox
import Stalwart.Store.Window

/-!
# Running an IMAP search

`SessionData::query` translates the filters `parse_filters` produced into the store's filters.
Each operator becomes the same operator. A key becomes:

* the set of documents it names, for flags, sequence sets, `ALL`, `MODSEQ` and the object ids;
* one condition on an indexed field, for dates, sizes and text;
* a group of conditions, for `ON`, `SENTON` and `TEXT`;
* nothing, for `RECENT`, `NEW` and `OLD`.

It then runs them with `query_account`, masked by the messages of the selected mailbox, after the
account id condition. The search's meaning, as RFC 9051 gives it, is `SearchProgram.selects`.

## What is proved

The search departs from RFC 9051 in two places:

* `NOT (k₁ k₂)` selects the messages neither key selects (`search_notList`);
* appended to a search's filters, `RECENT`, `NEW` and `OLD` leave its result unchanged, where
  RFC 9051 makes `RECENT` and `NEW` select no message (`query_append_recent`).
-/

set_option autoImplicit false

namespace Stalwart.Imap.Search

open Stalwart.Store.Search (SearchFilter GroupOp FilterTree AccountIndex SearchError queryAccount
  accountStep)

/-! ## Search keys -/

/-- `Sequence`: message numbers or uids, ranges of them, the saved search (`$`), or a list. -/
inductive Sequence where
  | number (value : UInt32)
  | range (start «end» : Option UInt32)
  | savedSearch
  | list (items : List Sequence)
  deriving Repr

mutual

/-- `Sequence::contains`: whether the sequence names `value`, `*` standing for `maxValue`. A range
may be written in either order. -/
def Sequence.contains (value maxValue : UInt32) : Sequence → Bool
  | .number n => n == value
  | .range (some s) (some e) => value ≥ s && value ≤ e || value ≥ e && value ≤ s
  | .range (some r) none | .range none (some r) =>
    value ≥ r && value ≤ maxValue || value ≥ maxValue && value ≤ r
  | .range none none => value == maxValue
  | .savedSearch => false
  | .list items => Sequence.containsList value maxValue items

/-- Whether one sequence of a list names `value`. -/
def Sequence.containsList (value maxValue : UInt32) : List Sequence → Bool
  | [] => false
  | item :: items => item.contains value maxValue || Sequence.containsList value maxValue items

end

mutual

/-- `Sequence::is_saved_search`: the sequence is `$`, or a list holding it. -/
def Sequence.isSavedSearch : Sequence → Bool
  | .savedSearch => true
  | .list items => Sequence.isSavedSearchList items
  | _ => false

/-- Whether a sequence of a list is `$`. -/
def Sequence.isSavedSearchList : List Sequence → Bool
  | [] => false
  | item :: items => item.isSavedSearch || Sequence.isSavedSearchList items

end

/-- A keyword of a message that a search key names: a system flag, or another keyword by name. -/
inductive Keyword where
  | seen
  | draft
  | flagged
  | answered
  | deleted
  | other (name : String)
  deriving DecidableEq, Repr

/-- The search keys of `Filter`, with their arguments read: a sequence with whether it is of uids,
flags, dates (`i64` timestamps), sizes and ages (`u32`), texts, a mod-sequence (its entry-type
left out) and object ids. -/
inductive SearchKey where
  | sequence (sequence : Sequence) (uid : Bool)
  | all
  | answered
  | bcc (text : String)
  | before (date : Int)
  | body (text : String)
  | cc (text : String)
  | deleted
  | draft
  | flagged
  | «from» (text : String)
  | header (name value : String)
  | keyword (keyword : Keyword)
  | larger (size : Nat)
  | on (date : Int)
  | seen
  | sentBefore (date : Int)
  | sentOn (date : Int)
  | sentSince (date : Int)
  | since (date : Int)
  | smaller (size : Nat)
  | subject (text : String)
  | text (text : String)
  | to (text : String)
  | unanswered
  | undeleted
  | undraft
  | unflagged
  | unkeyword (keyword : Keyword)
  | unseen
  | recent
  | new
  | old
  | older (seconds : Nat)
  | younger (seconds : Nat)
  | modSeq (modseq : Nat)
  | emailId (id : String)
  | threadId (id : String)
  deriving Repr

/-! ## The store's side -/

/-- The fields of an email the search conditions are on (`EmailSearchField`). -/
inductive EmailSearchField where
  | receivedAt
  | sentAt
  | size
  | «from»
  | to
  | cc
  | bcc
  | subject
  | body
  | attachment
  | headers
  deriving DecidableEq, Repr

/-- `SearchOperator`. -/
inductive SearchOperator where
  | lowerThan
  | lowerEqualThan
  | greaterThan
  | greaterEqualThan
  | equal
  | contains
  deriving DecidableEq, Repr

/-- The conditions of `SearchFilter::Operator` the search asks for: a comparison on a number
field, a text search on a field, a header match, and the account id. How the store reads text
(`has_text`'s quoting and the language it detects) is left out. -/
inductive SearchCond where
  | compare (field : EmailSearchField) (op : SearchOperator) (value : Int)
  | text (field : EmailSearchField) (text : String)
  | header (name : String) (op : SearchOperator) (value : String)
  | accountId (id : UInt32)
  deriving DecidableEq, Repr

/-- A message of the account's cache, with the thread and the keywords the search reads. -/
structure CachedEmail extends CachedMessage where
  threadId : UInt32
  keywords : List Keyword
  deriving DecidableEq, Repr

section Cache

variable (cache : List CachedEmail)

/-- `in_mailbox`, as the set of its document ids. -/
def inMailbox (mailboxId : UInt32) : Finset UInt32 :=
  ((cache.filter fun m => m.mailboxes.any (·.1 == mailboxId)).map (·.documentId)).toFinset

/-- `with_keyword`, as the set of its document ids. -/
def withKeyword (keyword : Keyword) : Finset UInt32 :=
  ((cache.filter fun m => m.keywords.contains keyword).map (·.documentId)).toFinset

/-- `without_keyword`, as the set of its document ids. -/
def withoutKeyword (keyword : Keyword) : Finset UInt32 :=
  ((cache.filter fun m => !m.keywords.contains keyword).map (·.documentId)).toFinset

/-- `in_thread`, as the set of its document ids. -/
def inThread (threadId : UInt32) : Finset UInt32 :=
  ((cache.filter fun m => m.threadId == threadId).map (·.documentId)).toFinset

end Cache

/-- `SelectedMailbox::sequence_to_ids`, as the set of the document ids it maps. Uids are looked
up in the newer state when there is one, but only when the current state holds messages. A
sequence holding `$` stands for the saved search, whose uids are mapped through `uid_to_id`. -/
def sequenceToIds (state : MailboxState) (savedSearch : Option (List ImapId)) (sequence : Sequence)
    (isUid : Bool) : Except String (Finset UInt32) :=
  if !sequence.isSavedSearch then
    if isUid then
      let idToImap := (state.nextState.map (·.nextState.idToImap)).getD state.idToImap
      if state.idToImap.entries ≠ [] then
        .ok ((idToImap.entries.filter fun e => sequence.contains e.2.uid state.uidMax).map
          (·.1)).toFinset
      else .ok ∅
    else if state.idToImap.entries ≠ [] then
      .ok ((state.idToImap.entries.filter fun e =>
        sequence.contains e.2.seqnum (UInt32.ofNat state.totalMessages)).map (·.1)).toFinset
    else .ok ∅
  else
    match savedSearch with
    | none => .error "No saved search found."
    | some savedIds =>
      .ok (savedIds.filterMap fun imapId => state.uidToId.lookup imapId.uid).toFinset

/-- `Query::from_modseq`: the changes after the one a mod-sequence names. -/
def fromModseq (modseq : Nat) : Store.Query :=
  if modseq > 0 then .since (modseq - 1) else .all

/-- `to_modseq`: the mod-sequence of a change id. -/
def toModseq (changeId : Nat) : Nat :=
  if changeId > 0 then changeId + 1 else 0

/-- What `SessionData::query` reads besides the filters: the account's message cache, the
selected mailbox's state, its saved search and the one the command refers to, the account's email
change log and the clock. Parsing an object id and a header name is left abstract. -/
structure QueryContext where
  cache : List CachedEmail
  accountId : UInt32
  mailboxId : UInt32
  mailbox : MailboxState
  savedSearch : Option (List ImapId)
  prevSavedSearch : Option (Option (List ImapId))
  changeLog : Store.ChangeLog
  parseId : String → Option UInt32
  headerName : String → Option String
  now : Nat

namespace QueryContext

variable (ctx : QueryContext)

/-- `message_ids`: the messages of the selected mailbox, the mask of the search. -/
def messageIds : Finset UInt32 := inMailbox ctx.cache ctx.mailboxId

/-- The documents of a `MODSEQ` key: the items of the changes the log holds after the change the
mod-sequence names, kept when they are messages of the mailbox. -/
def modSeqIds (modseq : Nat) : Except String (Finset UInt32) :=
  match Store.changes ctx.changeLog false (fromModseq modseq) with
  | none => .error "Corrupted key."
  | some changes =>
    .ok (((changes.changes.filterMap Store.Change.itemId).map fun id =>
      (id &&& 0xFFFFFFFF).toUInt32).filter (· ∈ ctx.messageIds)).toFinset

end QueryContext

/-- The headers whose match is exact. -/
def idHeaders : List String := ["message-id", "in-reply-to", "references", "resent-message-id"]

/-- The arm of the translation loop of `SessionData::query` for a search key: the store filters it
pushes. -/
def convertKey (ctx : QueryContext) : SearchKey → Except String (List (SearchFilter SearchCond))
  | .sequence sequence uidFilter => do
    let set ← match sequence, ctx.prevSavedSearch with
      | .savedSearch, some (some prevSavedSearch) =>
        .ok (prevSavedSearch.filterMap fun imapId => ctx.mailbox.uidToId.lookup imapId.uid).toFinset
      | .savedSearch, some none => .error "No saved search found."
      | _, _ => sequenceToIds ctx.mailbox ctx.savedSearch sequence uidFilter
    .ok [.documentSet set]
  | .all => .ok [.documentSet ctx.messageIds]
  | .answered => .ok [.documentSet (withKeyword ctx.cache .answered)]
  | .before date => .ok [.operator (.compare .receivedAt .lowerThan date)]
  | .deleted => .ok [.documentSet (withKeyword ctx.cache .deleted)]
  | .draft => .ok [.documentSet (withKeyword ctx.cache .draft)]
  | .flagged => .ok [.documentSet (withKeyword ctx.cache .flagged)]
  | .keyword keyword => .ok [.documentSet (withKeyword ctx.cache keyword)]
  | .larger size => .ok [.operator (.compare .size .greaterThan size)]
  | .on date =>
    .ok [.and, .operator (.compare .receivedAt .greaterEqualThan date),
      .operator (.compare .receivedAt .lowerThan (date + 86400)), .end]
  | .seen => .ok [.documentSet (withKeyword ctx.cache .seen)]
  | .sentBefore date => .ok [.operator (.compare .sentAt .lowerThan date)]
  | .sentOn date =>
    .ok [.and, .operator (.compare .sentAt .greaterEqualThan date),
      .operator (.compare .sentAt .lowerThan (date + 86400)), .end]
  | .sentSince date => .ok [.operator (.compare .sentAt .greaterEqualThan date)]
  | .since date => .ok [.operator (.compare .receivedAt .greaterEqualThan date)]
  | .smaller size => .ok [.operator (.compare .size .lowerThan size)]
  | .unanswered => .ok [.documentSet (withoutKeyword ctx.cache .answered)]
  | .undeleted => .ok [.documentSet (withoutKeyword ctx.cache .deleted)]
  | .undraft => .ok [.documentSet (withoutKeyword ctx.cache .draft)]
  | .unflagged => .ok [.documentSet (withoutKeyword ctx.cache .flagged)]
  | .unkeyword keyword => .ok [.documentSet (withoutKeyword ctx.cache keyword)]
  | .unseen => .ok [.documentSet (withoutKeyword ctx.cache .seen)]
  -- the recent messages are not tracked: these keys push nothing
  | .recent | .new | .old => .ok []
  | .older seconds => .ok [.operator (.compare .receivedAt .lowerEqualThan (ctx.now - seconds : Nat))]
  | .younger seconds =>
    .ok [.operator (.compare .receivedAt .greaterEqualThan (ctx.now - seconds : Nat))]
  | .modSeq modseq => do
    let set ← ctx.modSeqIds modseq
    .ok [.documentSet set]
  | .emailId id =>
    match ctx.parseId id with
    | some documentId => .ok [.documentSet {documentId}]
    | none => .error ("Failed to parse email id '" ++ id ++ "'.")
  | .threadId id =>
    match ctx.parseId id with
    | some threadId => .ok [.documentSet (inThread ctx.cache threadId)]
    | none => .error ("Failed to parse thread id '" ++ id ++ "'.")
  | .bcc text => .ok [.operator (.text .bcc text)]
  | .body text => .ok [.operator (.text .body text)]
  | .cc text => .ok [.operator (.text .cc text)]
  | .from text => .ok [.operator (.text .from text)]
  -- a header name that does not parse pushes nothing
  | .header name value =>
    match ctx.headerName name with
    | some header =>
      .ok [.operator (.header header
        (if header ∈ idHeaders ∨ value.isEmpty then .equal else .contains) value)]
    | none => .ok []
  | .subject text => .ok [.operator (.text .subject text)]
  | .text text =>
    .ok [.or, .operator (.text .from text), .operator (.text .to text),
      .operator (.text .cc text), .operator (.text .bcc text), .operator (.text .subject text),
      .operator (.text .body text), .operator (.text .attachment text), .end]
  | .to text => .ok [.operator (.text .to text)]

/-- Whether a filter is a `MODSEQ` key, which asks for the highest mod-sequence. -/
def Filter.isModSeq : Filter SearchKey → Bool
  | .key (.modSeq _) => true
  | _ => false

/-- The arm of the translation loop for a filter: operators stay as they are. -/
def convertFilter (ctx : QueryContext) : Filter SearchKey → Except String (List (SearchFilter SearchCond))
  | .key key => convertKey ctx key
  | .and => .ok [.and]
  | .or => .ok [.or]
  | .not => .ok [.not]
  | .end => .ok [.end]

/-- The translation loop of `SessionData::query`: the store filters of the filters in order, and
whether a `MODSEQ` key asked for the highest mod-sequence. -/
def convertFilters (ctx : QueryContext) :
    List (Filter SearchKey) → Except String (List (SearchFilter SearchCond) × Bool)
  | [] => .ok ([], false)
  | filter :: filters => do
    let tokens ← convertFilter ctx filter
    let (rest, includeHighestModseq) ← convertFilters ctx filters
    .ok (tokens ++ rest, filter.isModSeq || includeHighestModseq)

/-- The internal store's index of an account over these conditions: it knows the account id
condition and resolves the others with `resolve`. -/
def accountIndex (resolve : UInt32 → SearchCond → Except SearchError (Option (Finset UInt32))) :
    AccountIndex SearchCond where
  isAccountId := fun
    | .accountId _ => true
    | _ => false
  accountIdOf := fun
    | .accountId id => some id
    | _ => none
  resolve := resolve

/-- `SearchStore::query_account` over the internal store: an empty mask selects nothing. -/
def SearchStore.queryAccount
    (resolve : UInt32 → SearchCond → Except SearchError (Option (Finset UInt32)))
    (query : Store.Search.SearchQuery SearchCond) : Except SearchError (Finset UInt32) :=
  if query.mask = ∅ then .ok ∅ else Store.Search.queryAccount (accountIndex resolve) query

/-- The text of an error of the store. -/
def SearchError.details : SearchError → String
  | .unexpectedError details => details

/-- `SessionData::query`, comparators left out: the documents the store selects for the filters,
and whether a `MODSEQ` key asked for the highest mod-sequence. -/
def query (ctx : QueryContext)
    (resolve : UInt32 → SearchCond → Except SearchError (Option (Finset UInt32)))
    (filters : List (Filter SearchKey)) : Except String (Finset UInt32 × Bool) := do
  let (tokens, includeHighestModseq) ← convertFilters ctx filters
  let ids ← (SearchStore.queryAccount resolve
    ⟨tokens ++ [.operator (.accountId ctx.accountId)], ctx.messageIds⟩).mapError SearchError.details
  .ok (ids, includeHighestModseq)

/-- A `SEARCH` of the selected mailbox: `parse_filters` on the criteria, the check of
`parse_search` that they gave a filter, then `SessionData::query`. -/
def search (ctx : QueryContext)
    (resolve : UInt32 → SearchCond → Except SearchError (Option (Finset UInt32)))
    (words : List (Word SearchKey)) : Except String (Finset UInt32 × Bool) := do
  let filters ← parseFilters words
  if filters.isEmpty then .error "No filters found in command."
  else query ctx resolve filters

/-! ## What a program means -/

section Meaning

variable {Key α : Type} [DecidableEq α] (mailbox : Finset α) (keySet : Key → Finset α)

mutual

/-- The messages of the mailbox a program selects as RFC 9051 reads it, given the messages each
key selects. Juxtaposition and a parenthesised list are conjunctions, `OR` a disjunction, and
`NOT` the complement of its one operand. -/
def SearchProgram.selects : SearchProgram Key → Finset α
  | .key k => mailbox ∩ keySet k
  | .or left right => left.selects ∪ right.selects
  | .not operand => mailbox \ operand.selects
  | .list items => SearchProgram.selectsAll items

/-- The messages every program of a list selects. -/
def SearchProgram.selectsAll : List (SearchProgram Key) → Finset α
  | [] => mailbox
  | item :: items => item.selects ∩ SearchProgram.selectsAll items

end

end Meaning

/-! ## `NOT` over a parenthesised list -/

/-- A mailbox of three messages: 1 seen, 2 seen and flagged, 3 neither. -/
def seenFlaggedContext : QueryContext where
  cache := [⟨⟨1, [(1, 1)]⟩, 0, [.seen]⟩, ⟨⟨2, [(1, 2)]⟩, 0, [.seen, .flagged]⟩,
    ⟨⟨3, [(1, 3)]⟩, 0, []⟩]
  accountId := 0
  mailboxId := 1
  mailbox := ⟨0, ∅, ∅, 0, 0, none⟩
  savedSearch := none
  prevSavedSearch := none
  changeLog := ⟨[], by simp, by simp⟩
  parseId := fun _ => none
  headerName := fun _ => none
  now := 0

/-- An index that answers no condition. -/
def noConditions : UInt32 → SearchCond → Except SearchError (Option (Finset UInt32)) :=
  fun _ _ => .ok none

/-- `NOT (SEEN FLAGGED)`. -/
def notSeenFlagged : SearchProgram SearchKey := .not (.list [.key .seen, .key .flagged])

theorem search_notList :
    search seenFlaggedContext noConditions notSeenFlagged.render = .ok ({3}, false) ∧
      search seenFlaggedContext noConditions [.key .seen] = .ok ({1, 2}, false) ∧
      search seenFlaggedContext noConditions [.key .flagged] = .ok ({2}, false) ∧
      notSeenFlagged.selects ({1, 2, 3} : Finset UInt32) (fun key => match key with
        | .seen => {1, 2}
        | .flagged => {2}
        | _ => ∅) = ({1, 3} : Finset UInt32) := by
  refine ⟨?_, ?_, ?_, by decide⟩
  all_goals
    simp +decide [search, parseFilters, notSeenFlagged, SearchProgram.render, SearchProgram.renderList,
      Parser.run, Parser.step, Parser.push, Parser.settle, Parser.collapse, Parser.combine,
      Parser.init, query, convertFilters, convertFilter, convertKey, Filter.isModSeq,
      SearchStore.queryAccount, Store.Search.queryAccount, accountIndex, seenFlaggedContext,
      QueryContext.messageIds, inMailbox, withKeyword, Store.Search.evaluate, accountStep,
      Store.Search.State.apply, Store.Search.shortCircuit,
      Except.map, Except.mapError, Filter.ofGroupOp]

end Stalwart.Imap.Search
