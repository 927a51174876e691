import Stalwart.Scheduling.Snapshot

/-!
# Inbound iTIP messages

When an iTIP message arrives for a local account, `itip_ingest` reads it, checks that the sender
is its organizer or one of its attendees, and looks up the stored event with the same `UID`.
`itip_process_message` then compares the stored event's snapshot with the message's and turns
the differences into merge actions, which `itip_merge_changes` applies to the stored event:

* when the stored event's organizer is local, the message must be a `REPLY` (or a `REFRESH`,
  answered without a change), and `handle_reply` updates the sender's attendee entries;
* when it is external, a `REQUEST`, `ADD` or `CANCEL` rewrites the instances, and a `REPLY` is
  taken from an attendee a local attendee delegated to.

## What is proved

Two messages change an event that their sender has no say over (`itip_changes_unauthorised`).
The sender is never compared with the organizer of an external event, so a `REQUEST` that an
attendee sends in the organizer's name rewrites the instances; only the ingestion's check that
the sender appears in the message stands in its way. And a `REPLY` edits the attendee entries of
the sender and of the attendees its reply delegates to, so a delegating reply sets another
attendee's participation.
-/

set_option autoImplicit false

namespace Stalwart.Scheduling

/-- `MergeAction`. -/
inductive MergeAction where
  | addEntries (componentId : Nat) (entries : List Entry)
  | removeEntries (componentId : Nat) (entries : List Property)
  | addParameters (componentId entryId : Nat) (parameters : List Parameter)
  | removeParameters (componentId entryId : Nat) (parameters : List ParameterName)
  | addComponent (component : Component)
  | removeComponent (componentId : Nat)
  deriving DecidableEq, Repr

/-- `MergeResult`: merge actions, a message back to the sender (the organizer's answer to a
`REFRESH`, whose content is left out), or nothing. -/
inductive MergeResult where
  | actions (actions : List MergeAction)
  | message
  | none
  deriving DecidableEq, Repr

/-- `HashSet::insert` on property names. -/
def insertName (names : List Property) (name : Property) : List Property :=
  if names.contains name then names else names ++ [name]

/-- `itip_method`: the value of the first `METHOD` entry of the first component. -/
def itipMethod (ical : ICalendar) : Except ItipError Method :=
  match ical.components.head?.bind fun comp =>
      comp.entries.findSome? fun entry =>
        if entry.name == .method then
          match entry.values.head? with
          | some (.method method) => some method
          | _ => none
        else none with
  | some method => .ok method
  | none => .error .missingMethod

/-- A scheduling component copied for a new instance, without its unknown properties. -/
def newComponent (comp : Component) : Component :=
  ⟨comp.componentType, comp.entries.filter (fun entry => !entry.name matches .other _), []⟩

/-- The `STATUS:CANCELLED` entry. -/
def cancelledEntry : Entry :=
  ⟨.status, [], [.status .cancelled]⟩

/-! ## An external organizer's messages -/

/-- The properties a `REQUEST` replaces in a stored instance: those whose values differ, the
attendees if they differ, `DTSTAMP` if the message has another one, and `SEQUENCE`. -/
def changedEntries (itipSnapshot snapshot : ItipSnapshot) : List Property :=
  let differing := (itipSnapshot.entries.filter (· ∉ snapshot.entries)) ++
    (snapshot.entries.filter (· ∉ itipSnapshot.entries))
  let changed := differing.foldl (fun names entry => insertName names entry.name) []
  let changed :=
    if itipSnapshot.attendees.length == snapshot.attendees.length &&
        itipSnapshot.attendees.all (fun a => snapshot.attendees.any (·.same a)) then changed
    else insertName changed .attendee
  let changed :=
    if itipSnapshot.dtstamp.isSome && itipSnapshot.dtstamp != snapshot.dtstamp then
      insertName changed .dtstamp
    else changed
  insertName changed .sequence

/-- One instance of a `REQUEST`: a stored instance is rewritten when the message's sequence is
not older, a new one is added. -/
def requestInstance (snapshots : ItipSnapshots) (actions : List MergeAction)
    (entry : InstanceId × ItipSnapshot) : Except ItipError (List MergeAction) :=
  let (instanceId, itipSnapshot) := entry
  match instanceGet snapshots.components instanceId with
  | some snapshot =>
    if itipSnapshot.sequence.getD 0 ≥ snapshot.sequence.getD 0 then
      let changed := changedEntries itipSnapshot snapshot
      .ok (actions ++ [.removeEntries snapshot.compId changed,
        .addEntries snapshot.compId
          (itipSnapshot.comp.entries.filter fun entry => changed.contains entry.name)])
    else .error .outOfSequence
  | none => .ok (actions ++ [.addComponent (newComponent itipSnapshot.comp)])

/-- The actions of a `REQUEST`: each instance of the message, then, when it has the main
instance, the removal of the stored instances it lacks. -/
def requestActions (snapshots itipSnapshots : ItipSnapshots) :
    Except ItipError (List MergeAction) := do
  let actions ← itipSnapshots.components.foldlM (requestInstance snapshots) []
  if itipSnapshots.components.any (·.1 == .main) then
    return actions ++ snapshots.components.filterMap fun (instanceId, snapshot) =>
      if instanceContains itipSnapshots.components instanceId then none
      else some (.removeComponent snapshot.compId)
  else return actions

/-- The actions of an `ADD`: the instances the stored event lacks. -/
def addActions (snapshots itipSnapshots : ItipSnapshots) : List MergeAction :=
  itipSnapshots.components.filterMap fun (instanceId, itipSnapshot) =>
    if instanceContains snapshots.components instanceId then none
    else some (.addComponent (newComponent itipSnapshot.comp))

/-- The entries a cancellation puts in an instance: the message's organizer and attendees, and
`STATUS:CANCELLED`. -/
def cancelEntries (comp : Component) : List Entry :=
  comp.entries.filter (fun entry => entry.name == .organizer || entry.name == .attendee) ++
    [cancelledEntry]

/-- One instance of a `CANCEL`: a stored instance is cancelled when the message's sequence is not
older, a new one is added cancelled; the flag records a cancelled main instance. -/
def cancelInstance (snapshots : ItipSnapshots) (acc : List MergeAction × Bool)
    (entry : InstanceId × ItipSnapshot) : Except ItipError (List MergeAction × Bool) :=
  let (actions, cancelAll) := acc
  let (instanceId, itipSnapshot) := entry
  match instanceGet snapshots.components instanceId with
  | some snapshot =>
    if itipSnapshot.sequence.getD 0 ≥ snapshot.sequence.getD 0 then
      .ok (actions ++ [.removeEntries snapshot.compId [.organizer, .attendee, .status, .sequence],
          .addEntries snapshot.compId (cancelEntries itipSnapshot.comp)],
        cancelAll || instanceId == .main)
    else .error .outOfSequence
  | none =>
    .ok (actions ++ [.addComponent ⟨itipSnapshot.comp.componentType,
        itipSnapshot.comp.entries.filter (fun entry =>
          !(entry.name == .status || entry.name matches .other _)) ++ [cancelledEntry], []⟩],
      cancelAll)

/-- The actions of a `CANCEL`: each instance of the message, then, when it cancels the main
instance, every stored instance it does not name. -/
def cancelActions (snapshots itipSnapshots : ItipSnapshots) :
    Except ItipError (List MergeAction) := do
  let (actions, cancelAll) ← itipSnapshots.components.foldlM (cancelInstance snapshots) ([], false)
  if cancelAll then
    match instanceGet itipSnapshots.components .main with
    | none => return actions
    | some itipMain =>
      return actions ++ snapshots.components.flatMap fun (instanceId, snapshot) =>
        if instanceContains itipSnapshots.components instanceId then []
        else [.removeEntries snapshot.compId [.organizer, .attendee, .status],
          .addEntries snapshot.compId (cancelEntries itipMain.comp)]
  else return actions

/-! ## Replies -/

/-- The parameters a delegate's entry takes from the reply. -/
def ParameterName.isDelegation : ParameterName → Bool
  | .delegatedTo | .delegatedFrom | .partstat | .rsvp | .scheduleStatus | .role => true
  | _ => false

/-- The progress properties of a to-do. -/
def Property.isProgress : Property → Bool
  | .percentComplete | .status | .completed => true
  | _ => false

/-- The actions for one delegate the replying attendee names: a delegate already in the stored
instance takes the reply's delegation parameters, a new one is added. -/
def delegateActions (snapshot itipSnapshot : ItipSnapshot) (delegatedTo : Email) :
    List MergeAction :=
  match itipSnapshot.attendeeByEmail delegatedTo.email with
  | none => []
  | some itipDelegated =>
    match snapshot.attendeeByEmail delegatedTo.email with
    | some delegated =>
      if delegated.same itipDelegated then []
      else
        [.removeParameters snapshot.compId delegated.entryId
            [.delegatedTo, .delegatedFrom, .partstat, .rsvp, .scheduleStatus, .role],
          .addParameters snapshot.compId delegated.entryId
            (match itipSnapshot.comp.entries[itipDelegated.entryId]? with
              | some entry => entry.params.filter (·.name.isDelegation)
              | none => [])]
    | none =>
      match itipSnapshot.comp.entries[itipDelegated.entryId]? with
      | some entry => [.addEntries snapshot.compId [entry]]
      | none => []

/-- The parameters of the replying attendee's entry that the reply changes, to remove and to
add. -/
def replyParameters (attendee updated : Attendee) (itipSnapshot : ItipSnapshot) :
    List ParameterName × List Parameter :=
  let partStat : List ParameterName × List Parameter :=
    if attendee.partStat != updated.partStat then
      ([.partstat], updated.partStat.toList.map fun value => ⟨.partstat, .partstat value⟩)
    else ([], [])
  let rsvp : List ParameterName × List Parameter :=
    if attendee.rsvp != updated.rsvp then
      ([.rsvp], updated.rsvp.toList.map fun value => ⟨.rsvp, .bool value⟩)
    else ([], [])
  let delegatedTo : List ParameterName × List Parameter :=
    if attendee.delegatedTo.map (·.email) != updated.delegatedTo.map (·.email) then
      ([.delegatedTo], updated.delegatedTo.map fun email =>
        ⟨.delegatedTo, .uri ("mailto:" ++ String.ofList email.email)⟩)
    else ([], [])
  let status : List ParameterName × List Parameter :=
    if !itipSnapshot.requestStatus.isEmpty then
      ([.scheduleStatus], [⟨.scheduleStatus, .text (",".intercalate itipSnapshot.requestStatus)⟩])
    else ([], [])
  (partStat.1 ++ rsvp.1 ++ delegatedTo.1 ++ status.1,
    partStat.2 ++ rsvp.2 ++ delegatedTo.2 ++ status.2)

/-- The actions of a reply on a stored instance, for the sender's entry in it and in the reply. -/
def replyUpdate (snapshot itipSnapshot : ItipSnapshot) (attendee updated : Attendee) :
    List MergeAction :=
  let changed := attendee.partStat != updated.partStat || attendee.rsvp != updated.rsvp ||
    attendee.delegatedTo.map (·.email) != updated.delegatedTo.map (·.email) ||
    !itipSnapshot.requestStatus.isEmpty
  let participation :=
    if changed then
      let parameters := replyParameters attendee updated itipSnapshot
      [.removeParameters snapshot.compId attendee.entryId parameters.1,
          .addParameters snapshot.compId attendee.entryId parameters.2] ++
        updated.delegatedTo.flatMap (delegateActions snapshot itipSnapshot)
    else []
  let progress :=
    if snapshot.comp.componentType == .vtodo then
      let entries := itipSnapshot.comp.entries.filter (·.name.isProgress)
      if entries.isEmpty then []
      else [.removeEntries snapshot.compId
          (entries.foldl (fun names entry => insertName names entry.name) []),
        .addEntries snapshot.compId entries]
    else []
  participation ++ progress

/-- The entries a reply's new instance keeps. -/
def Property.isReplyKept (isTodo : Bool) (name : Property) : Bool :=
  name == .organizer || name == .attendee || name == .uid || name == .dtstamp ||
    name == .sequence || name == .recurrenceId || (isTodo && name.isProgress)

/-- One instance of a reply. -/
def replyInstance (snapshots : ItipSnapshots) (sender : List Char) (actions : List MergeAction)
    (entry : InstanceId × ItipSnapshot) : Except ItipError (List MergeAction) :=
  let (instanceId, itipSnapshot) := entry
  match instanceGet snapshots.components instanceId with
  | some snapshot =>
    match snapshot.attendeeByEmail sender, itipSnapshot.attendeeByEmail sender with
    | some attendee, some updated => .ok (actions ++ replyUpdate snapshot itipSnapshot attendee updated)
    | _, _ => .error (.senderIsNotParticipant sender)
  | none =>
    if (itipSnapshot.attendeeByEmail sender).isSome then
      let isTodo := itipSnapshot.comp.componentType == .vtodo
      .ok (actions ++ [.addComponent ⟨itipSnapshot.comp.componentType,
        itipSnapshot.comp.entries.filter (·.name.isReplyKept isTodo), []⟩])
    else .error (.senderIsNotParticipant sender)

/-- `handle_reply`. -/
def handleReply (snapshots itipSnapshots : ItipSnapshots) (sender : List Char) :
    Except ItipError (List MergeAction) :=
  itipSnapshots.components.foldlM (replyInstance snapshots sender) []

/-! ## Processing a message -/

/-- The reply a delegate of a local attendee may send for an external organizer's event. -/
def isDelegateReply (itipSnapshots : ItipSnapshots) (sender : List Char) : Bool :=
  itipSnapshots.components.any fun (_, snapshot) =>
    snapshot.externalAttendees.any fun attendee =>
      attendee.email.email == sender && attendee.delegatedFrom.any (·.isLocal)

/-- The actions, unless empty. -/
def MergeResult.ofActions (actions : List MergeAction) : MergeResult :=
  if actions.isEmpty then .none else .actions actions

/-- `itip_process_message`. -/
def processMessage (snapshots itipSnapshots : ItipSnapshots) (itip : ICalendar)
    (sender : List Char) : Except ItipError MergeResult :=
  if snapshots.organizer.email.email != itipSnapshots.organizer.email.email then
    throw .organizerMismatch
  else do
    let method ← itipMethod itip
    if snapshots.organizer.email.isLocal then
      -- attendees answer a local organizer
      if snapshots.organizer.email.email == sender then throw .organizerIsLocalAddress
      else
        match method with
        | .reply => return .ofActions (← handleReply snapshots itipSnapshots sender)
        | .refresh => return .message
        | method => throw (.unsupportedMethod method)
    else
      -- an external organizer updates the event
      match method with
      | .request => return .ofActions (← requestActions snapshots itipSnapshots)
      | .add => return .ofActions (addActions snapshots itipSnapshots)
      | .cancel => return .ofActions (← cancelActions snapshots itipSnapshots)
      | .reply =>
        if isDelegateReply itipSnapshots sender then
          return .ofActions (← handleReply snapshots itipSnapshots sender)
        else throw (.unsupportedMethod .reply)
      | method => throw (.unsupportedMethod method)

/-! ## Merging -/

/-- `remove_component_ids`: the components of those indices go, and the root forgets them. -/
def ICalendar.removeComponentIds (ical : ICalendar) (ids : List Nat) : ICalendar :=
  ⟨(ical.components.zipIdx.filter fun (_, index) => !ids.contains index).map fun (comp, _) =>
    { comp with componentIds := comp.componentIds.filter (!ids.contains ·) }⟩

/-- One merge action applied to the event, with the components to remove collected. -/
def mergeAction (acc : ICalendar × List Nat) (action : MergeAction) : ICalendar × List Nat :=
  let (ical, remove) := acc
  match action with
  | .addEntries componentId entries =>
    (⟨ical.components.modify componentId fun comp =>
      { comp with entries := comp.entries ++ entries }⟩, remove)
  | .removeEntries componentId names =>
    (⟨ical.components.modify componentId fun comp =>
      { comp with entries := comp.entries.filter fun entry => !names.contains entry.name }⟩,
      remove)
  | .addParameters componentId entryId parameters =>
    (⟨ical.components.modify componentId fun comp =>
      { comp with entries := comp.entries.modify entryId fun entry =>
          { entry with params := entry.params ++ parameters } }⟩, remove)
  | .removeParameters componentId entryId names =>
    (⟨ical.components.modify componentId fun comp =>
      { comp with entries := comp.entries.modify entryId fun entry =>
          { entry with params := entry.params.filter fun param => !names.contains param.name } }⟩,
      remove)
  | .addComponent component =>
    match ical.components with
    | root :: rest =>
      if root.componentType == .vcalendar then
        (⟨{ root with componentIds := root.componentIds ++ [rest.length + 1] } :: rest ++
          [component]⟩, remove)
      else (ical, remove)
    | [] => (ical, remove)
  | .removeComponent componentId => (ical, remove ++ [componentId])

/-- `itip_merge_changes`. -/
def mergeChanges (ical : ICalendar) (changes : List MergeAction) : ICalendar :=
  let (ical, remove) := changes.foldl mergeAction (ical, [])
  if remove.isEmpty then ical else ical.removeComponentIds remove

/-! ## Ingestion -/

/-- A stored event, under the `UID` it is indexed by. -/
structure StoredEvent where
  uid : String
  event : ICalendar
  deriving DecidableEq, Repr

/-- What an ingested message does to the account: it merges into a stored event, leaves it as it
is, or (an invitation with an unknown `UID`) is imported as a new event. -/
inductive IngestResult where
  | merged (event : ICalendar)
  | unchanged
  | imported
  deriving DecidableEq, Repr

/-- The `ORGANIZER` a `REPLY` or a `REQUEST` without one is given: the recipient. -/
def addMissingOrganizer (recipient : List Char) (comp : Component) : Component :=
  if comp.componentType.isSchedulingObject && comp.entries.any (·.name == .attendee) &&
      !comp.entries.any (·.name == .organizer) then
    { comp with entries := comp.entries ++
      [⟨.organizer, [], [.text ("mailto:" ++ String.ofList recipient)]⟩] }
  else comp

/-- `itip_ingest`, up to the merge into the stored event. -/
def itipIngest (events : List StoredEvent) (accountEmails : List (List Char))
    (sender recipient : List Char) (itip : ICalendar) : Except ItipError IngestResult := do
  match itip.components with
  | root :: _ :: _ => if root.componentType != .vcalendar then throw .iCalendarParseError
  | _ => throw .iCalendarParseError
  -- the first METHOD entry of the root decides, as the root's property lookup finds it
  let itip : ICalendar :=
    match (itip.components.head?.bind fun root => root.entries.find? (·.name == .method)).bind
        (·.values.head?) with
    | some (.method .reply) | some (.method .request) =>
      ⟨itip.components.map (addMissingOrganizer recipient)⟩
    | _ => itip
  let itipSnapshots ← itipSnapshot itip accountEmails false
  if !itipSnapshots.senderIsOrganizerOrAttendee sender then
    throw .senderIsNotOrganizerNorAttendee
  match events.find? (·.uid == itipSnapshots.uid) with
  | some stored =>
    let snapshots ← itipSnapshot stored.event accountEmails false
    match ← processMessage snapshots itipSnapshots itip sender with
    | .actions changes => return .merged (mergeChanges stored.event changes)
    | _ => return .unchanged
  | none =>
    -- only an invitation makes a new event
    if (← itipMethod itip) != .request then throw .eventNotFound
    return .imported

/-- Bob's copy of an event Alice organizes, with Eve invited. -/
def externalEvent : ICalendar :=
  ⟨[⟨.vcalendar, [], [1]⟩,
    ⟨.vevent, [⟨.organizer, [], [.uri "mailto:alice@example.org"]⟩,
      ⟨.attendee, [], [.uri "mailto:bob@example.com"]⟩,
      ⟨.attendee, [], [.uri "mailto:eve@example.org"]⟩,
      ⟨.uid, [], [.text "meeting"]⟩, ⟨.summary, [], [.text "Planning"]⟩], []⟩]⟩

/-- A request in Alice's name that renames the event. -/
def attendeeRequest : ICalendar :=
  ⟨[⟨.vcalendar, [⟨.method, [], [.method .request]⟩], [1]⟩,
    ⟨.vevent, [⟨.organizer, [], [.uri "mailto:alice@example.org"]⟩,
      ⟨.attendee, [], [.uri "mailto:bob@example.com"]⟩,
      ⟨.attendee, [], [.uri "mailto:eve@example.org"]⟩,
      ⟨.uid, [], [.text "meeting"]⟩, ⟨.summary, [], [.text "Cancelled"]⟩], []⟩]⟩

/-- An event Bob organizes, with Alice yet to answer and Carol accepted. -/
def localEvent : ICalendar :=
  ⟨[⟨.vcalendar, [], [1]⟩,
    ⟨.vevent, [⟨.organizer, [], [.uri "mailto:bob@example.com"]⟩,
      ⟨.attendee, [⟨.partstat, .partstat .needsAction⟩], [.uri "mailto:alice@example.org"]⟩,
      ⟨.attendee, [⟨.partstat, .partstat .accepted⟩], [.uri "mailto:carol@example.org"]⟩,
      ⟨.uid, [], [.text "review"]⟩], []⟩]⟩

/-- A reply in which Alice delegates to Carol and declines in Carol's name. -/
def delegatingReply : ICalendar :=
  ⟨[⟨.vcalendar, [⟨.method, [], [.method .reply]⟩], [1]⟩,
    ⟨.vevent, [⟨.organizer, [], [.uri "mailto:bob@example.com"]⟩,
      ⟨.attendee, [⟨.partstat, .partstat .delegated⟩,
        ⟨.delegatedTo, .uri "mailto:carol@example.org"⟩], [.uri "mailto:alice@example.org"]⟩,
      ⟨.attendee, [⟨.partstat, .partstat .declined⟩,
        ⟨.delegatedFrom, .uri "mailto:alice@example.org"⟩], [.uri "mailto:carol@example.org"]⟩,
      ⟨.uid, [], [.text "review"]⟩], []⟩]⟩

/-- Eve, an attendee, renames Alice's event in Bob's calendar with a request in Alice's name; and
Alice's reply to Bob's event sets Carol's participation to declined. -/
theorem itip_changes_unauthorised :
    itipIngest [⟨"meeting", externalEvent⟩] ["bob@example.com".toList]
        "eve@example.org".toList "bob@example.com".toList attendeeRequest =
      .ok (.merged ⟨[⟨.vcalendar, [], [1]⟩,
        ⟨.vevent, [⟨.organizer, [], [.uri "mailto:alice@example.org"]⟩,
          ⟨.attendee, [], [.uri "mailto:bob@example.com"]⟩,
          ⟨.attendee, [], [.uri "mailto:eve@example.org"]⟩,
          ⟨.uid, [], [.text "meeting"]⟩, ⟨.summary, [], [.text "Cancelled"]⟩], []⟩]⟩) ∧
    itipIngest [⟨"review", localEvent⟩] ["bob@example.com".toList]
        "alice@example.org".toList "bob@example.com".toList delegatingReply =
      .ok (.merged ⟨[⟨.vcalendar, [], [1]⟩,
        ⟨.vevent, [⟨.organizer, [], [.uri "mailto:bob@example.com"]⟩,
          ⟨.attendee, [⟨.partstat, .partstat .delegated⟩,
            ⟨.delegatedTo, .uri "mailto:carol@example.org"⟩], [.uri "mailto:alice@example.org"]⟩,
          ⟨.attendee, [⟨.partstat, .partstat .declined⟩,
            ⟨.delegatedFrom, .uri "mailto:alice@example.org"⟩], [.uri "mailto:carol@example.org"]⟩,
          ⟨.uid, [], [.text "review"]⟩], []⟩]⟩) :=
  ⟨by decide +kernel, by decide +kernel⟩

end Stalwart.Scheduling
