import Mathlib.Data.List.Basic
import Stalwart.Lib.ExceptBind

/-!
# iTIP snapshots

The scheduling code reads an iCalendar object through a snapshot (`itip_snapshot`): for each
scheduling component, the instance it describes (the main one, or the one its `RECURRENCE-ID`
names), its organizer and attendees with their addresses normalised and marked local when they
are one of the account's, its `SEQUENCE`, `DTSTAMP` and `REQUEST-STATUS`, and the values of the
properties whose change makes an update. One organizer, one `UID` and one object type are
allowed across the components, and one component per instance.

Addresses are lists of characters; the other texts of an object are compared, never taken apart,
and stay strings. Date-times are their timestamps, as the snapshot compares them.

`Stalwart.Scheduling.Inbound` runs the merge of an incoming message over these snapshots.
-/

set_option autoImplicit false

namespace Stalwart.Scheduling

/-! ## iCalendar objects -/

/-- `ICalendarComponentType`. -/
inductive ComponentType where
  | vcalendar
  | vevent
  | vtodo
  | vjournal
  | vfreebusy
  | vtimezone
  | valarm
  | other
  deriving DecidableEq, Repr

/-- `is_scheduling_object`: the components that carry a scheduled object. -/
def ComponentType.isSchedulingObject : ComponentType → Bool
  | .vevent | .vtodo | .vjournal | .vfreebusy => true
  | _ => false

/-- `ICalendarMethod`. -/
inductive Method where
  | publish
  | request
  | reply
  | add
  | cancel
  | refresh
  | counter
  | declineCounter
  deriving DecidableEq, Repr

/-- `ICalendarStatus`. -/
inductive Status where
  | tentative
  | confirmed
  | cancelled
  | needsAction
  | completed
  | inProcess
  | draft
  | final
  deriving DecidableEq, Repr

/-- `ICalendarParticipationStatus`. -/
inductive PartStat where
  | needsAction
  | accepted
  | declined
  | tentative
  | delegated
  | completed
  | inProcess
  deriving DecidableEq, Repr

/-- `ICalendarParticipationRole`. -/
inductive Role where
  | chair
  | reqParticipant
  | optParticipant
  | nonParticipant
  deriving DecidableEq, Repr

/-- `ICalendarUserTypes`. -/
inductive CuType where
  | individual
  | group
  | resource
  | room
  | unknown
  deriving DecidableEq, Repr

/-- `ICalendarScheduleAgentValue`. -/
inductive ScheduleAgent where
  | server
  | client
  | none
  deriving DecidableEq, Repr

/-- `ICalendarProperty`: the properties the scheduling code names, `comment` for a known
property it does not, and `other` for an unknown one. -/
inductive Property where
  | organizer
  | attendee
  | uid
  | sequence
  | recurrenceId
  | requestStatus
  | dtstamp
  | dtstart
  | dtend
  | duration
  | due
  | rrule
  | rdate
  | exdate
  | status
  | location
  | summary
  | description
  | priority
  | percentComplete
  | completed
  | method
  | comment
  | other (name : String)
  deriving DecidableEq, Repr

/-- `ICalendarParameterName`. -/
inductive ParameterName where
  | partstat
  | rsvp
  | delegatedTo
  | delegatedFrom
  | scheduleStatus
  | role
  | cutype
  | sentBy
  | scheduleAgent
  | range
  | tzid
  | cn
  | other (name : String)
  deriving DecidableEq, Repr

/-- `ICalendarParameterValue`. -/
inductive ParameterValue where
  | text (text : String)
  | bool (value : Bool)
  | uri (uri : String)
  | partstat (value : PartStat)
  | role (value : Role)
  | cutype (value : CuType)
  | scheduleAgent (value : ScheduleAgent)
  deriving DecidableEq, Repr

/-- `ICalendarParameter`. -/
structure Parameter where
  name : ParameterName
  value : ParameterValue
  deriving DecidableEq, Repr

/-- `ICalendarValue`: texts, locations, integers, date-times (as their timestamps), methods and
statuses. -/
inductive Value where
  | text (text : String)
  | uri (uri : String)
  | integer (value : Int)
  | dateTime (timestamp : Int)
  | method (method : Method)
  | status (status : Status)
  deriving DecidableEq, Repr

/-- `as_text`: a text or a location. -/
def Value.asText : Value → Option String
  | .text value => some value
  | .uri location => some location
  | _ => none

/-- `as_integer`. -/
def Value.asInteger : Value → Option Int
  | .integer value => some value
  | _ => none

/-- `as_partial_date_time`. -/
def Value.asDateTime : Value → Option Int
  | .dateTime timestamp => some timestamp
  | _ => none

/-- `ICalendarEntry`. -/
structure Entry where
  name : Property
  params : List Parameter
  values : List Value
  deriving DecidableEq, Repr

/-- `ICalendarComponent`. -/
structure Component where
  componentType : ComponentType
  entries : List Entry
  componentIds : List Nat
  deriving DecidableEq, Repr

/-- `ICalendar`. -/
structure ICalendar where
  components : List Component
  deriving DecidableEq, Repr

/-! ## Calendar addresses -/

/-- `Email`: a calendar address, and whether it is one of the account's. Two are equal when their
addresses are. -/
structure Email where
  email : List Char
  isLocal : Bool
  deriving DecidableEq, Repr

/-- `str::trim`. -/
def trimWhitespace (text : List Char) : List Char :=
  ((text.dropWhile Char.isWhitespace).reverse.dropWhile Char.isWhitespace).reverse

/-- `str::trim_start_matches`: the prefix removed as many times as it starts the text; each
removal shortens the text, so its length bounds the removals. -/
def trimStartMatches (pre : List Char) : Nat → List Char → List Char
  | 0, text => text
  | fuel + 1, text =>
    if pre ≠ [] ∧ pre.isPrefixOf text then trimStartMatches pre fuel (text.drop pre.length)
    else text

/-- `Email::new`: an address with an `@`, trimmed, without its `mailto:` prefixes, lowercased. -/
def Email.new (email : String) (localAddresses : List (List Char)) : Option Email :=
  if email.toList.contains '@' then
    let trimmed := trimWhitespace email.toList
    let address := (trimStartMatches "mailto:".toList trimmed.length trimmed).map Char.toLower
    some ⟨address, localAddresses.contains address⟩
  else none

/-! ## Snapshots -/

/-- `Organizer`. -/
structure Organizer where
  entryId : Nat
  email : Email
  isServerScheduling : Bool
  deriving DecidableEq, Repr

/-- `Attendee`. -/
structure Attendee where
  entryId : Nat
  email : Email
  partStat : Option PartStat
  delegatedFrom : List Email
  delegatedTo : List Email
  role : Option Role
  cuType : Option CuType
  sentBy : Option Email
  rsvp : Option Bool
  isServerScheduling : Bool
  deriving DecidableEq, Repr

/-- `PartialEq for Attendee`: the address, the participation, the delegations, the role, the user
type and the sender; not the entry, nor `RSVP`. -/
def Attendee.same (a b : Attendee) : Bool :=
  a.email.email == b.email.email && a.partStat == b.partStat &&
    a.delegatedFrom.map (·.email) == b.delegatedFrom.map (·.email) &&
    a.delegatedTo.map (·.email) == b.delegatedTo.map (·.email) && a.role == b.role &&
    a.cuType == b.cuType && a.sentBy.map (·.email) == b.sentBy.map (·.email)

/-- `InstanceId`: the main instance, or a recurrence by its `RECURRENCE-ID` entry, date and
range. -/
inductive InstanceId where
  | main
  | recurrence (entryId : Nat) (date : Int) (thisAndFuture : Bool)
  deriving DecidableEq, Repr

/-- `PartialEq for InstanceId`: recurrences compare by date and range only. -/
def InstanceId.same : InstanceId → InstanceId → Bool
  | .main, .main => true
  | .recurrence _ date thisAndFuture, .recurrence _ date' thisAndFuture' =>
    date == date' && thisAndFuture == thisAndFuture'
  | _, _ => false

/-- `ItipEntryValue`. -/
inductive ItipEntryValue where
  | dateTime (timestamp : Int)
  | text (text : String)
  | integer (value : Int)
  | status (status : Status)
  deriving DecidableEq, Repr

/-- `ItipEntry`: a property and one of its values. -/
structure ItipEntry where
  name : Property
  value : ItipEntryValue
  deriving DecidableEq, Repr

/-- `ItipSnapshot`: what the scheduling code reads of one instance. -/
structure ItipSnapshot where
  compId : Nat
  comp : Component
  attendees : List Attendee
  dtstamp : Option Int
  entries : List ItipEntry
  sequence : Option Int
  requestStatus : List String
  deriving DecidableEq, Repr

/-- `ItipSnapshots`. -/
structure ItipSnapshots where
  organizer : Organizer
  uid : String
  components : List (InstanceId × ItipSnapshot)
  deriving DecidableEq, Repr

/-- `ItipError`, the errors the modelled code raises. -/
inductive ItipError where
  | noSchedulingInfo
  | otherSchedulingAgent
  | notOrganizerNorAttendee
  | nothingToSend
  | missingUid
  | multipleUid
  | multipleOrganizer
  | multipleObjectTypes
  | multipleObjectInstances
  | organizerMismatch
  | missingMethod
  | outOfSequence
  | organizerIsLocalAddress
  | senderIsNotOrganizerNorAttendee
  | senderIsNotParticipant (sender : List Char)
  | unsupportedMethod (method : Method)
  | iCalendarParseError
  | eventNotFound
  deriving DecidableEq, Repr

/-- `AHashMap::get` on the instances. -/
def instanceGet (components : List (InstanceId × ItipSnapshot)) (instanceId : InstanceId) :
    Option ItipSnapshot :=
  (components.find? (·.1.same instanceId)).map (·.2)

/-- `AHashMap::contains_key` on the instances. -/
def instanceContains (components : List (InstanceId × ItipSnapshot)) (instanceId : InstanceId) :
    Bool :=
  components.any (·.1.same instanceId)

/-- `attendee_by_email`. -/
def ItipSnapshot.attendeeByEmail (snapshot : ItipSnapshot) (email : List Char) :
    Option Attendee :=
  snapshot.attendees.find? (·.email.email == email)

/-- `external_attendees`. -/
def ItipSnapshot.externalAttendees (snapshot : ItipSnapshot) : List Attendee :=
  snapshot.attendees.filter (!·.email.isLocal)

/-- `sender_is_organizer_or_attendee`. -/
def ItipSnapshots.senderIsOrganizerOrAttendee (snapshots : ItipSnapshots) (email : List Char) :
    Bool :=
  snapshots.organizer.email.email == email ||
    snapshots.components.any fun (_, snapshot) =>
      snapshot.attendees.any (·.email.email == email)

/-! ## Building a snapshot -/

/-- The organizer an `ORGANIZER` entry names, with its scheduling agent. -/
def readOrganizer (accountEmails : List (List Char)) (entryId : Nat) (entry : Entry) :
    Option Organizer :=
  match (entry.values.head?.bind Value.asText).bind (Email.new · accountEmails) with
  | none => none
  | some email =>
    some ⟨entryId, email, entry.params.all fun param =>
      !(param.name == .scheduleAgent &&
        (param.value == .scheduleAgent .client || param.value == .scheduleAgent .none))⟩

/-- One parameter of an `ATTENDEE` entry, read into the attendee. -/
def readAttendeeParam (accountEmails : List (List Char)) (part : Attendee) (param : Parameter) :
    Attendee :=
  match param.name, param.value with
  | .scheduleAgent, .scheduleAgent agent => { part with isServerScheduling := agent == .server }
  | .rsvp, .bool rsvp => { part with rsvp := some rsvp }
  | .partstat, .partstat value => { part with partStat := some value }
  | .cutype, .cutype value => { part with cuType := some value }
  | .delegatedFrom, .uri location =>
    match Email.new location accountEmails with
    | some email => { part with delegatedFrom := part.delegatedFrom ++ [email] }
    | none => part
  | .delegatedTo, .uri location =>
    match Email.new location accountEmails with
    | some email => { part with delegatedTo := part.delegatedTo ++ [email] }
    | none => part
  | .role, .role value => { part with role := some value }
  | .sentBy, .uri location => { part with sentBy := Email.new location accountEmails }
  | _, _ => part

/-- The attendee an `ATTENDEE` entry names, with its parameters. -/
def readAttendee (accountEmails : List (List Char)) (entryId : Nat) (entry : Entry) :
    Option Attendee :=
  match (entry.values.head?.bind Value.asText).bind (Email.new · accountEmails) with
  | none => none
  | some email =>
    some (entry.params.foldl (readAttendeeParam accountEmails)
      ⟨entryId, email, none, [], [], none, none, none, none, true⟩)

/-- `HashSet::insert` on attendees: an attendee equal to one already there is not added. -/
def insertAttendee (attendees : List Attendee) (part : Attendee) : List Attendee :=
  if attendees.any (·.same part) then attendees else attendees ++ [part]

/-- `HashSet::insert` on entries. -/
def insertEntry (entries : List ItipEntry) (entry : ItipEntry) : List ItipEntry :=
  if entries.contains entry then entries else entries ++ [entry]

/-- The value an entry of a change-making property contributes, if any. -/
def ItipEntryValue.ofValue : Value → Option ItipEntryValue
  | .uri location => some (.text location)
  | .dateTime timestamp => some (.dateTime timestamp)
  | .integer value => some (.integer value)
  | .text value => some (.text value)
  | .status value => some (.status value)
  | .method _ => none

/-- The properties whose values go into a snapshot's entries. -/
def Property.isTracked : Property → Bool
  | .dtstart | .dtend | .duration | .due | .rrule | .rdate | .exdate | .status | .location
  | .summary | .description | .priority | .percentComplete | .completed => true
  | _ => false

/-- The state of the entry loop over one component. -/
structure ComponentState where
  organizer : Option Organizer
  uid : Option String
  hasLocalEmails : Bool
  snapshot : ItipSnapshot
  instanceId : InstanceId

/-- One turn of the entry loop of `itip_snapshot`. -/
def readEntry (accountEmails : List (List Char)) (forceAddClientScheduling : Bool)
    (state : ComponentState) (indexed : Entry × Nat) : Except ItipError ComponentState :=
  let (entry, entryId) := indexed
  match entry.name with
  | .organizer =>
    match readOrganizer accountEmails entryId entry with
    | none => .ok state
    | some part =>
      let hasLocalEmails := state.hasLocalEmails || part.email.isLocal
      if !part.isServerScheduling && !forceAddClientScheduling then
        .error .otherSchedulingAgent
      else
        match state.organizer with
        | some existing =>
          if existing.email.email != part.email.email then .error .multipleOrganizer
          else .ok { state with hasLocalEmails }
        | none => .ok { state with hasLocalEmails, organizer := some part }
  | .attendee =>
    match readAttendee accountEmails entryId entry with
    | none => .ok state
    | some part =>
      .ok { state with
        hasLocalEmails := state.hasLocalEmails ||
          (part.email.isLocal && (forceAddClientScheduling || part.isServerScheduling))
        snapshot.attendees := insertAttendee state.snapshot.attendees part }
  | .uid =>
    match entry.values.head?.bind Value.asText with
    | none => .ok state
    | some text =>
      let uid := String.ofList (trimWhitespace text.toList)
      if uid.isEmpty then .ok state
      else
        match state.uid with
        | some existing => if existing != uid then .error .multipleUid else .ok state
        | none => .ok { state with uid := some uid }
  | .sequence =>
    match entry.values.head?.bind Value.asInteger with
    | none => .ok state
    | some sequence => .ok { state with snapshot.sequence := some sequence }
  | .recurrenceId =>
    match entry.values.head?.bind Value.asDateTime with
    | none => .ok state
    | some date =>
      .ok { state with
        instanceId := .recurrence entryId date (entry.params.any (·.name == .range)) }
  | .requestStatus =>
    match entry.values.head?.bind Value.asText with
    | none => .ok state
    | some value =>
      .ok { state with snapshot.requestStatus := state.snapshot.requestStatus ++ [value] }
  | .dtstamp => .ok { state with snapshot.dtstamp := entry.values.head?.bind Value.asDateTime }
  | name =>
    if name.isTracked then
      .ok { state with
        snapshot.entries := (entry.values.filterMap ItipEntryValue.ofValue).foldl
          (fun entries value => insertEntry entries ⟨name, value⟩) state.snapshot.entries }
    else .ok state

/-- The state of the component loop of `itip_snapshot`. -/
structure SnapshotState where
  organizer : Option Organizer
  uid : Option String
  hasLocalEmails : Bool
  expectObjectType : Option ComponentType
  components : List (InstanceId × ItipSnapshot)

/-- One turn of the component loop of `itip_snapshot`: a scheduling component of the object's
one type becomes the snapshot of the instance it describes. -/
def readComponent (accountEmails : List (List Char)) (forceAddClientScheduling : Bool)
    (state : SnapshotState) (indexed : Component × Nat) : Except ItipError SnapshotState := do
  let (comp, compId) := indexed
  if !comp.componentType.isSchedulingObject then return state
  if state.expectObjectType.any (· != comp.componentType) then throw .multipleObjectTypes
  let start : ComponentState :=
    ⟨state.organizer, state.uid, state.hasLocalEmails, ⟨compId, comp, [], none, [], none, []⟩,
      .main⟩
  let read ← comp.entries.zipIdx.foldlM (readEntry accountEmails forceAddClientScheduling) start
  if instanceContains state.components read.instanceId then throw .multipleObjectInstances
  return ⟨read.organizer, read.uid, read.hasLocalEmails,
    state.expectObjectType.or (some comp.componentType),
    state.components ++ [(read.instanceId, read.snapshot)]⟩

/-- `itip_snapshot`. -/
def itipSnapshot (ical : ICalendar) (accountEmails : List (List Char))
    (forceAddClientScheduling : Bool) : Except ItipError ItipSnapshots := do
  if !ical.components.any fun comp =>
      comp.componentType.isSchedulingObject && comp.entries.any (·.name == .organizer) then
    throw .noSchedulingInfo
  let state ← ical.components.zipIdx.foldlM
    (readComponent accountEmails forceAddClientScheduling) ⟨none, none, false, none, []⟩
  if state.hasLocalEmails then
    match state.organizer, state.uid with
    | none, _ => throw .noSchedulingInfo
    | some _, none => throw .missingUid
    | some organizer, some uid => return ⟨organizer, uid, state.components⟩
  else throw .notOrganizerNorAttendee

end Stalwart.Scheduling
