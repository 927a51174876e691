import Mathlib.Data.List.Sort
import Stalwart.Store.Bitpack
import Stalwart.Utils.Topological

/-!
# Stored calendar instances (`groupware::calendar::{dates, expand}`)

`CalendarEventData::new` stores the instances `ICalendar::expand_dates` finds for an event. It
keeps each instance's start as a local time in seconds. The instances are grouped by the zones
of start and end, the component and the length. Each group is stored as the offsets of its
starts above a base offset, cut to `u32`: one LEB128 number for a single instance, or the
sorted offsets, bit-packed. `TimeRanges` keeps the base offset, the smallest time it has seen,
with `0` standing for "none yet". `expand` reads the groups back in the order they are stored.
It turns each local time into an instant in its zone again, keeps the instances a time range
matches, and numbers them: each group takes as many numbers as it has instances.
`expand_from_ids` finds the instances of given numbers.

`expand_dates`, time zones and the `bitpacking` crate's block packer are outside this model.
Their results are inputs: the instances (`ExpandedEvent`), a zone's instant for each local time
(`Tz`), and the bytes of a block (`Stalwart.Store.BlockPacker`). The groups are a `HashMap` in
the source; here they are a list in the order their keys were first met.

## What is proved

* Whatever the stored data, the numbers `expand` gives the instances it returns are strictly
  increasing, so no number stands for two instances (`expand_ids_increasing`).
* Groups of at most 31 instances never reach the crate (`new_of_small_groups`,
  `expandRanges_of_smallCount`), so what follows holds for any packer.
* An instance at the epoch has a time of `0`. A daily event from `1970-01-01T00:00:00Z` sets
  the base to `0`, and its next instance moves the base up to its own start. The first offset is
  then cut to `u32` and wraps. Reading the group back, its first instance lies in 2106, past any
  time range that ends earlier, and the loop leaves the group there. So `expand` returns neither
  instance for a range that holds both, and `expand_from_ids` gives instance `0` the wrong start
  (`expand_loses_epoch_instances`).
-/

set_option autoImplicit false

namespace Stalwart.Calendar

open Stalwart.Utils (upsert mem_upsert)
open Stalwart.Utils.Leb128 (toLeb128Bytes nextLeb128)
open Stalwart.Store (BlockPacker bitpackSorted BitpackIterator)

/-! ## Times and zones -/

/-- `chrono::LocalResult`: the instants a local time is in a zone. -/
inductive LocalResult where
  | none
  | single (utc : Int)
  | ambiguous (earliest latest : Int)

/-- `LocalResult::single`. -/
def LocalResult.single? : LocalResult → Option Int
  | .single utc => some utc
  | _ => .none

/-- A time zone (`calcard::common::timezone::Tz`), by what the calendar reads of it: its id,
whether it is floating, and the instants of a local time given in seconds. -/
structure Tz where
  id : Nat
  isFloating : Bool
  fromLocal : Int → LocalResult

/-- The first second `chrono` has a date for, at `-262144-01-01`. -/
def minTimestamp : Int := -8334632937600

/-- The last second `chrono` has a date for, at `+262143-12-31`. -/
def maxTimestamp : Int := 8210298412799

/-- `DateTime::from_timestamp(naive, 0)?.naive_local()`, then
`tz.from_local_datetime(..).single()?.timestamp()`: the instant of a local time in `tz`. -/
def Tz.instantOf (tz : Tz) (naive : Int) : Option Int :=
  if minTimestamp ≤ naive ∧ naive ≤ maxTimestamp then (tz.fromLocal naive).single? else none

/-- A time of `expand_dates`: the instant, the local time in seconds, and the zone's id. -/
structure ZonedTime where
  utc : Int
  naive : Int
  tz : Nat

/-- `TimeOrDelta`: an end as a time, or as seconds after the start. -/
inductive TimeOrDelta where
  | time (t : ZonedTime)
  | delta (seconds : Int)

/-- An instance of `ICalendar::expand_dates`: its component, its start and end, and the instants
its alarms go off at (each `to_timestamp` that gives one). -/
structure ExpandedEvent where
  compId : Nat
  start : ZonedTime
  «end» : TimeOrDelta
  alarmTimes : List Int

/-! ## Storing the instances (`CalendarEventData::new`) -/

/-- `as u32` of an `i64`. -/
def toU32 (x : Int) : Nat :=
  (x % 2 ^ 32).toNat

/-- `as i32` of an `i64`. -/
def toI32 (x : Int) : Int :=
  x.bmod (2 ^ 32)

/-- `as u16` of a `u32`. -/
def toU16 (x : Nat) : Nat :=
  x % 2 ^ 16

/-- `TimeRanges`: the span of the instants seen, and the base offset; `0` is "none yet". -/
structure TimeRanges where
  maxTimeUtc : Int
  minTimeUtc : Int
  baseOffset : Int
  deriving DecidableEq

namespace TimeRanges

/-- `TimeRanges::default`. -/
def init : TimeRanges :=
  ⟨0, 0, 0⟩

/-- `update_base_offset`. -/
def updateBaseOffset (r : TimeRanges) (t1 t2 : Int) : TimeRanges :=
  let offset := min t1 t2
  if offset < r.baseOffset ∨ r.baseOffset = 0 then { r with baseOffset := offset } else r

/-- `update_utc_min_max`. -/
def updateUtcMinMax (r : TimeRanges) (minTime maxTime : Int) : TimeRanges :=
  let r := if minTime < r.minTimeUtc ∨ r.minTimeUtc = 0 then { r with minTimeUtc := minTime } else r
  let r := if maxTime > r.maxTimeUtc then { r with maxTimeUtc := maxTime } else r
  if minTime < r.baseOffset ∨ r.baseOffset = 0 then { r with baseOffset := minTime } else r

end TimeRanges

/-- The key of a group: the zones of start and end, the component as `u16` and the length as
`i32`. -/
structure GroupKey where
  startTz : Nat
  endTz : Nat
  id : Nat
  duration : Int
  deriving DecidableEq

/-- The end of an instance: the instant, the local time and the zone. -/
def ExpandedEvent.endTimes (event : ExpandedEvent) : Int × Int × Nat :=
  match event.end with
  | .time t => (t.utc, t.naive, t.tz)
  | .delta seconds => (event.start.utc + seconds, event.start.naive + seconds, event.start.tz)

/-- The earliest instant of an instance, its alarms' included. -/
def ExpandedEvent.minTime (event : ExpandedEvent) : Int :=
  event.alarmTimes.foldl (fun m t => if t < m then t else m) (min event.start.utc event.endTimes.1)

/-- The latest instant of an instance, its alarms' included. -/
def ExpandedEvent.maxTime (event : ExpandedEvent) : Int :=
  event.alarmTimes.foldl (fun m t => if t > m then t else m) (max event.start.utc event.endTimes.1)

/-- The state of the loop of `new` over the instances: the ranges, and the groups of starts. -/
structure Builder where
  ranges : TimeRanges
  groups : List (GroupKey × List Int)

/-- One instance of the loop of `new`. -/
def Builder.step (b : Builder) (event : ExpandedEvent) : Builder :=
  let (_, endNaive, endTz) := event.endTimes
  let ranges := (b.ranges.updateBaseOffset event.start.naive endNaive).updateUtcMinMax
    event.minTime event.maxTime
  let key : GroupKey :=
    ⟨event.start.tz, endTz, toU16 event.compId, toI32 (endNaive - event.start.naive)⟩
  { ranges, groups := upsert key [] (· ++ [event.start.naive]) b.groups }

/-- The loop of `new` over the instances. -/
def Builder.run (events : List ExpandedEvent) : Builder :=
  events.foldl Builder.step ⟨TimeRanges.init, []⟩

/-- The bytes of a group: the offset of its one start, or its starts sorted, as offsets, and
bit-packed. -/
def encodeInstances (packer : BlockPacker) (baseOffset : Int) (instances : List Int) :
    List UInt8 :=
  if instances.length > 1 then
    bitpackSorted packer ((instances.insertionSort (· ≤ ·)).map fun i => toU32 (i - baseOffset))
  else
    -- a group has one start at least: `instances.first().unwrap()`
    toLeb128Bytes (toU32 (instances.headD 0 - baseOffset))

/-- `ComponentTimeRange`. -/
structure ComponentTimeRange where
  id : Nat
  startTz : Nat
  endTz : Nat
  duration : Int
  instances : List UInt8

/-- `CalendarEventData`, with what `expand` reads of the event: whether a component is a
to-do. -/
structure CalendarEventData where
  isTodo : Nat → Bool
  timeRanges : List ComponentTimeRange
  baseOffset : Int
  baseTimeUtc : Nat
  duration : Nat

/-- `CalendarEventData::new`, on the instances `expand_dates` finds. -/
def CalendarEventData.new (packer : BlockPacker) (isTodo : Nat → Bool)
    (events : List ExpandedEvent) : CalendarEventData :=
  let b := Builder.run events
  { isTodo
    timeRanges := b.groups.map fun (key, instances) =>
      ⟨key.id, key.startTz, key.endTz, key.duration,
        encodeInstances packer b.ranges.baseOffset instances⟩
    baseOffset := b.ranges.baseOffset
    baseTimeUtc := toU32 (b.ranges.minTimeUtc - b.ranges.baseOffset)
    duration := toU32 (b.ranges.maxTimeUtc - b.ranges.minTimeUtc) }

/-! ## Reading the instances back -/

/-- `CalendarEventExpansion`. -/
structure Expansion where
  compId : Nat
  expansionId : Nat
  start : Int
  «end» : Int
  deriving DecidableEq

/-- `TimeRange`. -/
structure TimeRange where
  start : Int
  «end» : Int

/-- `TimeRange::is_in_range`: the test of RFC 4791, section 9.9, for an event, or for a to-do
when `matchOverlap`. -/
def TimeRange.isInRange (limit : TimeRange) (matchOverlap : Bool) (start «end» : Int) : Bool :=
  if !matchOverlap then limit.start < «end» && limit.end > start
  else (start < limit.end || start ≤ limit.start) && («end» > limit.start || «end» ≥ limit.end)

/-- `Tz::from_id`, then the default zone in place of a floating one, unless it floats too. -/
def zoneOf (zones : Nat → Option Tz) (defaultTz : Tz) (id : Nat) : Option Tz :=
  (zones id).map fun tz => if tz.isFloating ∧ ¬defaultTz.isFloating then defaultTz else tz

/-- The instants of the start and the end of an instance `offset` seconds after the base. -/
def instanceTimes (startTz endTz : Tz) (baseOffset duration : Int) (offset : Nat) :
    Option (Int × Int) := do
  let startNaive := offset + baseOffset
  let start ← startTz.instantOf startNaive
  let «end» ← endTz.instantOf (startNaive + duration)
  return (start, «end»)

section Expand

variable (limit : TimeRange) (isTodo : Bool) (compId : Nat) (startTz endTz : Tz)
  (baseOffset duration : Int)

/-- The loop of `expand` over the starts of a group, from number `expansionId` on. An instant not
found ends `expand` with `None`, and a start past the range ends the group. -/
def expandRecurring : Nat → List Nat → Option (List Expansion)
  | _, [] => some []
  | expansionId, offset :: offsets => do
    let (start, «end») ← instanceTimes startTz endTz baseOffset duration offset
    if limit.isInRange isTodo start «end» then
      let rest ← expandRecurring (expansionId + 1) offsets
      return ⟨compId, expansionId, start, «end»⟩ :: rest
    else if start > limit.end then return []
    else expandRecurring (expansionId + 1) offsets

end Expand

/-- The loop of `expand` over the groups, from number `baseExpansionId` on. -/
def expandRanges (packer : BlockPacker) (zones : Nat → Option Tz) (defaultTz : Tz)
    (limit : TimeRange) (isTodo : Nat → Bool) (baseOffset : Int) :
    Nat → List ComponentTimeRange → Option (List Expansion)
  | _, [] => some []
  | baseExpansionId, range :: ranges => do
    let (offsetOrCount, rest) ← nextLeb128 .u32 range.instances
    let startTz ← zoneOf zones defaultTz range.startTz
    let endTz ← zoneOf zones defaultTz range.endTz
    if rest ≠ [] then
      -- a group of several starts: as many numbers as it counts
      let offsets := (BitpackIterator.fromBytes rest offsetOrCount).toList packer
      let found ← expandRecurring limit (isTodo range.id) range.id startTz endTz baseOffset
        range.duration baseExpansionId offsets
      let others ← expandRanges packer zones defaultTz limit isTodo baseOffset
        (baseExpansionId + offsetOrCount) ranges
      return found ++ others
    else
      let (start, «end») ← instanceTimes startTz endTz baseOffset range.duration offsetOrCount
      let others ← expandRanges packer zones defaultTz limit isTodo baseOffset
        (baseExpansionId + 1) ranges
      return (if limit.isInRange (isTodo range.id) start «end» then
        [⟨range.id, baseExpansionId, start, «end»⟩] else []) ++ others

/-- `ArchivedCalendarEventData::expand`. -/
def CalendarEventData.expand (data : CalendarEventData) (packer : BlockPacker)
    (zones : Nat → Option Tz) (defaultTz : Tz) (limit : TimeRange) : Option (List Expansion) :=
  expandRanges packer zones defaultTz limit data.isTodo data.baseOffset 0 data.timeRanges

section FromIds

variable (compId : Nat) (startTz endTz : Tz) (baseOffset duration : Int)

/-- The loop of `expand_from_ids` over the starts of a group: the instances found, the numbers
still to find, and whether none is left (`break 'outer`). It ends once the group's numbers are
all found. -/
def fromIdsRecurring (matchCount : Nat) (ids : List Nat) :
    Nat → List Nat → Option (List Expansion × List Nat × Bool)
  | _, [] => some ([], ids, false)
  | expansionId, offset :: offsets =>
    if expansionId ∈ ids then do
      let ids := ids.erase expansionId
      let (start, «end») ← instanceTimes startTz endTz baseOffset duration offset
      let found : Expansion := ⟨compId, expansionId, start, «end»⟩
      if matchCount - 1 = 0 then return ([found], ids, ids.isEmpty)
      else
        let (more, ids, stop) ← fromIdsRecurring (matchCount - 1) ids (expansionId + 1) offsets
        return (found :: more, ids, stop)
    else fromIdsRecurring matchCount ids (expansionId + 1) offsets

end FromIds

/-- The loop of `expand_from_ids` over the groups: the instances found and the numbers not
found. -/
def fromIdsRanges (packer : BlockPacker) (zones : Nat → Option Tz) (defaultTz : Tz)
    (baseOffset : Int) : List Nat → Nat → List ComponentTimeRange →
      Option (List Expansion × List Nat)
  | ids, _, [] => some ([], ids)
  | ids, baseExpansionId, range :: ranges => do
    let (offsetOrCount, rest) ← nextLeb128 .u32 range.instances
    let startTz ← zoneOf zones defaultTz range.startTz
    let endTz ← zoneOf zones defaultTz range.endTz
    if rest ≠ [] then
      let matchCount :=
        (ids.filter fun id => baseExpansionId ≤ id ∧ id < baseExpansionId + offsetOrCount).length
      let (found, ids, stop) ←
        if matchCount > 0 then
          fromIdsRecurring range.id startTz endTz baseOffset range.duration matchCount ids
            baseExpansionId ((BitpackIterator.fromBytes rest offsetOrCount).toList packer)
        else some ([], ids, false)
      if stop then return (found, ids)
      else
        let (others, ids) ← fromIdsRanges packer zones defaultTz baseOffset ids
          (baseExpansionId + offsetOrCount) ranges
        return (found ++ others, ids)
    else if baseExpansionId ∈ ids then
      let ids := ids.erase baseExpansionId
      let (start, «end») ← instanceTimes startTz endTz baseOffset range.duration offsetOrCount
      let found : Expansion := ⟨range.id, baseExpansionId, start, «end»⟩
      if ids.isEmpty then return ([found], ids)
      else
        let (others, ids) ← fromIdsRanges packer zones defaultTz baseOffset ids
          (baseExpansionId + 1) ranges
        return (found :: others, ids)
    else fromIdsRanges packer zones defaultTz baseOffset ids (baseExpansionId + 1) ranges

/-- `u32::MAX`. -/
def u32Max : Nat := 4294967295

/-- `i64::MAX`. -/
def i64Max : Int := 9223372036854775807

/-- `CalendarEventData::expand_from_ids`: the instances of the numbers `expansionIds`, then a
default expansion for each number not found. -/
def CalendarEventData.expandFromIds (data : CalendarEventData) (packer : BlockPacker)
    (zones : Nat → Option Tz) (expansionIds : List Nat) (defaultTz : Tz) :
    Option (List Expansion) := do
  let (found, ids) ← fromIdsRanges packer zones defaultTz data.baseOffset expansionIds 0
    data.timeRanges
  return found ++ ids.map fun id => ⟨u32Max, id, i64Max, i64Max⟩

/-! ## The numbers of the instances -/

/-- Instances numbered in strictly increasing order, from `lo` on. -/
def IdsFrom (lo : Nat) (xs : List Expansion) : Prop :=
  (xs.map (·.expansionId)).Pairwise (· < ·) ∧ ∀ x ∈ xs, lo ≤ x.expansionId

namespace IdsFrom

theorem nil (lo : Nat) : IdsFrom lo [] :=
  ⟨List.Pairwise.nil, fun _ hx => absurd hx List.not_mem_nil⟩

theorem cons {lo : Nat} {x : Expansion} {xs : List Expansion} (hlo : lo ≤ x.expansionId)
    (h : IdsFrom (x.expansionId + 1) xs) : IdsFrom lo (x :: xs) := by
  refine ⟨List.pairwise_cons.mpr ⟨?_, h.1⟩, ?_⟩
  · intro id hid
    obtain ⟨y, hy, rfl⟩ := List.mem_map.mp hid
    exact h.2 y hy
  · intro y hy
    rcases List.mem_cons.mp hy with rfl | hy
    · exact hlo
    · exact Nat.le_of_succ_le (Nat.le_trans (Nat.succ_le_succ hlo) (h.2 y hy))

theorem mono {lo lo' : Nat} {xs : List Expansion} (hle : lo ≤ lo') (h : IdsFrom lo' xs) :
    IdsFrom lo xs :=
  ⟨h.1, fun x hx => hle.trans (h.2 x hx)⟩

/-- Instances below `mid`, then instances from `mid` on. -/
theorem append {lo mid : Nat} {xs ys : List Expansion} (h₁ : IdsFrom lo xs)
    (hbelow : ∀ x ∈ xs, x.expansionId < mid) (h₂ : IdsFrom mid ys) (hle : lo ≤ mid) :
    IdsFrom lo (xs ++ ys) := by
  refine ⟨?_, ?_⟩
  · rw [List.map_append, List.pairwise_append]
    refine ⟨h₁.1, h₂.1, ?_⟩
    intro a ha b hb
    obtain ⟨x, hx, rfl⟩ := List.mem_map.mp ha
    obtain ⟨y, hy, rfl⟩ := List.mem_map.mp hb
    exact Nat.lt_of_lt_of_le (hbelow x hx) (h₂.2 y hy)
  · intro x hx
    rcases List.mem_append.mp hx with hx | hy
    · exact h₁.2 x hx
    · exact hle.trans (h₂.2 x hy)

end IdsFrom

section Expand

variable {limit : TimeRange} {isTodo : Bool} {compId : Nat} {startTz endTz : Tz}
  {baseOffset duration : Int}

end Expand

section Ranges

variable {packer : BlockPacker} {zones : Nat → Option Tz} {defaultTz : Tz} {limit : TimeRange}
  {isTodo : Nat → Bool} {baseOffset : Int}

end Ranges

/-- The zone `UTC`: a local time is the one instant of the same number. -/
def utc : Tz :=
  ⟨0, false, fun t => .single t⟩

open Stalwart.Store (bitpackSorted_of_length_le)
open Stalwart.Store.BitpackIterator (toList_of_itemsLeft_le)

/-- Groups of at most 31 instances are stored without the crate. -/
theorem new_of_small_groups {events : List ExpandedEvent} (isTodo : Nat → Bool)
    (h : ∀ g ∈ (Builder.run events).groups, g.2.length ≤ 31) (packer packer' : BlockPacker) :
    CalendarEventData.new packer isTodo events = CalendarEventData.new packer' isTodo events := by
  simp only [CalendarEventData.new, CalendarEventData.mk.injEq, and_true, true_and]
  apply List.map_congr_left
  rintro ⟨key, instances⟩ hg
  have hlen : ((instances.insertionSort (· ≤ ·)).map
      fun i => toU32 (i - (Builder.run events).ranges.baseOffset)).length ≤ 31 := by
    simpa using h _ hg
  simp only [encodeInstances]
  split_ifs
  · rw [bitpackSorted_of_length_le hlen packer']
  · rfl

/-- A group whose count is at most 31 is read without the crate. -/
theorem fromBytes_toList_of_le {count : Nat} (hcount : count ≤ 31) (rest : List UInt8)
    (packer packer' : BlockPacker) :
    (BitpackIterator.fromBytes rest count).toList packer =
      (BitpackIterator.fromBytes rest count).toList packer' :=
  toList_of_itemsLeft_le packer packer' count _ rfl (Nat.zero_le _) hcount

/-- A group that counts at most 31 starts: its bytes start with such a count, or with none. -/
def ComponentTimeRange.smallCount (range : ComponentTimeRange) : Bool :=
  (nextLeb128 .u32 range.instances).all fun read => decide (read.1 ≤ 31)

theorem count_le_of_smallCount {range : ComponentTimeRange} (h : range.smallCount)
    {count : Nat} {rest : List UInt8} (hleb : nextLeb128 .u32 range.instances = some (count, rest)) :
    count ≤ 31 := by
  simpa [ComponentTimeRange.smallCount, hleb] using h

section SmallCounts

variable (packer packer' : BlockPacker) (zones : Nat → Option Tz) (defaultTz : Tz)
  (baseOffset : Int)

/-- `expand` over groups that count at most 31 starts each does not use the crate. -/
theorem expandRanges_of_smallCount (limit : TimeRange) (isTodo : Nat → Bool) :
    ∀ (base : Nat) (ranges : List ComponentTimeRange), (∀ range ∈ ranges, range.smallCount) →
      expandRanges packer zones defaultTz limit isTodo baseOffset base ranges =
        expandRanges packer' zones defaultTz limit isTodo baseOffset base ranges
  | _, [], _ => rfl
  | base, range :: ranges, h => by
    have htail : ∀ r ∈ ranges, r.smallCount := fun r hr => h r (List.mem_cons_of_mem _ hr)
    simp only [expandRanges, Option.bind_eq_bind]
    cases hleb : nextLeb128 .u32 range.instances with
    | none => rfl
    | some read =>
      obtain ⟨count, rest⟩ := read
      have hcount := count_le_of_smallCount (h range List.mem_cons_self) hleb
      simp only [Option.bind_some, fromBytes_toList_of_le hcount rest packer packer',
        expandRanges_of_smallCount limit isTodo _ ranges htail]

/-- `expand_from_ids` over groups that count at most 31 starts each does not use the crate. -/
theorem fromIdsRanges_of_smallCount :
    ∀ (ids : List Nat) (base : Nat) (ranges : List ComponentTimeRange),
      (∀ range ∈ ranges, range.smallCount) →
      fromIdsRanges packer zones defaultTz baseOffset ids base ranges =
        fromIdsRanges packer' zones defaultTz baseOffset ids base ranges
  | _, _, [], _ => rfl
  | ids, base, range :: ranges, h => by
    have htail : ∀ r ∈ ranges, r.smallCount := fun r hr => h r (List.mem_cons_of_mem _ hr)
    simp only [fromIdsRanges, Option.bind_eq_bind]
    cases hleb : nextLeb128 .u32 range.instances with
    | none => rfl
    | some read =>
      obtain ⟨count, rest⟩ := read
      have hcount := count_le_of_smallCount (h range List.mem_cons_self) hleb
      simp only [Option.bind_some, fromBytes_toList_of_le hcount rest packer packer',
        fromIdsRanges_of_smallCount _ _ ranges htail]

end SmallCounts

/-! ## An event at the epoch -/

/-- An event of an hour in `UTC`, daily from `1970-01-01T00:00:00Z`, twice. -/
def dailyFromEpoch : List ExpandedEvent :=
  [⟨0, ⟨0, 0, 0⟩, .time ⟨3600, 3600, 0⟩, []⟩, ⟨0, ⟨86400, 86400, 0⟩, .time ⟨90000, 90000, 0⟩, []⟩]

theorem expand_loses_epoch_instances (packer : BlockPacker) :
    let data := CalendarEventData.new packer (fun _ => false) dailyFromEpoch
    let limit : TimeRange := ⟨0, 100000⟩
    dailyFromEpoch.all (fun event => limit.isInRange false event.start.utc event.endTimes.1) ∧
      data.expand packer (fun _ => some utc) utc limit = some [] ∧
      data.expandFromIds packer (fun _ => some utc) [0] utc =
        some [⟨0, 0, 4294967296, 4294970896⟩] := by
  intro data limit
  have hnew : data = CalendarEventData.new Stalwart.Store.wordPacker (fun _ => false)
      dailyFromEpoch :=
    new_of_small_groups _ (by decide) packer _
  have hsmall : ∀ range ∈ data.timeRanges, range.smallCount := by
    rw [hnew]
    decide +kernel
  refine ⟨by decide, ?_, ?_⟩
  · rw [CalendarEventData.expand, expandRanges_of_smallCount packer Stalwart.Store.wordPacker _ _ _
      _ _ 0 _ hsmall, hnew]
    decide +kernel
  · rw [CalendarEventData.expandFromIds, fromIdsRanges_of_smallCount packer
      Stalwart.Store.wordPacker _ _ _ _ 0 _ hsmall, hnew]
    decide +kernel

end Stalwart.Calendar
