import Mathlib.Data.Vector.Defs
import Stalwart.Lib.ByteOrder
import Stalwart.Lib.StateOption
import Stalwart.Trc.EventType
import Stalwart.Utils.Leb128

/-!
# The binary format of stored spans (`trc::serializers::binary`)

A span is stored as a list of events. `serialize_events` writes a version byte, the number of
events in LEB128, and each event: its type's code in LEB128, its timestamp in eight
little-endian bytes, the number of its keys, and each key's code followed by its value. A value
is a tag byte and its payload. Strings and byte strings carry their length, numbers are LEB128
or eight little-endian bytes, addresses their octets, and arrays and nested events carry their
length and then their parts, each in the same format. `deserialize_events` reads this back from
an iterator over the bytes, and `deserialize_single_event` reads the first event alone. The level
and the span of an event are not written; an event read back has level `Info` and no span.

The iterator is the list of bytes it has left, and each reader is a `StateT (List UInt8) Option`
computation that gives up with `None` at the first `?`. An `f64` is its bit pattern, as
`to_le_bytes` writes it and as values are compared here. A nested event (`Value::Event`) is its
type and keys; its `Error` box holds nothing else the format reads. The span of an event is left
out: nothing here reads or writes it.

`Value::deserialize` recurses once per level of nesting and reads a tag byte at each, so no
input nests deeper than it is long. The model counts the levels left (`depth`), and the readers
start from the length of the input.
-/

set_option autoImplicit false

namespace Stalwart.Trc

open Stalwart.Utils.Leb128 (toLeb128Bytes fromLeb128It)
open ByteOrder (toLeBytes fromLeBytes)

/-- `Level`. -/
inductive Level where
  | trace | debug | info | warn | error | disable
  deriving DecidableEq, Repr

/-- `Value`. `Event` holds the type and keys of the boxed `Event<EventType>` of its `Error`. -/
inductive Value where
  | string (v : String)
  | uint (v : UInt64)
  | int (v : Int64)
  | float (bits : UInt64)
  | timestamp (v : UInt64)
  | duration (v : UInt64)
  | bytes (v : List UInt8)
  | bool (v : Bool)
  | ipv4 (octets : List.Vector UInt8 4)
  | ipv6 (octets : List.Vector UInt8 16)
  | event (inner : EventType) (keys : List (Key × Value))
  | array (values : List Value)
  | none

/-- `EventDetails`, without its span. -/
structure EventDetails where
  typ : EventType
  timestamp : UInt64
  level : Level

/-- `Event<EventDetails>`. -/
structure Event where
  inner : EventDetails
  keys : List (Key × Value)

/-- `VERSION`. -/
def version : UInt8 := 1

/-! ## Writing -/

/-- `leb128_write`: the loop of `to_leb128_bytes`. -/
def leb128Write (value : Nat) : List UInt8 :=
  toLeb128Bytes value

mutual

/-- `Value::serialize`: the bytes it pushes. -/
def Value.serialize : Value → List UInt8
  | .string v => 0 :: leb128Write v.utf8ByteSize ++ v.toByteArray.data.toList
  | .uint v => 1 :: leb128Write v.toNat
  | .int v => 2 :: toLeBytes 8 v.toUInt64.toNat
  | .float bits => 3 :: toLeBytes 8 bits.toNat
  | .timestamp v => 4 :: toLeBytes 8 v.toNat
  | .duration v => 5 :: leb128Write v.toNat
  | .bytes v => 6 :: leb128Write v.length ++ v
  | .bool true => [7]
  | .bool false => [8]
  | .ipv4 octets => 9 :: octets.toList
  | .ipv6 octets => 10 :: octets.toList
  | .event inner keys =>
    11 :: leb128Write inner.code ++ leb128Write keys.length ++ serializeKeys keys
  | .array values => 12 :: leb128Write values.length ++ serializeValues values
  | .none => [13]

/-- The loop over the keys of an event: each key's code, then its value. -/
def serializeKeys : List (Key × Value) → List UInt8
  | [] => []
  | (k, v) :: keys => leb128Write k.code ++ v.serialize ++ serializeKeys keys

/-- The loop over the values of an array. -/
def serializeValues : List Value → List UInt8
  | [] => []
  | value :: values => value.serialize ++ serializeValues values

end

/-- `Event::serialize`. -/
def Event.serialize (event : Event) : List UInt8 :=
  leb128Write event.inner.typ.code ++ toLeBytes 8 event.inner.timestamp.toNat ++
    leb128Write event.keys.length ++ serializeKeys event.keys

/-- `serialize_events`. -/
def serializeEvents (events : List Event) (numEvents : Nat) : List UInt8 :=
  version :: leb128Write numEvents ++ (events.map Event.serialize).flatten

/-! ## Reading -/

/-- `iter.next()?`. -/
def takeByte : StateT (List UInt8) Option UInt8
  | [] => Option.none
  | byte :: bytes => some (byte, bytes)

/-- `leb128_read`: the loop of `from_leb128_it` for a `u64`. -/
def leb128Read : StateT (List UInt8) Option Nat := fun bytes =>
  fromLeb128It 64 [0, 7, 14, 21, 28, 35, 42, 49, 56, 63] 0 bytes

/-- The loop that fills a buffer of `n` bytes from the iterator, the first byte first. -/
def readBytes : (n : Nat) → StateT (List UInt8) Option (List.Vector UInt8 n)
  | 0 => pure List.Vector.nil
  | n + 1 => do
    let byte ← takeByte
    let rest ← readBytes n
    pure (List.Vector.cons byte rest)

/-- The loop over the keys of an event, `keys_len` times: a key's code, then its value. -/
def readKeys (readValue : StateT (List UInt8) Option Value) :
    Nat → StateT (List UInt8) Option (List (Key × Value))
  | 0 => pure []
  | n + 1 => do
    let k ← StateT.lift (Key.fromCode (← leb128Read))
    let value ← readValue
    let keys ← readKeys readValue n
    pure ((k, value) :: keys)

/-- The loop over the values of an array, `len` times. -/
def readValues (readValue : StateT (List UInt8) Option Value) :
    Nat → StateT (List UInt8) Option (List Value)
  | 0 => pure []
  | n + 1 => do
    let value ← readValue
    let values ← readValues readValue n
    pure (value :: values)

/-- `Value::deserialize`, with `depth` levels of nesting left. -/
def Value.deserialize : (depth : Nat) → StateT (List UInt8) Option Value
  | 0 => fun _ => Option.none
  | depth + 1 => do
    match ← takeByte with
    | 0 =>
      let len ← leb128Read
      let buf ← readBytes len
      let v ← StateT.lift (String.fromUTF8? ⟨buf.toList.toArray⟩)
      pure (.string v)
    | 1 => pure (.uint (← leb128Read).toUInt64)
    | 2 => pure (.int (fromLeBytes (← readBytes 8).toList).toUInt64.toInt64)
    | 3 => pure (.float (fromLeBytes (← readBytes 8).toList).toUInt64)
    | 4 => pure (.timestamp (fromLeBytes (← readBytes 8).toList).toUInt64)
    | 5 => pure (.duration (← leb128Read).toUInt64)
    | 6 =>
      let len ← leb128Read
      let buf ← readBytes len
      pure (.bytes buf.toList)
    | 7 => pure (.bool true)
    | 8 => pure (.bool false)
    | 9 => pure (.ipv4 (← readBytes 4))
    | 10 => pure (.ipv6 (← readBytes 16))
    | 11 =>
      let code ← StateT.lift (EventType.fromCode (← leb128Read))
      let keysLen ← leb128Read
      let keys ← readKeys (Value.deserialize depth) keysLen
      pure (.event code keys)
    | 12 =>
      let len ← leb128Read
      let values ← readValues (Value.deserialize depth) len
      pure (.array values)
    | 13 => pure .none
    | _ => fun _ => Option.none

/-- `Event::deserialize`, with `depth` levels of nesting left for its values. -/
def Event.deserialize (depth : Nat) : StateT (List UInt8) Option Event := do
  let typ ← StateT.lift (EventType.fromCode (← leb128Read))
  let timestamp := fromLeBytes (← readBytes 8).toList
  let keysLen ← leb128Read
  let keys ← readKeys (Value.deserialize depth) keysLen
  pure ⟨⟨typ, timestamp.toUInt64, .info⟩, keys⟩

/-- The `StoreEvent::DataCorruption` errors of the readers, by their details. -/
structure DataCorruption where
  details : String
  deriving DecidableEq, Repr

/-- The loop of `deserialize_events`: events `n`, `n + 1`, ... up to `len`. -/
def deserializeEventsFrom (depth len : Nat) : Nat → List UInt8 → Except DataCorruption (List Event)
  | n, bytes =>
    if n < len then
      match Event.deserialize depth bytes with
      | some (event, bytes) =>
        (deserializeEventsFrom depth len (n + 1) bytes).map (event :: ·)
      | Option.none => .error ⟨"Failed to deserialize event " ++ toString n⟩
    else .ok []
termination_by n => len - n

/-- `deserialize_events`. -/
def deserializeEvents (bytes : List UInt8) : Except DataCorruption (List Event) :=
  match bytes with
  | [] => .error ⟨"EOF while reading version"⟩
  | byte :: rest =>
    if byte ≠ version then .error ⟨"Invalid version"⟩
    else
      match leb128Read rest with
      | Option.none => .error ⟨"EOF while size"⟩
      | some (len, rest) => deserializeEventsFrom bytes.length len 0 rest

/-- `deserialize_single_event`. -/
def deserializeSingleEvent (bytes : List UInt8) : Except DataCorruption Event :=
  match bytes with
  | [] => .error ⟨"EOF while reading version"⟩
  | byte :: rest =>
    if byte ≠ version then .error ⟨"Invalid version"⟩
    else
      match leb128Read rest with
      | Option.none => .error ⟨"EOF while size"⟩
      | some (_, rest) =>
        match Event.deserialize bytes.length rest with
        | some (event, _) => .ok event
        | Option.none => .error ⟨"Failed to deserialize event"⟩

/-! ## What a reader gives back -/

mutual

/-- A value with each nested event's type replaced by what the reading table gives for its
code. -/
def Value.readBack : Value → Value
  | .event inner keys => .event inner.readBack (keysReadBack keys)
  | .array values => .array (valuesReadBack values)
  | value => value

/-- `Value.readBack` on the values of keys. -/
def keysReadBack : List (Key × Value) → List (Key × Value)
  | [] => []
  | (k, v) :: keys => (k, v.readBack) :: keysReadBack keys

/-- `Value.readBack` on the values of an array. -/
def valuesReadBack : List Value → List Value
  | [] => []
  | value :: values => value.readBack :: valuesReadBack values

end

/-- An event as the readers give it back: its type read through the table, the types nested in
its values too, and level `Info`. -/
def Event.readBack (event : Event) : Event :=
  ⟨⟨event.inner.typ.readBack, event.inner.timestamp, .info⟩, keysReadBack event.keys⟩

/-- An event at level `Info`, as the readers give every event back. -/
def Event.atInfo (event : Event) : Event :=
  ⟨{ event.inner with level := .info }, event.keys⟩

mutual

/-- The types of the events nested in a value. -/
def Value.eventTypes : Value → List EventType
  | .event inner keys => inner :: keysEventTypes keys
  | .array values => valuesEventTypes values
  | _ => []

/-- `Value.eventTypes` over the values of keys. -/
def keysEventTypes : List (Key × Value) → List EventType
  | [] => []
  | (_, v) :: keys => v.eventTypes ++ keysEventTypes keys

/-- `Value.eventTypes` over the values of an array. -/
def valuesEventTypes : List Value → List EventType
  | [] => []
  | value :: values => value.eventTypes ++ valuesEventTypes values

end

/-- The type of an event and the types of the events nested in its values. -/
def Event.eventTypes (event : Event) : List EventType :=
  event.inner.typ :: keysEventTypes event.keys

/-! ## The readers read back what the writers wrote -/

section Bytes

@[simp] theorem takeByte_cons (byte : UInt8) (bytes : List UInt8) :
    takeByte (byte :: bytes) = some (byte, bytes) :=
  rfl

theorem leb128Write_ne_nil (value : Nat) : leb128Write value ≠ [] :=
  Stalwart.Utils.Leb128.toLeb128Bytes_ne_nil value

theorem leb128Read_leb128Write {value : Nat} (h : value < 2 ^ 64) (rest : List UInt8) :
    leb128Read (leb128Write value ++ rest) = some (value, rest) :=
  Stalwart.Utils.Leb128.nextLeb128_toLeb128Bytes (Or.inl rfl) h rest

theorem readBytes_append : ∀ {n : Nat} (bytes : List.Vector UInt8 n) (rest : List UInt8),
    readBytes n (bytes.toList ++ rest) = some (bytes, rest)
  | 0, bytes, rest => by
    rw [List.Vector.eq_nil bytes]
    rfl
  | n + 1, bytes, rest => by
    rw [← List.Vector.cons_head_tail bytes, List.Vector.toList_cons, List.cons_append, readBytes,
      StateT.bind_apply_of_eq (takeByte_cons _ _), StateT.bind_apply_of_eq (readBytes_append _ rest),
      StateT.pure_apply]

/-- Eight little-endian bytes read back the `u64` they were written from. -/
theorem readBytes_toLeBytes (v : UInt64) (rest : List UInt8) :
    ∃ bytes : List.Vector UInt8 8, readBytes 8 (toLeBytes 8 v.toNat ++ rest) = some (bytes, rest) ∧
      (fromLeBytes bytes.toList).toUInt64 = v := by
  refine ⟨⟨toLeBytes 8 v.toNat, ByteOrder.length_toLeBytes 8 _⟩, readBytes_append ⟨_, _⟩ rest, ?_⟩
  have hlt : v.toNat < 256 ^ 8 := v.toNat_lt
  rw [List.Vector.toList_mk, ByteOrder.fromLeBytes_toLeBytes, Nat.mod_eq_of_lt hlt]
  exact UInt64.ofNat_toNat

theorem length_toByteArray (v : String) : v.toByteArray.data.toList.length = v.utf8ByteSize := by
  rw [Array.length_toList, ← String.size_toByteArray]
  rfl

/-- The bytes of a string are valid UTF-8, and `from_utf8` gives the string back. -/
theorem fromUTF8?_toByteArray (v : String) : String.fromUTF8? ⟨v.toByteArray.data⟩ = some v := by
  rw [String.fromUTF8?, dif_pos v.isValidUTF8]
  rfl

end Bytes

/-! ### Lengths

A length the writer puts before a part of the input is at most the length of the input: each
key and each value takes a byte at least. -/

section Lengths

theorem serialize_ne_nil (value : Value) : value.serialize ≠ [] := by
  cases value with
  | bool b => cases b <;> simp [Value.serialize]
  | _ => simp [Value.serialize]

theorem length_serialize_le_of_mem_keys {kv : Key × Value} : ∀ {keys : List (Key × Value)},
    kv ∈ keys → kv.2.serialize.length ≤ (serializeKeys keys).length
  | [], h => absurd h List.not_mem_nil
  | (k, v) :: keys, h => by
    rw [serializeKeys, List.length_append, List.length_append]
    rcases List.mem_cons.mp h with rfl | h
    · dsimp only
      omega
    · have := length_serialize_le_of_mem_keys h
      omega

theorem length_le_length_serializeKeys : ∀ keys : List (Key × Value),
    keys.length ≤ (serializeKeys keys).length
  | [] => le_refl _
  | (k, v) :: keys => by
    have := length_le_length_serializeKeys keys
    have hne := List.length_pos_of_ne_nil (leb128Write_ne_nil k.code)
    rw [serializeKeys, List.length_cons, List.length_append, List.length_append]
    omega

theorem length_serialize_le_of_mem_values {value : Value} : ∀ {values : List Value},
    value ∈ values → value.serialize.length ≤ (serializeValues values).length
  | [], h => absurd h List.not_mem_nil
  | v :: values, h => by
    rw [serializeValues, List.length_append]
    rcases List.mem_cons.mp h with rfl | h
    · omega
    · have := length_serialize_le_of_mem_values h
      omega

theorem length_le_length_serializeValues : ∀ values : List Value,
    values.length ≤ (serializeValues values).length
  | [] => le_refl _
  | v :: values => by
    have := length_le_length_serializeValues values
    have hne := List.length_pos_of_ne_nil (serialize_ne_nil v)
    rw [serializeValues, List.length_cons, List.length_append]
    omega

theorem Event.serialize_ne_nil (event : Event) : event.serialize ≠ [] := by
  simp [Event.serialize, leb128Write_ne_nil]

theorem length_serialize_le_of_mem_events {event : Event} : ∀ {events : List Event},
    event ∈ events → event.serialize.length ≤ ((events.map Event.serialize).flatten).length
  | [], h => absurd h List.not_mem_nil
  | e :: events, h => by
    rw [List.map_cons, List.flatten_cons, List.length_append]
    rcases List.mem_cons.mp h with rfl | h
    · omega
    · have := length_serialize_le_of_mem_events h
      omega

theorem length_le_length_flatten (events : List Event) :
    events.length ≤ ((events.map Event.serialize).flatten).length := by
  induction events with
  | nil => rfl
  | cons event events ih =>
    have := List.length_pos_of_ne_nil (Event.serialize_ne_nil event)
    simp only [List.length_cons, List.map_cons, List.flatten_cons, List.length_append]
    omega

end Lengths

/-! ### The loops and the values -/

section Values

variable {read : StateT (List UInt8) Option Value}

/-- The key loop reads back the keys written, as the value reader reads back each value. -/
theorem readKeys_serializeKeys : ∀ (keys : List (Key × Value)) (rest : List UInt8),
    (∀ kv ∈ keys, ∀ rest, read (kv.2.serialize ++ rest) = some (kv.2.readBack, rest)) →
      readKeys read keys.length (serializeKeys keys ++ rest) = some (keysReadBack keys, rest)
  | [], rest, _ => rfl
  | (k, v) :: keys, rest, h => by
    have hcode := leb128Read_leb128Write (Nat.lt_of_lt_of_le (Key.code_lt k) (by decide))
      (v.serialize ++ (serializeKeys keys ++ rest))
    have hvalue : read (v.serialize ++ (serializeKeys keys ++ rest)) =
        some (v.readBack, serializeKeys keys ++ rest) :=
      h (k, v) List.mem_cons_self _
    have hrest := readKeys_serializeKeys keys rest fun kv hkv => h kv (List.mem_cons_of_mem _ hkv)
    rw [List.length_cons, readKeys, serializeKeys, List.append_assoc, List.append_assoc,
      StateT.bind_apply_of_eq hcode, Key.fromCode_code,
      StateT.bind_apply_of_eq (StateT.lift_some_apply _ _), StateT.bind_apply_of_eq hvalue,
      StateT.bind_apply_of_eq hrest, StateT.pure_apply, keysReadBack]

/-- The array loop reads back the values written, as the value reader reads back each value. -/
theorem readValues_serializeValues : ∀ (values : List Value) (rest : List UInt8),
    (∀ value ∈ values, ∀ rest, read (value.serialize ++ rest) = some (value.readBack, rest)) →
      readValues read values.length (serializeValues values ++ rest) =
        some (valuesReadBack values, rest)
  | [], rest, _ => rfl
  | v :: values, rest, h => by
    have hvalue := h v List.mem_cons_self (serializeValues values ++ rest)
    have hrest := readValues_serializeValues values rest fun w hw => h w (List.mem_cons_of_mem _ hw)
    rw [List.length_cons, readValues, serializeValues, List.append_assoc,
      StateT.bind_apply_of_eq hvalue, StateT.bind_apply_of_eq hrest, StateT.pure_apply,
      valuesReadBack]

/-- **The value reader reads back what the value writer wrote**, with each nested event's type
read through the table, given as many levels as the value has bytes. The induction is on the
levels: the values nested in an event or an array are written inside it, so they are shorter. -/
theorem Value.deserialize_serialize :
    ∀ (depth : Nat) (value : Value) (rest : List UInt8), value.serialize.length ≤ depth →
      depth < 2 ^ 64 → Value.deserialize depth (value.serialize ++ rest) = some (value.readBack, rest)
  | 0, value, _, hlen, _ => absurd hlen (by simpa using serialize_ne_nil value)
  | depth + 1, value, rest, hlen, hfit => by
    -- a length written before a part of the value is at most the length of the value
    have hfits : ∀ n, n ≤ value.serialize.length → n < 2 ^ 64 := fun n hn => by omega
    cases value with
    | string v =>
      have hsize : v.utf8ByteSize < 2 ^ 64 := hfits _ (by
        rw [Value.serialize, List.length_append, List.length_cons, ← length_toByteArray]
        omega)
      have hbytes := readBytes_append ⟨v.toByteArray.data.toList, length_toByteArray v⟩ rest
      rw [List.Vector.toList_mk] at hbytes
      simp only [Value.serialize, List.cons_append, List.append_assoc]
      rw [Value.deserialize]
      simp [StateT.bind_apply_of_eq (takeByte_cons _ _),
        StateT.bind_apply_of_eq (leb128Read_leb128Write hsize _), StateT.bind_apply_of_eq hbytes,
        fromUTF8?_toByteArray, StateT.map_apply_of_eq (StateT.lift_some_apply _ _), Value.readBack]
    | uint v =>
      simp only [Value.serialize, List.cons_append]
      rw [Value.deserialize]
      simp [StateT.bind_apply_of_eq (takeByte_cons _ _),
        StateT.map_apply_of_eq (leb128Read_leb128Write v.toNat_lt _), Value.readBack]
    | int v =>
      -- the bits of an `i64`, read back as an `i64`
      obtain ⟨bytes, hread, hvalue⟩ := readBytes_toLeBytes v.toUInt64 rest
      simp only [Value.serialize, List.cons_append]
      rw [Value.deserialize]
      simp only [StateT.bind_apply_of_eq (takeByte_cons _ _), StateT.bind_apply_of_eq hread,
        StateT.pure_apply, Value.readBack]
      rw [hvalue, Int64.toInt64_toUInt64]
    | float bits =>
      obtain ⟨bytes, hread, hvalue⟩ := readBytes_toLeBytes bits rest
      simp only [Value.serialize, List.cons_append]
      rw [Value.deserialize]
      simp [StateT.bind_apply_of_eq (takeByte_cons _ _), StateT.map_apply_of_eq hread, Value.readBack]
      exact hvalue
    | timestamp v =>
      obtain ⟨bytes, hread, hvalue⟩ := readBytes_toLeBytes v rest
      simp only [Value.serialize, List.cons_append]
      rw [Value.deserialize]
      simp [StateT.bind_apply_of_eq (takeByte_cons _ _), StateT.map_apply_of_eq hread, Value.readBack]
      exact hvalue
    | duration v =>
      simp only [Value.serialize, List.cons_append]
      rw [Value.deserialize]
      simp [StateT.bind_apply_of_eq (takeByte_cons _ _),
        StateT.map_apply_of_eq (leb128Read_leb128Write v.toNat_lt _), Value.readBack]
    | bytes v =>
      have hsize : v.length < 2 ^ 64 := hfits _ (by
        rw [Value.serialize, List.length_append]
        omega)
      have hbytes := readBytes_append ⟨v, rfl⟩ rest
      rw [List.Vector.toList_mk] at hbytes
      simp only [Value.serialize, List.cons_append, List.append_assoc]
      rw [Value.deserialize]
      simp [StateT.bind_apply_of_eq (takeByte_cons _ _),
        StateT.bind_apply_of_eq (leb128Read_leb128Write hsize _), StateT.map_apply_of_eq hbytes,
        Value.readBack]
    | bool b =>
      cases b <;> simp only [Value.serialize, List.cons_append, List.nil_append] <;>
        rw [Value.deserialize] <;> simp [StateT.bind_apply_of_eq (takeByte_cons _ _), Value.readBack]
    | ipv4 octets =>
      simp only [Value.serialize, List.cons_append]
      rw [Value.deserialize]
      simp [StateT.bind_apply_of_eq (takeByte_cons _ _),
        StateT.map_apply_of_eq (readBytes_append octets rest), Value.readBack]
    | ipv6 octets =>
      simp only [Value.serialize, List.cons_append]
      rw [Value.deserialize]
      simp [StateT.bind_apply_of_eq (takeByte_cons _ _),
        StateT.map_apply_of_eq (readBytes_append octets rest), Value.readBack]
    | event inner keys =>
      have hcode : inner.code < 2 ^ 64 := Nat.lt_of_le_of_lt (EventType.code_le inner) (by decide)
      have hbody : 1 + (serializeKeys keys).length ≤ depth + 1 := by
        have := hlen
        simp only [Value.serialize, List.length_append, List.length_cons] at this
        omega
      have hlength : keys.length < 2 ^ 64 := by
        have := length_le_length_serializeKeys keys
        omega
      -- the values of the keys fit the levels left
      have hkeys := readKeys_serializeKeys keys rest fun kv hkv rest =>
        Value.deserialize_serialize depth kv.2 rest
          (by have := length_serialize_le_of_mem_keys hkv; omega) (by omega)
      simp only [Value.serialize, List.cons_append, List.append_assoc]
      rw [Value.deserialize]
      simp only [StateT.bind_apply_of_eq (takeByte_cons _ _),
        StateT.bind_apply_of_eq (leb128Read_leb128Write hcode _), EventType.fromCode_code_eq_readBack,
        StateT.bind_apply_of_eq (StateT.lift_some_apply _ _),
        StateT.bind_apply_of_eq (leb128Read_leb128Write hlength _), StateT.bind_apply_of_eq hkeys,
        StateT.pure_apply, Value.readBack]
    | array values =>
      have hbody : 1 + (serializeValues values).length ≤ depth + 1 := by
        have := hlen
        simp only [Value.serialize, List.length_append, List.length_cons] at this
        omega
      have hlength : values.length < 2 ^ 64 := by
        have := length_le_length_serializeValues values
        omega
      have hvalues := readValues_serializeValues values rest fun value hvalue rest =>
        Value.deserialize_serialize depth value rest
          (by have := length_serialize_le_of_mem_values hvalue; omega) (by omega)
      simp only [Value.serialize, List.cons_append, List.append_assoc]
      rw [Value.deserialize]
      simp only [StateT.bind_apply_of_eq (takeByte_cons _ _),
        StateT.bind_apply_of_eq (leb128Read_leb128Write hlength _), StateT.bind_apply_of_eq hvalues,
        StateT.pure_apply, Value.readBack]
    | none =>
      simp only [Value.serialize, List.cons_append, List.nil_append]
      rw [Value.deserialize]
      simp [StateT.bind_apply_of_eq (takeByte_cons _ _), Value.readBack]

end Values

/-! ### Events and spans -/

section Events

/-- **The event reader reads back what the event writer wrote**, its type and the types nested in
its values read through the table, at level `Info`. -/
theorem Event.deserialize_serialize (event : Event) (depth : Nat) (rest : List UInt8)
    (hlen : event.serialize.length ≤ depth) (hfit : depth < 2 ^ 64) :
    Event.deserialize depth (event.serialize ++ rest) = some (event.readBack, rest) := by
  obtain ⟨⟨typ, timestamp, level⟩, keys⟩ := event
  have hcode : typ.code < 2 ^ 64 := Nat.lt_of_le_of_lt (EventType.code_le typ) (by decide)
  have hbody : (serializeKeys keys).length ≤ depth := by
    have := hlen
    simp only [Event.serialize, List.length_append] at this
    omega
  have hlength : keys.length < 2 ^ 64 := by
    have := length_le_length_serializeKeys keys
    omega
  obtain ⟨bytes, hread, hvalue⟩ :=
    readBytes_toLeBytes timestamp (leb128Write keys.length ++ (serializeKeys keys ++ rest))
  have hkeys := readKeys_serializeKeys keys rest fun kv hkv rest =>
    Value.deserialize_serialize depth kv.2 rest
      (by have := length_serialize_le_of_mem_keys hkv; omega) hfit
  simp only [Event.serialize, List.append_assoc]
  rw [Event.deserialize]
  simp only [StateT.bind_apply_of_eq (leb128Read_leb128Write hcode _),
    EventType.fromCode_code_eq_readBack, StateT.bind_apply_of_eq (StateT.lift_some_apply _ _),
    StateT.bind_apply_of_eq hread, StateT.bind_apply_of_eq (leb128Read_leb128Write hlength _),
    StateT.bind_apply_of_eq hkeys, StateT.pure_apply, hvalue, Event.readBack]

/-- The loop of `deserialize_events` reads back the events written, whatever follows them. -/
theorem deserializeEventsFrom_serialize (depth : Nat) (hfit : depth < 2 ^ 64) :
    ∀ (events : List Event) (n : Nat) (rest : List UInt8),
      (∀ event ∈ events, event.serialize.length ≤ depth) →
      deserializeEventsFrom depth (n + events.length) n
          ((events.map Event.serialize).flatten ++ rest) =
        .ok (events.map Event.readBack)
  | [], n, rest, _ => by
    rw [deserializeEventsFrom, if_neg (by simp)]
    rfl
  | event :: events, n, rest, hlen => by
    have htail := deserializeEventsFrom_serialize depth hfit events (n + 1) rest
      fun e he => hlen e (List.mem_cons_of_mem _ he)
    rw [deserializeEventsFrom, if_pos (by simp), List.map_cons, List.flatten_cons, List.append_assoc,
      Event.deserialize_serialize event depth _ (hlen event List.mem_cons_self) hfit]
    dsimp only
    rw [show n + (event :: events).length = n + 1 + events.length by simp; omega, htail]
    rfl

/-- **The span codec reads back every span it writes**, each event's type and the types nested in
its values read through the tables, at level `Info`, as long as its bytes can be counted in a
`u64`. -/
theorem deserializeEvents_serializeEvents (events : List Event)
    (hfit : (serializeEvents events events.length).length < 2 ^ 64) :
    deserializeEvents (serializeEvents events events.length) = .ok (events.map Event.readBack) := by
  have hbody := length_le_length_flatten events
  have hcount : events.length < 2 ^ 64 := by
    simp only [serializeEvents, List.length_cons, List.length_append] at hfit
    omega
  have hloop := deserializeEventsFrom_serialize _ hfit events 0 []
    fun event hevent => by
      have := length_serialize_le_of_mem_events hevent
      simp only [serializeEvents, List.length_cons, List.length_append]
      omega
  rw [Nat.zero_add, List.append_nil] at hloop
  rw [deserializeEvents.eq_def]
  simp only [serializeEvents, List.cons_append, ne_eq, not_true_eq_false, if_false,
    leb128Read_leb128Write hcount]
  exact hloop

/-- `deserialize_single_event` reads the first event of a span, whatever follows it. -/
theorem deserializeSingleEvent_serializeEvents (event : Event) (events : List Event) (n : Nat)
    (hn : n < 2 ^ 64) (hfit : (serializeEvents (event :: events) n).length < 2 ^ 64) :
    deserializeSingleEvent (serializeEvents (event :: events) n) = .ok event.readBack := by
  simp only [serializeEvents, List.map_cons, List.flatten_cons, List.cons_append] at hfit ⊢
  rw [deserializeSingleEvent.eq_def]
  simp only [ne_eq, not_true_eq_false, if_false, leb128Read_leb128Write hn]
  rw [Event.deserialize_serialize event _ _ ?_ hfit]
  simp only [List.length_cons, List.length_append]
  omega

end Events

/-! ### The colliding codes -/

/-- An event of type `TaskQueue(TaskIgnored)` at time zero, with no keys. -/
def taskIgnoredEvent : Event :=
  ⟨⟨.taskQueue .taskIgnored, 0, .info⟩, []⟩

theorem leb128Write_586 : leb128Write 586 = [0xCA, 0x04] := by
  rw [leb128Write, Stalwart.Utils.Leb128.toLeb128Bytes, if_neg (by decide),
    Stalwart.Utils.Leb128.toLeb128Bytes, if_pos (by decide)]
  rfl

theorem leb128Write_of_lt {value : Nat} (h : value < 0x80) : leb128Write value = [value.toUInt8] := by
  rw [leb128Write, Stalwart.Utils.Leb128.toLeb128Bytes, if_pos h]

theorem task_ignored_reads_back_as_delivery_hook :
    EventType.code (.taskQueue .taskIgnored) = EventType.code (.deliveryHook .actionAccept) ∧
      deserializeEvents (serializeEvents [taskIgnoredEvent] 1) =
        .ok [⟨⟨.deliveryHook .actionAccept, 0, .info⟩, []⟩] ∧
      deserializeSingleEvent (serializeEvents [taskIgnoredEvent] 1) =
        .ok ⟨⟨.deliveryHook .actionAccept, 0, .info⟩, []⟩ := by
  have hcode : EventType.code (.taskQueue .taskIgnored) = 586 := rfl
  have hfit : (serializeEvents [taskIgnoredEvent] 1).length < 2 ^ 64 := by
    simp [serializeEvents, Event.serialize, taskIgnoredEvent, serializeKeys, hcode, leb128Write_586,
      leb128Write_of_lt]
  -- the table reads 586 as the `DeliveryHook` event whose arm comes first
  have hread : taskIgnoredEvent.readBack = ⟨⟨.deliveryHook .actionAccept, 0, .info⟩, []⟩ := by
    simp only [Event.readBack, taskIgnoredEvent, keysReadBack, Event.mk.injEq,
      EventDetails.mk.injEq, and_true]
    decide
  refine ⟨by decide, ?_, ?_⟩
  · rw [← hread]
    exact deserializeEvents_serializeEvents [taskIgnoredEvent] hfit
  · rw [← hread]
    exact deserializeSingleEvent_serializeEvents _ _ _ (by decide) hfit

/-! ### When a span reads back as written -/

mutual

/-- A value reads back as itself exactly when no event nested in it has one of the five types. -/
theorem Value.readBack_eq_self_iff : ∀ value : Value,
    value.readBack = value ↔ ∀ t ∈ value.eventTypes, t ∉ EventType.codeCollisions
  | .event inner keys => by
    rw [Value.readBack, Value.eventTypes, Value.event.injEq, keysReadBack_eq_self_iff keys,
      EventType.readBack_eq_self_iff, List.forall_mem_cons]
  | .array values => by
    rw [Value.readBack, Value.eventTypes, Value.array.injEq, valuesReadBack_eq_self_iff values]
  | .string _ | .uint _ | .int _ | .float _ | .timestamp _ | .duration _ | .bytes _ | .bool _
  | .ipv4 _ | .ipv6 _ | .none => by simp [Value.readBack, Value.eventTypes]

theorem keysReadBack_eq_self_iff : ∀ keys : List (Key × Value),
    keysReadBack keys = keys ↔ ∀ t ∈ keysEventTypes keys, t ∉ EventType.codeCollisions
  | [] => by simp [keysReadBack, keysEventTypes]
  | (k, v) :: keys => by
    rw [keysReadBack, keysEventTypes, List.cons.injEq, Prod.mk.injEq, Value.readBack_eq_self_iff v,
      keysReadBack_eq_self_iff keys, List.forall_mem_append]
    simp

theorem valuesReadBack_eq_self_iff : ∀ values : List Value,
    valuesReadBack values = values ↔ ∀ t ∈ valuesEventTypes values, t ∉ EventType.codeCollisions
  | [] => by simp [valuesReadBack, valuesEventTypes]
  | value :: values => by
    rw [valuesReadBack, valuesEventTypes, List.cons.injEq, Value.readBack_eq_self_iff value,
      valuesReadBack_eq_self_iff values, List.forall_mem_append]

end

theorem Event.readBack_eq_atInfo_iff (event : Event) :
    event.readBack = event.atInfo ↔ ∀ t ∈ event.eventTypes, t ∉ EventType.codeCollisions := by
  obtain ⟨⟨typ, timestamp, level⟩, keys⟩ := event
  simp only [Event.readBack, Event.atInfo, Event.eventTypes, Event.mk.injEq, EventDetails.mk.injEq,
    keysReadBack_eq_self_iff, EventType.readBack_eq_self_iff, List.forall_mem_cons, and_true]

/-- **A span reads back as written exactly when none of its types collides**: for every span whose
bytes can be counted in a `u64`, `deserialize_events` gives back its events, at level `Info`,
exactly when no event of it, and no event nested in its values, has one of the five types whose
codes `from_code` reads as `DeliveryHook` events. -/
theorem span_round_trip_iff (events : List Event)
    (hfit : (serializeEvents events events.length).length < 2 ^ 64) :
    deserializeEvents (serializeEvents events events.length) = .ok (events.map Event.atInfo) ↔
      ∀ event ∈ events, ∀ t ∈ event.eventTypes, t ∉ EventType.codeCollisions := by
  rw [deserializeEvents_serializeEvents events hfit, Except.ok.injEq, List.map_inj_left]
  exact forall₂_congr fun event _ => Event.readBack_eq_atInfo_iff event

/-- A `TaskFailed` event does not come back: its code `589` reads as a `DeliveryHook` event. -/
theorem span_round_trip_taskFailed :
    (serializeEvents [⟨⟨.taskQueue .taskFailed, 0, .info⟩, []⟩] 1).length < 2 ^ 64 ∧
      deserializeEvents (serializeEvents [⟨⟨.taskQueue .taskFailed, 0, .info⟩, []⟩] 1) ≠
        .ok [⟨⟨.taskQueue .taskFailed, 0, .info⟩, []⟩] := by
  have hfit : (serializeEvents [⟨⟨.taskQueue .taskFailed, 0, .info⟩, []⟩] 1).length < 2 ^ 64 := by
    decide +kernel
  refine ⟨hfit, fun hback => ?_⟩
  have hnone := (span_round_trip_iff _ hfit).mp hback
  exact hnone _ List.mem_cons_self _ List.mem_cons_self (by decide)

end Stalwart.Trc
