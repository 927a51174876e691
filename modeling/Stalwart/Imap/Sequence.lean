import Mathlib.Data.List.Basic
import Mathlib.Tactic.SplitIfs
import Stalwart.Imap.Grammar
import Stalwart.Lib.ExceptBind

/-!
# IMAP sequence sets (`imap_proto::protocol::Sequence`, `parse_sequence_set`)

A sequence set is a comma-separated list of items: a number, `*`, a range `a:b` whose ends are
numbers or `*`, or `$` for the saved search. `parse_sequence_set` reads it in one pass over the
bytes. It keeps the start of the current number and five flags, and it pushes an item at each
comma and at the last byte. `serialize_sequence` writes a list of ids with runs of consecutive
ids as ranges. `contains` and `expand` read a sequence against the largest id, which `*` stands
for.

## What is proved

* The items of the grammar, rendered and separated by commas, parse as those items, unwrapped
  when there is one (`parseSequenceSet_render`). The parser is not exact on the rest. A `$`
  closes the item it ends even after digits, so `1$` is read as `$`, and a trailing comma is
  accepted (`sequence_set_accepts_malformed`).
* Strictly increasing ids, serialized, parse back to a sequence that expands to exactly those
  ids; and on every sequence the parser returns `contains` agrees with `expand`
  (`serialize_parse_expand_agree`). The parser returns an item or a list of items
  (`parseSequenceSet_flat`), and on those the two readings are the same interval tests.
-/

set_option autoImplicit false

namespace Stalwart.Imap.Proto

/-- `protocol::Sequence`. -/
inductive Sequence where
  | number (value : UInt32)
  | range (start «end» : Option UInt32)
  | savedSearch
  | list (items : List Sequence)
  deriving Repr

/-! ## Reading a sequence -/

/-- The ids `start..=end`. -/
def idsBetween (start «end» : UInt32) : List UInt32 :=
  (List.range («end».toNat + 1 - start.toNat)).map fun i => UInt32.ofNat (start.toNat + i)

/-- The ids a range stands for, its ends in either order (the `Ordering` cases of `expand`). -/
def rangeIds (start «end» : UInt32) : List UInt32 :=
  match compare start «end» with
  | .eq => [start]
  | .lt => idsBetween start «end»
  | .gt => idsBetween «end» start

mutual

/-- `Sequence::contains`. -/
def Sequence.contains : Sequence → UInt32 → UInt32 → Bool
  | .number n, value, _ => n == value
  | .range (some start) (some «end»), value, _ =>
    value ≥ start && value ≤ «end» || value ≥ «end» && value ≤ start
  | .range (some bound) none, value, maxValue | .range none (some bound), value, maxValue =>
    value ≥ bound && value ≤ maxValue || value ≥ maxValue && value ≤ bound
  | .range none none, value, maxValue => value == maxValue
  | .list items, value, maxValue => Sequence.containsAny items value maxValue
  | .savedSearch, _, _ => false

/-- The loop of `Sequence::contains` over the items of a list. -/
def Sequence.containsAny : List Sequence → UInt32 → UInt32 → Bool
  | [], _, _ => false
  | item :: items, value, maxValue =>
    item.contains value maxValue || Sequence.containsAny items value maxValue

end

-- the equations of `contains` and `containsAny` are made once, here, before the proofs that
-- unfold them
section
attribute [local simp] Sequence.contains Sequence.containsAny
end

mutual

/-- `Sequence::is_saved_search`. -/
def Sequence.isSavedSearch : Sequence → Bool
  | .savedSearch => true
  | .list items => Sequence.anySavedSearch items
  | _ => false

/-- `items.iter().any(|s| s.is_saved_search())`. -/
def Sequence.anySavedSearch : List Sequence → Bool
  | [] => false
  | item :: items => item.isSavedSearch || Sequence.anySavedSearch items

end

/-- The ids one item of a list adds in `expand`: a number, a range, and nothing else. -/
def Sequence.expandItem (maxValue : UInt32) : Sequence → List UInt32
  | .number value => [value]
  | .range start «end» => rangeIds (start.getD maxValue) («end».getD maxValue)
  | _ => []

-- the equations of `expandItem` are made once, here, before the proofs that unfold it
section
attribute [local simp] Sequence.expandItem
end

/-- `Sequence::expand`; the `AHashSet` it returns is the set of the ids listed. -/
def Sequence.expand (seq : Sequence) (maxValue : UInt32) : List UInt32 :=
  match seq with
  | .number value => [value]
  | .list items => items.flatMap (Sequence.expandItem maxValue)
  | .range start «end» => rangeIds (start.getD maxValue) («end».getD maxValue)
  | _ => []

/-! ## Writing ids -/

/-- `id.to_string()`. -/
def idText (id : UInt32) : List UInt8 :=
  decimal id.toNat

/-- The end of a run from `id` to `rangeId`: `:rangeId` unless the run is one id long. -/
def runEnd (id rangeId : UInt32) : List UInt8 :=
  if rangeId ≠ id then 58 :: idText rangeId else []

/-- The loop of `serialize_sequence` from the run `id..=rangeId`, with the ids after it: the next id
extends the run when it is `rangeId + 1`, and ends it otherwise. -/
def serializeRun (id rangeId : UInt32) : List UInt32 → List UInt8
  | [] => idText id ++ runEnd id rangeId
  | next :: rest =>
    if next = rangeId + 1 then serializeRun id next rest
    else idText id ++ runEnd id rangeId ++ 44 :: serializeRun next next rest

/-- `serialize_sequence`. -/
def serializeSequence : List UInt32 → List UInt8
  | [] => []
  | id :: rest => serializeRun id id rest

/-! ## Parsing -/

/-- The errors of `parse_sequence_set`, and of `parse_number` on the bytes of a number. -/
inductive SequenceError where
  | parseError
  | numberExpectedBeforeColon
  | colonRepeated
  | invalidWildcard
  | wildcardRepeated
  | unexpectedAfterDollar
  | invalidCharacter (ch : UInt8) (pos : Nat)
  | expectedNumber
  | notANumber (text : List UInt8)
  | empty
  deriving DecidableEq, Repr

/-- The text of an error about the sequence set `value`. -/
def SequenceError.message (value : List UInt8) : SequenceError → String
  | .parseError => let set := shown value; s!"Invalid sequence set {set}, parse error."
  | .numberExpectedBeforeColon =>
    let set := shown value; s!"Invalid sequence set {set}, number expected before ':'."
  | .colonRepeated => let set := shown value; s!"Invalid sequence set {set}, ':' appears multiple times."
  | .invalidWildcard => let set := shown value; s!"Invalid sequence set {set}, invalid use of '*'."
  | .wildcardRepeated =>
    let set := shown value; s!"Invalid sequence set {set}, '*' appears multiple times."
  | .unexpectedAfterDollar =>
    let set := shown value; s!"Invalid sequence set {set}, unexpected token after '$'."
  | .invalidCharacter ch pos =>
    let set := shown value
    s!"Invalid sequence set {set}, found invalid character '{ch}' at position {pos}."
  | .expectedNumber => let set := shown value; s!"Invalid sequence set {set}, expected number."
  | .notANumber text => let number := shown text; s!"Expected a number, found {number}."
  | .empty => "Invalid empty sequence set."

/-- `value.get(from..to)`. -/
def slice (value : List UInt8) (start stop : Nat) : Option (List UInt8) :=
  if start ≤ stop ∧ stop ≤ value.length then some ((value.drop start).take (stop - start)) else none

/-- `parse_number::<u32>` on the bytes of a number, which hold digits and at most a `$`. -/
def parseNumber (text : List UInt8) : Except SequenceError UInt32 :=
  match parseU32 text with
  | some n => .ok n
  | none => .error (.notANumber text)

/-- The number from `token_start` to `pos`: no start is `expected number`, a slice out of range a
parse error. -/
def numberAt (value : List UInt8) (tokenStart : Option Nat) (pos : Nat) : Except SequenceError UInt32 :=
  match tokenStart with
  | none => .error .expectedNumber
  | some start =>
    match slice value start pos with
    | none => .error .parseError
    | some text => parseNumber text

/-- The variables of the loop of `parse_sequence_set`. -/
structure SequenceParser where
  sequenceSet : List Sequence
  rangeStart : Option UInt32
  tokenStart : Option Nat
  isWildcard : Bool
  isRange : Bool
  isSavedSearch : Bool
  deriving Repr

namespace SequenceParser

/-- Before the first byte. -/
def init : SequenceParser :=
  ⟨[], none, none, false, false, false⟩

/-- The `match ch` of the loop, at `pos`: the variables after the byte and whether it is a comma,
or the whole result for a lone `*`. -/
def scan (value : List UInt8) (p : SequenceParser) (pos : Nat) (ch : UInt8) :
    Except SequenceError (SequenceParser × Bool ⊕ Sequence) :=
  if ch = 44 then .ok (.inl (p, true))
  else if ch = 58 then
    if !p.isRange then
      match p.tokenStart with
      | some start =>
        match slice value start pos with
        | none => .error .parseError
        | some text => (parseNumber text).map fun n =>
          .inl ({ p with rangeStart := some n, tokenStart := none, isRange := true }, false)
      | none =>
        if p.isWildcard then .ok (.inl ({ p with isWildcard := false, isRange := true }, false))
        else .error .numberExpectedBeforeColon
    else .error .colonRepeated
  else if ch = 42 then
    if !p.isWildcard then
      if value.length = 1 then .ok (.inr (.range none none))
      else if p.tokenStart.isNone then .ok (.inl ({ p with isWildcard := true }, false))
      else .error .invalidWildcard
    else .error .wildcardRepeated
  else if ch = 36 then
    if value[pos + 1]?.all (· = 44) then .ok (.inl ({ p with isSavedSearch := true }, false))
    else .error .unexpectedAfterDollar
  else if isAsciiDigit ch then
    if p.isWildcard then .error .invalidWildcard
    else .ok (.inl ({ p with tokenStart := p.tokenStart.or (some pos) }, false))
  else .error (.invalidCharacter ch pos)

/-- The variables after an item is pushed. -/
def pushed (p : SequenceParser) (item : Sequence) : SequenceParser :=
  { p with sequenceSet := p.sequenceSet ++ [item], tokenStart := none }

/-- `if add_token || pos == value.len() - 1`: the item that ends at `pos` is pushed. The number it
ends with stops before a comma and after the last byte. -/
def emit (value : List UInt8) (p : SequenceParser) (pos : Nat) (addToken : Bool) :
    Except SequenceError SequenceParser :=
  let stop := if addToken then pos else pos + 1
  if p.isRange then
    (if !p.isWildcard then (numberAt value p.tokenStart stop).map some else .ok none) |>.map
      fun «end» => { p.pushed (.range p.rangeStart «end») with
        isWildcard := false, isRange := false, rangeStart := none }
  else if p.isWildcard then .ok { p.pushed (.range none none) with isWildcard := false }
  else if p.isSavedSearch then .ok { p.pushed .savedSearch with isSavedSearch := false }
  else (numberAt value p.tokenStart stop).map fun n => p.pushed (.number n)

/-- The loop over the bytes of `value` with their positions. -/
def run (value : List UInt8) : SequenceParser → List (UInt8 × Nat) →
    Except SequenceError (SequenceParser ⊕ Sequence)
  | p, [] => .ok (.inl p)
  | p, (ch, pos) :: rest =>
    match p.scan value pos ch with
    | .error e => .error e
    | .ok (.inr seq) => .ok (.inr seq)
    | .ok (.inl (p, addToken)) =>
      if addToken ∨ pos = value.length - 1 then
        match p.emit value pos addToken with
        | .error e => .error e
        | .ok p => run value p rest
      else run value p rest

-- the equations of `scan`, `emit` and `run` are made once, here, before the proofs that unfold them
section
attribute [local simp] scan scan.eq_def emit emit.eq_def run
end

end SequenceParser

/-- `parse_sequence_set`. -/
def parseSequenceSet (value : List UInt8) : Except SequenceError Sequence :=
  match SequenceParser.run value .init value.zipIdx with
  | .error e => .error e
  | .ok (.inr seq) => .ok seq
  | .ok (.inl p) =>
    match p.sequenceSet with
    | [item] => .ok item
    | [] => .error .empty
    | items => .ok (.list items)

-- the equations of `parseSequenceSet` are made once, here, before the proofs that unfold it
section
attribute [local simp] parseSequenceSet.eq_def
end

/-! ## The parser on the items of the grammar -/

/-- An item of a sequence set as a client writes it. -/
inductive SequenceItem where
  | number (value : UInt32)
  | wildcard
  /-- `a:b`, an end `none` written `*`. -/
  | range (start «end» : Option UInt32)
  | savedSearch

namespace SequenceItem

/-- The sequence an item stands for. -/
def toSequence : SequenceItem → Sequence
  | .number value => .number value
  | .wildcard => .range none none
  | .range start «end» => .range start «end»
  | .savedSearch => .savedSearch

-- the equations of `toSequence` are made once, here, before the proofs that unfold it
section
attribute [local simp] toSequence
end

/-- An end of a range: its number, or `*`. -/
def boundText : Option UInt32 → List UInt8
  | some value => idText value
  | none => [42]

/-- The bytes of an item. -/
def render : SequenceItem → List UInt8
  | .number value => idText value
  | .wildcard => [42]
  | .range start «end» => boundText start ++ 58 :: boundText «end»
  | .savedSearch => [36]

end SequenceItem

/-- The sequence a list of items stands for: the item alone, or the list of them. -/
def itemsSequence : List SequenceItem → Sequence
  | [item] => item.toSequence
  | items => .list (items.map SequenceItem.toSequence)

/-- Items separated by commas. -/
def renderItems : List SequenceItem → List UInt8
  | [] => []
  | [item] => item.render
  | item :: items => item.render ++ 44 :: renderItems items

-- the equations of `renderItems` are made once, here, before the proofs that unfold it
section
attribute [local simp] renderItems
end

theorem slice_append (pre text post : List UInt8) :
    slice (pre ++ text ++ post) pre.length (pre.length + text.length) = some text := by
  simp [slice]

theorem parseU32_idText (v : UInt32) : parseU32 (idText v) = some v := by
  rw [idText, parseU32_decimal v.toNat_lt]
  simp

theorem isAsciiDigit_of_mem_idText {v : UInt32} {d : UInt8} (h : d ∈ idText v) : isAsciiDigit d :=
  isAsciiDigit_of_mem_decimal h

theorem idText_ne_nil (v : UInt32) : idText v ≠ [] := by
  simp [idText, decimal, Nat.toDigits_ne_nil]

/-- A set with a byte other than `*` is not a lone `*`. -/
theorem ne_star_of_mem {bytes : List UInt8} {b : UInt8} (hb : b ≠ 42) (h : b ∈ bytes) :
    bytes ≠ [42] := by
  rintro rfl
  exact hb (List.mem_singleton.mp h)

namespace SequenceParser

/-- The parser between items: the items so far, and nothing pending. -/
def between (items : List Sequence) : SequenceParser :=
  ⟨items, none, none, false, false, false⟩

variable {value : List UInt8} {p : SequenceParser}

theorem run_append {p' : SequenceParser} {xs : List (UInt8 × Nat)}
    (h : run value p xs = .ok (.inl p')) (ys : List (UInt8 × Nat)) :
    run value p (xs ++ ys) = run value p' ys := by
  induction xs generalizing p with
  | nil =>
    cases h
    rfl
  | cons x xs ih =>
    obtain ⟨ch, pos⟩ := x
    simp only [List.cons_append, run] at h ⊢
    rcases hscan : p.scan value pos ch with e | ⟨p₁, addToken⟩ | seq <;> rw [hscan] at h
    · cases h
    · dsimp only at h ⊢
      split_ifs at h ⊢
      · rcases hemit : p₁.emit value pos addToken with e | p₂ <;> rw [hemit] at h
        · cases h
        · exact ih h
      · exact ih h
    · cases h

/-- A byte that is not a comma and not the last one only moves the variables. -/
theorem run_cons_of_scan {ch : UInt8} {pos : Nat} {p' : SequenceParser}
    (h : p.scan value pos ch = .ok (.inl (p', false))) (hpos : pos + 1 < value.length)
    (rest : List (UInt8 × Nat)) : run value p ((ch, pos) :: rest) = run value p' rest := by
  have hlast : ¬(false = true ∨ pos = value.length - 1) := by
    simp only [Bool.false_eq_true, false_or]
    omega
  simp only [run, h, if_neg hlast]

/-- A byte that ends an item: a comma, or the last byte. -/
theorem run_cons_of_emit {ch : UInt8} {pos : Nat} {p' p'' : SequenceParser} {addToken : Bool}
    (h : p.scan value pos ch = .ok (.inl (p', addToken)))
    (hend : addToken = true ∨ pos = value.length - 1) (hemit : p'.emit value pos addToken = .ok p'')
    (rest : List (UInt8 × Nat)) : run value p ((ch, pos) :: rest) = run value p'' rest := by
  simp only [run, h, if_pos hend, hemit]

theorem ne_of_isAsciiDigit {ch : UInt8} (h : isAsciiDigit ch) :
    ch ≠ 44 ∧ ch ≠ 58 ∧ ch ≠ 42 ∧ ch ≠ 36 := by
  simp only [isAsciiDigit, Bool.and_eq_true, decide_eq_true_eq] at h
  refine ⟨?_, ?_, ?_, ?_⟩ <;> rintro rfl <;> exact absurd h (by decide)

theorem scan_comma (pos : Nat) : p.scan value pos 44 = .ok (.inl (p, true)) := by
  simp [scan]

theorem scan_digit {ch : UInt8} (hch : isAsciiDigit ch) (hp : p.isWildcard = false) (pos : Nat) :
    p.scan value pos ch = .ok (.inl ({ p with tokenStart := p.tokenStart.or (some pos) }, false)) := by
  obtain ⟨h44, h58, h42, h36⟩ := ne_of_isAsciiDigit hch
  simp [scan, h44, h58, h42, h36, hch, hp]

theorem scan_colon_number {start : Nat} {pos : Nat} {text : List UInt8} {n : UInt32}
    (hrange : p.isRange = false) (htoken : p.tokenStart = some start)
    (hslice : slice value start pos = some text) (hn : parseU32 text = some n) :
    p.scan value pos 58 =
      .ok (.inl ({ p with rangeStart := some n, tokenStart := none, isRange := true }, false)) := by
  simp [scan, hrange, htoken, hslice, parseNumber, hn, Except.map]

theorem scan_colon_wildcard (pos : Nat) (hrange : p.isRange = false) (htoken : p.tokenStart = none)
    (hwild : p.isWildcard = true) :
    p.scan value pos 58 = .ok (.inl ({ p with isWildcard := false, isRange := true }, false)) := by
  simp [scan, hrange, htoken, hwild]

theorem scan_star (pos : Nat) (hwild : p.isWildcard = false) (hlen : value.length ≠ 1)
    (htoken : p.tokenStart = none) :
    p.scan value pos 42 = .ok (.inl ({ p with isWildcard := true }, false)) := by
  simp [scan, hwild, hlen, htoken]

theorem scan_dollar {pos : Nat} (hnext : value[pos + 1]?.all (· = 44)) :
    p.scan value pos 36 = .ok (.inl ({ p with isSavedSearch := true }, false)) := by
  simp only [scan, hnext, if_true]
  simp

/-- A comma that ends an item after the bytes `xs`. -/
theorem run_comma {xs : List (UInt8 × Nat)} {pos : Nat} {p₁ p₂ : SequenceParser}
    (hxs : run value p xs = .ok (.inl p₁)) (hemit : p₁.emit value pos true = .ok p₂) :
    run value p (xs ++ [(44, pos)]) = .ok (.inl p₂) := by
  rw [run_append hxs, run_cons_of_emit (scan_comma pos) (.inl rfl) hemit]
  rfl

/-- The last byte of the set, which ends the last item. -/
theorem run_last {xs : List (UInt8 × Nat)} {ch : UInt8} {pos : Nat} {p₁ p₂ p₃ : SequenceParser}
    (hxs : run value p xs = .ok (.inl p₁)) (hscan : p₁.scan value pos ch = .ok (.inl (p₂, false)))
    (hpos : pos = value.length - 1) (hemit : p₂.emit value pos false = .ok p₃) :
    run value p (xs ++ [(ch, pos)]) = .ok (.inl p₃) := by
  rw [run_append hxs, run_cons_of_emit hscan (.inr hpos) hemit]
  rfl

/-- **The digits of a number** before the last byte mark where the number starts. -/
theorem run_digits (value : List UInt8) {digits : List UInt8} (hd : ∀ d ∈ digits, isAsciiDigit d)
    (p : SequenceParser) (k : Nat) (hp : p.isWildcard = false)
    (hend : k + digits.length < value.length) :
    run value p (digits.zipIdx k) =
      .ok (.inl (if digits = [] then p else { p with tokenStart := p.tokenStart.or (some k) })) := by
  induction digits generalizing p k with
  | nil => rfl
  | cons d digits ih =>
    simp only [List.length_cons] at hend
    rw [List.zipIdx_cons, run_cons_of_scan (scan_digit (hd d List.mem_cons_self) hp k) (by omega),
      ih (fun d' hd' => hd d' (List.mem_cons_of_mem _ hd'))
        { p with tokenStart := p.tokenStart.or (some k) } (k + 1) hp (by omega)]
    -- the start is the first digit's
    cases htoken : p.tokenStart <;> simp

theorem emit_number {pos stop start : Nat} {addToken : Bool} {text : List UInt8} {n : UInt32}
    (hrange : p.isRange = false) (hwild : p.isWildcard = false) (hsaved : p.isSavedSearch = false)
    (htoken : p.tokenStart = some start) (hstop : (if addToken then pos else pos + 1) = stop)
    (hslice : slice value start stop = some text) (hn : parseU32 text = some n) :
    p.emit value pos addToken = .ok (p.pushed (.number n)) := by
  simp [emit, hrange, hwild, hsaved, numberAt, htoken, hstop, hslice, parseNumber, hn, Except.map]

theorem emit_range_number {pos stop start : Nat} {addToken : Bool} {text : List UInt8} {n : UInt32}
    (hrange : p.isRange = true) (hwild : p.isWildcard = false) (htoken : p.tokenStart = some start)
    (hstop : (if addToken then pos else pos + 1) = stop) (hslice : slice value start stop = some text)
    (hn : parseU32 text = some n) :
    p.emit value pos addToken = .ok { p.pushed (.range p.rangeStart (some n)) with
      isWildcard := false, isRange := false, rangeStart := none } := by
  simp [emit, hrange, hwild, numberAt, htoken, hstop, hslice, parseNumber, hn, Except.map]

theorem emit_range_wildcard {pos : Nat} {addToken : Bool} (hrange : p.isRange = true)
    (hwild : p.isWildcard = true) :
    p.emit value pos addToken = .ok { p.pushed (.range p.rangeStart none) with
      isWildcard := false, isRange := false, rangeStart := none } := by
  simp [emit, hrange, hwild, Except.map]

theorem emit_wildcard {pos : Nat} {addToken : Bool} (hrange : p.isRange = false)
    (hwild : p.isWildcard = true) :
    p.emit value pos addToken = .ok { p.pushed (.range none none) with isWildcard := false } := by
  simp [emit, hrange, hwild]

theorem emit_savedSearch {pos : Nat} {addToken : Bool} (hrange : p.isRange = false)
    (hwild : p.isWildcard = false) (hsaved : p.isSavedSearch = true) :
    p.emit value pos addToken = .ok { p.pushed .savedSearch with isSavedSearch := false } := by
  simp [emit, hrange, hwild, hsaved]

/-! ### The items -/

/-- **Digits that end an item**, before a comma or as the last bytes of the set: what `emit` makes
of the number is pushed. -/
theorem run_digits_end {pre digits post : List UInt8} {q q' : SequenceParser}
    (hd : ∀ d ∈ digits, isAsciiDigit d) (hne : digits ≠ [])
    (hpost : post = [] ∨ ∃ rest, post = 44 :: rest) (hwild : q.isWildcard = false)
    (htoken : q.tokenStart = none)
    (hemit : ∀ pos addToken, (if addToken then pos else pos + 1) = pre.length + digits.length →
      ({ q with tokenStart := some pre.length } : SequenceParser).emit (pre ++ digits ++ post) pos
        addToken = .ok q') :
    run (pre ++ digits ++ post) q ((digits ++ post.take 1).zipIdx pre.length) = .ok (.inl q') := by
  have hlen : (pre ++ digits ++ post).length = pre.length + digits.length + post.length := by
    simp only [List.length_append]
  generalize pre ++ digits ++ post = value at hlen hemit ⊢
  rcases hpost with rfl | ⟨rest, rfl⟩
  · -- the last digit is the last byte of the set, and ends the item
    obtain ⟨init, last, rfl⟩ : ∃ init last, digits = init ++ [last] :=
      ⟨_, _, (List.dropLast_append_getLast hne).symm⟩
    simp only [List.length_append, List.length_singleton, List.length_nil] at hlen hemit
    have hinit := run_digits value (fun d hd' => hd d (List.mem_append_left _ hd')) q pre.length
      hwild (by omega)
    have hscan : (if init = [] then q else { q with tokenStart := q.tokenStart.or (some pre.length) }).scan
        value (pre.length + init.length) last =
        .ok (.inl ({ q with tokenStart := some pre.length }, false)) := by
      rw [scan_digit (hd last (by simp)) (by split <;> simp [hwild])]
      by_cases hinit : init = [] <;> simp [hinit, htoken]
    rw [List.take_nil, List.append_nil, List.zipIdx_append]
    exact run_last hinit hscan (by omega) (hemit _ false (by simp; omega))
  · -- a comma follows the digits
    simp only [List.length_cons] at hlen
    have hdigits := run_digits value hd q pre.length hwild (by omega)
    rw [if_neg hne, htoken, Option.none_or] at hdigits
    rw [List.take_succ_cons, List.take_zero, List.zipIdx_append]
    exact run_comma hdigits (hemit _ true (by simp))

/-- **A byte that ends an item** (`*` or `$`), before a comma or as the last byte of the set. -/
theorem run_byte_end {pre post : List UInt8} {ch : UInt8} {q q₁ q' : SequenceParser}
    (hpost : post = [] ∨ ∃ rest, post = 44 :: rest)
    (hscan : q.scan (pre ++ [ch] ++ post) pre.length ch = .ok (.inl (q₁, false)))
    (hemit : ∀ pos addToken, q₁.emit (pre ++ [ch] ++ post) pos addToken = .ok q') :
    run (pre ++ [ch] ++ post) q (([ch] ++ post.take 1).zipIdx pre.length) = .ok (.inl q') := by
  have hlen : (pre ++ [ch] ++ post).length = pre.length + 1 + post.length := by
    simp only [List.length_append, List.length_singleton]
  generalize pre ++ [ch] ++ post = value at hlen hscan hemit ⊢
  rcases hpost with rfl | ⟨rest, rfl⟩
  · rw [List.take_nil, List.append_nil]
    have hnone : run value q [] = .ok (.inl q) := rfl
    exact run_last hnone hscan (by simp at hlen; omega) (hemit _ _)
  · simp only [List.length_cons] at hlen
    have hbyte : run value q [(ch, pre.length)] = .ok (.inl q₁) := by
      rw [run_cons_of_scan hscan (by omega)]
      rfl
    rw [List.take_succ_cons, List.take_zero, List.zipIdx_append]
    exact run_comma hbyte (hemit _ _)

/-- The start of a range and its colon: the start is kept, and the end follows. -/
theorem run_range_start (pre rest : List UInt8) (start : Option UInt32) (acc : List Sequence)
    (hrest : rest ≠ []) :
    run (pre ++ SequenceItem.boundText start ++ 58 :: rest) (between acc)
        ((SequenceItem.boundText start ++ [58]).zipIdx pre.length) =
      .ok (.inl { between acc with rangeStart := start, isRange := true }) := by
  have hlen : (pre ++ SequenceItem.boundText start ++ 58 :: rest).length =
      pre.length + (SequenceItem.boundText start).length + 1 + rest.length := by
    simp only [List.length_append, List.length_cons]
    omega
  have hrest' : 0 < rest.length := List.length_pos_of_ne_nil hrest
  cases start with
  | none =>
    -- `*:` : the wildcard, then the colon drops it
    simp only [SequenceItem.boundText, List.length_singleton] at hlen ⊢
    rw [List.singleton_append, List.zipIdx_cons,
      run_cons_of_scan (scan_star _ rfl (by omega) rfl) (by omega),
      List.zipIdx_singleton, run_cons_of_scan (scan_colon_wildcard _ rfl rfl rfl) (by omega)]
    rfl
  | some value =>
    -- the digits of the start, read at the colon
    simp only [SequenceItem.boundText] at hlen ⊢
    have hdigits := run_digits (pre ++ idText value ++ 58 :: rest)
      (fun d (hd : d ∈ idText value) => isAsciiDigit_of_mem_idText hd) (between acc) pre.length rfl
      (by omega)
    rw [if_neg (idText_ne_nil value)] at hdigits
    rw [List.zipIdx_append, run_append hdigits, List.zipIdx_singleton,
      run_cons_of_scan (scan_colon_number rfl rfl (slice_append pre (idText value) (58 :: rest))
        (parseU32_idText value)) (by omega)]
    rfl

/-- **One item** before a comma or at the end of the set is pushed, unless the whole set is `*`. -/
theorem run_item (item : SequenceItem) (pre post : List UInt8) (acc : List Sequence)
    (hpost : post = [] ∨ ∃ rest, post = 44 :: rest) (hlone : pre ++ item.render ++ post ≠ [42]) :
    run (pre ++ item.render ++ post) (between acc) ((item.render ++ post.take 1).zipIdx pre.length) =
      .ok (.inl (between (acc ++ [item.toSequence]))) := by
  cases item with
  | number value =>
    exact run_digits_end (fun d hd => isAsciiDigit_of_mem_idText hd) (idText_ne_nil value) hpost
      rfl rfl fun pos addToken hstop => emit_number rfl rfl rfl rfl hstop
        (slice_append pre (idText value) post) (parseU32_idText value)
  | wildcard =>
    have hlen : (pre ++ [42] ++ post).length ≠ 1 := by
      intro hone
      apply hlone
      simp only [List.length_append, List.length_singleton] at hone
      have hpre : pre = [] := List.eq_nil_of_length_eq_zero (by omega)
      have hpost' : post = [] := List.eq_nil_of_length_eq_zero (by omega)
      simp [SequenceItem.render, hpre, hpost']
    exact run_byte_end hpost (scan_star _ rfl hlen rfl) fun _ _ => emit_wildcard rfl rfl
  | savedSearch =>
    have hnext : (pre ++ [36] ++ post)[pre.length + 1]?.all (· = 44) := by
      rcases hpost with rfl | ⟨rest, rfl⟩ <;> simp
    exact run_byte_end hpost (scan_dollar hnext) fun _ _ => emit_savedSearch rfl rfl rfl
  | range start «end» =>
    -- the start and the colon, then the end as the last bytes of the item
    have hend : SequenceItem.boundText «end» ≠ [] := by
      cases «end» <;> simp [SequenceItem.boundText, idText_ne_nil]
    have hstart := run_range_start pre (SequenceItem.boundText «end» ++ post) start acc
      (by simp [hend])
    simp only [SequenceItem.render]
    rw [show pre ++ (SequenceItem.boundText start ++ 58 :: SequenceItem.boundText «end») ++ post =
        pre ++ SequenceItem.boundText start ++ 58 :: (SequenceItem.boundText «end» ++ post) by simp,
      show SequenceItem.boundText start ++ 58 :: SequenceItem.boundText «end» ++ post.take 1 =
        (SequenceItem.boundText start ++ [58]) ++ (SequenceItem.boundText «end» ++ post.take 1) by
          simp,
      List.zipIdx_append, run_append hstart]
    have hvalue : pre ++ SequenceItem.boundText start ++ 58 :: (SequenceItem.boundText «end» ++ post) =
        (pre ++ SequenceItem.boundText start ++ [58]) ++ SequenceItem.boundText «end» ++ post := by
      simp
    have hoffset : pre.length + (SequenceItem.boundText start ++ [58]).length =
        (pre ++ SequenceItem.boundText start ++ [58]).length := by
      simp only [List.length_append]
      omega
    rw [hvalue, hoffset]
    cases «end» with
    | none =>
      have hlen : (pre ++ SequenceItem.boundText start ++ [58] ++ [42] ++ post).length ≠ 1 := by
        simp only [List.length_append, List.length_singleton]
        omega
      exact run_byte_end hpost (scan_star _ rfl hlen rfl) fun _ _ => emit_range_wildcard rfl rfl
    | some value =>
      exact run_digits_end (fun d hd => isAsciiDigit_of_mem_idText hd) (idText_ne_nil value) hpost
        rfl rfl fun pos addToken hstop => emit_range_number rfl rfl rfl hstop
          (slice_append _ (idText value) post) (parseU32_idText value)

/-- **The items of a set**, after the bytes `pre`, are pushed in order. -/
theorem run_renderItems : ∀ (items : List SequenceItem) (pre : List UInt8) (acc : List Sequence),
    items ≠ [] → pre ++ renderItems items ≠ [42] →
    run (pre ++ renderItems items) (between acc) ((renderItems items).zipIdx pre.length) =
      .ok (.inl (between (acc ++ items.map SequenceItem.toSequence)))
  | [], _, _, hne, _ => absurd rfl hne
  | [item], pre, acc, _, hlone => by
    have hitem := run_item item pre [] acc (.inl rfl)
      (by simpa [renderItems] using hlone)
    simpa [renderItems] using hitem
  | item :: item' :: items, pre, acc, _, _ => by
    -- the first item before its comma, then the others after it
    have hitem := run_item item pre (44 :: renderItems (item' :: items)) acc (.inr ⟨_, rfl⟩) (ne_star_of_mem (b := 44) (by decide) (by simp))
    have hrest := run_renderItems (item' :: items) (pre ++ item.render ++ [44])
      (acc ++ [item.toSequence]) (List.cons_ne_nil _ _) (ne_star_of_mem (b := 44) (by decide) (by simp))
    have hvalue : pre ++ renderItems (item :: item' :: items) =
        pre ++ item.render ++ 44 :: renderItems (item' :: items) := by
      simp [renderItems]
    have hbytes : renderItems (item :: item' :: items) =
        (item.render ++ (44 :: renderItems (item' :: items)).take 1) ++
          renderItems (item' :: items) := by
      simp [renderItems]
    have hoffset : pre.length + (item.render ++ (44 :: renderItems (item' :: items)).take 1).length =
        (pre ++ item.render ++ [44]).length := by
      simp only [List.take_succ_cons, List.take_zero, List.length_append, List.length_singleton]
      omega
    rw [hvalue, hbytes, List.zipIdx_append, run_append hitem, hoffset]
    rw [show pre ++ item.render ++ 44 :: renderItems (item' :: items) =
      pre ++ item.render ++ [44] ++ renderItems (item' :: items) by simp, hrest]
    simp

end SequenceParser

theorem renderItems_eq_star {items : List SequenceItem} (h : renderItems items = [42]) :
    items = [.wildcard] := by
  match items, h with
  | [.number value], h =>
    have hdigit := isAsciiDigit_of_mem_idText (v := value) (d := 42)
      (by simp only [renderItems, SequenceItem.render] at h; simp [h])
    exact absurd hdigit (by decide)
  | [.wildcard], _ => rfl
  | [.range start «end»], h =>
    exact absurd h (ne_star_of_mem (b := 58) (by decide) (by simp [renderItems, SequenceItem.render]))
  | [.savedSearch], h => exact absurd h (by decide)
  | _ :: _ :: _, h => exact absurd h (ne_star_of_mem (b := 44) (by decide) (by simp [renderItems]))

/-- **The items of the grammar parse as themselves**, unwrapped when there is one. -/
theorem parseSequenceSet_render {items : List SequenceItem} (hne : items ≠ []) :
    parseSequenceSet (renderItems items) = .ok (itemsSequence items) := by
  by_cases hlone : renderItems items = [42]
  · -- a lone `*` returns at once
    obtain rfl := renderItems_eq_star hlone
    rfl
  · have hrun := SequenceParser.run_renderItems items [] [] hne (by simpa using hlone)
    simp only [List.nil_append, List.length_nil] at hrun
    unfold parseSequenceSet
    rw [show SequenceParser.init = SequenceParser.between [] from rfl, hrun]
    match items, hne with
    | [item], _ => rfl
    | item :: item' :: items, _ => rfl

/-! ## Reading a sequence back -/

theorem mem_idsBetween {a b v : UInt32} : v ∈ idsBetween a b ↔ a ≤ v ∧ v ≤ b := by
  simp only [idsBetween, List.mem_map, List.mem_range, UInt32.le_iff_toNat_le]
  constructor
  · rintro ⟨i, hi, rfl⟩
    have hfits : a.toNat + i < 2 ^ 32 := by
      have := b.toNat_lt
      omega
    rw [UInt32.toNat_ofNat_of_lt' hfits]
    omega
  · rintro ⟨hlow, hhigh⟩
    refine ⟨v.toNat - a.toNat, by omega, ?_⟩
    have hfits : a.toNat + (v.toNat - a.toNat) < 2 ^ 32 := by
      have := v.toNat_lt
      omega
    apply UInt32.toNat_inj.mp
    rw [UInt32.toNat_ofNat_of_lt' hfits]
    omega

/-- **The ids of a range** are those between its ends, in either order. -/
theorem mem_rangeIds {a b v : UInt32} :
    v ∈ rangeIds a b ↔ (a ≤ v ∧ v ≤ b) ∨ (b ≤ v ∧ v ≤ a) := by
  unfold rangeIds
  rcases hcmp : compare a b
  · rw [Std.compare_eq_lt, UInt32.lt_iff_toNat_lt] at hcmp
    simp only [mem_idsBetween, UInt32.le_iff_toNat_le]
    omega
  · rw [Std.compare_eq_iff_eq] at hcmp
    subst hcmp
    simp only [List.mem_singleton, UInt32.le_iff_toNat_le, or_self]
    rw [← UInt32.toNat_inj]
    omega
  · rw [Std.compare_eq_gt, UInt32.lt_iff_toNat_lt] at hcmp
    simp only [mem_idsBetween, UInt32.le_iff_toNat_le]
    omega

/-- A sequence that is not a list, as the parser pushes them. -/
def Sequence.isItem : Sequence → Bool
  | .list _ => false
  | _ => true

theorem Sequence.expand_of_isItem {seq : Sequence} (h : seq.isItem) (maxValue : UInt32) :
    seq.expand maxValue = seq.expandItem maxValue := by
  cases seq with
  | list items => exact absurd h (by simp [Sequence.isItem])
  | _ => rfl

/-- **`contains` is membership in `expand`** on an item. -/
theorem Sequence.contains_iff_mem_expandItem {seq : Sequence} (h : seq.isItem) (v maxValue : UInt32) :
    seq.contains v maxValue ↔ v ∈ seq.expandItem maxValue := by
  match seq, h with
  | .number n, _ =>
    simp only [Sequence.contains, Sequence.expandItem, List.mem_singleton, beq_iff_eq]
    exact eq_comm
  | .range (some start) (some «end»), _ =>
    simp [Sequence.contains, Sequence.expandItem, mem_rangeIds]
  | .range (some bound) none, _ =>
    simp [Sequence.contains, Sequence.expandItem, mem_rangeIds]
  | .range none (some bound), _ =>
    simp only [Sequence.contains, Sequence.expandItem, Option.getD_none, Option.getD_some,
      mem_rangeIds]
    simp only [ge_iff_le, Bool.or_eq_true, Bool.and_eq_true, decide_eq_true_eq]
    exact Or.comm
  | .range none none, _ =>
    simp only [Sequence.contains, Sequence.expandItem, Option.getD_none, mem_rangeIds, or_self,
      beq_iff_eq, UInt32.le_iff_toNat_le]
    rw [UInt32.toNat_inj.symm.eq]
    omega
  | .savedSearch, _ => simp [Sequence.contains, Sequence.expandItem]

theorem Sequence.containsAny_iff {items : List Sequence} (h : ∀ item ∈ items, item.isItem)
    (v maxValue : UInt32) :
    Sequence.containsAny items v maxValue ↔ v ∈ items.flatMap (Sequence.expandItem maxValue) := by
  induction items with
  | nil => simp [Sequence.containsAny]
  | cons item items ih =>
    simp only [Sequence.containsAny, Bool.or_eq_true, List.flatMap_cons, List.mem_append]
    rw [Sequence.contains_iff_mem_expandItem (h item List.mem_cons_self),
      ih fun item' hitem' => h item' (List.mem_cons_of_mem _ hitem')]

/-- The sequences `parse_sequence_set` returns: an item, or a list of items. -/
def Sequence.Flat (seq : Sequence) : Prop :=
  seq.isItem ∨ ∃ items, seq = .list items ∧ ∀ item ∈ items, item.isItem

/-- **On a flat sequence `contains` is membership in `expand`.** -/
theorem Sequence.contains_iff_mem_expand {seq : Sequence} (h : seq.Flat) (v maxValue : UInt32) :
    seq.contains v maxValue ↔ v ∈ seq.expand maxValue := by
  rcases h with hitem | ⟨items, rfl, hitems⟩
  · rw [Sequence.expand_of_isItem hitem, Sequence.contains_iff_mem_expandItem hitem]
  · exact Sequence.containsAny_iff hitems v maxValue

namespace SequenceParser

variable {value : List UInt8} {p : SequenceParser}

/-- What the parser has pushed are items. -/
def Pushed (p : SequenceParser) : Prop :=
  ∀ item ∈ p.sequenceSet, item.isItem

/-- **A byte pushes nothing**: `scan` keeps the items, and the only sequence it returns is the
lone `*`. -/
theorem scan_keeps {pos : Nat} {ch : UInt8} {r : SequenceParser × Bool ⊕ Sequence}
    (h : p.scan value pos ch = .ok r) :
    match r with
    | .inl (p', _) => p'.sequenceSet = p.sequenceSet
    | .inr seq => seq = .range none none := by
  unfold scan at h
  split_ifs at h
  all_goals (try split at h) <;> (try split at h)
  all_goals first
    | (cases h; rfl)
    | (obtain ⟨n, -, rfl⟩ := Except.map_eq_ok_iff.mp h; rfl)
    | cases h

/-- **`emit` pushes one item.** -/
theorem emit_pushes {pos : Nat} {addToken : Bool} {p' : SequenceParser}
    (h : p.emit value pos addToken = .ok p') :
    ∃ item : Sequence, item.isItem ∧ p'.sequenceSet = p.sequenceSet ++ [item] := by
  unfold emit at h
  dsimp only at h
  split_ifs at h
  all_goals first
    | (obtain ⟨_, -, rfl⟩ := Except.map_eq_ok_iff.mp h; exact ⟨_, rfl, rfl⟩)
    | (cases h; exact ⟨_, rfl, rfl⟩)

theorem Pushed.scan {pos : Nat} {ch : UInt8} {r : SequenceParser × Bool ⊕ Sequence}
    (hp : p.Pushed) (h : p.scan value pos ch = .ok r) :
    match r with
    | .inl (p', _) => p'.Pushed
    | .inr seq => seq.isItem := by
  have hkeeps := scan_keeps h
  rcases r with ⟨p', _⟩ | seq
  · dsimp only at hkeeps ⊢
    intro item hitem
    exact hp item (hkeeps ▸ hitem)
  · dsimp only at hkeeps ⊢
    rw [hkeeps]
    rfl

theorem Pushed.emit {pos : Nat} {addToken : Bool} {p' : SequenceParser}
    (hp : p.Pushed) (h : p.emit value pos addToken = .ok p') : p'.Pushed := by
  obtain ⟨item, hitem, hset⟩ := emit_pushes h
  intro item' hitem'
  rw [hset, List.mem_append, List.mem_singleton] at hitem'
  rcases hitem' with hold | rfl
  · exact hp item' hold
  · exact hitem

theorem run_pushed {xs : List (UInt8 × Nat)} :
    ∀ {p : SequenceParser} {r : SequenceParser ⊕ Sequence}, run value p xs = .ok r → p.Pushed →
      match r with
      | .inl p' => p'.Pushed
      | .inr seq => seq.isItem := by
  induction xs with
  | nil =>
    intro p r h hp
    cases h
    exact hp
  | cons x xs ih =>
    intro p r h hp
    obtain ⟨ch, pos⟩ := x
    simp only [run] at h
    rcases hscan : p.scan value pos ch with e | ⟨p₁, addToken⟩ | seq <;> rw [hscan] at h
    · cases h
    · have hp₁ := hp.scan hscan
      dsimp only at h hp₁
      split_ifs at h
      · rcases hemit : p₁.emit value pos addToken with e | p₂ <;> rw [hemit] at h
        · cases h
        · exact ih h (hp₁.emit hemit)
      · exact ih h hp₁
    · cases h
      exact hp.scan hscan

end SequenceParser

/-- **What `parse_sequence_set` returns is flat.** -/
theorem parseSequenceSet_flat {value : List UInt8} {seq : Sequence}
    (h : parseSequenceSet value = .ok seq) : seq.Flat := by
  unfold parseSequenceSet at h
  rcases hrun : SequenceParser.run value .init value.zipIdx with e | p | seq' <;> rw [hrun] at h
  · cases h
  · have hp := SequenceParser.run_pushed hrun (fun _ hitem => nomatch hitem)
    dsimp only at h hp
    split at h
    · next item hset =>
      cases h
      exact .inl (hp _ (by rw [hset]; exact List.mem_singleton_self _))
    · cases h
    · next items _ _ =>
      cases h
      exact .inr ⟨p.sequenceSet, rfl, hp⟩
  · cases h
    exact .inl (SequenceParser.run_pushed hrun (fun _ hitem => nomatch hitem))

/-! ## Runs of ids -/

/-- The item `serialize_sequence` writes for the run `id..=rangeId`. -/
def runItem (id rangeId : UInt32) : SequenceItem :=
  if rangeId ≠ id then .range (some id) (some rangeId) else .number id

/-- The items `serialize_sequence` writes from the run `id..=rangeId` and the ids after it. -/
def runItems (id rangeId : UInt32) : List UInt32 → List SequenceItem
  | [] => [runItem id rangeId]
  | next :: rest =>
    if next = rangeId + 1 then runItems id next rest
    else runItem id rangeId :: runItems next next rest

-- the equations of `runItem` and `runItems` are made once, here, before the proofs that unfold them
section
attribute [local simp] runItem.eq_def runItems
end

theorem runItems_ne_nil (id rangeId : UInt32) (rest : List UInt32) : runItems id rangeId rest ≠ [] := by
  induction rest generalizing id rangeId with
  | nil => simp [runItems]
  | cons next rest ih =>
    unfold runItems
    split_ifs
    · exact ih id next
    · simp

theorem render_runItem (id rangeId : UInt32) :
    (runItem id rangeId).render = idText id ++ runEnd id rangeId := by
  unfold runItem runEnd
  split_ifs <;> simp [SequenceItem.render, SequenceItem.boundText]

theorem renderItems_cons {item : SequenceItem} {items : List SequenceItem} (h : items ≠ []) :
    renderItems (item :: items) = item.render ++ 44 :: renderItems items := by
  match items, h with
  | _ :: _, _ => rfl

/-- **`serialize_sequence` writes the items of the grammar**, one a run. -/
theorem serializeRun_eq_renderItems (id rangeId : UInt32) (rest : List UInt32) :
    serializeRun id rangeId rest = renderItems (runItems id rangeId rest) := by
  induction rest generalizing id rangeId with
  | nil => simp [serializeRun, runItems, renderItems, render_runItem]
  | cons next rest ih =>
    unfold serializeRun runItems
    split_ifs
    · exact ih id next
    · rw [renderItems_cons (runItems_ne_nil next next rest), render_runItem, ih]

theorem mem_expandItem_runItem {id rangeId v : UInt32} (hle : id ≤ rangeId) (maxValue : UInt32) :
    v ∈ (runItem id rangeId).toSequence.expandItem maxValue ↔ id ≤ v ∧ v ≤ rangeId := by
  rw [UInt32.le_iff_toNat_le] at hle
  unfold runItem
  split_ifs with hne
  · simp only [SequenceItem.toSequence, Sequence.expandItem, Option.getD_some, mem_rangeIds,
      UInt32.le_iff_toNat_le]
    omega
  · simp only [ne_eq, Decidable.not_not] at hne
    subst hne
    simp only [SequenceItem.toSequence, Sequence.expandItem, List.mem_singleton,
      UInt32.le_iff_toNat_le, ← UInt32.toNat_inj]
    omega

/-- `rangeId + 1` does not wrap when some id is above `rangeId`. -/
theorem toNat_of_eq_succ {rangeId next : UInt32} (h : next = rangeId + 1) (hlt : rangeId < next) :
    next.toNat = rangeId.toNat + 1 := by
  have hnext := congrArg UInt32.toNat h
  rw [UInt32.lt_iff_toNat_lt] at hlt
  rw [UInt32.toNat_add] at hnext
  simp only [UInt32.reduceToNat] at hnext
  omega

/-- **A run and the ids after it read back as themselves.** The induction is on the ids after the
run; the run `id..=rangeId` grows by one when the next id follows it. -/
theorem mem_runItems {id rangeId : UInt32} {rest : List UInt32} (hle : id ≤ rangeId)
    (hrest : (rangeId :: rest).Pairwise (· < ·)) (v maxValue : UInt32) :
    v ∈ (runItems id rangeId rest).flatMap (fun item => item.toSequence.expandItem maxValue) ↔
      (id ≤ v ∧ v ≤ rangeId) ∨ v ∈ rest := by
  induction rest generalizing id rangeId with
  | nil =>
    simp [runItems, mem_expandItem_runItem hle]
  | cons next rest ih =>
    obtain ⟨habove, hnext⟩ := List.pairwise_cons.mp hrest
    have hlt : rangeId < next := habove next List.mem_cons_self
    unfold runItems
    split_ifs with hsucc
    · -- `next` extends the run
      have hsucc' := toNat_of_eq_succ hsucc hlt
      have hextend : (id ≤ v ∧ v ≤ next) ↔ (id ≤ v ∧ v ≤ rangeId) ∨ v = next := by
        rw [UInt32.le_iff_toNat_le] at hle
        simp only [UInt32.le_iff_toNat_le, ← UInt32.toNat_inj]
        omega
      rw [ih (UInt32.le_of_lt (UInt32.lt_of_le_of_lt hle hlt)) hnext, hextend, List.mem_cons, or_assoc]
    · -- the run ends before `next`, which starts the next one
      have hone : (next ≤ v ∧ v ≤ next) ↔ v = next := by
        simp only [UInt32.le_iff_toNat_le, ← UInt32.toNat_inj]
        omega
      rw [List.flatMap_cons, List.mem_append, mem_expandItem_runItem hle,
        ih (UInt32.le_refl next) hnext, hone, List.mem_cons]

theorem SequenceItem.isItem_toSequence (item : SequenceItem) : item.toSequence.isItem := by
  cases item <;> rfl

/-- What the items of the grammar parse as lists the ids of the items. -/
theorem expand_itemsSequence (items : List SequenceItem) (maxValue : UInt32) :
    (itemsSequence items).expand maxValue =
      items.flatMap (fun item => item.toSequence.expandItem maxValue) := by
  match items with
  | [] => rfl
  | [item] =>
    rw [itemsSequence, Sequence.expand_of_isItem (SequenceItem.isItem_toSequence item),
      List.flatMap_singleton]
  | item :: item' :: items =>
    simp only [itemsSequence, Sequence.expand, List.flatMap_map]

/-- **Printing, parsing and reading a sequence set agree.** Strictly increasing ids are written
as runs, parsed back, and expand to themselves; and on whatever the parser returns, `contains` and
`expand` agree, saved searches included. -/
theorem serialize_parse_expand_agree :
    (∀ ids : List UInt32, ids ≠ [] → ids.Pairwise (· < ·) →
      ∃ seq, parseSequenceSet (serializeSequence ids) = .ok seq ∧
        ∀ maxValue v, v ∈ seq.expand maxValue ↔ v ∈ ids) ∧
    (∀ value seq, parseSequenceSet value = .ok seq →
      ∀ maxValue v, seq.contains v maxValue = true ↔ v ∈ seq.expand maxValue) := by
  refine ⟨?_, ?_⟩
  · intro ids hne hsorted
    obtain ⟨id, rest, rfl⟩ := List.exists_cons_of_ne_nil hne
    have hitems := runItems_ne_nil id id rest
    have hparse := parseSequenceSet_render hitems
    rw [← serializeRun_eq_renderItems, ← serializeSequence] at hparse
    refine ⟨_, hparse, fun maxValue v => ?_⟩
    have hone : (id ≤ v ∧ v ≤ id) ↔ v = id := by
      simp only [UInt32.le_iff_toNat_le, ← UInt32.toNat_inj]
      omega
    rw [expand_itemsSequence, mem_runItems (UInt32.le_refl id) hsorted, hone,
      List.mem_cons]
  · intro value seq hparse maxValue v
    exact Sequence.contains_iff_mem_expand (parseSequenceSet_flat hparse) v maxValue

theorem sequence_set_accepts_malformed :
    parseSequenceSet (ascii "1$") = .ok .savedSearch ∧
      parseSequenceSet (ascii "1,") = .ok (.number 1) ∧
      parseSequenceSet (ascii "*$") = .ok (.range none none) := by
  refine ⟨?_, ?_, ?_⟩ <;> rfl

example : parseSequenceSet (ascii "2,4:7,9,12:*") =
    .ok (.list [.number 2, .range (some 4) (some 7), .number 9, .range (some 12) none]) := by
  rfl

example : serializeSequence [1, 2, 3, 5, 7, 8] = ascii "1:3,5,7:8" := by
  decide

end Stalwart.Imap.Proto
