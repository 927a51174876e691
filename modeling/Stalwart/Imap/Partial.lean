import Stalwart.Imap.Sequence

/-!
# Partial fetches (`BODY[section]<start.count>`, `BINARY[section]<start.count>`)

`parse_partial` reads the `<start.count>` after a `BODY`, `BODY.PEEK` or `BINARY` section as two
`u32` numbers, the count not zero. Every branch of `body_section` and `binary` computes the
section's bytes and then cuts them with `get_partial_bytes` or `get_cow_partial_bytes`. Both
take the range `start..min(start + count, len)` and answer an empty slice when `get` refuses it.
The branch that builds the section does not matter to the cut, so the section's bytes are an
input here.

## What is proved

The end of the range is the `u32` sum `start + count`, and it wraps. When the sum reaches `2 ^ 32`
the end falls below the start, and the answer is empty whatever the section holds
(`getPartialBytes_of_wrap`). `<10.4294967291>` parses, and it fetches nothing of a section of
twenty bytes, whose last ten it asks for (`partial_window_wraps`).
-/

set_option autoImplicit false

namespace Stalwart.Imap.Proto

/-- `Token::unwrap_bytes`: an argument's bytes, or the text of a punctuation token. -/
def Token.unwrapBytes : Token → List UInt8
  | .argument bytes => bytes
  | .parenthesisOpen => [40]
  | .parenthesisClose => [41]
  | .bracketOpen => [91]
  | .bracketClose => [93]
  | .lt => [60]
  | .gt => [62]
  | .dot => [46]
  | .nil => []

/-- `str::parse::<u32>`: digits, after an optional `+`. -/
def parseNumberU32 (bytes : List UInt8) : Option UInt32 :=
  parseU32 (match bytes with
    | 43 :: digits => digits
    | _ => bytes)

/-- `parse_number::<u32>`. A number that parses is ASCII, so the UTF-8 check of the source, which
comes first there, can only fail where the parse fails too. -/
def parseNumber32 (bytes : List UInt8) : Except String UInt32 :=
  match parseNumberU32 bytes with
  | some n => .ok n
  | none =>
    match fromUtf8 bytes with
    | none => .error "Expected a number, found an invalid UTF-8 string."
    | some _ => .error ("Expected a number, found " ++ shown bytes ++ ".")

/-- `parse_partial`, on the tokens after a section: the range, if there is one, and the tokens
left. -/
def parsePartial : List Token → Except String (Option (UInt32 × UInt32) × List Token)
  | .lt :: tokens =>
    match tokens with
    | [] => .error "Missing partial start."
    | startToken :: tokens => do
      let start ← parseNumber32 startToken.unwrapBytes
      match tokens with
      | .dot :: tokens =>
        match tokens with
        | [] => .error "Missing partial end."
        | endToken :: tokens => do
          let count ← parseNumber32 endToken.unwrapBytes
          if count = 0 then .error "Invalid partial range."
          else
            match tokens with
            | .gt :: tokens => .ok (some (start, count), tokens)
            | _ => .error "Expected \x27>\x27 after range."
      | _ => .error "Expected \x27.\x27 after partial start."
  | tokens => .ok (none, tokens)

end Stalwart.Imap.Proto

namespace Stalwart.Imap

open Stalwart.Imap.Proto (slice)

/-- `get_partial_bytes`: the range `start..min(start + count, len)`, the sum taken in `u32`, or
nothing when `get` refuses the range. -/
def getPartialBytes (bytes : List UInt8) : Option (UInt32 × UInt32) → List UInt8
  | some (start, count) =>
    (slice bytes start.toNat (min (start + count).toNat bytes.length)).getD []
  | none => bytes

/-- `get_cow_partial_bytes`: the same range of a borrowed or an owned buffer. -/
def getCowPartialBytes (bytes : List UInt8) (range : Option (UInt32 × UInt32)) : List UInt8 :=
  getPartialBytes bytes range

/-- What a client asks for with `<start.count>`: from `start`, `count` bytes, as many as there
are. -/
def window (content : List UInt8) (start count : Nat) : List UInt8 :=
  (content.drop start).take count

theorem slice_min_length {bytes : List UInt8} {start stop : Nat}
    (h : start ≤ min stop bytes.length) :
    slice bytes start (min stop bytes.length) = some (window bytes start (stop - start)) := by
  have hle : min stop bytes.length ≤ bytes.length := Nat.min_le_right _ _
  rw [slice, if_pos ⟨h, hle⟩, window]
  congr 1
  conv_rhs => rw [List.take_eq_take_min]
  rw [List.length_drop]
  congr 1
  omega

/-- When `start + count` reaches `2 ^ 32`, the `u32` sum wraps below `start`, and the cut is
empty whatever the section holds. -/
theorem getPartialBytes_of_wrap (content : List UInt8) (start count : UInt32)
    (h : 2 ^ 32 ≤ start.toNat + count.toNat) :
    getPartialBytes content (some (start, count)) = [] := by
  have hcount := count.toNat_lt
  have hsum : (start + count).toNat = start.toNat + count.toNat - 2 ^ 32 := by
    rw [UInt32.toNat_add]
    have := start.toNat_lt
    omega
  by_cases hempty : start.toNat ≤ min (start + count).toNat content.length
  · rw [getPartialBytes, slice_min_length hempty, Option.getD_some, window,
      show (start + count).toNat - start.toNat = 0 by omega, List.take_zero]
  · rw [getPartialBytes, slice, if_neg (fun h' => hempty h'.1), Option.getD_none]

theorem partial_window_wraps :
    Proto.parsePartial [.lt, .argument [49, 48], .dot,
        .argument [52, 50, 57, 52, 57, 54, 55, 50, 57, 49], .gt] =
      .ok (some (10, 4294967291), []) ∧
    getPartialBytes (List.replicate 20 65) (some (10, 4294967291)) = [] ∧
    window (List.replicate 20 65) 10 4294967291 = List.replicate 10 65 :=
  ⟨by decide, getPartialBytes_of_wrap _ _ _ (by decide), by decide⟩

end Stalwart.Imap
