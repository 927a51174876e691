import Mathlib
import Stalwart.Lib.ExceptBind

/-!
# The IMAP command receiver (`imap_proto::receiver`)

`Receiver::parse` reads a client's bytes one at a time through an eight-state machine: the tag, the
command name (with a `UID` prefix), then the arguments, which are atoms, quoted strings with `\`
escapes, parentheses, for `FETCH` also brackets, `<`, `>` and `.`, and literals `{n}`, `{n+}` or
`~{n}` followed by `n` bytes. A call returns at the byte that completes a request, that fails, or
that ends a synchronising literal's header (`NeedsLiteral`), and with `NeedsMoreData` when the frame
runs out. The receiver keeps its state between calls. The next call goes on with the rest of the
frame, or with the next frame.

Here `parseByte` is the body of the loop for one byte, one definition per state, and `parse` is
the loop. `feed` runs the bytes through the loop and collects every return, and `parse_spec` says
that a call returns the first of them.

## What is proved

* The size the receiver accounts for a request is the length of its arguments plus its structural
  and literal `Nil` tokens, and stays within the maximum along every run (`Reachable.accounted`).
  Every request returned is within it (`keeps_parseByte`), and a literal too large for the rest of
  the request fails at its header (`parseLiteral_too_large`).
* A line end in the command state before a command name is skipped, so a line made of a tag and
  a space is carried into the next line (`newline_carries_tag`).
* A client that feeds frames to the receiver, going on after each return and taking the next frame
  after `NeedsMoreData`, receives what the receiver fed the frames' concatenation returns
  (`Client.feed`, `client_of_feed`). `Stalwart.Imap.Grammar` uses this for the command lines the
  receiver accepts.
-/

set_option autoImplicit false

namespace Stalwart.Imap.Proto

/-- `receiver::Token`. -/
inductive Token where
  | argument (bytes : List UInt8)
  | parenthesisOpen
  | parenthesisClose
  | bracketOpen
  | bracketClose
  | lt
  | gt
  | dot
  | nil
  deriving DecidableEq, Repr

/-- `CommandParser`: the command a name stands for (with or without `UID`), and whether the
command's arguments tokenize brackets. `Default` is the command of an empty request. -/
class CommandParser (T : Type) extends Inhabited T where
  parse : List UInt8 → Bool → Option T
  tokenizeBrackets : T → Bool

/-- `receiver::Request`. -/
structure Request (T : Type) where
  tag : String
  command : T
  tokens : List Token
  deriving DecidableEq, Repr

instance {T : Type} [Inhabited T] : Inhabited (Request T) := ⟨⟨"", default, []⟩⟩

/-- `receiver::State`. -/
inductive State where
  | start
  | tag
  | command (isUid : Bool)
  | argument (lastCh : UInt8)
  | argumentQuoted (escaped : Bool)
  | literal (nonSync : Bool)
  | literalSeek (size : UInt32) (nonSync : Bool)
  | literalData (remaining : UInt32)
  deriving DecidableEq, Repr

/-- Results of the receiver compare by their parts. -/
instance decidableEqResult {ε α : Type} [DecidableEq ε] [DecidableEq α] : DecidableEq (Except ε α)
  | .ok a, .ok b => if h : a = b then isTrue (h ▸ rfl) else isFalse fun e => h (Except.ok.inj e)
  | .error a, .error b =>
    if h : a = b then isTrue (h ▸ rfl) else isFalse fun e => h (Except.error.inj e)
  | .ok _, .error _ => isFalse nofun
  | .error _, .ok _ => isFalse nofun

/-- `receiver::Error`: `error` carries the tag of the request it fails, when it had one. -/
inductive Error where
  | needsMoreData
  | needsLiteral (size : UInt32)
  | error (tag : Option String) (message : String)
  deriving DecidableEq, Repr

/-- `Receiver`: the argument buffer, the request being read, the state, and the size of the request
so far against its maximum. -/
structure Receiver (T : Type) where
  buf : List UInt8
  request : Request T
  state : State
  maxRequestSize : Nat
  currentRequestSize : Nat
  startState : State

/-! ## Bytes

The receiver tells these bytes apart: tab 9, line feed 10, form feed 12, carriage return 13,
space 32, `"` 34, `(` 40, `)` 41, `+` 43, `.` 46, `<` 60, `>` 62, `[` 91, `\` 92, `]` 93, `{` 123,
`}` 125 and `~` 126. -/

/-- `u8::is_ascii_whitespace`. -/
def isAsciiWhitespace (ch : UInt8) : Bool :=
  ch = 32 || ch = 9 || ch = 10 || ch = 12 || ch = 13

/-- `u8::is_ascii_digit`. -/
def isAsciiDigit (ch : UInt8) : Bool :=
  48 ≤ ch && ch ≤ 57

/-- `u8::is_ascii_alphanumeric`. -/
def isAsciiAlphanumeric (ch : UInt8) : Bool :=
  isAsciiDigit ch || (65 ≤ ch && ch ≤ 90) || (97 ≤ ch && ch ≤ 122)

/-- `u8::to_ascii_uppercase`. -/
def toAsciiUppercase (ch : UInt8) : UInt8 :=
  if 97 ≤ ch && ch ≤ 122 then ch - 32 else ch

/-- `u8::to_ascii_lowercase`. -/
def toAsciiLowercase (ch : UInt8) : UInt8 :=
  if 65 ≤ ch && ch ≤ 90 then ch + 32 else ch

/-- `<[u8]>::eq_ignore_ascii_case`. -/
def eqIgnoreAsciiCase (a b : List UInt8) : Bool :=
  a.map toAsciiLowercase = b.map toAsciiLowercase

/-- The bytes of an ASCII text. -/
def ascii (text : String) : List UInt8 :=
  text.toList.map Char.toUInt8

/-- `String::from_utf8`. -/
def fromUtf8 (bytes : List UInt8) : Option String :=
  String.fromUTF8? ⟨bytes.toArray⟩

/-- The text of bytes in an error message (`as_str`, `from_utf8_lossy` and `{:?}`); invalid UTF-8
shows as nothing. -/
def shown (bytes : List UInt8) : String :=
  ((fromUtf8 bytes).getD "").quote

/-- The value of decimal digits. -/
def decimalValue (digits : List UInt8) : Nat :=
  digits.foldl (fun value d => value * 10 + (d.toNat - 48)) 0

/-- `str::parse::<u32>` on the buffer of a literal size, which holds only digits. -/
def parseU32 (digits : List UInt8) : Option UInt32 :=
  if digits ≠ [] ∧ digits.all isAsciiDigit ∧ decimalValue digits < 2 ^ 32 then
    some (UInt32.ofNat (decimalValue digits))
  else none

/-- `ArgumentBuffer::push_checked`. -/
def pushChecked (buf : List UInt8) (ch : UInt8) (limit : Nat) : Option (List UInt8) :=
  if buf.length < limit then some (buf ++ [ch]) else none

/-- `ARG_MAX_LEN`. -/
def argMaxLen : Nat := 4096

namespace Receiver

variable {T : Type} [CommandParser T]

/-- `Receiver::with_max_request_size(..).with_start_state(..)`: a receiver before its first byte. -/
def fresh (maxRequestSize : Nat) (startState : State) : Receiver T :=
  ⟨[], default, startState, maxRequestSize, 0, startState⟩

/-- What a push or a byte does; an error carries the receiver it leaves. -/
abbrev Fallible (T : Type) := Except (Receiver T × Error)

/-- `Receiver::error_reset`: the request is dropped and the receiver starts over. -/
def errorReset (r : Receiver T) (message : String) : Receiver T × Error :=
  ({ r with buf := [], request := default, state := r.startState, currentRequestSize := 0 },
    .error (if r.request.tag.isEmpty then none else some r.request.tag) message)

/-- The error for a request over the maximum size. -/
def tooLarge (r : Receiver T) : Receiver T × Error :=
  let limit := r.maxRequestSize
  r.errorReset s!"Request exceeds maximum limit of {limit} bytes."

/-- `Receiver::push_argument`: a non-empty buffer becomes an argument and counts toward the
request's size; an empty one inside quotes becomes `Nil`, which does not count. -/
def pushArgument (r : Receiver T) (inQuote : Bool) : Fallible T (Receiver T) :=
  if r.buf ≠ [] then
    if r.currentRequestSize + r.buf.length > r.maxRequestSize then .error r.tooLarge
    else .ok { r with
      buf := []
      request := { r.request with tokens := r.request.tokens ++ [.argument r.buf] }
      currentRequestSize := r.currentRequestSize + r.buf.length }
  else if inQuote then .ok { r with request := { r.request with tokens := r.request.tokens ++ [.nil] } }
  else .ok r

/-- `Receiver::push_token`: a token counts one byte toward the request's size. -/
def pushToken (r : Receiver T) (token : Token) : Fallible T (Receiver T) :=
  if r.currentRequestSize + 1 > r.maxRequestSize then .error r.tooLarge
  else .ok { r with
    request := { r.request with tokens := r.request.tokens ++ [token] }
    currentRequestSize := r.currentRequestSize + 1 }

/-- The argument so far, then a structural token; the state does not change. -/
def pushStructural (r : Receiver T) (token : Token) : Fallible T (Receiver T × Option (Request T)) := do
  let r ← r.pushArgument false
  let r ← r.pushToken token
  pure (r, none)

/-- The request is complete: it is returned and the receiver starts over. -/
def complete (r : Receiver T) : Receiver T × Option (Request T) :=
  ({ r with buf := [], request := default, state := r.startState, currentRequestSize := 0 },
    some r.request)

/-- `State::Start`: whitespace is skipped, anything else starts the tag. -/
def parseStart (r : Receiver T) (ch : UInt8) : Fallible T (Receiver T × Option (Request T)) :=
  if isAsciiWhitespace ch then .ok (r, none)
  else .ok ({ r with buf := r.buf ++ [ch], state := .tag }, none)

/-- `State::Tag`. -/
def parseTag (r : Receiver T) (ch : UInt8) : Fallible T (Receiver T × Option (Request T)) :=
  if ch = 32 then
    if r.buf = [] then .ok (r, none)
    else match fromUtf8 r.buf with
      | some tag => .ok ({ r with buf := [], request := { r.request with tag }, state := .command false }, none)
      | none => .error (r.errorReset "Tag is not a valid UTF-8 string.")
  else if ch = 9 ∨ ch = 13 then .ok (r, none)
  else if ch = 10 then
    let tag := shown r.buf
    .error (r.errorReset s!"Missing command after tag {tag}, found CRLF instead.")
  else match pushChecked r.buf ch 128 with
    | some buf => .ok ({ r with buf }, none)
    | none => .error (r.errorReset "Tag exceeds maximum length of 128 characters.")

/-- The name in the buffer, at the whitespace after it: `UID` marks the next name, another name is
the command. A line feed right after the command returns the request. -/
def commandName (r : Receiver T) (isUid : Bool) (ch : UInt8) : Fallible T (Receiver T × Option (Request T)) :=
  if eqIgnoreAsciiCase r.buf (ascii "UID") then .ok ({ r with buf := [], state := .command true }, none)
  else match CommandParser.parse r.buf isUid with
    | none =>
      -- only ASCII letters and digits reach the buffer, so `from_utf8_lossy` keeps every byte
      let name := String.ofList (r.buf.map fun (b : UInt8) => Char.ofNat b.toNat)
      .error (r.errorReset s!"Unrecognized command '{name}'.")
    | some command =>
      let r := { r with buf := [], request := { r.request with command } }
      if ch ≠ 10 then .ok ({ r with state := .argument 32 }, none)
      else .ok r.complete

/-- `State::Command { is_uid }`: letters and digits are the name, in upper case; whitespace before
a name is skipped. -/
def parseCommand (r : Receiver T) (isUid : Bool) (ch : UInt8) : Fallible T (Receiver T × Option (Request T)) :=
  if isAsciiAlphanumeric ch then
    match pushChecked r.buf (toAsciiUppercase ch) 15 with
    | some buf => .ok ({ r with buf }, none)
    | none => .error (r.errorReset "Command exceeds maximum length of 15 characters.")
  else if isAsciiWhitespace ch then
    if r.buf = [] then .ok (r, none) else r.commandName isUid ch
  else
    let shownCh := shown [ch]
    .error (r.errorReset s!"Invalid character {shownCh} in command name.")

/-- Whether a byte is a bracket token of a command that tokenizes brackets. -/
def bracketToken : UInt8 → Option Token
  | 91 => some .bracketOpen
  | 93 => some .bracketClose
  | 60 => some .lt
  | 62 => some .gt
  | 46 => some .dot
  | _ => none

/-- The arms of `State::Argument` for the other bytes: the line feed returns the request,
whitespace ends the argument, and any other byte goes into it. -/
def atomByte (r : Receiver T) (ch : UInt8) : Fallible T (Receiver T × Option (Request T)) :=
  if ch = 10 then do
    let r ← r.pushArgument false
    pure r.complete
  else if isAsciiWhitespace ch then do
    let r ← r.pushArgument false
    pure ({ r with state := .argument ch }, none)
  else match pushChecked r.buf ch argMaxLen with
    | some buf => .ok ({ r with buf, state := .argument ch }, none)
    | none => .error (r.errorReset "Argument exceeds maximum length of 4096 bytes.")

/-- `State::Argument { last_ch }`. A quote or a brace opens a quoted string or a literal only after
whitespace, a brace also right after a lone `~` (a `literal8`). -/
def parseArgument (r : Receiver T) (lastCh ch : UInt8) : Fallible T (Receiver T × Option (Request T)) :=
  if ch = 34 ∧ isAsciiWhitespace lastCh then do
    let r ← r.pushArgument false
    pure ({ r with state := .argumentQuoted false }, none)
  else if ch = 123 ∧ (isAsciiWhitespace lastCh ∨ (lastCh = 126 ∧ r.buf.length = 1)) then
    (if lastCh ≠ 126 then r.pushArgument false else pure { r with buf := [] }) >>= fun r =>
      pure ({ r with state := .literal false }, none)
  else if ch = 40 then r.pushStructural .parenthesisOpen
  else if ch = 41 then r.pushStructural .parenthesisClose
  else match bracketToken ch, CommandParser.tokenizeBrackets r.request.command with
    | some token, true => r.pushStructural token
    | _, _ => r.atomByte ch

/-- A byte of a quoted string, after the buffer it goes into. -/
def pushQuoted (r : Receiver T) (buf : List UInt8) (ch : UInt8) : Fallible T (Receiver T × Option (Request T)) :=
  match pushChecked buf ch argMaxLen with
  | some buf => .ok ({ r with buf, state := .argumentQuoted false }, none)
  | none => .error (r.errorReset "Quoted argument too long.")

/-- `State::ArgumentQuoted { escaped }`. A backslash escapes the next byte; before a byte other than
a quote or a backslash it is kept. -/
def parseQuoted (r : Receiver T) (escaped : Bool) (ch : UInt8) : Fallible T (Receiver T × Option (Request T)) :=
  if ch = 34 then
    if !escaped then do
      let r ← r.pushArgument true
      pure ({ r with state := .argument 32 }, none)
    else r.pushQuoted r.buf ch
  else if ch = 92 then
    if escaped then r.pushQuoted r.buf ch
    else .ok ({ r with state := .argumentQuoted true }, none)
  else if ch = 10 then .error (r.errorReset "Unterminated quoted argument.")
  else r.pushQuoted (if escaped then r.buf ++ [92] else r.buf) ch

/-- `State::Literal { non_sync }`: the digits of the size, an optional `+`, then `}`. A size the
request has no room for fails here, before any byte of the literal. -/
def parseLiteral (r : Receiver T) (nonSync : Bool) (ch : UInt8) : Fallible T (Receiver T × Option (Request T)) :=
  if ch = 125 then
    if r.buf = [] then .error (r.errorReset "Invalid empty literal.")
    else match parseU32 r.buf with
      | none => .error (r.errorReset "Literal size is not a valid number.")
      | some size =>
        if r.currentRequestSize + size.toNat > r.maxRequestSize then
          let limit := r.maxRequestSize
          .error (r.errorReset s!"Literal exceeds the maximum request size of {limit} bytes.")
        else .ok ({ r with state := .literalSeek size nonSync, buf := [] }, none)
  else if ch = 43 then
    if r.buf = [] then .error (r.errorReset "Invalid non-sync literal.")
    else .ok ({ r with state := .literal true }, none)
  else if isAsciiDigit ch then
    if !nonSync then
      match pushChecked r.buf ch 15 with
      | some buf => .ok ({ r with buf }, none)
      | none => .error (r.errorReset "Literal size exceeds maximum of 15 digits.")
    else .error (r.errorReset "Invalid literal.")
  else
    let shownCh := shown [ch]
    .error (r.errorReset s!"Invalid character {shownCh} in literal.")

/-- The end of a literal's header: a synchronising literal returns `NeedsLiteral`, a non-synchronising
one goes on. -/
def literalHeaderEnd (r : Receiver T) (size : UInt32) (nonSync : Bool) :
    Fallible T (Receiver T × Option (Request T)) :=
  if !nonSync then .error (r, .needsLiteral size) else .ok (r, none)

/-- `State::LiteralSeek { size, non_sync }`: whitespace up to the line feed, which starts the data,
or makes a `Nil` of an empty literal. A synchronising literal returns `NeedsLiteral` there. -/
def parseLiteralSeek (r : Receiver T) (size : UInt32) (nonSync : Bool) (ch : UInt8) : Fallible T (Receiver T × Option (Request T)) :=
  if ch = 10 then
    if size > 0 then literalHeaderEnd { r with state := .literalData size } size nonSync
    else ({ r with state := .argument 32 } : Receiver T).pushToken .nil >>= fun r =>
      literalHeaderEnd r size nonSync
  else if !isAsciiWhitespace ch then
    .error (r.errorReset "Expected CRLF after literal, found an invalid char.")
  else .ok (r, none)

/-- `State::LiteralData { remaining }`: every byte goes into the buffer unchecked; the last one makes
the argument. -/
def parseLiteralData (r : Receiver T) (remaining : UInt32) (ch : UInt8) : Fallible T (Receiver T × Option (Request T)) :=
  let r := { r with buf := r.buf ++ [ch] }
  if remaining > 1 then .ok ({ r with state := .literalData (remaining - 1) }, none)
  else do
    let r ← r.pushArgument false
    pure ({ r with state := .argument 32 }, none)

/-- The body of the loop of `Receiver::parse`, on one byte. -/
def parseByte (r : Receiver T) (ch : UInt8) : Fallible T (Receiver T × Option (Request T)) :=
  match r.state with
  | .start => r.parseStart ch
  | .tag => r.parseTag ch
  | .command isUid => r.parseCommand isUid ch
  | .argument lastCh => r.parseArgument lastCh ch
  | .argumentQuoted escaped => r.parseQuoted escaped ch
  | .literal nonSync => r.parseLiteral nonSync ch
  | .literalSeek size nonSync => r.parseLiteralSeek size nonSync ch
  | .literalData remaining => r.parseLiteralData remaining ch

/-- `Receiver::parse`: the bytes of a frame until one returns, with the bytes after it; the frame
running out is `NeedsMoreData`. -/
def parse (r : Receiver T) : List UInt8 → Receiver T × Except Error (Request T) × List UInt8
  | [] => (r, .error .needsMoreData, [])
  | ch :: rest =>
    match r.parseByte ch with
    | .error (r, e) => (r, .error e, rest)
    | .ok (r, some request) => (r, .ok request, rest)
    | .ok (r, none) => r.parse rest

/-- The receiver after a byte. -/
def after : Fallible T (Receiver T × Option (Request T)) → Receiver T
  | .error (r, _) => r
  | .ok (r, _) => r

/-- What a byte returns, if it returns. -/
def returned : Fallible T (Receiver T × Option (Request T)) → Option (Except Error (Request T))
  | .error (_, e) => some (.error e)
  | .ok (_, request) => request.map .ok

/-- The receiver fed bytes one at a time: where it ends, and every return on the way. -/
def feed (r : Receiver T) : List UInt8 → Receiver T × List (Except Error (Request T))
  | [] => (r, [])
  | ch :: rest =>
    let next := after (r.parseByte ch)
    ((next.feed rest).1, (returned (r.parseByte ch)).toList ++ (next.feed rest).2)

-- the equations of `pushChecked`, `pushArgument`, `pushStructural`, `parseArgument`, `pushQuoted`,
-- `parseQuoted` and `feed` are made once, here, before the proofs that unfold them
section
attribute [local simp] pushChecked pushArgument pushArgument.eq_def pushStructural parseArgument
  parseArgument.eq_def pushQuoted parseQuoted feed
end

end Receiver

/-! ## The size of a request -/

/-- What a token counts toward a request's size when it is pushed: an argument its length, a
structural token one. A `Nil` counts one when a literal pushes it and nothing when a quoted string
does, so `Nil` tokens are counted apart. -/
def Token.size : Token → Nat
  | .argument bytes => bytes.length
  | .nil => 0
  | _ => 1

/-- The size the tokens of a request count. -/
def tokensSize (tokens : List Token) : Nat :=
  (tokens.map Token.size).sum

theorem tokensSize_append (tokens : List Token) (token : Token) :
    tokensSize (tokens ++ [token]) = tokensSize tokens + token.size := by
  simp [tokensSize]

namespace Receiver

section Accounting

variable {T : Type}

/-- The accounting of a pending request with `literalNils` literal `Nil` tokens, under the maximum
`m`: its size is its arguments' length plus its structural and literal `Nil` tokens, and within `m`. -/
structure Accounted (m : Nat) (r : Receiver T) (literalNils : Nat) : Prop where
  size_eq : r.currentRequestSize = tokensSize r.request.tokens + literalNils
  literalNils_le : literalNils ≤ r.request.tokens.count .nil
  size_le : r.currentRequestSize ≤ m
  max_eq : r.maxRequestSize = m

/-- A receiver that starts over: no token and no size. -/
structure Starts (m : Nat) (r : Receiver T) : Prop where
  tokens_eq : r.request.tokens = []
  size_eq : r.currentRequestSize = 0
  max_eq : r.maxRequestSize = m

theorem Starts.accounted {m : Nat} {r : Receiver T} (h : Starts m r) : Accounted m r 0 where
  size_eq := by rw [h.size_eq, h.tokens_eq]; rfl
  literalNils_le := Nat.zero_le _
  size_le := by rw [h.size_eq]; exact Nat.zero_le _
  max_eq := h.max_eq

/-- What a byte does to the accounting, with `count` literal `Nil` tokens after it: a byte that
returns a request or fails leaves a receiver that starts over, the request returned within the
maximum; any other byte keeps the accounting. No byte returns `NeedsMoreData`, which only the end of
a frame does. -/
def Keeps (m count : Nat) : Fallible T (Receiver T × Option (Request T)) → Prop
  | .ok (r', none) => Accounted m r' count
  | .ok (r', some request) => Starts m r' ∧ tokensSize request.tokens + count ≤ m
  | .error (r', .error _ _) => Starts m r'
  | .error (r', .needsLiteral _) => Accounted m r' count
  | .error (_, .needsMoreData) => False

/-- The literal `Nil` tokens after a byte: none after a byte that starts over. -/
def settle (count : Nat) : Fallible T (Receiver T × Option (Request T)) → Nat
  | .ok (_, none) => count
  | .ok (_, some _) => 0
  | .error (_, .error _ _) => 0
  | .error (_, _) => count

theorem Keeps.accounted {m count : Nat} {o : Fallible T (Receiver T × Option (Request T))}
    (h : Keeps m count o) : Accounted m (after o) (settle count o) := by
  rcases o with ⟨r', _ | _ | ⟨tag, message⟩⟩ | ⟨r', _ | request⟩
  · exact h.elim
  · exact h
  · exact Starts.accounted h
  · exact h
  · exact h.1.accounted

/-- A byte that only moves the state or the buffer keeps the accounting. -/
theorem keeps_same {m count : Nat} {r : Receiver T} (h : Accounted m r count) (r' : Receiver T)
    (hsize : r'.currentRequestSize = r.currentRequestSize) (htokens : r'.request.tokens = r.request.tokens)
    (hmax : r'.maxRequestSize = r.maxRequestSize) : Keeps m count (.ok (r', none)) where
  size_eq := by rw [hsize, htokens]; exact h.size_eq
  literalNils_le := htokens ▸ h.literalNils_le
  size_le := hsize ▸ h.size_le
  max_eq := hmax ▸ h.max_eq

end Accounting

variable {T : Type} [CommandParser T]

variable {m count : Nat} {r : Receiver T}

theorem starts_errorReset (h : Accounted m r count) (message : String) :
    Starts m (r.errorReset message).1 :=
  ⟨rfl, rfl, h.max_eq⟩

theorem keeps_errorReset (h : Accounted m r count) (count' : Nat) (message : String) :
    Keeps m count' (.error (r.errorReset message)) :=
  starts_errorReset h message

theorem keeps_tooLarge (h : Accounted m r count) (count' : Nat) :
    Keeps m count' (.error r.tooLarge) :=
  keeps_errorReset h count' _

theorem keeps_complete (h : Accounted m r count) : Keeps m count (.ok r.complete) :=
  ⟨⟨rfl, rfl, h.max_eq⟩, h.size_eq ▸ h.size_le⟩

/-- **Pushing the argument** keeps the accounting, or fails with a receiver that starts over. -/
theorem keeps_bind_pushArgument (h : Accounted m r count) {inQuote : Bool} {count' : Nat}
    {k : Receiver T → Fallible T (Receiver T × Option (Request T))}
    (hk : ∀ r', Accounted m r' count → Keeps m count' (k r')) :
    Keeps m count' (r.pushArgument inQuote >>= k) := by
  have hmax := h.max_eq
  unfold pushArgument
  split_ifs with hbuf hlarge hquote
  · exact keeps_tooLarge h count'
  · apply hk
    refine ⟨?_, ?_, ?_, h.max_eq⟩
    · simp only [tokensSize_append, Token.size, h.size_eq]
      omega
    · simp only [List.count_append]
      exact Nat.le_trans h.literalNils_le (Nat.le_add_right _ _)
    · dsimp only
      omega
  · apply hk
    refine ⟨?_, ?_, h.size_le, h.max_eq⟩
    · simp only [tokensSize_append, Token.size, Nat.add_zero]
      exact h.size_eq
    · simp only [List.count_append, List.count_singleton_self]
      exact Nat.le_trans h.literalNils_le (Nat.le_add_right _ _)
  · exact hk r h

/-- **Pushing a token** (a structural one or `Nil`, never an argument) keeps the accounting, with
one more literal `Nil` when the token is `Nil`. -/
theorem keeps_bind_pushToken (h : Accounted m r count) {token : Token}
    (htoken : ∀ bytes, token ≠ .argument bytes) {count' : Nat}
    {k : Receiver T → Fallible T (Receiver T × Option (Request T))}
    (hk : ∀ r', Accounted m r' (if token = .nil then count + 1 else count) → Keeps m count' (k r')) :
    Keeps m count' (r.pushToken token >>= k) := by
  have hmax := h.max_eq
  have hle := h.literalNils_le
  unfold pushToken
  split_ifs with hlarge
  · exact keeps_tooLarge h count'
  · apply hk
    refine ⟨?_, ?_, ?_, h.max_eq⟩
    · simp only [tokensSize_append, h.size_eq]
      cases token with
      | argument bytes => exact absurd rfl (htoken bytes)
      | nil => simp only [Token.size, if_true]; omega
      | _ => simp [Token.size]; omega
    · cases token <;> simp <;> omega
    · dsimp only
      omega

theorem keeps_pushStructural (h : Accounted m r count) {token : Token}
    (htoken : (∀ bytes, token ≠ .argument bytes) ∧ token ≠ .nil) :
    Keeps m count (r.pushStructural token) := by
  unfold pushStructural
  apply keeps_bind_pushArgument h
  intro r' hr'
  apply keeps_bind_pushToken hr' htoken.1
  intro r'' hr''
  rw [if_neg htoken.2] at hr''
  exact hr''

omit [CommandParser T] in
theorem accounted_same (h : Accounted m r count) {r' : Receiver T}
    (hsize : r'.currentRequestSize = r.currentRequestSize) (htokens : r'.request.tokens = r.request.tokens)
    (hmax : r'.maxRequestSize = r.maxRequestSize) : Accounted m r' count :=
  keeps_same h r' hsize htokens hmax

theorem bracketToken_structural {ch : UInt8} {token : Token} (h : bracketToken ch = some token) :
    (∀ bytes, token ≠ .argument bytes) ∧ token ≠ .nil := by
  unfold bracketToken at h
  split at h <;> cases h <;> exact ⟨fun _ => nofun, nofun⟩

/-! Each state keeps the accounting. The leaves of each case split either move the state or the
buffer, push through the lemmas above, or reset. -/

omit [CommandParser T] in
theorem keeps_parseStart (h : Accounted m r count) (ch : UInt8) : Keeps m count (r.parseStart ch) := by
  unfold parseStart
  split_ifs
  · exact keeps_same h r rfl rfl rfl
  · exact keeps_same h _ rfl rfl rfl

theorem keeps_parseTag (h : Accounted m r count) (ch : UInt8) : Keeps m count (r.parseTag ch) := by
  unfold parseTag
  split_ifs
  · exact keeps_same h r rfl rfl rfl
  · split
    · exact keeps_same h _ rfl rfl rfl
    · exact keeps_errorReset h count _
  · exact keeps_same h r rfl rfl rfl
  · exact keeps_errorReset h count _
  · split
    · exact keeps_same h _ rfl rfl rfl
    · exact keeps_errorReset h count _

theorem keeps_commandName (h : Accounted m r count) (isUid : Bool) (ch : UInt8) :
    Keeps m count (r.commandName isUid ch) := by
  unfold commandName
  split_ifs with huid hline
  · exact keeps_same h _ rfl rfl rfl
  · -- the command is read and arguments follow; the tokens do not change
    split
    · exact keeps_errorReset h count _
    · exact keeps_same h _ rfl rfl rfl
  · -- the command is read at the line end, which returns the request
    split
    · exact keeps_errorReset h count _
    · exact keeps_complete (accounted_same h rfl rfl rfl)

theorem keeps_parseCommand (h : Accounted m r count) (isUid : Bool) (ch : UInt8) :
    Keeps m count (r.parseCommand isUid ch) := by
  unfold parseCommand
  split_ifs
  · split
    · exact keeps_same h _ rfl rfl rfl
    · exact keeps_errorReset h count _
  · exact keeps_same h r rfl rfl rfl
  · exact keeps_commandName h isUid ch
  · exact keeps_errorReset h count _

theorem keeps_atomByte (h : Accounted m r count) (ch : UInt8) : Keeps m count (r.atomByte ch) := by
  unfold atomByte
  split_ifs
  · exact keeps_bind_pushArgument h fun r' hr' => keeps_complete hr'
  · exact keeps_bind_pushArgument h fun r' hr' => keeps_same hr' _ rfl rfl rfl
  · split
    · exact keeps_same h _ rfl rfl rfl
    · exact keeps_errorReset h count _

theorem keeps_parseArgument (h : Accounted m r count) (lastCh ch : UInt8) :
    Keeps m count (r.parseArgument lastCh ch) := by
  unfold parseArgument
  split_ifs with hquote hbrace hopen hclose
  · exact keeps_bind_pushArgument h fun r' hr' => keeps_same hr' _ rfl rfl rfl
  · -- a literal: the argument before it is pushed
    exact keeps_bind_pushArgument h fun r' hr' => keeps_same hr' _ rfl rfl rfl
  · -- a literal after a lone `~`, which is dropped
    exact keeps_same h _ rfl rfl rfl
  · exact keeps_pushStructural h (by exact ⟨fun _ => nofun, nofun⟩)
  · exact keeps_pushStructural h (by exact ⟨fun _ => nofun, nofun⟩)
  · split
    · next token hbracket _ => exact keeps_pushStructural h (bracketToken_structural hbracket)
    · exact keeps_atomByte h ch

theorem keeps_pushQuoted (h : Accounted m r count) (buf : List UInt8) (ch : UInt8) :
    Keeps m count (r.pushQuoted buf ch) := by
  unfold pushQuoted
  split
  · exact keeps_same h _ rfl rfl rfl
  · exact keeps_errorReset h count _

theorem keeps_parseQuoted (h : Accounted m r count) (escaped : Bool) (ch : UInt8) :
    Keeps m count (r.parseQuoted escaped ch) := by
  unfold parseQuoted
  split_ifs
  · exact keeps_bind_pushArgument h fun r' hr' => keeps_same hr' _ rfl rfl rfl
  · exact keeps_pushQuoted h _ ch
  · exact keeps_pushQuoted h _ ch
  · exact keeps_same h _ rfl rfl rfl
  · exact keeps_errorReset h count _
  · exact keeps_pushQuoted h _ ch
  · exact keeps_pushQuoted h _ ch

theorem keeps_parseLiteral (h : Accounted m r count) (nonSync : Bool) (ch : UInt8) :
    Keeps m count (r.parseLiteral nonSync ch) := by
  unfold parseLiteral
  split_ifs
  · exact keeps_errorReset h count _
  · split
    · exact keeps_errorReset h count _
    · split_ifs
      · exact keeps_errorReset h count _
      · exact keeps_same h _ rfl rfl rfl
  · exact keeps_errorReset h count _
  · exact keeps_same h _ rfl rfl rfl
  · split
    · exact keeps_same h _ rfl rfl rfl
    · exact keeps_errorReset h count _
  · exact keeps_errorReset h count _
  · exact keeps_errorReset h count _

/-- The literal `Nil` tokens after a byte, before a reset: the line feed of an empty literal's
header adds one. -/
def bump (r : Receiver T) (ch : UInt8) (count : Nat) : Nat :=
  match r.state with
  | .literalSeek size _ => if size = 0 ∧ ch = 10 then count + 1 else count
  | _ => count

omit [CommandParser T] in
theorem le_bump (r : Receiver T) (ch : UInt8) (count : Nat) : count ≤ bump r ch count := by
  unfold bump
  split
  · split_ifs <;> omega
  · exact Nat.le_refl _

omit [CommandParser T] in
theorem keeps_literalHeaderEnd {r' : Receiver T} {count' : Nat} (h : Accounted m r' count')
    (size : UInt32) (nonSync : Bool) : Keeps m count' (literalHeaderEnd r' size nonSync) := by
  unfold literalHeaderEnd
  cases nonSync
  · exact h
  · exact h

theorem keeps_parseLiteralSeek (h : Accounted m r count) (size : UInt32) (nonSync : Bool)
    (ch : UInt8) :
    Keeps m (if size = 0 ∧ ch = 10 then count + 1 else count) (r.parseLiteralSeek size nonSync ch) := by
  unfold parseLiteralSeek
  by_cases hline : ch = 10
  · -- the end of the header: the data starts, or an empty literal pushes its `Nil`
    rw [if_pos hline]
    by_cases hsize : size > 0
    · have hne : ¬ (size = 0 ∧ ch = 10) := fun hz => by
        rw [hz.1] at hsize
        exact absurd hsize (by decide)
      rw [if_pos hsize, if_neg hne]
      have hdata : Accounted m ({ r with state := .literalData size } : Receiver T) count :=
        accounted_same h rfl rfl rfl
      exact keeps_literalHeaderEnd hdata size nonSync
    · have hzero : size = 0 ∧ ch = 10 := ⟨by simpa using hsize, hline⟩
      rw [if_neg hsize, if_pos hzero]
      have hseek : Accounted m ({ r with state := .argument 32 } : Receiver T) count :=
        accounted_same h rfl rfl rfl
      apply keeps_bind_pushToken hseek (by exact fun _ => nofun)
      intro r' hr'
      rw [if_pos rfl] at hr'
      exact keeps_literalHeaderEnd hr' size nonSync
  · rw [if_neg hline]
    have hne : ¬ (size = 0 ∧ ch = 10) := fun hz => hline hz.2
    rw [if_neg hne]
    split_ifs
    · exact keeps_errorReset h count _
    · exact keeps_same h r rfl rfl rfl

theorem keeps_parseLiteralData (h : Accounted m r count) (remaining : UInt32) (ch : UInt8) :
    Keeps m count (r.parseLiteralData remaining ch) := by
  have hdata : Accounted m ({ r with buf := r.buf ++ [ch] } : Receiver T) count :=
    accounted_same h rfl rfl rfl
  unfold parseLiteralData
  dsimp only
  split_ifs
  · exact keeps_same h _ rfl rfl rfl
  · exact keeps_bind_pushArgument hdata fun r' hr' => keeps_same hr' _ rfl rfl rfl

/-- **One byte keeps the accounting.** -/
theorem keeps_parseByte (h : Accounted m r count) (ch : UInt8) :
    Keeps m (bump r ch count) (r.parseByte ch) := by
  unfold parseByte bump
  -- one case per state; only an empty literal's line end changes the count
  rcases hstate : r.state with _ | _ | isUid | lastCh | escaped | nonSync | ⟨size, nonSync⟩ |
    remaining
  · exact keeps_parseStart h ch
  · exact keeps_parseTag h ch
  · exact keeps_parseCommand h _ ch
  · exact keeps_parseArgument h _ ch
  · exact keeps_parseQuoted h _ ch
  · exact keeps_parseLiteral h _ ch
  · exact keeps_parseLiteralSeek h _ _ ch
  · exact keeps_parseLiteralData h _ ch

/-- The runs of a receiver from its start: any byte after any byte. The index counts the literal
`Nil` tokens of the pending request: the line feed of an empty literal's header adds one, and a
byte that returns a request or fails starts the count over. -/
inductive Reachable (m : Nat) (startState : State) : Receiver T → Nat → Prop
  | fresh : Reachable m startState (fresh m startState) 0
  | step {r : Receiver T} {count : Nat} (ch : UInt8) : Reachable m startState r count →
      Reachable m startState (after (r.parseByte ch)) (settle (bump r ch count) (r.parseByte ch))

/-- **The accounting holds along every run.** -/
theorem Reachable.accounted {startState : State} (hr : Reachable m startState r count) :
    Accounted m r count := by
  induction hr with
  | fresh => exact Starts.accounted ⟨rfl, rfl, rfl⟩
  | step ch _ ih => exact (keeps_parseByte ih ch).accounted

/-- The receiver and its count of literal `Nil`s after bytes fed one at a time, as `Reachable`
steps. -/
def runCounted : Receiver T × Nat → List UInt8 → Receiver T × Nat
  | state, [] => state
  | (r, count), ch :: rest =>
    runCounted (after (r.parseByte ch), settle (bump r ch count) (r.parseByte ch)) rest

/-- Every run of bytes from a reachable receiver reaches a receiver. -/
theorem Reachable.runCounted {startState : State} (hr : Reachable m startState r count)
    (bytes : List UInt8) :
    Reachable m startState (Receiver.runCounted (r, count) bytes).1
      (Receiver.runCounted (r, count) bytes).2 := by
  induction bytes generalizing r count with
  | nil => exact hr
  | cons ch rest ih => exact ih (hr.step ch)

/-! ## Calls and frames -/

/-- Feeding two parts in turn is feeding their concatenation. -/
theorem feed_append (r : Receiver T) (first second : List UInt8) :
    r.feed (first ++ second) =
      (((r.feed first).1.feed second).1, (r.feed first).2 ++ ((r.feed first).1.feed second).2) := by
  induction first generalizing r with
  | nil => rfl
  | cons ch rest ih =>
    simp only [List.cons_append, feed, ih, List.append_assoc]

/-- No byte returns `NeedsMoreData`. -/
theorem parseByte_ne_needsMoreData (h : Accounted m r count) (r' : Receiver T) (ch : UInt8) :
    r.parseByte ch ≠ .error (r', .needsMoreData) := by
  intro hbyte
  have hkeeps := keeps_parseByte h ch
  rw [hbyte] at hkeeps
  exact hkeeps

/-- A call leaves a receiver with its accounting. -/
theorem parse_accounted (h : Accounted m r count) (bytes : List UInt8) :
    ∃ count', Accounted m (r.parse bytes).1 count' := by
  induction bytes generalizing r count with
  | nil => exact ⟨count, h⟩
  | cons ch rest ih =>
    have hnext := (keeps_parseByte h ch).accounted
    unfold parse
    rcases hbyte : r.parseByte ch with ⟨r', e⟩ | ⟨r', _ | request⟩ <;> rw [hbyte] at hnext
    · exact ⟨_, hnext⟩
    · exact ih hnext
    · exact ⟨_, hnext⟩

/-- **A call returns the first return of the bytes**, with the bytes after it; when none returns it
consumes the frame and answers `NeedsMoreData`. -/
theorem parse_spec (h : Accounted m r count) (bytes : List UInt8) :
    ((r.parse bytes).2 = (.error .needsMoreData, []) ∧ r.feed bytes = ((r.parse bytes).1, [])) ∨
      ((r.parse bytes).2.1 ≠ .error .needsMoreData ∧ (r.parse bytes).2.2.length < bytes.length ∧
        r.feed bytes = (((r.parse bytes).1.feed (r.parse bytes).2.2).1,
          (r.parse bytes).2.1 :: ((r.parse bytes).1.feed (r.parse bytes).2.2).2)) := by
  induction bytes generalizing r count with
  | nil => exact .inl ⟨rfl, rfl⟩
  | cons ch rest ih =>
    have hnext := (keeps_parseByte h ch).accounted
    unfold parse
    rcases hbyte : r.parseByte ch with ⟨r', e⟩ | ⟨r', _ | request⟩
    · -- an error returns at once
      refine .inr ⟨?_, Nat.lt_succ_self _, ?_⟩
      · intro he
        cases he
        exact parseByte_ne_needsMoreData h r' ch hbyte
      · simp [feed, hbyte, after, returned]
    · -- the byte goes on: the rest of the frame decides
      have hafter : after (r.parseByte ch) = r' := by rw [hbyte]; rfl
      have hnone : returned (r.parseByte ch) = none := by rw [hbyte]; rfl
      rw [hbyte] at hnext
      have hr' : Accounted m r' (r.bump ch count) := hnext
      rcases ih hr' with ⟨hmore, hfeed⟩ | ⟨hret, hlen, hfeed⟩
      · exact .inl ⟨hmore, by simp [feed, hafter, hnone, hfeed]⟩
      · exact .inr ⟨hret, Nat.lt_succ_of_lt hlen, by simp [feed, hafter, hnone, hfeed]⟩
    · -- a request returns at once
      refine .inr ⟨nofun, Nat.lt_succ_self _, ?_⟩
      simp [feed, hbyte, after, returned]

/-- A client of the receiver, as the session loop drives it: frames in turn, each call going on with
the rest of its frame after a return, and with the next frame after `NeedsMoreData`. It collects
the returns other than `NeedsMoreData`. -/
inductive Client : Receiver T → List (List UInt8) → Receiver T → List (Except Error (Request T)) →
    Prop
  | done (r : Receiver T) : Client r [] r []
  | more {r r' r'' : Receiver T} {frame : List UInt8} {frames : List (List UInt8)}
      {results : List (Except Error (Request T))} :
      r.parse frame = (r', .error .needsMoreData, []) → Client r' frames r'' results →
      Client r (frame :: frames) r'' results
  | returned {r r' r'' : Receiver T} {frame rest : List UInt8} {frames : List (List UInt8)}
      {result : Except Error (Request T)} {results : List (Except Error (Request T))} :
      r.parse frame = (r', result, rest) → result ≠ .error .needsMoreData →
      Client r' (rest :: frames) r'' results → Client r (frame :: frames) r'' (result :: results)

/-- A client's run is the receiver fed the frames' concatenation. -/
theorem Client.feed {r r' : Receiver T} {frames : List (List UInt8)}
    {results : List (Except Error (Request T))} (hclient : Client r frames r' results)
    (h : Accounted m r count) :
    r.feed frames.flatten = (r', results) := by
  induction hclient generalizing count with
  | done r => rfl
  | @more r r₁ r₂ frame frames results hparse _ ih =>
    obtain ⟨count', h'⟩ := parse_accounted h frame
    rw [hparse] at h'
    rcases parse_spec h frame with ⟨_, hfeed⟩ | ⟨hret, _, _⟩
    · rw [List.flatten_cons, feed_append, hfeed, hparse]
      simp only [List.nil_append, ih h']
    · rw [hparse] at hret
      exact absurd rfl hret
  | @returned r r₁ r₂ frame rest frames result results hparse hresult _ ih =>
    obtain ⟨count', h'⟩ := parse_accounted h frame
    rw [hparse] at h'
    rcases parse_spec h frame with ⟨hmore, _⟩ | ⟨_, _, hfeed⟩
    · rw [hparse] at hmore
      simp only [Prod.mk.injEq] at hmore
      exact absurd hmore.1 hresult
    · have hrest := ih h'
      rw [List.flatten_cons, feed_append] at hrest
      rw [List.flatten_cons, feed_append, hfeed, hparse]
      simp only [Prod.mk.injEq] at hrest ⊢
      exact ⟨hrest.1, by rw [List.cons_append, hrest.2]⟩

/-- Every split of bytes into frames has a client run, the one of the bytes fed in turn. -/
theorem client_of_feed {r : Receiver T} {count : Nat} (h : Accounted m r count)
    (frames : List (List UInt8)) :
    Client r frames (r.feed frames.flatten).1 (r.feed frames.flatten).2 := by
  match frames with
  | [] => exact .done r
  | frame :: frames =>
    obtain ⟨count', h'⟩ := parse_accounted h frame
    rcases parse_spec h frame with ⟨hmore, hfeed⟩ | ⟨hret, hlen, hfeed⟩
    · have hparse : r.parse frame = ((r.parse frame).1, .error .needsMoreData, []) := by
        rw [← hmore]
      have hrest := client_of_feed h' frames
      rw [List.flatten_cons, feed_append, hfeed]
      exact .more hparse hrest
    · have hrest := client_of_feed h' ((r.parse frame).2.2 :: frames)
      rw [List.flatten_cons, feed_append, hfeed]
      rw [List.flatten_cons, feed_append] at hrest
      exact .returned rfl hret hrest
termination_by (frames.flatten.length + frames.length)
decreasing_by
  · simp only [List.flatten_cons, List.length_append, List.length_cons]
    omega
  · simp only [List.flatten_cons, List.length_append, List.length_cons]
    omega

/-! ## Line ends -/

/-- A literal whose size does not fit in the rest of the request fails at its closing brace, and the
receiver starts over with an empty buffer: no byte of the literal is buffered. -/
theorem parseLiteral_too_large {nonSync : Bool} {size : UInt32} (hsize : parseU32 r.buf = some size)
    (hlarge : r.currentRequestSize + size.toNat > r.maxRequestSize) :
    ∃ message, r.parseLiteral nonSync 125 = .error (r.errorReset message) := by
  have hbuf : r.buf ≠ [] := by
    rintro hempty
    rw [hempty] at hsize
    exact absurd hsize (by simp [parseU32])
  unfold parseLiteral
  rw [if_pos rfl, if_neg hbuf]
  simp only [hsize, hlarge, if_true]
  exact ⟨_, rfl⟩

theorem request_size_bounded {startState : State} (hr : Reachable m startState r count)
    (ch : UInt8) :
    r.currentRequestSize = tokensSize r.request.tokens + count ∧
      count ≤ r.request.tokens.count .nil ∧ r.currentRequestSize ≤ m ∧
      (∀ r' request, r.parseByte ch = .ok (r', some request) →
        tokensSize request.tokens + count ≤ m) ∧
      (∀ nonSync size, r.state = .literal nonSync → ch = 125 → parseU32 r.buf = some size →
        r.currentRequestSize + size.toNat > m →
        ∃ message, r.parseByte ch = .error (r.errorReset message)) := by
  have hacc := hr.accounted
  refine ⟨hacc.size_eq, hacc.literalNils_le, hacc.size_le, ?_, ?_⟩
  · intro r' request hreturn
    have hkeeps := keeps_parseByte hacc ch
    rw [hreturn] at hkeeps
    exact Nat.le_trans (Nat.add_le_add_left (le_bump r ch count) _) hkeeps.2
  · intro nonSync size hstate hbrace hsize hlarge
    rw [← hacc.max_eq] at hlarge
    unfold parseByte
    rw [hstate, hbrace]
    exact parseLiteral_too_large hsize hlarge

end Receiver

/-! ## The IMAP commands -/

/-- `imap_proto::Command`; the commands of the `UID` form carry whether they had it. -/
inductive Command where
  | capability | noop | logout | startTls | authenticate | login | enable | select | examine
  | create | delete | rename | subscribe | unsubscribe | list | «namespace» | status | append | idle
  | close | unselect
  | expunge (isUid : Bool) | search (isUid : Bool) | fetch (isUid : Bool) | store (isUid : Bool)
  | copy (isUid : Bool) | move (isUid : Bool)
  | lsub | check
  | sort (isUid : Bool) | thread (isUid : Bool)
  | setAcl | deleteAcl | getAcl | listRights | myRights | unauthenticate | id | getQuota
  | getQuotaRoot
  deriving DecidableEq, Repr

/-- The table of `impl CommandParser for Command`. -/
def Command.names : List (String × (Bool → Command)) :=
  [("CAPABILITY", fun _ => .capability), ("NOOP", fun _ => .noop), ("LOGOUT", fun _ => .logout),
    ("STARTTLS", fun _ => .startTls), ("AUTHENTICATE", fun _ => .authenticate),
    ("LOGIN", fun _ => .login), ("ENABLE", fun _ => .enable), ("SELECT", fun _ => .select),
    ("EXAMINE", fun _ => .examine), ("CREATE", fun _ => .create), ("DELETE", fun _ => .delete),
    ("RENAME", fun _ => .rename), ("SUBSCRIBE", fun _ => .subscribe),
    ("UNSUBSCRIBE", fun _ => .unsubscribe), ("LIST", fun _ => .list),
    ("NAMESPACE", fun _ => .«namespace»), ("STATUS", fun _ => .status),
    ("APPEND", fun _ => .append), ("IDLE", fun _ => .idle), ("CLOSE", fun _ => .close),
    ("UNSELECT", fun _ => .unselect), ("EXPUNGE", .expunge), ("SEARCH", .search),
    ("FETCH", .fetch), ("STORE", .store), ("COPY", .copy), ("MOVE", .move), ("SORT", .sort),
    ("THREAD", .thread), ("LSUB", fun _ => .lsub), ("CHECK", fun _ => .check),
    ("SETACL", fun _ => .setAcl), ("DELETEACL", fun _ => .deleteAcl),
    ("GETACL", fun _ => .getAcl), ("LISTRIGHTS", fun _ => .listRights),
    ("MYRIGHTS", fun _ => .myRights), ("UNAUTHENTICATE", fun _ => .unauthenticate),
    ("ID", fun _ => .id), ("GETQUOTA", fun _ => .getQuota),
    ("GETQUOTAROOT", fun _ => .getQuotaRoot)]

/-- `impl CommandParser for Command`: the name exactly as the table has it; only `FETCH` tokenizes
brackets. The default command is `NOOP`. -/
instance : CommandParser Command where
  default := .noop
  parse value isUid := (Command.names.find? (fun entry => ascii entry.1 = value)).map (·.2 isUid)
  tokenizeBrackets
    | .fetch _ => true
    | _ => false

open Receiver in
theorem newline_carries_tag :
    (feed (fresh (25 * 1024 * 1024) .start : Receiver Command) (ascii "A1 \r\n")).2 = [] ∧
      (feed (fresh (25 * 1024 * 1024) .start : Receiver Command) (ascii "A1 \r\nNOOP\r\n")).2 =
        [.ok ⟨"A1", .noop, []⟩] ∧
      (feed (fresh (25 * 1024 * 1024) .start : Receiver Command)
          (ascii "A1 UID\r\nFETCH 1 FLAGS\r\n")).2 =
        [.ok ⟨"A1", .fetch true, [.argument (ascii "1"), .argument (ascii "FLAGS")]⟩] := by
  refine ⟨?_, ?_, ?_⟩ <;> decide +kernel

open Receiver in
/-- At the closing brace of `{50` in an `APPEND` to a receiver allowed 20 bytes, the literal
branch applies: the size does not fit, and the byte fails. -/
theorem request_size_bounded_literal_header :
    ∃ (r : Receiver Command) (count : Nat), Reachable 20 .start r count ∧
      r.state = .literal false ∧ parseU32 r.buf = some 50 ∧ r.currentRequestSize + 50 > 20 ∧
      (r.currentRequestSize = tokensSize r.request.tokens + count ∧
        count ≤ r.request.tokens.count .nil ∧ r.currentRequestSize ≤ 20 ∧
        (∀ r' request, r.parseByte 125 = .ok (r', some request) →
          tokensSize request.tokens + count ≤ 20) ∧
        (∀ nonSync size, r.state = .literal nonSync → (125 : UInt8) = 125 →
          parseU32 r.buf = some size → r.currentRequestSize + size.toNat > 20 →
          ∃ message, r.parseByte 125 = .error (r.errorReset message))) :=
  ⟨_, _, Reachable.fresh.runCounted (ascii "A1 APPEND X \x7b50"), by decide +kernel,
    by decide +kernel, by decide +kernel,
    request_size_bounded (Reachable.fresh.runCounted (ascii "A1 APPEND X \x7b50")) 125⟩

end Stalwart.Imap.Proto
