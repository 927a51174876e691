import Stalwart.Expr.Variable
import Stalwart.Imap.Receiver

/-!
# The tokenizer of configuration expressions (`common::expr::tokenizer`)

An expression of the configuration is read byte by byte. Letters, digits, `_`, `$` and `.` make
up a word; any other byte ends the word. `parse_buf` reads the word as an integer or a float,
`true` or `false`, a capture `$n` or a global `$name`, a function of `FUNCTIONS` or
`ASYNC_FUNCTIONS`, a name of the token map, or a duration. The byte that ended the word is an
operator, a parenthesis, a bracket, a comma, the quote of a string or a blank. `next` hands out one
token a call. When a word and an operator end together, the operator is kept for the next call.
`matches(` and `config_get(` read their string argument at once, as a regex or a setting.

`f64` is `FloatOrder`'s model, and the `regex` crate is `RegexEngine`'s. The input is the bytes of
the expression (`as_bytes`), and `{:?}` in a message is `debugString` or `debugChar`.

## What is proved

* Each token that `next` hands out leaves less to read (`next_measure_lt`). A byte of a word moves
  from the input to the word, and an operator waits at most one call. The word is emptied when it
  is read. So the parser's loop over `next` has a bound on its rounds (`Stalwart.Expr.Parser`).
-/

set_option autoImplicit false

namespace Stalwart.Expr

open Stalwart.Imap.Proto (isAsciiWhitespace fromUtf8 ascii)

/-! ## Tokens -/

/-- `BinaryOperator`. -/
inductive BinaryOperator where
  | add | subtract | multiply | divide
  | and | or | xor
  | eq | ne | lt | le | gt | ge
  deriving DecidableEq, Repr

/-- `UnaryOperator`. -/
inductive UnaryOperator where
  | not | minus
  deriving DecidableEq, Repr

/-- `Constant`, over a model `F` of `f64`. -/
inductive Constant (F : Type) where
  | integer (n : Int64)
  | float (x : F)
  | string (s : String)

/-- `Setting`: what `config_get` reads. -/
inductive Setting where
  | hostname
  | reportDomain
  | nodeId
  | other (key : String)
  deriving DecidableEq

/-- `From<CompactString> for Setting`. -/
def Setting.ofString (value : String) : Setting :=
  if value = "server.hostname" then .hostname
  else if value = "report.domain" then .reportDomain
  else if value = "cluster.node-id" then .nodeId
  else .other value

/-- `Token`, over models `F` of `f64` and `R` of a compiled regex; its `u32` fields are `Nat`. -/
inductive Token (F R : Type) where
  | variable (id : Nat)
  | global (name : String)
  | capture (index : Nat)
  | function (name : String) (id : Nat) (numArgs : Nat)
  | constant (c : Constant F)
  | setting (s : Setting)
  | regex (r : R)
  | binaryOperator (op : BinaryOperator)
  | unaryOperator (op : UnaryOperator)
  | openParen
  | closeParen
  | openBracket
  | closeBracket
  | comma

/-- What the tokenizer and the evaluator use of the `regex` crate: `Regex::new`, with the text of
its error, and `Regex::captures`, the groups of the first match (`none` for a group that took no
part), or `none` when nothing matches. -/
class RegexEngine (R : Type) where
  new : String → Except String R
  captures : R → String → Option (List (Option String))

/-! ## Tables -/

/-- The names and arities of `FUNCTIONS`. A function's id is its place in the table. -/
def functions : List (String × Nat) :=
  [("count", 1), ("sort", 2), ("dedup", 1), ("winnow", 1), ("is_intersect", 2), ("is_email", 1),
   ("email_part", 2), ("is_empty", 1), ("is_number", 1), ("is_ip_addr", 1), ("is_ipv4_addr", 1),
   ("is_ipv6_addr", 1), ("ip_reverse_name", 1), ("trim", 1), ("trim_end", 1), ("trim_start", 1),
   ("len", 1), ("to_lowercase", 1), ("to_uppercase", 1), ("is_uppercase", 1),
   ("is_lowercase", 1), ("has_digits", 1), ("count_spaces", 1), ("count_uppercase", 1),
   ("count_lowercase", 1), ("count_chars", 1), ("contains", 2), ("contains_ignore_case", 2),
   ("eq_ignore_case", 2), ("starts_with", 2), ("ends_with", 2), ("lines", 1), ("substring", 3),
   ("strip_prefix", 2), ("strip_suffix", 2), ("split", 2), ("rsplit", 2), ("split_once", 2),
   ("rsplit_once", 2), ("split_n", 3), ("split_words", 1), ("hash", 2), ("if_then", 3)]

/-- `ASYNC_FUNCTIONS`: the name, the id among the asynchronous functions, and the arity. -/
def asyncFunctions : List (String × Nat × Nat) :=
  [("is_local_domain", 0, 2), ("is_local_address", 1, 2), ("key_get", 2, 2),
   ("key_exists", 3, 2), ("key_set", 4, 3), ("counter_incr", 5, 3), ("counter_get", 6, 2),
   ("dns_query", 8, 2), ("sql_query", 7, 3)]

/-! ## Texts -/

/-- `char::is_ascii_whitespace`. -/
def isAsciiWhitespaceChar (ch : Char) : Bool :=
  ch = ' ' || ch = '\t' || ch = '\n' || ch = '\x0c' || ch = '\r'

/-- The escape `{:?}` writes for a character inside a quoted text; `quote` is the quote that
needs one. -/
def escapeDebug (quote : Char) (ch : Char) : List Char :=
  if ch = quote ∨ ch = '\\' then ['\\', ch]
  else if ch = '\n' then ['\\', 'n']
  else if ch = '\r' then ['\\', 'r']
  else if ch = '\t' then ['\\', 't']
  else [ch]

/-- `{:?}` of a `str`. -/
def debugString (s : String) : String :=
  String.ofList ('\x22' :: s.toList.flatMap (escapeDebug '\x22') ++ ['\x22'])

/-- `{:?}` of a `char`. -/
def debugChar (ch : Char) : String :=
  String.ofList ('\x27' :: escapeDebug '\x27' ch ++ ['\x27'])

/-- `char::from(u8)`. -/
def byteChar (b : UInt8) : Char :=
  Char.ofNat b.toNat

/-- `from_str` of an unsigned integer of `bits` bits, on a text of ASCII digits: at least one,
and a value in range. -/
def parseUnsigned (bits : Nat) (digits : List Char) : Option Nat :=
  if digits = [] ∨ ¬ digits.all Char.isDigit then none
  else if digitsValue digits < 2 ^ bits then some (digitsValue digits) else none

/-- `Duration::parse_value`, in milliseconds: the digits of the text, times the unit that its
other non-blank characters name (`d`, `h`, `m`, `s`, `ms` or nothing). The count must be
positive, and `num * multiplier` wraps at `2^64`. -/
def parseDuration (value : String) : Option Nat :=
  let digits := value.toList.filter Char.isDigit
  let multiplier :=
    (value.toList.filter fun ch => !ch.isDigit && !isAsciiWhitespaceChar ch).map Char.toLower
  let unit : Option Nat :=
    if multiplier = ['d'] then some (24 * 60 * 60 * 1000)
    else if multiplier = ['h'] then some (60 * 60 * 1000)
    else if multiplier = ['m'] then some (60 * 1000)
    else if multiplier = ['s'] then some 1000
    else if multiplier = ['m', 's'] ∨ multiplier = [] then some 1
    else none
  match unit, parseUnsigned 64 digits with
  | some unit, some num => if num > 0 then some (num * unit % 2 ^ 64) else none
  | _, _ => none

/-! ## The tokenizer -/

variable {F R : Type} [FloatOrder F]

/-- `Tokenizer`: the bytes left (`iter`), the word being read (`buf`), the parentheses open, the
token kept for the next call, what the word holds, whether an operand may start here
(`is_start`), and whether `}` ended the expression. -/
structure Tokenizer (F R : Type) where
  iter : List UInt8
  buf : List UInt8
  depth : Nat
  nextToken : List (Token F R)
  hasNumber : Bool
  hasDot : Bool
  hasAlpha : Bool
  isStart : Bool
  isEof : Bool

/-- `Tokenizer::new`, on the bytes of the expression. -/
def Tokenizer.new (expr : List UInt8) : Tokenizer F R :=
  { iter := expr, buf := [], depth := 0, nextToken := [], hasNumber := false, hasDot := false,
    hasAlpha := false, isStart := true, isEof := false }

/-- `Tokenizer::find_char`: past blanks, the next byte, which must be one of `chars`. -/
def findChar (chars : List UInt8) : List UInt8 → Except String (UInt8 × List UInt8)
  | [] => .error "Unexpected end of expression"
  | ch :: rest =>
    if isAsciiWhitespace ch then findChar chars rest
    else if ch ∈ chars then .ok (ch, rest)
    else .error ("Expected " ++ debugChar (byteChar (chars.headD 0)) ++
      ", found invalid character " ++ debugChar (byteChar ch))

/-- The byte a backslash escapes in a string: `n`, `r` and `t` name control characters. -/
def escapedByte (ch : UInt8) : UInt8 :=
  if ch = 'n'.toUInt8 then 10
  else if ch = 'r'.toUInt8 then 13
  else if ch = 't'.toUInt8 then 9
  else ch

/-- The loop of `Tokenizer::parse_string` after the opening quote, with the byte before
(`last_ch`) and the bytes read. A backslash is kept, and so is the byte after it, escaped. -/
def parseStringLoop (stopCh : UInt8) (lastCh : UInt8) (buf : List UInt8) :
    List UInt8 → Except String (String × List UInt8)
  | [] => .error "Unterminated string"
  | ch :: rest =>
    -- `\` is 92
    if lastCh ≠ 92 then
      if ch ≠ stopCh then parseStringLoop stopCh ch (buf ++ [ch]) rest
      else match fromUtf8 buf with
        | some s => .ok (s, rest)
        | none => .error "Invalid UTF-8"
    else parseStringLoop stopCh ch (buf ++ [escapedByte ch]) rest

/-- `Tokenizer::parse_string`: the string up to `stop_ch`, and the bytes after it. -/
def parseString (stopCh : UInt8) (bytes : List UInt8) : Except String (String × List UInt8) :=
  parseStringLoop stopCh 0 [] bytes

/-- The words of `parse_buf` that are not numbers: `true` and `false`, a capture or a global,
a function, a name of the token map, a duration. -/
def parseWord (tokenMap : String → Option (Token F R)) (buf : String) (hasNumber hasDot : Bool) :
    Except String (Token F R) :=
  let plain := !hasNumber && !hasDot && (buf.utf8ByteSize = 4 || buf.utf8ByteSize = 5)
  if plain ∧ buf = "true" then .ok (.constant (.integer 1))
  else if plain ∧ buf = "false" then .ok (.constant (.integer 0))
  else match buf.toList with
    | '$' :: name@(_ :: _) =>
      if name.all Char.isDigit then
        match parseUnsigned 32 name with
        | some index => .ok (.capture index)
        | none => .ok (.global (String.ofList name))
      else .ok (.global (String.ofList name))
    | _ =>
      match functions.zipIdx.find? (·.1.1 = buf) with
      | some ((name, numArgs), id) => .ok (.function name id numArgs)
      | none =>
        match asyncFunctions.find? (·.1 = buf) with
        | some (name, id, numArgs) => .ok (.function name (id + functions.length) numArgs)
        | none =>
          match tokenMap buf with
          | some token => .ok token
          | none =>
            match parseDuration buf with
            | some millis => .ok (.constant (.integer (Int64.ofNat millis)))
            | none => .error ("Invalid variable or constant " ++ debugString buf)

/-- `Tokenizer::parse_buf`: the word read as a token, and the word emptied. -/
def Tokenizer.parseBuf (tokenMap : String → Option (Token F R)) (t : Tokenizer F R) :
    Except String (Token F R × Tokenizer F R) :=
  let buf := (fromUtf8 t.buf).getD ""
  if t.hasNumber && !t.hasAlpha then
    if t.hasDot then
      match FloatOrder.parse buf with
      | some f =>
        .ok (.constant (.float f), { t with buf := [], hasNumber := false, hasDot := false })
      | none => .error ("Invalid float value " ++ buf)
    else
      match parseI64 buf with
      | some i => .ok (.constant (.integer i), { t with buf := [], hasNumber := false })
      | none => .error ("Invalid integer value " ++ buf)
  else
    (parseWord tokenMap buf t.hasNumber t.hasDot).map fun token =>
      (token, { t with buf := [], hasAlpha := false, hasNumber := false, hasDot := false })

/-- What `next` does when the bytes run out or `}` ends them: an open parenthesis is an error,
and the word left is the last token. -/
def Tokenizer.finish (tokenMap : String → Option (Token F R)) (t : Tokenizer F R) :
    Except String (Option (Token F R) × Tokenizer F R) :=
  if t.depth > 0 then .error "Unmatched open parenthesis"
  else if !t.buf.isEmpty then (t.parseBuf tokenMap).map fun (token, t) => (some token, t)
  else .ok (none, t)

/-- The token of a byte that ends a word, and the bytes left after what it reads (the second
byte of `&&`, `||`, `!=`, `>=` and `<=`, any byte after `=`, a string). -/
def Tokenizer.operator (t : Tokenizer F R) (ch : UInt8) (rest : List UInt8) :
    Except String (Token F R × Tokenizer F R × List UInt8) :=
  if ch = '&'.toUInt8 then
    .ok (.binaryOperator .and, t, if rest.head? = some '&'.toUInt8 then rest.tail else rest)
  else if ch = '|'.toUInt8 then
    .ok (.binaryOperator .or, t, if rest.head? = some '|'.toUInt8 then rest.tail else rest)
  else if ch = '!'.toUInt8 then
    if rest.head? = some '='.toUInt8 then .ok (.binaryOperator .ne, t, rest.tail)
    else .ok (.unaryOperator .not, t, rest)
  else if ch = '^'.toUInt8 then .ok (.binaryOperator .xor, t, rest)
  else if ch = '('.toUInt8 then .ok (.openParen, { t with depth := t.depth + 1 }, rest)
  else if ch = ')'.toUInt8 then
    if t.depth = 0 then .error "Unmatched close parenthesis"
    else .ok (.closeParen, { t with depth := t.depth - 1 }, rest)
  else if ch = '+'.toUInt8 then .ok (.binaryOperator .add, t, rest)
  else if ch = '*'.toUInt8 then .ok (.binaryOperator .multiply, t, rest)
  else if ch = '/'.toUInt8 then .ok (.binaryOperator .divide, t, rest)
  else if ch = '-'.toUInt8 then
    .ok (if t.isStart then .unaryOperator .minus else .binaryOperator .subtract, t, rest)
  else if ch = '='.toUInt8 then
    -- the byte after `=` is read whatever it is
    match rest with
    | next :: rest =>
      .ok (.binaryOperator (if next = '>'.toUInt8 then .ge else if next = '<'.toUInt8 then .le
        else .eq), t, rest)
    | [] => .ok (.binaryOperator .eq, t, [])
  else if ch = '>'.toUInt8 then
    if rest.head? = some '='.toUInt8 then .ok (.binaryOperator .ge, t, rest.tail)
    else .ok (.binaryOperator .gt, t, rest)
  else if ch = '<'.toUInt8 then
    if rest.head? = some '='.toUInt8 then .ok (.binaryOperator .le, t, rest.tail)
    else .ok (.binaryOperator .lt, t, rest)
  else if ch = ','.toUInt8 then .ok (.comma, t, rest)
  else if ch = '['.toUInt8 then .ok (.openBracket, t, rest)
  else if ch = ']'.toUInt8 then .ok (.closeBracket, t, rest)
  -- `"` is 34 and `'` is 39
  else if ch = 34 ∨ ch = 39 then
    (parseString ch rest).map fun (s, rest) => (.constant (.string s), t, rest)
  else .error ("Invalid character " ++ debugChar (byteChar ch))

/-! ## Each token leaves less to read -/

/-- What is left for `next` to hand out when `bytes` are left to read: each byte counts twice (it
may end a word and make a token of its own), then the kept token, the word, and the `}` not yet
met. -/
def Tokenizer.weight (t : Tokenizer F R) (bytes : List UInt8) : Nat :=
  2 * bytes.length + t.nextToken.length + t.buf.length + (if t.isEof then 0 else 1)

/-- `weight` of the bytes the tokenizer has left. -/
def Tokenizer.measure (t : Tokenizer F R) : Nat :=
  t.weight t.iter

theorem findChar_length {chars bytes rest : List UInt8} {ch : UInt8}
    (h : findChar chars bytes = .ok (ch, rest)) : rest.length < bytes.length := by
  induction bytes with
  | nil => simp [findChar] at h
  | cons b bytes ih =>
    simp only [findChar] at h
    split_ifs at h with hblank hmem
    · exact Nat.lt_succ_of_lt (ih h)
    · cases h
      exact Nat.lt_succ_self _

theorem parseStringLoop_length {stopCh lastCh : UInt8} {buf bytes rest : List UInt8} {s : String}
    (h : parseStringLoop stopCh lastCh buf bytes = .ok (s, rest)) : rest.length < bytes.length := by
  induction bytes generalizing lastCh buf with
  | nil => simp [parseStringLoop] at h
  | cons b bytes ih =>
    simp only [parseStringLoop] at h
    split_ifs at h with hescape hstop
    · exact Nat.lt_succ_of_lt (ih h)
    · -- the closing quote
      split at h
      · cases h
        exact Nat.lt_succ_self _
      · cases h
    · exact Nat.lt_succ_of_lt (ih h)

theorem parseString_length {stopCh : UInt8} {bytes rest : List UInt8} {s : String}
    (h : parseString stopCh bytes = .ok (s, rest)) : rest.length < bytes.length :=
  parseStringLoop_length h

/-- `parse_buf` empties the word and keeps what `weight` counts besides. -/
theorem Tokenizer.parseBuf_frame {tokenMap : String → Option (Token F R)} {t t' : Tokenizer F R}
    {token : Token F R} (h : t.parseBuf tokenMap = .ok (token, t')) :
    t'.buf = [] ∧ t'.iter = t.iter ∧ t'.nextToken = t.nextToken ∧ t'.isEof = t.isEof := by
  simp only [Tokenizer.parseBuf] at h
  split_ifs at h
  · split at h
    · cases h
      exact ⟨rfl, rfl, rfl, rfl⟩
    · cases h
  · split at h
    · cases h
      exact ⟨rfl, rfl, rfl, rfl⟩
    · cases h
  · obtain ⟨_, _, h⟩ := Except.map_eq_ok_iff.mp h
    cases h
    exact ⟨rfl, rfl, rfl, rfl⟩

theorem Tokenizer.finish_lt {tokenMap : String → Option (Token F R)} {t t' : Tokenizer F R}
    {token : Token F R} (h : t.finish tokenMap = .ok (some token, t')) :
    t'.measure < t.measure := by
  simp only [Tokenizer.finish] at h
  split_ifs at h with hdepth hbuf
  · obtain ⟨⟨_, t''⟩, hparse, hres⟩ := Except.map_eq_ok_iff.mp h
    cases hres
    obtain ⟨hempty, hiter, hnext, heof⟩ := Tokenizer.parseBuf_frame hparse
    have hpos : 0 < t.buf.length := by
      cases hb : t.buf with
      | nil => simp [hb] at hbuf
      | cons _ _ => simp
    simp only [Tokenizer.measure, Tokenizer.weight, hempty, hiter, hnext, heof, List.length_nil]
    omega
  · cases h

omit [FloatOrder F] in
/-- The bytes `operator` reads past the byte it stands for, and what it keeps. -/
theorem Tokenizer.operator_frame {t t' : Tokenizer F R} {ch : UInt8} {rest rest' : List UInt8}
    {token : Token F R} (h : t.operator ch rest = .ok (token, t', rest')) :
    rest'.length ≤ rest.length ∧ t'.buf = t.buf ∧ t'.nextToken = t.nextToken ∧
      t'.isEof = t.isEof := by
  revert h
  fun_cases Tokenizer.operator t ch rest
  all_goals intro h
  -- every arm but the string's keeps the tokenizer and reads at most one more byte
  all_goals first
    | (cases h; done)
    | (cases h; exact ⟨by simp, rfl, rfl, rfl⟩)
    | (cases h; exact ⟨by split_ifs <;> simp, rfl, rfl, rfl⟩)
    | (obtain ⟨⟨s, rest''⟩, hs, hres⟩ := Except.map_eq_ok_iff.mp h
       cases hres
       exact ⟨Nat.le_of_lt (parseString_length hs), rfl, rfl, rfl⟩)

variable [RegexEngine R]

/-- The token before the byte `ch` that ends a word, if there is a word, and the byte to read
as an operator. After `matches` and `config_get` that byte is `(`, and their string argument
(with the comma after a regex) is read here. -/
def Tokenizer.word (tokenMap : String → Option (Token F R)) (t : Tokenizer F R) (ch : UInt8)
    (rest : List UInt8) :
    Except String (Option (Token F R) × UInt8 × Tokenizer F R × List UInt8) :=
  if ch = '('.toUInt8 ∧ t.buf = ascii "matches" then do
    let (stopCh, rest) ← findChar [34, 39] rest
    let (regexStr, rest) ← parseString stopCh rest
    let regex ← Except.mapError
      (fun e => "Invalid regular expression " ++ debugString regexStr ++ ": " ++ e)
      (RegexEngine.new regexStr : Except String R)
    let (_, rest) ← findChar [','.toUInt8] rest
    pure (some (.regex regex), '('.toUInt8, { t with hasAlpha := false, buf := [] }, rest)
  else if ch = '('.toUInt8 ∧ t.buf = ascii "config_get" then do
    let (stopCh, rest) ← findChar [34, 39] rest
    let (settingStr, rest) ← parseString stopCh rest
    pure (some (.setting (Setting.ofString settingStr)), '('.toUInt8,
      { t with hasAlpha := false, buf := [] }, rest)
  else if !t.buf.isEmpty then do
    let (token, t) ← { t with isStart := false }.parseBuf tokenMap
    pure (some token, ch, t, rest)
  else pure (none, ch, t, rest)

/-- Whether an operand may start after a token: after `(`, `,` and a binary operator. -/
def Token.startsOperand : Token F R → Bool
  | .openParen | .comma | .binaryOperator _ => true
  | _ => false

/-- The arm of `next` for a byte that ends a word: the word's token, then the byte's own token,
which waits for the next call when there was a word. A blank after no word reads on (`none`). -/
def Tokenizer.delimit (tokenMap : String → Option (Token F R)) (t : Tokenizer F R) (ch : UInt8)
    (rest : List UInt8) : Option (Except String (Option (Token F R) × Tokenizer F R)) :=
  match t.word tokenMap ch rest with
  | .error e => some (.error e)
  | .ok (prevToken, ch, t, rest) =>
    if ch = ' '.toUInt8 ∨ ch = 13 ∨ ch = 10 then
      prevToken.map fun token => .ok (some token, { t with iter := rest })
    else some (match t.operator ch rest with
      | .error e => .error e
      | .ok (token, t, rest) =>
        let t := { t with isStart := token.startsOperand, iter := rest }
        match prevToken with
        | some prev => .ok (some prev, { t with nextToken := t.nextToken ++ [token] })
        | none => .ok (some token, t))

/-- The bytes `next` adds to the word past letters, digits, `_`, `$` and `.`: `-` after `[`,
`:` in a word with a dot, `]` in a word with `[`, and `*` after `[` or a dot. -/
def Tokenizer.extendsWord (t : Tokenizer F R) (ch : UInt8) : Prop :=
  ch = '-'.toUInt8 ∧ t.buf.getLast? = some '['.toUInt8 ∨
    ch = ':'.toUInt8 ∧ '.'.toUInt8 ∈ t.buf ∨
    ch = ']'.toUInt8 ∧ '['.toUInt8 ∈ t.buf ∨
    ch = '*'.toUInt8 ∧ (t.buf.getLast? = some '['.toUInt8 ∨ t.buf.getLast? = some '.'.toUInt8)

instance (t : Tokenizer F R) (ch : UInt8) : Decidable (t.extendsWord ch) := by
  unfold Tokenizer.extendsWord
  infer_instance

/-- The loop of `Tokenizer::next` over the bytes left. -/
def Tokenizer.loop (tokenMap : String → Option (Token F R)) (t : Tokenizer F R) :
    List UInt8 → Except String (Option (Token F R) × Tokenizer F R)
  | [] => { t with iter := [] }.finish tokenMap
  | ch :: rest =>
    if ('A'.toUInt8 ≤ ch ∧ ch ≤ 'Z'.toUInt8) ∨ ('a'.toUInt8 ≤ ch ∧ ch ≤ 'z'.toUInt8) ∨
        ch = '_'.toUInt8 ∨ ch = '$'.toUInt8 then
      loop tokenMap { t with buf := t.buf ++ [ch], hasAlpha := true } rest
    else if '0'.toUInt8 ≤ ch ∧ ch ≤ '9'.toUInt8 then
      loop tokenMap { t with buf := t.buf ++ [ch], hasNumber := true } rest
    else if ch = '.'.toUInt8 then
      loop tokenMap { t with buf := t.buf ++ [ch], hasDot := true } rest
    else if ch = '}'.toUInt8 then { t with isEof := true, iter := rest }.finish tokenMap
    else if t.extendsWord ch then loop tokenMap { t with buf := t.buf ++ [ch] } rest
    else match t.delimit tokenMap ch rest with
      | some result => result
      | none => loop tokenMap t rest

/-- `Tokenizer::next`: the token kept from the last call, nothing after `}`, or the next token of
the bytes left. -/
def Tokenizer.next (tokenMap : String → Option (Token F R)) (t : Tokenizer F R) :
    Except String (Option (Token F R) × Tokenizer F R) :=
  match t.nextToken.getLast? with
  | some token => .ok (some token, { t with nextToken := t.nextToken.dropLast })
  | none => if t.isEof then .ok (none, t) else t.loop tokenMap t.iter

/-- What `word` reads and keeps: the word is emptied when it makes a token, and kept when it
makes none. -/
theorem Tokenizer.word_frame {tokenMap : String → Option (Token F R)} {t t' : Tokenizer F R}
    {ch ch' : UInt8} {rest rest' : List UInt8} {prev : Option (Token F R)}
    (h : t.word tokenMap ch rest = .ok (prev, ch', t', rest')) :
    rest'.length ≤ rest.length ∧ t'.nextToken = t.nextToken ∧ t'.isEof = t.isEof ∧
      (prev = none → t'.buf = t.buf) ∧ (prev.isSome → t'.buf = []) := by
  unfold Tokenizer.word at h
  split_ifs at h with hregex hsetting hbuf
  · -- `matches(`: the regex, then the comma after it
    obtain ⟨⟨stopCh, rest₁⟩, h₁, h⟩ := Except.bind_eq_ok_iff.mp h
    obtain ⟨⟨regexStr, rest₂⟩, h₂, h⟩ := Except.bind_eq_ok_iff.mp h
    obtain ⟨regex, -, h⟩ := Except.bind_eq_ok_iff.mp h
    obtain ⟨⟨_, rest₃⟩, h₃, h⟩ := Except.bind_eq_ok_iff.mp h
    cases h
    have hlen :=
      (findChar_length h₃).trans ((parseString_length h₂).trans (findChar_length h₁))
    exact ⟨Nat.le_of_lt hlen, rfl, rfl, nofun, fun _ => rfl⟩
  · -- `config_get(`: the setting's name
    obtain ⟨⟨stopCh, rest₁⟩, h₁, h⟩ := Except.bind_eq_ok_iff.mp h
    obtain ⟨⟨settingStr, rest₂⟩, h₂, h⟩ := Except.bind_eq_ok_iff.mp h
    cases h
    have hlen := (parseString_length h₂).trans (findChar_length h₁)
    exact ⟨Nat.le_of_lt hlen, rfl, rfl, nofun, fun _ => rfl⟩
  · -- a word before an operator
    obtain ⟨⟨token, t₁⟩, h₁, h⟩ := Except.bind_eq_ok_iff.mp h
    cases h
    obtain ⟨hempty, -, hnext, heof⟩ := Tokenizer.parseBuf_frame h₁
    exact ⟨le_refl _, hnext, heof, nofun, fun _ => hempty⟩
  · cases h
    exact ⟨le_refl _, rfl, rfl, fun _ => rfl, nofun⟩

/-- A token that `delimit` hands out leaves less than the byte it read and the bytes after. -/
theorem Tokenizer.delimit_lt {tokenMap : String → Option (Token F R)} {t t' : Tokenizer F R}
    {ch : UInt8} {rest : List UInt8} {token : Token F R}
    (h : t.delimit tokenMap ch rest = some (.ok (some token, t'))) :
    t'.measure < t.weight (ch :: rest) := by
  unfold Tokenizer.delimit at h
  split at h
  · cases h
  · rename_i prev ch' t₁ rest₁ hword
    obtain ⟨hrest, hnext, heof, hnone, hsome⟩ := Tokenizer.word_frame hword
    split_ifs at h with hblank
    · -- a blank after a word: the word's token, with nothing kept
      cases prev with
      | none => cases h
      | some prev =>
        cases h
        have hempty := hsome rfl
        simp only [Tokenizer.measure, Tokenizer.weight, hnext, heof, hempty, List.length_nil,
          List.length_cons]
        omega
    · split at h
      · cases h
      · rename_i token' t₂ rest₂ hop
        obtain ⟨hrest₂, hbuf₂, hnext₂, heof₂⟩ := Tokenizer.operator_frame hop
        cases prev with
        | none =>
          -- the operator's own token
          cases h
          have hbuf := hnone rfl
          simp only [Tokenizer.measure, Tokenizer.weight, hnext₂, heof₂, hbuf₂, hnext, heof, hbuf,
            List.length_cons]
          omega
        | some prev =>
          -- the word's token, and the operator's kept for the next call
          cases h
          have hempty := hsome rfl
          simp only [Tokenizer.measure, Tokenizer.weight, List.length_append, hnext₂, heof₂,
            hbuf₂, hnext, heof, hempty, List.length_nil, List.length_cons]
          omega

/-- **The loop of `next` hands out less than it was given.** -/
theorem Tokenizer.loop_lt {tokenMap : String → Option (Token F R)} {token : Token F R} :
    ∀ {bytes : List UInt8} {t t' : Tokenizer F R},
      t.loop tokenMap bytes = .ok (some token, t') → t'.measure < t.weight bytes := by
  intro bytes
  induction bytes with
  | nil =>
    intro t t' h
    exact Tokenizer.finish_lt h
  | cons ch rest ih =>
    intro t t' h
    -- a byte added to the word is counted once there instead of twice in the input
    have hword : ∀ t₁ : Tokenizer F R, t₁.nextToken = t.nextToken → t₁.isEof = t.isEof →
        t₁.buf = t.buf ++ [ch] → t₁.weight rest < t.weight (ch :: rest) := by
      intro t₁ hnext heof hbuf
      simp only [Tokenizer.weight, hnext, heof, hbuf, List.length_append, List.length_cons,
        List.length_nil]
      omega
    unfold Tokenizer.loop at h
    split_ifs at h with hletter hdigit hdot hclose hextends
    · exact (ih h).trans (hword _ rfl rfl rfl)
    · exact (ih h).trans (hword _ rfl rfl rfl)
    · exact (ih h).trans (hword _ rfl rfl rfl)
    · -- `}` ends the expression
      refine (Tokenizer.finish_lt h).trans_le ?_
      simp only [Tokenizer.measure, Tokenizer.weight, List.length_cons]
      split_ifs <;> omega
    · exact (ih h).trans (hword _ rfl rfl rfl)
    · split at h
      · rename_i result hdelimit
        subst h
        exact Tokenizer.delimit_lt hdelimit
      · refine (ih h).trans ?_
        simp only [Tokenizer.weight, List.length_cons]
        omega

/-- **Each token `next` hands out leaves less to read.** -/
theorem Tokenizer.next_measure_lt {tokenMap : String → Option (Token F R)} {t t' : Tokenizer F R}
    {token : Token F R} (h : t.next tokenMap = .ok (some token, t')) : t'.measure < t.measure := by
  unfold Tokenizer.next at h
  split at h
  · -- the token kept from the last call
    rename_i kept hlast
    cases h
    have hpos : 0 < t.nextToken.length := by
      cases hk : t.nextToken with
      | nil => simp [hk] at hlast
      | cons _ _ => simp
    simp only [Tokenizer.measure, Tokenizer.weight, List.length_dropLast]
    omega
  · split_ifs at h
    · cases h
    · exact Tokenizer.loop_lt h

end Stalwart.Expr
