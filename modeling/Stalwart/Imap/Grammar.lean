import Mathlib.Data.List.Basic
import Mathlib.Tactic.SplitIfs
import Stalwart.Imap.Receiver

/-!
# The command lines the IMAP receiver accepts

A client writes a command line as its tag, a space, `UID` and whitespace when it asks for the `UID`
form, the command name, its arguments each after its separator, and a line feed. Whitespace other
than a line feed, a blank, may also follow the tag's space and the last argument, and more of it
may follow `UID`'s. An argument is an atom, a quoted string with `\` and `"` escaped, a
parenthesis, or a literal: `{n}` (synchronising), `{n+}` (non-synchronising) or `~{n}` (`literal8`),
then CRLF and `n` bytes of data. A separator is a run of blanks. It may be empty where the receiver
still keeps the argument apart from what comes before it: always before a parenthesis, before an
atom or a `literal8` when no atom bytes wait in the buffer, and before a quoted string or another
literal when, besides, the last byte the argument state took in was whitespace. Where the command
tokenizes brackets (`FETCH`), the bytes `[`, `]`, `<`, `>` and `.` of an atom are tokens of their
own.

`View` is the argument state as the grammar reads it: the tokens pushed, the size accounted for
them, the atom bytes waiting in the buffer, and whether `last_ch` is whitespace. Each part of a line
moves the view, and the tokens of the view are the tokens of the arguments read
(`View.tokens_items`). The receiver follows the view (`Holds`): one lemma for each part says where
the receiver is after it, and `feed_trans` chains them.

## What is proved

A line built from a valid tag, a name the command parser knows and arguments within the
receiver's limits is received as exactly one request, with the tag, the command and the tokens of
its arguments. A synchronising literal and a `literal8` first return `NeedsLiteral`. The receiver
ends where it started (`feed_renderLine`). This holds for every split of the line into frames fed
by a client (`client_receives_line`). The limits are the receiver's own: runs of atom bytes and
quoted strings of at most 4096 bytes, no line feed in a quoted string, a literal size below
`2 ^ 32`, a tag of at most 128 bytes that is UTF-8, and a request within the maximum size.
-/

set_option autoImplicit false

namespace Stalwart.Imap.Proto

/-! ## Bytes -/

theorem ne_of_not_whitespace {b : UInt8} (h : isAsciiWhitespace b = false) :
    b ≠ 32 ∧ b ≠ 9 ∧ b ≠ 10 ∧ b ≠ 12 ∧ b ≠ 13 := by
  simpa [isAsciiWhitespace, and_assoc] using h

/-- The decimal digits of a literal's size. -/
def decimal (n : Nat) : List UInt8 :=
  (Nat.toDigits 10 n).map Char.toUInt8

-- the equations of `decimal` are made once, here, before the proofs that unfold it
section
attribute [local simp] decimal decimal.eq_def
end

theorem toNat_toUInt8_digitChar : ∀ d < 10, (Nat.digitChar d).toUInt8.toNat = 48 + d := by
  decide

theorem isAsciiDigit_toUInt8_digitChar : ∀ d < 10, isAsciiDigit (Nat.digitChar d).toUInt8 := by
  decide

theorem decimalValue_append_singleton (digits : List UInt8) (d : UInt8) :
    decimalValue (digits ++ [d]) = decimalValue digits * 10 + (d.toNat - 48) := by
  simp [decimalValue, List.foldl_append]

theorem decimalValue_decimal (n : Nat) : decimalValue (decimal n) = n := by
  unfold decimal
  rw [Nat.toDigits_eq_if (by omega)]
  split
  · next hlt =>
    simp [decimalValue, toNat_toUInt8_digitChar n hlt]
  · -- the digits of `n / 10`, then the last digit
    have hhigh := decimalValue_decimal (n / 10)
    unfold decimal at hhigh
    rw [List.map_append, List.map_singleton, decimalValue_append_singleton, hhigh,
      toNat_toUInt8_digitChar _ (Nat.mod_lt _ (by omega))]
    omega
termination_by n
decreasing_by exact Nat.div_lt_self (by omega) (by omega)

/-- Every byte of `decimal n` is a digit. -/
theorem isAsciiDigit_of_mem_decimal {d : UInt8} : ∀ {n : Nat}, d ∈ decimal n → isAsciiDigit d
  | n, h => by
    unfold decimal at h
    rw [Nat.toDigits_eq_if (by omega)] at h
    split at h
    · next hlt =>
      rw [List.map_singleton, List.mem_singleton] at h
      exact h ▸ isAsciiDigit_toUInt8_digitChar n hlt
    · rw [List.map_append, List.mem_append] at h
      rcases h with h | h
      · have : n / 10 < n := Nat.div_lt_self (by omega) (by omega)
        exact isAsciiDigit_of_mem_decimal h
      · rw [List.map_singleton, List.mem_singleton] at h
        exact h ▸ isAsciiDigit_toUInt8_digitChar _ (Nat.mod_lt _ (by omega))

/-- A number below `10 ^ (k + 1)` has at most `k + 1` digits. -/
theorem length_decimal_le : ∀ {n : Nat} (k : Nat), n < 10 ^ (k + 1) → (decimal n).length ≤ k + 1
  | n, k, h => by
    unfold decimal
    rw [Nat.toDigits_eq_if (by omega)]
    split
    · simp
    · next hge =>
      cases k with
      | zero => omega
      | succ k =>
        have hhigh : n / 10 < 10 ^ (k + 1) := by
          rw [Nat.div_lt_iff_lt_mul (by omega)]
          simpa [Nat.pow_succ] using h
        have : n / 10 < n := Nat.div_lt_self (by omega) (by omega)
        have ih := length_decimal_le k hhigh
        unfold decimal at ih
        simp only [List.map_append, List.length_append, List.length_map, List.length_singleton] at ih ⊢
        omega

theorem parseU32_decimal {n : Nat} (h : n < 2 ^ 32) : parseU32 (decimal n) = some (UInt32.ofNat n) := by
  have hne : decimal n ≠ [] := by simp [decimal, Nat.toDigits_ne_nil]
  have hall : (decimal n).all isAsciiDigit := List.all_eq_true.mpr fun d hd => isAsciiDigit_of_mem_decimal hd
  have hlt : n < 4294967296 := h
  simp [parseU32, hne, hall, decimalValue_decimal, hlt]

/-- A quoted string's bytes with `\` and `"` escaped. -/
def escape (bytes : List UInt8) : List UInt8 :=
  bytes.flatMap fun b => if b = 92 ∨ b = 34 then [92, b] else [b]

/-- Whitespace other than the line feed: what separates the parts of a line. -/
def isBlank (b : UInt8) : Bool :=
  isAsciiWhitespace b && b != 10

theorem isAsciiWhitespace_of_isBlank {b : UInt8} (h : isBlank b) : isAsciiWhitespace b := by
  simp only [isBlank, Bool.and_eq_true] at h
  exact h.1

theorem ne_newline_of_isBlank {b : UInt8} (h : isBlank b) : b ≠ 10 := by
  simp only [isBlank, Bool.and_eq_true, bne_iff_ne] at h
  exact h.2

/-! ## Command lines -/

/-- The forms of a literal. -/
inductive LiteralKind where
  /-- `{n}`: the client waits for the server's go-ahead before the data. -/
  | sync
  /-- `{n+}`. -/
  | nonSync
  /-- `~{n}`, binary data, synchronising. -/
  | literal8
  deriving DecidableEq, Repr

/-- An argument of a command line. -/
inductive Argument where
  | atom (bytes : List UInt8)
  | quoted (bytes : List UInt8)
  | literal (kind : LiteralKind) (bytes : List UInt8)
  | parenthesisOpen
  | parenthesisClose
  deriving DecidableEq, Repr

/-- The token of a quoted string or a literal: `Nil` when it is empty. -/
def Token.ofBytes (bytes : List UInt8) : Token :=
  if bytes = [] then .nil else .argument bytes

/-- The arguments `push_argument(false)` adds: the buffer, when it is not empty. -/
def flush (buf : List UInt8) : List Token :=
  if buf = [] then [] else [.argument buf]

/-- The tokens of atom bytes after the run `run` already in the buffer: where the command
tokenizes brackets, a bracket byte is a token of its own and ends the run before it. -/
def atomTokensFrom (tokenizeBrackets : Bool) (run : List UInt8) : List UInt8 → List Token
  | [] => flush run
  | b :: bytes =>
    match Receiver.bracketToken b, tokenizeBrackets with
    | some token, true => flush run ++ token :: atomTokensFrom tokenizeBrackets [] bytes
    | _, _ => atomTokensFrom tokenizeBrackets (run ++ [b]) bytes

/-- Every run of atom bytes between bracket tokens fits in `ARG_MAX_LEN`, after `n` bytes already
in the buffer. -/
def runsFit (tokenizeBrackets : Bool) (n : Nat) : List UInt8 → Bool
  | [] => true
  | b :: bytes =>
    match Receiver.bracketToken b, tokenizeBrackets with
    | some _, true => runsFit tokenizeBrackets 0 bytes
    | _, _ => decide (n < argMaxLen) && runsFit tokenizeBrackets (n + 1) bytes

-- the equations of `ofBytes`, `flush`, `atomTokensFrom` and `runsFit` are made once, here, before
-- the proofs that unfold them
section
attribute [local simp] Token.ofBytes flush atomTokensFrom runsFit
end

namespace Argument

/-- The bytes a client writes for an argument. -/
def render : Argument → List UInt8
  | .atom bytes => bytes
  | .quoted bytes => 34 :: escape bytes ++ [34]
  | .literal kind bytes =>
    (if kind = .literal8 then [126] else []) ++ 123 :: decimal bytes.length ++
      (if kind = .nonSync then [43] else []) ++ 125 :: 13 :: 10 :: bytes
  | .parenthesisOpen => [40]
  | .parenthesisClose => [41]

/-- The tokens the receiver reads an argument as. -/
def tokens (tokenizeBrackets : Bool) : Argument → List Token
  | .atom bytes => atomTokensFrom tokenizeBrackets [] bytes
  | .quoted bytes | .literal _ bytes => [Token.ofBytes bytes]
  | .parenthesisOpen => [.parenthesisOpen]
  | .parenthesisClose => [.parenthesisClose]

/-- What an argument counts toward the size of its request: a quoted `Nil` nothing, a literal `Nil`
one, a bracket token one. -/
def size : Argument → Nat
  | .atom bytes | .quoted bytes => bytes.length
  | .literal _ bytes => if bytes = [] then 1 else bytes.length
  | .parenthesisOpen | .parenthesisClose => 1

/-- What the receiver returns for an argument before the request: `NeedsLiteral` at the header of
a synchronising literal or a `literal8`. -/
def announced {T : Type} : Argument → List (Except Error (Request T))
  | .literal .nonSync _ => []
  | .literal _ bytes => [.error (.needsLiteral (UInt32.ofNat bytes.length))]
  | _ => []

/-- A byte an atom may hold: no whitespace, quote, parenthesis or brace. -/
def atomChar (b : UInt8) : Bool :=
  !isAsciiWhitespace b && b != 34 && b != 40 && b != 41 && b != 123

/-- An argument within the receiver's limits: atoms of atom bytes whose runs fit in
`ARG_MAX_LEN`, quoted strings within it and with no line feed, and a literal size that is a
`u32`. -/
def WellFormed (tokenizeBrackets : Bool) : Argument → Prop
  | .atom bytes => bytes ≠ [] ∧ runsFit tokenizeBrackets 0 bytes ∧ ∀ b ∈ bytes, atomChar b
  | .quoted bytes => bytes.length ≤ argMaxLen ∧ 10 ∉ bytes
  | .literal _ bytes => bytes.length < 2 ^ 32
  | .parenthesisOpen | .parenthesisClose => True

instance decidableWellFormed (tokenizeBrackets : Bool) :
    (a : Argument) → Decidable (a.WellFormed tokenizeBrackets)
  -- the bytes are checked by running over them, not by deciding over every `UInt8`
  | .atom bytes => decidable_of_iff (bytes ≠ [] ∧ runsFit tokenizeBrackets 0 bytes ∧
      bytes.all atomChar = true)
      (and_congr_right' (and_congr_right' List.all_eq_true))
  | .quoted bytes => inferInstanceAs (Decidable (bytes.length ≤ argMaxLen ∧ 10 ∉ bytes))
  | .literal _ bytes => inferInstanceAs (Decidable (bytes.length < 2 ^ 32))
  | .parenthesisOpen | .parenthesisClose => isTrue trivial

-- the equations of `render`, `tokens` and `size` are made once, here, before the proofs that
-- unfold them
section
attribute [local simp] render tokens size
end

end Argument

/-! ## The argument state as the grammar reads it -/

/-- The argument state between the parts of a line: the tokens pushed and the size accounted for
them, the atom bytes waiting in the buffer, and whether `last_ch` is whitespace. -/
structure View where
  pushed : List Token
  size : Nat
  pending : List UInt8
  spaced : Bool

namespace View

/-- After the command name: nothing pushed, and `last_ch` a space. -/
def start : View :=
  ⟨[], 0, [], true⟩

/-- The tokens read so far, the atom in the buffer included. -/
def tokens (v : View) : List Token :=
  v.pushed ++ flush v.pending

/-- The size of the request once the atom in the buffer is pushed. -/
def load (v : View) : Nat :=
  v.size + v.pending.length

/-- Whitespace pushes the atom in the buffer. -/
def blank (v : View) : View :=
  ⟨v.tokens, v.load, [], true⟩

/-- A run of blanks. -/
def blanks (v : View) (sep : List UInt8) : View :=
  sep.foldl (fun v _ => v.blank) v

/-- A parenthesis or a bracket token pushes the atom in the buffer, then itself; `last_ch`
stays. -/
def structural (v : View) (token : Token) : View :=
  ⟨v.tokens ++ [token], v.load + 1, [], v.spaced⟩

/-- An atom byte: a bracket token where the command tokenizes them, or a byte that joins the atom
and becomes `last_ch`. -/
def atomByte (tokenizeBrackets : Bool) (v : View) (b : UInt8) : View :=
  match Receiver.bracketToken b, tokenizeBrackets with
  | some token, true => v.structural token
  | _, _ => ⟨v.pushed, v.size, v.pending ++ [b], false⟩

/-- After an argument: an atom's bytes one at a time, a parenthesis as a structural token, and a
quoted string or a literal as its token, which leaves `last_ch` a space. -/
def arg (tokenizeBrackets : Bool) (v : View) : Argument → View
  | .atom bytes => bytes.foldl (atomByte tokenizeBrackets) v
  | .parenthesisOpen => v.structural .parenthesisOpen
  | .parenthesisClose => v.structural .parenthesisClose
  | .quoted bytes => ⟨v.tokens ++ [Token.ofBytes bytes], v.load + bytes.length, [], true⟩
  | .literal _ bytes =>
    ⟨v.tokens ++ [Token.ofBytes bytes], v.load + if bytes = [] then 1 else bytes.length, [], true⟩

/-- After a separator and the argument after it. -/
def item (tokenizeBrackets : Bool) (v : View) (item : List UInt8 × Argument) : View :=
  (v.blanks item.1).arg tokenizeBrackets item.2

-- the equations of the view's steps are made once, here, before the proofs that unfold them
section
attribute [local simp] tokens load blank blanks structural atomByte arg item
end

end View

/-- Whether an argument starts where the receiver reads it as one: an atom or a `literal8` needs an
empty buffer; a quoted string or another literal also needs whitespace as `last_ch`. -/
def Argument.opens : Argument → View → Bool
  | .atom _, v | .literal .literal8 _, v => v.pending.isEmpty
  | .quoted _, v | .literal .sync _, v | .literal .nonSync _, v => v.pending.isEmpty && v.spaced
  | .parenthesisOpen, _ | .parenthesisClose, _ => true

/-- Every argument of a list starts, after its separator, where the receiver reads it as one. -/
def separated (tokenizeBrackets : Bool) : View → List (List UInt8 × Argument) → Bool
  | _, [] => true
  | v, (sep, a) :: items =>
    a.opens (v.blanks sep) && separated tokenizeBrackets (v.item tokenizeBrackets (sep, a)) items

namespace View

variable {tb : Bool}

@[simp] theorem tokens_blank (v : View) : v.blank.tokens = v.tokens := by
  simp [blank, tokens, flush]

@[simp] theorem load_blank (v : View) : v.blank.load = v.load := by
  simp [blank, load]

@[simp] theorem tokens_blanks (v : View) (sep : List UInt8) : (v.blanks sep).tokens = v.tokens := by
  induction sep generalizing v with
  | nil => rfl
  | cons _ sep ih => exact (ih v.blank).trans v.tokens_blank

@[simp] theorem load_blanks (v : View) (sep : List UInt8) : (v.blanks sep).load = v.load := by
  induction sep generalizing v with
  | nil => rfl
  | cons _ sep ih => exact (ih v.blank).trans v.load_blank

theorem start_blank : start.blank = start :=
  rfl

@[simp] theorem tokens_start : start.tokens = [] :=
  rfl

@[simp] theorem tokens_structural (v : View) (token : Token) :
    (v.structural token).tokens = v.tokens ++ [token] := by
  simp [structural, tokens, flush]

@[simp] theorem load_structural (v : View) (token : Token) : (v.structural token).load = v.load + 1 := by
  simp [structural, load]

/-- **What an atom byte does**: a bracket token where the command tokenizes them, or a byte of the
run. The tokens and the runs of the atom bytes take the same turn. -/
theorem atomByte_cases (tb : Bool) (v : View) (b : UInt8) :
    (∃ token, Receiver.bracketToken b = some token ∧ tb = true ∧ v.atomByte tb b = v.structural token ∧
      (∀ run bytes, atomTokensFrom tb run (b :: bytes) = flush run ++ token :: atomTokensFrom tb [] bytes) ∧
      ∀ n bytes, runsFit tb n (b :: bytes) = runsFit tb 0 bytes) ∨
    ((tb && (Receiver.bracketToken b).isSome) = false ∧
      v.atomByte tb b = ⟨v.pushed, v.size, v.pending ++ [b], false⟩ ∧
      (∀ run bytes, atomTokensFrom tb run (b :: bytes) = atomTokensFrom tb (run ++ [b]) bytes) ∧
      ∀ n bytes, runsFit tb n (b :: bytes) = (decide (n < argMaxLen) && runsFit tb (n + 1) bytes)) := by
  cases htoken : Receiver.bracketToken b with
  | none => exact .inr ⟨by simp, by simp [atomByte, htoken], by simp [atomTokensFrom, htoken],
      by simp [runsFit, htoken]⟩
  | some token =>
    cases tb with
    | false => exact .inr ⟨rfl, by simp [atomByte, htoken], by simp [atomTokensFrom, htoken],
        by simp [runsFit, htoken]⟩
    | true => exact .inl ⟨token, rfl, rfl, by simp [atomByte, htoken],
        by simp [atomTokensFrom, htoken], by simp [runsFit, htoken]⟩

/-- The bytes of an atom continue the run in the buffer. -/
theorem tokens_atomBytes (bytes : List UInt8) (v : View) :
    (bytes.foldl (atomByte tb) v).tokens = v.pushed ++ atomTokensFrom tb v.pending bytes := by
  induction bytes generalizing v with
  | nil => rfl
  | cons b bytes ih =>
    rw [List.foldl_cons, ih]
    rcases atomByte_cases tb v b with ⟨token, -, -, hbyte, htokens, -⟩ | ⟨-, hbyte, htokens, -⟩
    · rw [hbyte, htokens]
      simp [structural, tokens]
    · rw [hbyte, htokens]

theorem load_atomBytes (bytes : List UInt8) (v : View) :
    (bytes.foldl (atomByte tb) v).load = v.load + bytes.length := by
  induction bytes generalizing v with
  | nil => rfl
  | cons b bytes ih =>
    rw [List.foldl_cons, ih, List.length_cons]
    rcases atomByte_cases tb v b with ⟨token, -, -, hbyte, -⟩ | ⟨-, hbyte, -⟩
    · rw [hbyte, load_structural]
      omega
    · rw [hbyte]
      simp only [load, List.length_append, List.length_singleton]
      omega

/-- **An argument that opens adds its own tokens.** -/
theorem tokens_arg (v : View) {a : Argument} (hopens : a.opens v) :
    (v.arg tb a).tokens = v.tokens ++ a.tokens tb := by
  cases a with
  | atom bytes =>
    have hpending : v.pending = [] := by simpa [Argument.opens] using hopens
    rw [arg, tokens_atomBytes, hpending]
    simp [tokens, flush, Argument.tokens, hpending]
  | quoted bytes => simp [arg, tokens, flush, Argument.tokens]
  | literal kind bytes => simp [arg, tokens, flush, Argument.tokens]
  | parenthesisOpen => simp [arg, Argument.tokens]
  | parenthesisClose => simp [arg, Argument.tokens]

theorem load_arg (v : View) (a : Argument) : (v.arg tb a).load = v.load + a.size := by
  cases a with
  | atom bytes => exact load_atomBytes bytes v
  | quoted bytes => simp [arg, load, Argument.size]
  | literal kind bytes => simp [arg, load, Argument.size]
  | parenthesisOpen => simp [arg, Argument.size]
  | parenthesisClose => simp [arg, Argument.size]

theorem load_items (items : List (List UInt8 × Argument)) (v : View) :
    (items.foldl (item tb) v).load = v.load + (items.map (·.2.size)).sum := by
  induction items generalizing v with
  | nil => simp
  | cons i items ih =>
    rw [List.foldl_cons, ih, item, load_arg, load_blanks, List.map_cons, List.sum_cons]
    omega

/-- **The tokens of separated arguments are theirs, in order.** -/
theorem tokens_items (items : List (List UInt8 × Argument)) (v : View)
    (hsep : separated tb v items) :
    (items.foldl (item tb) v).tokens = v.tokens ++ items.flatMap (·.2.tokens tb) := by
  induction items generalizing v with
  | nil => simp
  | cons i items ih =>
    obtain ⟨sep, a⟩ := i
    simp only [separated, Bool.and_eq_true] at hsep
    rw [List.foldl_cons, ih _ hsep.2, item, tokens_arg _ hsep.1, tokens_blanks, List.flatMap_cons,
      List.append_assoc]

end View

/-- A property of each byte of a fixed list, checked by running over the list: the bytes a line
is built from are checked this way rather than by deciding the property over every `UInt8`. -/
theorem forall_mem_of_all {α : Type} {p : α → Prop} [DecidablePred p] {l : List α}
    (h : (l.all fun a => decide (p a)) = true) : ∀ a ∈ l, p a := by
  simpa using h

/-- A tag the receiver takes: 1 to 128 bytes, none of them whitespace, that are the UTF-8 of
`text`. -/
structure Tag where
  bytes : List UInt8
  text : String
  ne_nil : bytes ≠ []
  length_le : bytes.length ≤ 128
  not_whitespace : ∀ b ∈ bytes, isAsciiWhitespace b = false
  utf8 : fromUtf8 bytes = some text

/-- A command name the parser knows: at most 15 letters and digits in upper case, not `UID`, with
whether the line has the `UID` prefix and the command the parser makes of the name. -/
structure CommandName (T : Type) [CommandParser T] where
  bytes : List UInt8
  isUid : Bool
  command : T
  ne_nil : bytes ≠ []
  length_le : bytes.length ≤ 15
  upper : ∀ b ∈ bytes, isAsciiAlphanumeric b ∧ toAsciiUppercase b = b
  not_uid : eqIgnoreAsciiCase bytes (ascii "UID") = false
  parse_eq : CommandParser.parse bytes isUid = some command

/-- A command line: its tag, the blanks after the tag's space, the command name with the blanks that
end its `UID` prefix, its arguments each after its separator, and the blanks before the line feed.
The blanks end `UID` and the command name, and the separators keep the arguments apart. -/
structure Line (T : Type) [CommandParser T] where
  tag : Tag
  gap : List UInt8
  name : CommandName T
  uidGap : List UInt8
  args : List (List UInt8 × Argument)
  trail : List UInt8
  blanks : ∀ b ∈ gap ++ uidGap ++ args.flatMap Prod.fst ++ trail, isBlank b
  uid_ended : name.isUid → uidGap ≠ []
  name_ended : ∀ arg ∈ args.head?, arg.1 ≠ []
  wellFormed : ∀ arg ∈ args, arg.2.WellFormed (CommandParser.tokenizeBrackets name.command)
  separated : separated (CommandParser.tokenizeBrackets name.command) View.start args

namespace Line

variable {T : Type} [CommandParser T]

/-- The bytes of a line. -/
def render (line : Line T) : List UInt8 :=
  line.tag.bytes ++ 32 :: line.gap ++ (if line.name.isUid then ascii "UID" ++ line.uidGap else []) ++
    line.name.bytes ++ line.args.flatMap (fun arg => arg.1 ++ arg.2.render) ++ line.trail ++ [10]

/-- The size the receiver accounts for the request of a line. -/
def size (line : Line T) : Nat :=
  (line.args.map (·.2.size)).sum

/-- What a client receives for a line: the `NeedsLiteral` of its literals, then the request. -/
def received (line : Line T) : List (Except Error (Request T)) :=
  line.args.flatMap (·.2.announced) ++
    [.ok ⟨line.tag.text, line.name.command,
      line.args.flatMap (·.2.tokens (CommandParser.tokenizeBrackets line.name.command))⟩]

end Line

namespace Receiver

variable {T : Type} [CommandParser T] {r : Receiver T}

/-! ## Feeding in phases -/

theorem feed_cons_of_none {ch : UInt8} {r' : Receiver T} (h : r.parseByte ch = .ok (r', none))
    (rest : List UInt8) : r.feed (ch :: rest) = r'.feed rest := by
  simp [feed, h, after, returned]

/-- Two phases in turn. -/
theorem feed_trans {first second : List UInt8} {r₁ r₂ : Receiver T}
    {results₁ results₂ : List (Except Error (Request T))} (h₁ : r.feed first = (r₁, results₁))
    (h₂ : r₁.feed second = (r₂, results₂)) :
    r.feed (first ++ second) = (r₂, results₁ ++ results₂) := by
  rw [feed_append, h₁, h₂]

/-- The receiver after `push_argument(false)`. -/
def flushed (r : Receiver T) : Receiver T :=
  { r with
    buf := []
    request := { r.request with tokens := r.request.tokens ++ flush r.buf }
    currentRequestSize := r.currentRequestSize + r.buf.length }

/-- The receiver after `push_argument(false)` and a structural token. -/
def structural (r : Receiver T) (token : Token) : Receiver T :=
  { r with
    buf := []
    request := { r.request with tokens := r.request.tokens ++ flush r.buf ++ [token] }
    currentRequestSize := r.currentRequestSize + r.buf.length + 1 }

/-- The receiver after `push_argument(true)`, at a closing quote. -/
def pushedQuoted (r : Receiver T) : Receiver T :=
  { r with
    buf := []
    request := { r.request with tokens := r.request.tokens ++ [Token.ofBytes r.buf] }
    currentRequestSize := r.currentRequestSize + r.buf.length }

-- the equations of `flushed`, `structural` and `pushedQuoted` are made once, here, before the
-- proofs that unfold them
section
attribute [local simp] flushed structural pushedQuoted
end

theorem pushArgument_false (h : r.currentRequestSize + r.buf.length ≤ r.maxRequestSize) :
    r.pushArgument false = .ok r.flushed := by
  unfold pushArgument
  by_cases hbuf : r.buf = []
  · rcases r with ⟨buf, request, state, max, size, startState⟩
    dsimp only at hbuf
    subst hbuf
    simp [flushed, flush]
  · rw [if_pos hbuf, if_neg (by omega)]
    simp [flushed, flush, hbuf]

theorem pushToken_of_le (h : r.currentRequestSize + 1 ≤ r.maxRequestSize) (token : Token) :
    r.pushToken token = .ok { r with
      request := { r.request with tokens := r.request.tokens ++ [token] }
      currentRequestSize := r.currentRequestSize + 1 } :=
  if_neg (Nat.not_lt.mpr h)

theorem pushStructural_of_le (h : r.currentRequestSize + r.buf.length + 1 ≤ r.maxRequestSize)
    (token : Token) : r.pushStructural token = .ok (r.structural token, none) := by
  have hflushed : r.flushed.currentRequestSize + 1 ≤ r.flushed.maxRequestSize := h
  simp only [pushStructural, pushArgument_false (Nat.le_of_succ_le h), Except.ok_bind_eq,
    pushToken_of_le hflushed]
  rfl

theorem pushArgument_true (h : r.currentRequestSize + r.buf.length ≤ r.maxRequestSize) :
    r.pushArgument true = .ok r.pushedQuoted := by
  unfold pushArgument
  by_cases hbuf : r.buf = []
  · simp [pushedQuoted, Token.ofBytes, hbuf]
  · rw [if_pos hbuf, if_neg (by omega)]
    simp [pushedQuoted, Token.ofBytes, hbuf]

theorem isAsciiAlphanumeric_of_whitespace {b : UInt8} (h : isAsciiWhitespace b) :
    isAsciiAlphanumeric b = false := by
  simp only [isAsciiWhitespace, Bool.or_eq_true, decide_eq_true_eq] at h
  rcases h with (((rfl | rfl) | rfl) | rfl) | rfl <;> decide

/-- The bytes that are bracket tokens are none of the bytes the argument state reads otherwise. -/
theorem ne_of_bracketToken {b : UInt8} {token : Token} (h : bracketToken b = some token) :
    b ≠ 34 ∧ b ≠ 123 ∧ b ≠ 40 ∧ b ≠ 41 := by
  have hb : b = 91 ∨ b = 93 ∨ b = 60 ∨ b = 62 ∨ b = 46 := by
    unfold bracketToken at h
    split at h <;> simp_all
  rcases hb with rfl | rfl | rfl | rfl | rfl <;> decide

/-! ### One byte in each state -/

section OneByte

-- every lemma here reads one arm of `parse`
attribute [local simp] parseByte

theorem parseByte_start (hstate : r.state = .start) {b : UInt8} (hb : isAsciiWhitespace b = false) :
    r.parseByte b = .ok ({ r with buf := r.buf ++ [b], state := .tag }, none) := by
  simp [hstate, parseStart, hb]

theorem parseByte_tag (hstate : r.state = .tag) {b : UInt8} (hb : isAsciiWhitespace b = false)
    (hlen : r.buf.length < 128) : r.parseByte b = .ok ({ r with buf := r.buf ++ [b] }, none) := by
  obtain ⟨h32, h9, h10, -, h13⟩ := ne_of_not_whitespace hb
  simp [hstate, parseTag, h32, h9, h10, h13, pushChecked, hlen]

theorem parseByte_tag_space (hstate : r.state = .tag) (hbuf : r.buf ≠ []) {text : String}
    (htext : fromUtf8 r.buf = some text) :
    r.parseByte 32 = .ok ({ r with
      buf := [], request := { r.request with tag := text }, state := .command false }, none) := by
  simp [hstate, parseTag, hbuf, htext]

theorem parseByte_command {isUid : Bool} (hstate : r.state = .command isUid) {b : UInt8}
    (hb : isAsciiAlphanumeric b) (hlen : r.buf.length < 15) :
    r.parseByte b = .ok ({ r with buf := r.buf ++ [toAsciiUppercase b] }, none) := by
  simp [hstate, parseCommand, hb, pushChecked, hlen]

/-- Whitespace before a name is skipped. -/
theorem parseByte_command_skip {isUid : Bool} (hstate : r.state = .command isUid) (hbuf : r.buf = [])
    {b : UInt8} (hb : isAsciiWhitespace b) : r.parseByte b = .ok (r, none) := by
  simp [hstate, parseCommand, isAsciiAlphanumeric_of_whitespace hb, hb, hbuf]

theorem parseByte_command_uid (hstate : r.state = .command false) (hbuf : r.buf = ascii "UID")
    {b : UInt8} (hb : isAsciiWhitespace b) :
    r.parseByte b = .ok ({ r with buf := [], state := .command true }, none) := by
  have huid : eqIgnoreAsciiCase (ascii "UID") (ascii "UID") = true := by decide
  have hne : ascii "UID" ≠ [] := by decide
  simp [hstate, parseCommand, isAsciiAlphanumeric_of_whitespace hb, hb, hbuf, hne, commandName,
    huid]

/-- A blank after the command name: the command is read, and its arguments follow. -/
theorem parseByte_command_end {isUid : Bool} {command : T} (hstate : r.state = .command isUid)
    (hbuf : r.buf ≠ []) (huid : eqIgnoreAsciiCase r.buf (ascii "UID") = false)
    (hparse : CommandParser.parse r.buf isUid = some command) {ch : UInt8} (hch : isBlank ch) :
    r.parseByte ch = .ok ({ r with
      buf := [], request := { r.request with command }, state := .argument 32 }, none) := by
  have hspace := isAsciiWhitespace_of_isBlank hch
  simp [hstate, parseCommand, isAsciiAlphanumeric_of_whitespace hspace, hspace, hbuf, commandName,
    huid, hparse, ne_newline_of_isBlank hch]

/-- A line feed right after the command name returns the request. -/
theorem parseByte_command_newline {isUid : Bool} {command : T} (hstate : r.state = .command isUid)
    (hbuf : r.buf ≠ []) (huid : eqIgnoreAsciiCase r.buf (ascii "UID") = false)
    (hparse : CommandParser.parse r.buf isUid = some command) :
    r.parseByte 10 = .ok ({ r with buf := [], request := { r.request with command } }.complete) := by
  simp [hstate, parseCommand, isAsciiAlphanumeric, isAsciiDigit, isAsciiWhitespace, hbuf,
    commandName, huid, hparse]

/-- A byte that is not a quote or a brace after whitespace, a parenthesis or a bracket token goes
to the atom arms of the argument state. -/
theorem parseArgument_eq_atomByte {lastCh b : UInt8} (h34 : b ≠ 34) (h123 : b ≠ 123) (h40 : b ≠ 40)
    (h41 : b ≠ 41)
    (hbracket : (CommandParser.tokenizeBrackets r.request.command && (bracketToken b).isSome) = false) :
    r.parseArgument lastCh b = r.atomByte b := by
  unfold parseArgument
  rw [if_neg (fun h => h34 h.1), if_neg (fun h => h123 h.1), if_neg h40, if_neg h41]
  split
  · next token hbt htb =>
    rw [hbt, htb] at hbracket
    simp at hbracket
  · rfl

theorem parseByte_argument_atom {lastCh : UInt8} (hstate : r.state = .argument lastCh) {b : UInt8}
    (hb : Argument.atomChar b)
    (hbracket : (CommandParser.tokenizeBrackets r.request.command && (bracketToken b).isSome) = false)
    (hlen : r.buf.length < argMaxLen) :
    r.parseByte b = .ok ({ r with buf := r.buf ++ [b], state := .argument b }, none) := by
  simp only [Argument.atomChar, Bool.and_eq_true, Bool.not_eq_true', bne_iff_ne, ne_eq] at hb
  obtain ⟨⟨⟨⟨hspace, h34⟩, h40⟩, h41⟩, h123⟩ := hb
  have h10 : b ≠ 10 := (ne_of_not_whitespace hspace).2.2.1
  simp only [parseByte, hstate]
  rw [parseArgument_eq_atomByte h34 h123 h40 h41 hbracket]
  simp [atomByte, h10, hspace, pushChecked, hlen]

/-- A bracket token, in a command that tokenizes them, pushes the atom before it and itself. -/
theorem parseByte_argument_bracket {lastCh : UInt8} (hstate : r.state = .argument lastCh) {b : UInt8}
    {token : Token} (htoken : bracketToken b = some token)
    (htb : CommandParser.tokenizeBrackets r.request.command = true)
    (hsize : r.currentRequestSize + r.buf.length + 1 ≤ r.maxRequestSize) :
    r.parseByte b = .ok (r.structural token, none) := by
  obtain ⟨h34, h123, h40, h41⟩ := ne_of_bracketToken htoken
  simp only [parseByte, hstate]
  unfold parseArgument
  rw [if_neg (fun h => h34 h.1), if_neg (fun h => h123 h.1), if_neg h40, if_neg h41, htoken, htb]
  exact pushStructural_of_le hsize token

/-- A blank between arguments pushes the atom before it. -/
theorem parseByte_argument_space {lastCh : UInt8} (hstate : r.state = .argument lastCh) {ch : UInt8}
    (hch : isBlank ch) (hsize : r.currentRequestSize + r.buf.length ≤ r.maxRequestSize) :
    r.parseByte ch = .ok ({ r.flushed with state := .argument ch }, none) := by
  have hspace := isAsciiWhitespace_of_isBlank hch
  obtain ⟨h32, h9, h10, h12, h13⟩ : ch ≠ 34 ∧ ch ≠ 123 ∧ ch ≠ 40 ∧ ch ≠ 41 ∧ bracketToken ch = none := by
    simp only [isAsciiWhitespace, Bool.or_eq_true, decide_eq_true_eq] at hspace
    rcases hspace with (((rfl | rfl) | rfl) | rfl) | rfl <;> decide
  simp only [parseByte, hstate]
  rw [parseArgument_eq_atomByte h32 h9 h10 h12 (by simp [h13])]
  simp [atomByte, ne_newline_of_isBlank hch, hspace, pushArgument_false hsize]

/-- The line feed after the arguments returns the request. -/
theorem parseByte_argument_newline {lastCh : UInt8} (hstate : r.state = .argument lastCh)
    (hsize : r.currentRequestSize + r.buf.length ≤ r.maxRequestSize) :
    r.parseByte 10 = .ok r.flushed.complete := by
  simp only [parseByte, hstate]
  rw [parseArgument_eq_atomByte (by decide) (by decide) (by decide) (by decide)
    (by simp [bracketToken])]
  simp [atomByte, pushArgument_false hsize]

theorem parseByte_argument_paren {lastCh : UInt8} (hstate : r.state = .argument lastCh)
    {ch : UInt8} (hch : ch = 40 ∨ ch = 41)
    (hsize : r.currentRequestSize + r.buf.length + 1 ≤ r.maxRequestSize) :
    r.parseByte ch =
      .ok (r.structural (if ch = 40 then .parenthesisOpen else .parenthesisClose), none) := by
  rcases hch with rfl | rfl
  · simp [hstate, parseArgument, pushStructural_of_le hsize]
  · simp [hstate, parseArgument, pushStructural_of_le hsize]

theorem parseByte_argument_quote {lastCh : UInt8} (hstate : r.state = .argument lastCh)
    (hlast : isAsciiWhitespace lastCh) (hbuf : r.buf = []) :
    r.parseByte 34 = .ok ({ r with state := .argumentQuoted false }, none) := by
  have hpush : r.pushArgument false = .ok r := by simp [pushArgument, hbuf]
  simp [hstate, parseArgument, hlast, hpush]

theorem parseByte_argument_brace {lastCh : UInt8} (hstate : r.state = .argument lastCh)
    (hlast : isAsciiWhitespace lastCh) (hbuf : r.buf = []) :
    r.parseByte 123 = .ok ({ r with state := .literal false }, none) := by
  have hpush : r.pushArgument false = .ok r := by simp [pushArgument, hbuf]
  have htilde : lastCh ≠ 126 := by
    rintro rfl
    exact absurd hlast (by decide)
  simp [hstate, parseArgument, hlast, hpush, htilde]

/-- The brace of a `literal8`, after its lone `~`. -/
theorem parseByte_argument_tilde_brace (hstate : r.state = .argument 126) (hbuf : r.buf = [126]) :
    r.parseByte 123 = .ok ({ r with buf := [], state := .literal false }, none) := by
  simp [hstate, parseArgument, hbuf, isAsciiWhitespace]
  rfl

theorem parseByte_quoted {b : UInt8} (hstate : r.state = .argumentQuoted false) (h34 : b ≠ 34)
    (h92 : b ≠ 92) (h10 : b ≠ 10) (hlen : r.buf.length < argMaxLen) :
    r.parseByte b = .ok ({ r with buf := r.buf ++ [b], state := .argumentQuoted false }, none) := by
  simp [hstate, parseQuoted, h34, h92, h10, pushQuoted, pushChecked, hlen]

theorem parseByte_quoted_backslash (hstate : r.state = .argumentQuoted false) :
    r.parseByte 92 = .ok ({ r with state := .argumentQuoted true }, none) := by
  simp [hstate, parseQuoted]

theorem parseByte_quoted_escaped {b : UInt8} (hstate : r.state = .argumentQuoted true)
    (hb : b = 92 ∨ b = 34) (hlen : r.buf.length < argMaxLen) :
    r.parseByte b = .ok ({ r with buf := r.buf ++ [b], state := .argumentQuoted false }, none) := by
  rcases hb with rfl | rfl
  · simp [hstate, parseQuoted, pushQuoted, pushChecked, hlen]
  · simp [hstate, parseQuoted, pushQuoted, pushChecked, hlen]

theorem parseByte_quoted_close (hstate : r.state = .argumentQuoted false)
    (hsize : r.currentRequestSize + r.buf.length ≤ r.maxRequestSize) :
    r.parseByte 34 = .ok ({ r.pushedQuoted with state := .argument 32 }, none) := by
  simp [hstate, parseQuoted, pushArgument_true hsize]

theorem parseByte_literal_digit {d : UInt8} (hstate : r.state = .literal false)
    (hd : isAsciiDigit d) (hlen : r.buf.length < 15) :
    r.parseByte d = .ok ({ r with buf := r.buf ++ [d] }, none) := by
  have hne : d ≠ 125 ∧ d ≠ 43 := by
    constructor <;> rintro rfl <;> exact absurd hd (by decide)
  simp [hstate, parseLiteral, hne.1, hne.2, hd, pushChecked, hlen]

theorem parseByte_literal_plus (hstate : r.state = .literal false) (hbuf : r.buf ≠ []) :
    r.parseByte 43 = .ok ({ r with state := .literal true }, none) := by
  simp [hstate, parseLiteral, hbuf]

theorem parseByte_literal_close {nonSync : Bool} {size : UInt32} (hstate : r.state = .literal nonSync)
    (hsize : parseU32 r.buf = some size)
    (hfits : r.currentRequestSize + size.toNat ≤ r.maxRequestSize) :
    r.parseByte 125 = .ok ({ r with state := .literalSeek size nonSync, buf := [] }, none) := by
  have hbuf : r.buf ≠ [] := by
    rintro hempty
    rw [hempty] at hsize
    exact absurd hsize (by simp [parseU32])
  simp [hstate, parseLiteral, hbuf, hsize, Nat.not_lt.mpr hfits]

theorem parseByte_literalSeek_cr {size : UInt32} {nonSync : Bool}
    (hstate : r.state = .literalSeek size nonSync) : r.parseByte 13 = .ok (r, none) := by
  simp [hstate, parseLiteralSeek, isAsciiWhitespace]

theorem parseByte_literalSeek_data {size : UInt32} {nonSync : Bool}
    (hstate : r.state = .literalSeek size nonSync) (hsize : 0 < size) :
    r.parseByte 10 = literalHeaderEnd { r with state := .literalData size } size nonSync := by
  simp [hstate, parseLiteralSeek, hsize]

theorem parseByte_literalSeek_nil {nonSync : Bool} (hstate : r.state = .literalSeek 0 nonSync)
    (hsize : r.currentRequestSize + 1 ≤ r.maxRequestSize) :
    r.parseByte 10 = literalHeaderEnd { r with
      state := .argument 32
      request := { r.request with tokens := r.request.tokens ++ [.nil] }
      currentRequestSize := r.currentRequestSize + 1 } 0 nonSync := by
  simp [hstate, parseLiteralSeek, pushToken_of_le (r := { r with state := .argument 32 }) hsize]

theorem parseByte_literalData {remaining : UInt32} (hstate : r.state = .literalData remaining)
    (hmore : 1 < remaining) (b : UInt8) :
    r.parseByte b = .ok ({ r with buf := r.buf ++ [b], state := .literalData (remaining - 1) }, none) := by
  simp [hstate, parseLiteralData, hmore]

theorem parseByte_literalData_last (hstate : r.state = .literalData 1) (b : UInt8)
    (hsize : r.currentRequestSize + r.buf.length + 1 ≤ r.maxRequestSize) :
    r.parseByte b =
      .ok ({ ({ r with buf := r.buf ++ [b] } : Receiver T).flushed with state := .argument 32 }, none) := by
  rcases r with ⟨buf, request, state, max, size, startState⟩
  dsimp only at hstate hsize
  subst hstate
  have hpush := pushArgument_false (r := ⟨buf ++ [b], request, .literalData 1, max, size, startState⟩)
    (by dsimp only; simp only [List.length_append, List.length_singleton]; omega)
  simp [parseLiteralData, hpush]

end OneByte

/-! ### Phases -/

/-- **A phase of bytes that each go into the buffer**, in a state that stays. -/
theorem feed_buffered {state : State} {limit : Nat} {P : UInt8 → Prop}
    (hstep : ∀ (r : Receiver T) (b : UInt8), r.state = state → P b → r.buf.length < limit →
      r.parseByte b = .ok ({ r with buf := r.buf ++ [b] }, none))
    {bytes : List UInt8} :
    ∀ {r : Receiver T}, r.state = state → (∀ b ∈ bytes, P b) → r.buf.length + bytes.length ≤ limit →
      r.feed bytes = ({ r with buf := r.buf ++ bytes }, []) := by
  induction bytes with
  | nil =>
    intro r _ _ _
    simp [feed]
  | cons b bytes ih =>
    intro r hstate hP hlen
    simp only [List.length_cons] at hlen
    rw [feed_cons_of_none (hstep r b hstate (hP b List.mem_cons_self) (by omega))]
    rw [ih (r := { r with buf := r.buf ++ [b] }) hstate (fun b' hb' => hP b' (List.mem_cons_of_mem _ hb'))
      (by simp only [List.length_append, List.length_singleton]; omega)]
    simp

omit [CommandParser T] in
/-- A receiver reading a line under the maximum `m`, started in `State::Start`: the request so far,
the size accounted for it, the buffer and the state. -/
def reading (m : Nat) (request : Request T) (size : Nat) (buf : List UInt8) (state : State) :
    Receiver T :=
  ⟨buf, request, state, m, size, .start⟩

-- the equations of `reading` are made once, here, before the proofs that unfold it
section
attribute [local simp] reading
end

variable {m : Nat}

/-- The tag and its space. -/
theorem feed_tag (tag : Tag) :
    (fresh m .start : Receiver T).feed (tag.bytes ++ [32]) =
      (reading m ⟨tag.text, default, []⟩ 0 [] (.command false), []) := by
  obtain ⟨bytes, text, hne, hlen, hws, hutf8⟩ := tag
  obtain ⟨b, bs, rfl⟩ := List.exists_cons_of_ne_nil hne
  have hfirst : (fresh m .start : Receiver T).feed [b] = (reading m default 0 [b] .tag, []) := by
    rw [feed_cons_of_none (parseByte_start rfl (hws b List.mem_cons_self))]
    rfl
  have hrest : (reading m default 0 [b] .tag : Receiver T).feed bs =
      (reading m default 0 (b :: bs) .tag, []) := by
    rw [feed_buffered (fun r b hstate hb hlen => parseByte_tag hstate hb hlen) rfl
      (fun b' hb' => hws b' (List.mem_cons_of_mem _ hb'))
      (by simp only [List.length_cons] at hlen; simp only [reading, List.length_singleton]; omega)]
    rfl
  have hspace : (reading m default 0 (b :: bs) .tag : Receiver T).feed [32] =
      (reading m ⟨text, default, []⟩ 0 [] (.command false), []) := by
    rw [feed_cons_of_none (parseByte_tag_space rfl (List.cons_ne_nil b bs) hutf8)]
    rfl
  exact feed_trans (feed_trans hfirst hrest) hspace

/-- Letters and digits in upper case go into the buffer as they are. -/
theorem feed_name (request : Request T) (isUid : Bool) (pre : List UInt8) {bytes : List UInt8}
    (hbytes : ∀ b ∈ bytes, isAsciiAlphanumeric b ∧ toAsciiUppercase b = b)
    (hlen : pre.length + bytes.length ≤ 15) :
    (reading m request 0 pre (.command isUid)).feed bytes =
      (reading m request 0 (pre ++ bytes) (.command isUid), []) := by
  have hstep : ∀ (r : Receiver T) (b : UInt8), r.state = .command isUid →
      isAsciiAlphanumeric b ∧ toAsciiUppercase b = b → r.buf.length < 15 →
      r.parseByte b = .ok ({ r with buf := r.buf ++ [b] }, none) := by
    intro r b hstate hb hlen
    rw [parseByte_command hstate hb.1 hlen, hb.2]
  rw [feed_buffered hstep rfl hbytes hlen]
  rfl

/-- Whitespace before a name is skipped. -/
theorem feed_command_blanks (request : Request T) (isUid : Bool) {blanks : List UInt8}
    (hblanks : ∀ b ∈ blanks, isBlank b) :
    (reading m request 0 [] (.command isUid)).feed blanks =
      (reading m request 0 [] (.command isUid), []) := by
  induction blanks with
  | nil => rfl
  | cons b blanks ih =>
    rw [feed_cons_of_none (parseByte_command_skip rfl rfl
      (isAsciiWhitespace_of_isBlank (hblanks b List.mem_cons_self)))]
    exact ih fun b' hb' => hblanks b' (List.mem_cons_of_mem _ hb')

/-- The blanks after the tag's space, the `UID` prefix with the blanks that end it, when the line
has it, then the command name. -/
theorem feed_commandName {text : String} (name : CommandName T) {gap uidGap : List UInt8}
    (hgap : ∀ b ∈ gap, isBlank b) (huidGap : ∀ b ∈ uidGap, isBlank b)
    (hended : name.isUid → uidGap ≠ []) :
    (reading m ⟨text, default, []⟩ 0 [] (.command false) : Receiver T).feed
        (gap ++ (if name.isUid then ascii "UID" ++ uidGap else []) ++ name.bytes) =
      (reading m ⟨text, default, []⟩ 0 name.bytes (.command name.isUid), []) := by
  have hname := feed_name (T := T) (m := m) ⟨text, default, []⟩ name.isUid [] name.upper
    (by simpa using name.length_le)
  have hskip := feed_command_blanks (T := T) (m := m) ⟨text, default, []⟩ false hgap
  cases hUid : name.isUid with
  | false =>
    rw [hUid] at hname
    rw [if_neg Bool.false_ne_true, List.append_nil]
    exact feed_trans hskip hname
  | true =>
    rw [hUid] at hname
    obtain ⟨b, bs, rfl⟩ := List.exists_cons_of_ne_nil (hended hUid)
    have huid : (reading m ⟨text, default, []⟩ 0 [] (.command false) : Receiver T).feed
        (ascii "UID") = (reading m ⟨text, default, []⟩ 0 (ascii "UID") (.command false), []) :=
      feed_name _ false [] (forall_mem_of_all (by decide)) (by decide)
    -- the first blank ends `UID`, and the next are skipped
    have hend : (reading m ⟨text, default, []⟩ 0 (ascii "UID") (.command false) : Receiver T).feed
        (b :: bs) = (reading m ⟨text, default, []⟩ 0 [] (.command true), []) := by
      rw [feed_cons_of_none (parseByte_command_uid rfl rfl
        (isAsciiWhitespace_of_isBlank (huidGap b List.mem_cons_self)))]
      exact feed_command_blanks _ true fun b' hb' => huidGap b' (List.mem_cons_of_mem _ hb')
    rw [if_pos rfl, List.append_assoc, List.append_assoc]
    exact feed_trans hskip (feed_trans huid (feed_trans hend hname))

/-! ### The arguments -/

variable {request : Request T} {s : Nat}

theorem escape_cons (b : UInt8) (bytes : List UInt8) :
    escape (b :: bytes) = (if b = 92 ∨ b = 34 then [92, b] else [b]) ++ escape bytes :=
  List.flatMap_cons

/-- The escaped bytes of a quoted string go into the buffer unescaped. -/
theorem feed_escape (pre : List UInt8) {bytes : List UInt8} (hbytes : 10 ∉ bytes)
    (hlen : pre.length + bytes.length ≤ argMaxLen) :
    (reading m request s pre (.argumentQuoted false)).feed (escape bytes) =
      (reading m request s (pre ++ bytes) (.argumentQuoted false), []) := by
  induction bytes generalizing pre with
  | nil => simp [feed, escape]
  | cons b bytes ih =>
    rw [List.mem_cons, not_or] at hbytes
    simp only [List.length_cons] at hlen
    have hfirst : (reading m request s pre (.argumentQuoted false) : Receiver T).feed
        (if b = 92 ∨ b = 34 then [92, b] else [b]) =
        (reading m request s (pre ++ [b]) (.argumentQuoted false), []) := by
      split_ifs with hesc
      · -- an escaped byte: the backslash, then the byte
        rw [feed_cons_of_none (parseByte_quoted_backslash rfl),
          feed_cons_of_none (parseByte_quoted_escaped rfl hesc (by simp only [reading]; omega))]
        rfl
      · rw [not_or] at hesc
        rw [feed_cons_of_none (parseByte_quoted rfl hesc.2 hesc.1 (Ne.symm hbytes.1)
          (by simp only [reading]; omega))]
        rfl
    have hrest := ih (pre ++ [b]) hbytes.2
      (by simp only [List.length_append, List.length_singleton]; omega)
    rw [escape_cons, show pre ++ b :: bytes = pre ++ [b] ++ bytes by simp]
    exact feed_trans hfirst hrest

theorem feed_quoted {lastCh : UInt8} (hlast : isAsciiWhitespace lastCh) {bytes : List UInt8}
    (hbytes : 10 ∉ bytes) (hlen : bytes.length ≤ argMaxLen) (hsize : s + bytes.length ≤ m) :
    (reading m request s [] (.argument lastCh)).feed (Argument.quoted bytes).render =
      (reading m { request with tokens := request.tokens ++ [Token.ofBytes bytes] }
        (s + bytes.length) [] (.argument 32), []) := by
  have hopen : (reading m request s [] (.argument lastCh) : Receiver T).feed [34] =
      (reading m request s [] (.argumentQuoted false), []) := by
    rw [feed_cons_of_none (parseByte_argument_quote rfl hlast rfl)]
    rfl
  have hclose : (reading m request s bytes (.argumentQuoted false) : Receiver T).feed [34] =
      (reading m { request with tokens := request.tokens ++ [Token.ofBytes bytes] }
        (s + bytes.length) [] (.argument 32), []) := by
    rw [feed_cons_of_none (parseByte_quoted_close rfl (by simp only [reading]; omega))]
    rfl
  exact feed_trans (feed_trans hopen (feed_escape [] hbytes (by simpa using hlen))) hclose

/-- The opening of a literal: `{` after whitespace, or `~{` for a `literal8`. -/
theorem feed_literal_open {lastCh : UInt8} (kind : LiteralKind)
    (hlast : kind = .literal8 ∨ isAsciiWhitespace lastCh) :
    (reading m request s [] (.argument lastCh)).feed
        ((if kind = .literal8 then [126] else []) ++ [123]) =
      (reading m request s [] (.literal false), []) := by
  by_cases h8 : kind = .literal8
  · -- the `~` goes into the buffer as an atom would, and the brace drops it
    have hfirst : (reading m request s [] (.argument lastCh) : Receiver T).feed [126] =
        (reading m request s [126] (.argument 126), []) := by
      rw [feed_cons_of_none (parseByte_argument_atom rfl (by decide) (by simp [bracketToken])
        (by simp [reading, argMaxLen]))]
      rfl
    have hbrace : (reading m request s [126] (.argument 126) : Receiver T).feed [123] =
        (reading m request s [] (.literal false), []) := by
      rw [feed_cons_of_none (parseByte_argument_tilde_brace
        (r := reading m request s [126] (.argument 126)) rfl rfl)]
      rfl
    rw [if_pos h8]
    exact feed_trans hfirst hbrace
  · rw [if_neg h8, List.nil_append,
      feed_cons_of_none (parseByte_argument_brace rfl (hlast.resolve_left h8) rfl)]
    rfl

/-- The size of a literal, its `+` if it is non-synchronising, its brace and the carriage return. -/
theorem feed_literal_header {n : Nat} (hn : n < 2 ^ 32) (hsize : s + n ≤ m) (nonSync : Bool) :
    (reading m request s [] (.literal false)).feed
        (decimal n ++ (if nonSync then [43] else []) ++ [125, 13]) =
      (reading m request s [] (.literalSeek (UInt32.ofNat n) nonSync), []) := by
  have hlen : (decimal n).length ≤ 10 := length_decimal_le 9 (by omega)
  have hdigits : (reading m request s [] (.literal false) : Receiver T).feed (decimal n) =
      (reading m request s (decimal n) (.literal false), []) := by
    rw [feed_buffered (fun r d hstate hd hlen => parseByte_literal_digit hstate hd hlen) rfl
      (fun d hd => isAsciiDigit_of_mem_decimal hd) (by simp only [reading, List.length_nil]; omega)]
    rfl
  have hplus : (reading m request s (decimal n) (.literal false) : Receiver T).feed
      (if nonSync then [43] else []) = (reading m request s (decimal n) (.literal nonSync), []) := by
    cases nonSync with
    | false => rfl
    | true =>
      have hne : decimal n ≠ [] := by simp [decimal, Nat.toDigits_ne_nil]
      rw [if_pos rfl, feed_cons_of_none (parseByte_literal_plus rfl hne)]
      rfl
  have hclose : (reading m request s (decimal n) (.literal nonSync) : Receiver T).feed [125, 13] =
      (reading m request s [] (.literalSeek (UInt32.ofNat n) nonSync), []) := by
    have hfits : s + (UInt32.ofNat n).toNat ≤ m := by
      rw [UInt32.toNat_ofNat_of_lt' hn]
      exact hsize
    rw [feed_cons_of_none (parseByte_literal_close rfl (parseU32_decimal hn) hfits),
      feed_cons_of_none (parseByte_literalSeek_cr rfl)]
    rfl
  exact feed_trans (feed_trans hdigits hplus) hclose

/-- The data of a literal goes into the buffer unchecked; its last byte pushes the argument. -/
theorem feed_literalData (pre : List UInt8) {bytes : List UInt8} (hne : bytes ≠ []) (hlen : bytes.length < 2 ^ 32)
    (hsize : s + pre.length + bytes.length ≤ m) :
    (reading m request s pre (.literalData (UInt32.ofNat bytes.length))).feed bytes =
      (reading m { request with tokens := request.tokens ++ [.argument (pre ++ bytes)] }
        (s + pre.length + bytes.length) [] (.argument 32), []) := by
  induction bytes generalizing pre with
  | nil => exact absurd rfl hne
  | cons b bytes ih =>
    cases bytes with
    | nil =>
      -- the last byte
      have hlast := parseByte_literalData_last
        (r := reading m request s pre (.literalData (UInt32.ofNat [b].length))) rfl b
        (by simp only [reading, List.length_cons, List.length_nil] at hsize ⊢; omega)
      rw [feed_cons_of_none hlast]
      simp [feed, flushed, flush, reading, Nat.add_assoc]
    | cons c cs =>
      -- more bytes follow: one less remains
      simp only [List.length_cons] at hlen hsize
      have hmore : 1 < UInt32.ofNat (cs.length + 1 + 1) := by
        rw [UInt32.lt_iff_toNat_lt]
        simp
        omega
      have hless : UInt32.ofNat (cs.length + 1 + 1) - 1 = UInt32.ofNat (cs.length + 1) := by
        apply UInt32.toNat_inj.mp
        rw [UInt32.toNat_sub_of_le]
        · simp
          omega
        · rw [UInt32.le_iff_toNat_le]
          simp
          omega
      have hrest := ih (pre ++ [b]) (List.cons_ne_nil c cs)
        (by simp only [List.length_cons]; omega)
        (by simp only [List.length_append, List.length_cons, List.length_nil]; omega)
      simp only [List.length_cons]
      rw [feed_cons_of_none (parseByte_literalData rfl hmore b), hless]
      rw [show pre ++ b :: c :: cs = pre ++ [b] ++ c :: cs by simp,
        show s + pre.length + (cs.length + 1 + 1) = s + (pre ++ [b]).length + (c :: cs).length by
          simp only [List.length_append, List.length_cons, List.length_nil]; omega]
      exact hrest

theorem feed_of_literalHeaderEnd {ch : UInt8} {r' : Receiver T} {size : UInt32} {nonSync : Bool}
    (h : r.parseByte ch = literalHeaderEnd r' size nonSync) :
    r.feed [ch] = (r', if nonSync then [] else [.error (.needsLiteral size)]) := by
  cases nonSync <;> simp [feed, h, literalHeaderEnd, after, returned]

/-- The line feed of a literal's header and its data: the argument, or `Nil` for an empty literal,
announced by `NeedsLiteral` when the literal is synchronising. -/
theorem feed_literal_body {bytes : List UInt8} {nonSync : Bool} (hlen : bytes.length < 2 ^ 32)
    (hsize : s + (if bytes = [] then 1 else bytes.length) ≤ m) :
    (reading m request s [] (.literalSeek (UInt32.ofNat bytes.length) nonSync)).feed (10 :: bytes) =
      (reading m { request with tokens := request.tokens ++ [Token.ofBytes bytes] }
        (s + if bytes = [] then 1 else bytes.length) [] (.argument 32),
        if nonSync then [] else [.error (.needsLiteral (UInt32.ofNat bytes.length))]) := by
  by_cases hne : bytes = []
  · subst hne
    have hnil := parseByte_literalSeek_nil
      (r := reading m request s [] (.literalSeek (UInt32.ofNat ([] : List UInt8).length) nonSync)) rfl
      (by simpa [reading] using hsize)
    rw [feed_of_literalHeaderEnd hnil]
    simp [reading, Token.ofBytes]
  · rw [if_neg hne] at hsize ⊢
    have hpos : 0 < UInt32.ofNat bytes.length := by
      rw [UInt32.lt_iff_toNat_lt]
      simp only [UInt32.toNat_zero, UInt32.toNat_ofNat_of_lt' hlen]
      exact List.length_pos_of_ne_nil hne
    have hheader := feed_of_literalHeaderEnd (parseByte_literalSeek_data
      (r := reading m request s [] (.literalSeek (UInt32.ofNat bytes.length) nonSync)) rfl hpos)
    have hdata : (reading m request s [] (.literalData (UInt32.ofNat bytes.length)) : Receiver T).feed
        bytes = (reading m { request with tokens := request.tokens ++ [.argument bytes] }
          (s + bytes.length) [] (.argument 32), []) :=
      feed_literalData [] hne hlen (by simpa using hsize)
    rw [show 10 :: bytes = [10] ++ bytes from rfl, feed_trans hheader hdata, List.append_nil]
    simp [Token.ofBytes, hne]

theorem feed_literal {lastCh : UInt8} {kind : LiteralKind} {bytes : List UInt8}
    (hlast : kind = .literal8 ∨ isAsciiWhitespace lastCh) (hlen : bytes.length < 2 ^ 32)
    (hsize : s + (Argument.literal kind bytes).size ≤ m) :
    (reading m request s [] (.argument lastCh)).feed (Argument.literal kind bytes).render =
      (reading m { request with tokens := request.tokens ++ [Token.ofBytes bytes] }
        (s + (Argument.literal kind bytes).size) [] (.argument 32),
        (Argument.literal kind bytes).announced) := by
  have hn : s + bytes.length ≤ m := by
    simp only [Argument.size] at hsize
    split_ifs at hsize with hnil
    · simp [hnil]
      omega
    · exact hsize
  have hrender : (Argument.literal kind bytes).render =
      ((if kind = .literal8 then [126] else []) ++ [123]) ++
        (decimal bytes.length ++ (if decide (kind = .nonSync) then [43] else []) ++ [125, 13]) ++
        (10 :: bytes) := by
    simp [Argument.render]
  rw [hrender, feed_trans (feed_trans (feed_literal_open kind hlast) (feed_literal_header hlen hn _))
    (feed_literal_body hlen hsize)]
  cases kind <;> rfl

/-- The line feed returns the request, and the receiver starts over. -/
theorem feed_newline {pending : List UInt8} {lastCh : UInt8} (hsize : s + pending.length ≤ m) :
    (reading m request s pending (.argument lastCh)).feed [10] =
      (fresh m .start, [.ok { request with tokens := request.tokens ++ flush pending }]) := by
  simp [feed, parseByte_argument_newline (r := reading m request s pending (.argument lastCh)) rfl
    hsize, after, returned]
  exact ⟨rfl, rfl⟩

/-! ### The receiver follows the view -/

omit [CommandParser T] in
/-- The receiver in the argument state of a view: its tokens, size and buffer, and a `last_ch` that
is whitespace exactly when the view says so. -/
def Holds (m : Nat) (request : Request T) (v : View) (r : Receiver T) : Prop :=
  ∃ lastCh, r = reading m { request with tokens := v.pushed } v.size v.pending (.argument lastCh) ∧
    isAsciiWhitespace lastCh = v.spaced

variable {v : View}

omit [CommandParser T] in
/-- After the command name. -/
theorem holds_start {text : String} {command : T} :
    Holds m ⟨text, command, []⟩ View.start (reading m ⟨text, command, []⟩ 0 [] (.argument 32)) :=
  ⟨32, rfl, rfl⟩

theorem Holds.feed_blank (h : Holds m request v r) {b : UInt8} (hb : isBlank b) (hload : v.load ≤ m) :
    ∃ r', r.feed [b] = (r', []) ∧ Holds m request v.blank r' := by
  obtain ⟨lastCh, rfl, -⟩ := h
  exact ⟨_, feed_cons_of_none (parseByte_argument_space
    (r := reading m { request with tokens := v.pushed } v.size v.pending (.argument lastCh)) rfl hb
    hload) [], b, rfl, isAsciiWhitespace_of_isBlank hb⟩

theorem Holds.feed_blanks {sep : List UInt8} (hsep : ∀ b ∈ sep, isBlank b) (hload : v.load ≤ m)
    (h : Holds m request v r) : ∃ r', r.feed sep = (r', []) ∧ Holds m request (v.blanks sep) r' := by
  induction sep generalizing v r with
  | nil => exact ⟨r, rfl, h⟩
  | cons b sep ih =>
    obtain ⟨r₁, hfeed₁, h₁⟩ := h.feed_blank (hsep b List.mem_cons_self) hload
    obtain ⟨r₂, hfeed₂, h₂⟩ := ih (fun b' hb' => hsep b' (List.mem_cons_of_mem _ hb'))
      (by rwa [View.load_blank]) h₁
    have hfeed := feed_trans hfeed₁ hfeed₂
    exact ⟨r₂, hfeed, h₂⟩

omit [CommandParser T] in
/-- A structural token: a parenthesis, or a bracket token. -/
theorem Holds.structural (h : Holds m request v r) (token : Token) :
    Holds m request (v.structural token) (r.structural token) := by
  obtain ⟨lastCh, rfl, hlast⟩ := h
  exact ⟨lastCh, rfl, hlast⟩

/-- The bytes of an atom, each a bracket token or a byte of the run in the buffer. -/
theorem Holds.feed_atomBytes {bytes : List UInt8} (hbytes : ∀ b ∈ bytes, Argument.atomChar b)
    (hfit : runsFit (CommandParser.tokenizeBrackets request.command) v.pending.length bytes)
    (hload : v.load + bytes.length ≤ m) (h : Holds m request v r) :
    ∃ r', r.feed bytes = (r', []) ∧
      Holds m request (bytes.foldl (View.atomByte (CommandParser.tokenizeBrackets request.command)) v) r' := by
  induction bytes generalizing v r with
  | nil => exact ⟨r, rfl, h⟩
  | cons b bytes ih =>
    have hb := hbytes b List.mem_cons_self
    have hrest : ∀ b' ∈ bytes, Argument.atomChar b' := fun b' hb' => hbytes b' (List.mem_cons_of_mem _ hb')
    simp only [List.length_cons] at hload
    obtain ⟨lastCh, rfl, hlast⟩ := h
    rcases View.atomByte_cases (CommandParser.tokenizeBrackets request.command) v b with
      ⟨token, htoken, htb, hbyte, -, hruns⟩ | ⟨hbracket, hbyte, -, hruns⟩
    · -- a bracket token pushes the run before it
      rw [hruns] at hfit
      have hstep := parseByte_argument_bracket (r := reading m { request with tokens := v.pushed }
        v.size v.pending (.argument lastCh)) rfl htoken htb (by simp only [reading, View.load] at hload ⊢; omega)
      obtain ⟨r', hfeed, h'⟩ := ih hrest (v := v.structural token) hfit
        (by rw [View.load_structural]; omega) (Holds.structural ⟨lastCh, rfl, hlast⟩ token)
      refine ⟨r', ?_, by rwa [List.foldl_cons, hbyte]⟩
      rw [feed_cons_of_none hstep]
      exact hfeed
    · -- any other byte joins the run
      rw [hruns, Bool.and_eq_true, decide_eq_true_eq] at hfit
      have hstep := parseByte_argument_atom (r := reading m { request with tokens := v.pushed }
        v.size v.pending (.argument lastCh)) rfl hb hbracket hfit.1
      have hspace : isAsciiWhitespace b = false := by
        simp only [Argument.atomChar, Bool.and_eq_true, Bool.not_eq_true'] at hb
        exact hb.1.1.1.1
      obtain ⟨r', hfeed, h'⟩ := ih hrest (v := ⟨v.pushed, v.size, v.pending ++ [b], false⟩)
        (by simpa using hfit.2) (by simp only [View.load, List.length_append, List.length_singleton] at hload ⊢; omega)
        ⟨b, rfl, hspace⟩
      refine ⟨r', ?_, by rwa [List.foldl_cons, hbyte]⟩
      rw [feed_cons_of_none hstep]
      exact hfeed

/-- **One argument**, started where the receiver reads it as one. -/
theorem Holds.feed_arg {a : Argument} (ha : a.WellFormed (CommandParser.tokenizeBrackets request.command))
    (hopens : a.opens v) (hload : v.load + a.size ≤ m) (h : Holds m request v r) :
    ∃ r', r.feed a.render = (r', a.announced) ∧
      Holds m request (v.arg (CommandParser.tokenizeBrackets request.command) a) r' := by
  cases a with
  | atom bytes =>
    have hpending : v.pending = [] := by simpa [Argument.opens] using hopens
    have hatom : ∃ r', r.feed bytes = (r', []) ∧
        Holds m request (bytes.foldl (View.atomByte (CommandParser.tokenizeBrackets request.command)) v) r' :=
      h.feed_atomBytes ha.2.2 (by simpa [hpending] using ha.2.1) hload
    exact hatom
  | quoted bytes =>
    obtain ⟨hpending, hspaced⟩ : v.pending = [] ∧ v.spaced = true := by
      simpa [Argument.opens] using hopens
    obtain ⟨lastCh, rfl, hlast⟩ := h
    rw [hpending]
    refine ⟨_, feed_quoted (hlast.trans hspaced) ha.2 ha.1
      (by simpa [View.load, hpending, Argument.size] using hload), 32, ?_, rfl⟩
    simp [View.arg, View.tokens, View.load, hpending, flush, reading]
  | literal kind bytes =>
    have hopens' : v.pending = [] ∧ (kind = .literal8 ∨ v.spaced = true) := by
      cases kind <;> simp_all [Argument.opens]
    obtain ⟨lastCh, rfl, hlast⟩ := h
    rw [hopens'.1]
    refine ⟨_, feed_literal (hopens'.2.imp_right hlast.trans) ha
      (by simpa [View.load, hopens'.1] using hload), 32, ?_, rfl⟩
    simp [View.arg, View.tokens, View.load, hopens'.1, flush, reading, Argument.size]
  | parenthesisOpen =>
    obtain ⟨lastCh, rfl, hlast⟩ := h
    refine ⟨_, feed_cons_of_none (parseByte_argument_paren rfl (.inl rfl)
      (by simpa [View.load, Argument.size, reading] using hload)) [], ?_⟩
    exact Holds.structural ⟨lastCh, rfl, hlast⟩ .parenthesisOpen
  | parenthesisClose =>
    obtain ⟨lastCh, rfl, hlast⟩ := h
    refine ⟨_, feed_cons_of_none (parseByte_argument_paren rfl (.inr rfl)
      (by simpa [View.load, Argument.size, reading] using hload)) [], ?_⟩
    exact Holds.structural ⟨lastCh, rfl, hlast⟩ .parenthesisClose

/-- **The arguments**, each after its separator: the receiver follows the view. -/
theorem Holds.feed_items {items : List (List UInt8 × Argument)}
    (hsep : separated (CommandParser.tokenizeBrackets request.command) v items)
    (hwf : ∀ item ∈ items, item.2.WellFormed (CommandParser.tokenizeBrackets request.command))
    (hblanks : ∀ b ∈ items.flatMap Prod.fst, isBlank b)
    (hload : v.load + (items.map (·.2.size)).sum ≤ m) (h : Holds m request v r) :
    ∃ r', r.feed (items.flatMap fun item => item.1 ++ item.2.render) =
        (r', items.flatMap (·.2.announced)) ∧
      Holds m request (items.foldl (View.item (CommandParser.tokenizeBrackets request.command)) v) r' := by
  induction items generalizing v r with
  | nil => exact ⟨r, rfl, h⟩
  | cons item items ih =>
    obtain ⟨sep, a⟩ := item
    simp only [separated, Bool.and_eq_true] at hsep
    simp only [List.flatMap_cons, List.mem_append] at hblanks
    have hload₁ : v.load + a.size + (items.map (·.2.size)).sum ≤ m := by
      simpa [Nat.add_assoc] using hload
    obtain ⟨r₁, hfeed₁, h₁⟩ := h.feed_blanks (fun b hb => hblanks b (.inl hb)) (by omega)
    obtain ⟨r₂, hfeed₂, h₂⟩ := h₁.feed_arg (hwf _ List.mem_cons_self) hsep.1
      (by rw [View.load_blanks]; dsimp only; omega)
    have hload₂ : (View.item (CommandParser.tokenizeBrackets request.command) v (sep, a)).load +
        (items.map (·.2.size)).sum ≤ m := by
      rw [View.item, View.load_arg, View.load_blanks]
      omega
    obtain ⟨r₃, hfeed₃, h₃⟩ := ih hsep.2 (fun i hi => hwf i (List.mem_cons_of_mem _ hi))
      (fun b hb => hblanks b (.inr hb)) hload₂ h₂
    have hall := feed_trans hfeed₁ (feed_trans hfeed₂ hfeed₃)
    rw [List.nil_append] at hall
    refine ⟨r₃, ?_, h₃⟩
    rw [List.flatMap_cons, List.flatMap_cons, List.append_assoc]
    exact hall

/-- The line feed returns the request with the tokens of the view. -/
theorem Holds.feed_newline (h : Holds m request v r) (hload : v.load ≤ m) :
    r.feed [10] = (fresh m .start, [.ok { request with tokens := v.tokens }]) := by
  obtain ⟨lastCh, rfl, -⟩ := h
  exact feed_newline hload

/-- The arguments, the blanks before the line feed, and the line feed: the request, with the tokens
of the arguments. -/
theorem Holds.feed_rest {items : List (List UInt8 × Argument)} {trail : List UInt8}
    (hsep : separated (CommandParser.tokenizeBrackets request.command) v items)
    (hwf : ∀ item ∈ items, item.2.WellFormed (CommandParser.tokenizeBrackets request.command))
    (hblanks : ∀ b ∈ items.flatMap Prod.fst ++ trail, isBlank b)
    (hload : v.load + (items.map (·.2.size)).sum ≤ m) (h : Holds m request v r) :
    r.feed ((items.flatMap fun item => item.1 ++ item.2.render) ++ trail ++ [10]) =
      (fresh m .start, items.flatMap (·.2.announced) ++
        [.ok { request with tokens :=
          v.tokens ++ items.flatMap (·.2.tokens (CommandParser.tokenizeBrackets request.command)) }]) := by
  obtain ⟨r₁, hfeed₁, h₁⟩ := h.feed_items hsep hwf (fun b hb => hblanks b (List.mem_append_left _ hb))
    hload
  have hload₁ : (items.foldl (View.item (CommandParser.tokenizeBrackets request.command)) v).load =
      v.load + (items.map (·.2.size)).sum :=
    View.load_items items v
  obtain ⟨r₂, hfeed₂, h₂⟩ := h₁.feed_blanks (fun b hb => hblanks b (List.mem_append_right _ hb))
    (by omega)
  have hend := h₂.feed_newline (by rw [View.load_blanks]; omega)
  rw [View.tokens_blanks, View.tokens_items items v hsep] at hend
  have hall := feed_trans (feed_trans hfeed₁ hfeed₂) hend
  simpa only [List.append_nil, List.append_assoc] using hall

/-- The blank that ends the command name leaves the receiver as the first blank of a separator
leaves the view: after whitespace, with nothing in the buffer. -/
theorem separated_start_cons {tb : Bool} {b : UInt8} {sep : List UInt8} {a : Argument}
    {items : List (List UInt8 × Argument)} :
    separated tb View.start ((b :: sep, a) :: items) = separated tb View.start ((sep, a) :: items) := by
  simp only [separated, View.item, View.blanks, List.foldl_cons, View.start_blank]

/-- **The line after the command name.** -/
theorem feed_afterName {text : String} (name : CommandName T) {args : List (List UInt8 × Argument)}
    {trail : List UInt8} (hblanks : ∀ b ∈ args.flatMap Prod.fst ++ trail, isBlank b)
    (hended : ∀ arg ∈ args.head?, arg.1 ≠ [])
    (hwf : ∀ arg ∈ args, arg.2.WellFormed (CommandParser.tokenizeBrackets name.command))
    (hsep : separated (CommandParser.tokenizeBrackets name.command) View.start args)
    (hsize : (args.map (·.2.size)).sum ≤ m) :
    (reading m ⟨text, default, []⟩ 0 name.bytes (.command name.isUid)).feed
        ((args.flatMap fun arg => arg.1 ++ arg.2.render) ++ trail ++ [10]) =
      (fresh m .start, args.flatMap (·.2.announced) ++
        [.ok ⟨text, name.command, args.flatMap (·.2.tokens (CommandParser.tokenizeBrackets name.command))⟩]) := by
  -- a blank after the name reads the command, and the arguments follow
  have hend : ∀ b : UInt8, isBlank b →
      (reading m ⟨text, default, []⟩ 0 name.bytes (.command name.isUid) : Receiver T).parseByte b =
        .ok (reading m ⟨text, name.command, []⟩ 0 [] (.argument 32), none) :=
    fun b hb => parseByte_command_end rfl name.ne_nil name.not_uid name.parse_eq hb
  have hstart : View.start.load + (args.map (·.2.size)).sum ≤ m := by
    simpa [View.load, View.start] using hsize
  cases args with
  | nil =>
    cases trail with
    | nil =>
      -- the line feed right after the name
      simp [feed, parseByte_command_newline (r := reading m ⟨text, default, []⟩ 0 name.bytes
        (.command name.isUid)) rfl name.ne_nil name.not_uid name.parse_eq, after, returned]
      exact ⟨rfl, rfl⟩
    | cons b bs =>
      simp only [List.flatMap_nil, List.nil_append, List.cons_append] at hblanks ⊢
      rw [feed_cons_of_none (hend b (hblanks b List.mem_cons_self))]
      have hrest : (reading m ⟨text, name.command, []⟩ 0 [] (.argument 32) : Receiver T).feed
          ((([] : List (List UInt8 × Argument)).flatMap fun arg => arg.1 ++ arg.2.render) ++ bs ++ [10]) =
        (fresh m .start, ([] : List (List UInt8 × Argument)).flatMap (·.2.announced) ++
          [.ok ⟨text, name.command, View.start.tokens ++ ([] : List (List UInt8 × Argument)).flatMap
              (·.2.tokens (CommandParser.tokenizeBrackets name.command))⟩]) :=
        holds_start.feed_rest rfl (by simp)
          (fun b' hb' => hblanks b' (by simpa using List.mem_cons_of_mem _ hb')) hstart
      simpa using hrest
  | cons arg args =>
    obtain ⟨sep, a⟩ := arg
    obtain ⟨b, bs, rfl⟩ := List.exists_cons_of_ne_nil (hended _ rfl)
    have hb : isBlank b := hblanks b (by simp)
    rw [separated_start_cons] at hsep
    have hrest : (reading m ⟨text, name.command, []⟩ 0 [] (.argument 32) : Receiver T).feed
        ((((bs, a) :: args).flatMap fun arg => arg.1 ++ arg.2.render) ++ trail ++ [10]) =
      (fresh m .start, ((bs, a) :: args).flatMap (·.2.announced) ++
        [.ok ⟨text, name.command, View.start.tokens ++
          ((bs, a) :: args).flatMap (·.2.tokens (CommandParser.tokenizeBrackets name.command))⟩]) :=
      holds_start.feed_rest hsep
        (fun i hi => by
          rcases List.mem_cons.mp hi with rfl | hi
          · exact hwf (b :: bs, a) List.mem_cons_self
          · exact hwf i (List.mem_cons_of_mem _ hi))
        (fun b' hb' => hblanks b' (by
          simp only [List.flatMap_cons, List.mem_append, List.mem_cons] at hb' ⊢
          tauto)) (by simpa using hstart)
    have hbytes : (((b :: bs, a) :: args).flatMap fun arg => arg.1 ++ arg.2.render) ++ trail ++ [10] =
        b :: ((((bs, a) :: args).flatMap fun arg => arg.1 ++ arg.2.render) ++ trail ++ [10]) := by
      simp
    rw [hbytes, feed_cons_of_none (hend b hb), hrest]
    simp

/-- **A command line is received as its request**, after the `NeedsLiteral` of its synchronising
literals, and the receiver is back where it started. -/
theorem feed_renderLine (line : Line T) (hsize : line.size ≤ m) :
    (fresh m .start : Receiver T).feed line.render = (fresh m .start, line.received) := by
  have hblanks := line.blanks
  simp only [List.mem_append] at hblanks
  have hrender : line.render = ((line.tag.bytes ++ [32]) ++
      (line.gap ++ (if line.name.isUid then ascii "UID" ++ line.uidGap else []) ++ line.name.bytes)) ++
        ((line.args.flatMap fun arg => arg.1 ++ arg.2.render) ++ line.trail ++ [10]) := by
    simp [Line.render]
  rw [hrender, feed_trans (feed_trans (feed_tag line.tag)
    (feed_commandName line.name (fun b hb => hblanks b (by tauto)) (fun b hb => hblanks b (by tauto))
      line.uid_ended))
    (feed_afterName line.name (fun b hb => hblanks b (by simp only [List.mem_append] at hb; tauto))
      line.name_ended line.wellFormed line.separated hsize)]
  rfl

theorem client_receives_line (line : Line T) (hsize : line.size ≤ m) {frames : List (List UInt8)}
    (hframes : frames.flatten = line.render) (r' : Receiver T)
    (results : List (Except Error (Request T))) :
    Client (fresh m .start) frames r' results ↔ r' = fresh m .start ∧ results = line.received := by
  have hstart : Accounted m (fresh m .start : Receiver T) 0 := Starts.accounted ⟨rfl, rfl, rfl⟩
  have hfeed := feed_renderLine line hsize
  rw [← hframes] at hfeed
  constructor
  · -- a client's run is the feed of the frames, which is the line's
    intro hclient
    have hrun := hclient.feed hstart
    rw [hfeed, Prod.mk.injEq] at hrun
    exact ⟨hrun.1.symm, hrun.2.symm⟩
  · -- and the feed of the frames is a client's run
    rintro ⟨rfl, rfl⟩
    have hrun := client_of_feed hstart frames
    rw [hfeed] at hrun
    exact hrun

end Receiver

open Receiver

/-- `A1 UID FETCH 1:2 (FLAGS BODY.PEEK[HEADER.FIELDS (FROM)]<0.10>) {3}` and the literal `abc`:
parentheses against their neighbours, and the brackets, `<`, `>` and `.` of `FETCH` as tokens. -/
def fetchLine : Line Command where
  tag := ⟨ascii "A1", "A1", by decide, by decide,
    forall_mem_of_all (by decide), by decide +kernel⟩
  gap := []
  name := ⟨ascii "FETCH", true, .fetch true, by decide, by decide,
    forall_mem_of_all (by decide), by decide, by decide⟩
  uidGap := ascii " "
  args := [(ascii " ", .atom (ascii "1:2")), (ascii " ", .parenthesisOpen), ([], .atom (ascii "FLAGS")),
    (ascii " ", .atom (ascii "BODY.PEEK[HEADER.FIELDS")), (ascii " ", .parenthesisOpen),
    ([], .atom (ascii "FROM")), ([], .parenthesisClose), ([], .atom (ascii "]<0.10>")),
    ([], .parenthesisClose), (ascii " ", .literal .sync (ascii "abc"))]
  trail := ascii "\r"
  blanks := forall_mem_of_all (by decide)
  uid_ended := fun _ => by decide
  name_ended := by decide
  wellFormed := by decide
  separated := by decide

theorem client_receives_fetchLine :
    Client (fresh 100 .start)
        [ascii "A1 UID FETCH 1:2 (FLAGS BODY.PE", ascii "EK[HEADER.FIELDS (FROM)]<0.10>) {3}\r\n",
          ascii "abc\r\n"]
        (fresh 100 .start) fetchLine.received :=
  (client_receives_line fetchLine (by decide) (by decide) _ _).mpr ⟨rfl, rfl⟩

/-- A quoted string with a line feed fails the request, and the rest of the line fails as a tag
with no command: two errors, and no request. -/
theorem quoted_newline_rejected :
    (feed (fresh (25 * 1024 * 1024) .start : Receiver Command)
        (ascii "A1 NOOP \"a\nb\"\r\n")).2.head? =
      some (.error (.error (some "A1") "Unterminated quoted argument.")) ∧
    ((feed (fresh (25 * 1024 * 1024) .start : Receiver Command)
        (ascii "A1 NOOP \"a\nb\"\r\n")).2.map Except.toBool) = [false, false] := by
  constructor <;> decide +kernel

end Stalwart.Imap.Proto
