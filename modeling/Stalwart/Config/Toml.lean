import Stalwart.Config.Cron

/-!
# The configuration parser (`utils::config::parser`)

`Config::parse` reads a TOML-like text into a map from dotted keys to strings. It reads line by
line. A `[table]` or `[[array]]` header sets the prefix of the keys that follow. A `key = value`
line inserts one key, or several for an array `[..]` or an inline table `{..}`, whose entries
get the key, a dot and a four-digit index or the inner key. A value is a bare word, a string in
`"` or `'` with the escapes `\t`, `\r`, `\n` and a backslash before any other character, or a
string in `'''` or `"""` read as it is, less a first line feed. `next_char` drops every
carriage return, inside strings too. A key read twice is an error.

Each reader of the parser takes characters off the front of the text. `value` and the loops of
arrays and inline tables call each other. `value` always reads at least one character, and its
result says so (`Read`): that is the measure the three are defined on.

The map of keys is a `BTreeMap` in the source; here it is the list of the keys in the order
they were inserted. `insert_key` refuses a key it has seen, so the list has no key twice, and as
a map it is the source's. `char::is_alphanumeric` is taken on ASCII (`isAlphanumeric`).

## What is proved

The readers each read past what they return (`nextChar_length` and the lemmas after it), and
`Config.new` is total. What the parser reads back from the lines `update_local` writes is in
`Stalwart.Config.Local`.
-/

set_option autoImplicit false
set_option linter.dupNamespace false

namespace Stalwart.Config

open Stalwart.Expr (debugString debugChar)

/-- `MAX_NEST_LEVEL`. -/
def maxNestLevel : Nat := 10

/-- `char::is_alphanumeric`, on ASCII. -/
def isAlphanumeric (ch : Char) : Bool :=
  ch.isAlphanum

/-- `{:?}` of a slice of characters. -/
def debugChars (chars : List Char) : String :=
  "[" ++ ", ".intercalate (chars.map debugChar) ++ "]"

/-- `{:04}`: a number with zeros in front, to four digits at least. -/
def pad4 (n : Nat) : List Char :=
  let digits := (Nat.repr n).toList
  List.replicate (4 - digits.length) '0' ++ digits

/-- `TomlParser`: the keys inserted so far, what is left of the text, and the line it is on. -/
structure TomlParser where
  keys : List (List Char × List Char)
  iter : List Char
  line : Nat

namespace TomlParser

/-- `TomlParser::new`. -/
def new (keys : List (List Char × List Char)) (toml : List Char) : TomlParser :=
  ⟨keys, toml, 1⟩

/-- `skip_line`: up to the next line feed, with it. -/
def skipLine (p : TomlParser) : TomlParser :=
  match _h : p.iter with
  | [] => p
  | ch :: rest =>
    if ch = '\n' then { p with iter := rest, line := p.line + 1 }
    else skipLine { p with iter := rest }
termination_by p.iter.length
decreasing_by simp [_h]

theorem skipLine_length (p : TomlParser) : p.skipLine.iter.length ≤ p.iter.length := by
  fun_induction skipLine p with
  | case1 => exact Nat.le_refl _
  | case2 p rest h => simp [h]
  | case3 p ch rest h _ ih =>
    rw [h, List.length_cons]
    exact Nat.le_succ_of_le ih

/-- `skip_line` reads the character it starts on. -/
theorem skipLine_length_lt {p : TomlParser} {ch : Char} {rest : List Char}
    (h : p.iter = ch :: rest) : p.skipLine.iter.length < p.iter.length := by
  rw [skipLine]
  split
  · simp_all
  · rename_i ch' rest' h'
    rw [h] at h'
    obtain ⟨rfl, rfl⟩ := List.cons.inj h'
    split
    · simp [h]
    · have hle := skipLine_length { p with iter := rest }
      simp only at hle
      rw [h, List.length_cons]
      omega

/-- `seek_next_char`: past blanks, line ends and comments; whether a character is left. -/
def seekNextChar (p : TomlParser) : Bool × TomlParser :=
  match h : p.iter with
  | [] => (false, p)
  | ch :: rest =>
    if ch = '\n' then seekNextChar { p with iter := rest, line := p.line + 1 }
    else if ch = '\r' ∨ ch = ' ' ∨ ch = '\t' then seekNextChar { p with iter := rest }
    else if ch = '#' then
      have : p.skipLine.iter.length < p.iter.length := skipLine_length_lt h
      seekNextChar p.skipLine
    else (true, p)
termination_by p.iter.length
decreasing_by all_goals simp_all

theorem seekNextChar_length (p : TomlParser) : p.seekNextChar.2.iter.length ≤ p.iter.length := by
  fun_induction seekNextChar p with
  | case1 | case5 => exact Nat.le_refl _
  | case2 p rest h ih | case3 p _ rest h _ _ ih =>
    simp only [h, List.length_cons] at ih ⊢
    omega
  | case4 _ _ _ _ _ hlt ih => exact Nat.le_of_lt (Nat.lt_of_le_of_lt ih hlt)

/-- `peek_char`. -/
def peekChar (p : TomlParser) : Except String Char :=
  match p.iter with
  | [] => .error ""
  | ch :: _ => .ok ch

/-- `next_char`: the next character past carriage returns and, with `skipWsp`, blanks. A line
feed is an error unless `allowLf`. -/
def nextChar (skipWsp allowLf : Bool) (p : TomlParser) : Except String (Char × TomlParser) :=
  match _h : p.iter with
  | [] => .error ("Unexpected EOF at line: " ++ toString p.line)
  | ch :: rest =>
    if ch = '\r' ∨ (skipWsp ∧ (ch = ' ' ∨ ch = '\t')) then nextChar skipWsp allowLf { p with iter := rest }
    else if ch = '\n' then
      if allowLf then .ok (ch, { p with iter := rest, line := p.line + 1 })
      else .error ("Unexpected end of line at line: " ++ toString p.line)
    else .ok (ch, { p with iter := rest })
termination_by p.iter.length
decreasing_by simp [_h]

theorem nextChar_length {skipWsp allowLf : Bool} {p p' : TomlParser} {ch : Char}
    (h : p.nextChar skipWsp allowLf = .ok (ch, p')) : p'.iter.length < p.iter.length := by
  fun_induction nextChar skipWsp allowLf p with
  | case1 | case4 => cases h
  | case2 _ _ _ hcons _ ih =>
    rw [hcons, List.length_cons]
    exact Nat.lt_succ_of_lt (ih h)
  | case3 _ _ _ hcons _ | case5 _ _ _ hcons _ _ =>
    cases h
    simp [hcons]

/-- `key`'s loop. `startKeyLen` is the length of the key it was given, and `quoted` the last
character of a quoted part it is in. -/
def keyLoop (startKeyLen : Nat) (inCurly : Bool) (key : List Char) (quoted : Option Char)
    (p : TomlParser) : Except String ((List Char × Char) × TomlParser) :=
  match _h : p.iter with
  | [] => .error ("Unexpected EOF at line: " ++ toString p.line)
  | ch :: rest =>
    let p' := { p with iter := rest }
    match quoted with
    | some lastCh =>
      if ch = '\\' then keyLoop startKeyLen inCurly key (some ch) p'
      else if ch = '"' ∧ lastCh ≠ '\\' then keyLoop startKeyLen inCurly key none p'
      else if ch = '\n' then
        .error ("Unexpected end of line while parsing quoted key at line: " ++ toString p.line)
      else keyLoop startKeyLen inCurly (key ++ [ch]) (some ch) p'
    | none =>
      if ch = '=' ∨ (inCurly ∧ (ch = ',' ∨ ch = '}')) then
        if startKeyLen ≠ key.length then .ok ((key, ch), p')
        else .error ("Empty key at line: " ++ toString p.line)
      else if ch = '"' then keyLoop startKeyLen inCurly key (some (Char.ofNat 0)) p'
      else if ch = ' ' ∨ ch = '\t' ∨ ch = '\r' then keyLoop startKeyLen inCurly key none p'
      else if ch = '\n' then
        if startKeyLen = key.length then
          keyLoop startKeyLen inCurly key none { p' with line := p.line + 1 }
        else
          .error ("Unexpected end of line while parsing key " ++ debugString (String.ofList key) ++
            " at line: " ++ toString p.line)
      else keyLoop startKeyLen inCurly (key ++ [ch]) none p'
termination_by p.iter.length
decreasing_by all_goals simp [_h]

/-- `key`: the key after `key`, and the character it ended at. -/
def key (key : List Char) (inCurly : Bool) (p : TomlParser) :
    Except String ((List Char × Char) × TomlParser) :=
  keyLoop key.length inCurly key none p

theorem keyLoop_length {startKeyLen : Nat} {inCurly : Bool} {key : List Char}
    {quoted : Option Char} {p p' : TomlParser} {result : List Char × Char}
    (h : keyLoop startKeyLen inCurly key quoted p = .ok (result, p')) :
    p'.iter.length < p.iter.length := by
  fun_induction keyLoop startKeyLen inCurly key quoted p with
  | case1 | case4 | case7 | case11 => cases h
  | case6 _ _ _ _ hcons _ _ _ =>
    obtain ⟨-, rfl⟩ := Prod.mk.inj (Except.ok.inj h)
    rw [hcons]
    exact Nat.lt_succ_self _
  | case2 _ _ _ _ _ hcons ih | case3 _ _ _ _ hcons _ _ _ _ ih
  | case5 _ _ _ _ hcons _ _ _ _ _ ih | case8 _ _ _ _ hcons _ ih
  | case9 _ _ _ _ hcons _ _ _ _ ih | case10 _ _ _ _ _ hcons _ _ _ ih
  | case12 _ _ _ _ hcons _ _ _ _ _ ih =>
    rw [hcons, List.length_cons]
    exact Nat.lt_succ_of_lt (ih h)

theorem key_length {key' : List Char} {inCurly : Bool} {p p' : TomlParser}
    {result : List Char × Char} (h : p.key key' inCurly = .ok (result, p')) :
    p'.iter.length < p.iter.length :=
  keyLoop_length h

/-- `insert_key`: a key the map has is an error. -/
def insertKey (key value : List Char) (p : TomlParser) : Except String TomlParser :=
  if key ∈ p.keys.map (·.1) then
    .error ("Duplicate key " ++ debugString (String.ofList key) ++ " at line " ++ toString p.line ++ ".")
  else .ok { p with keys := p.keys ++ [(key, value)] }

theorem insertKey_iter {key value : List Char} {p p' : TomlParser} (h : p.insertKey key value = .ok p') :
    p'.iter = p.iter := by
  unfold insertKey at h
  split at h
  · cases h
  · cases h
    rfl

/-- The loop of a string in triple quotes: every character up to three quotes in a row, which
close the string; `last` and `prevLast` are the last two characters read. -/
def tripleLoop (qch last prevLast : Char) (value : List Char) (p : TomlParser) :
    Except String (List Char × TomlParser) :=
  match h : p.nextChar false true with
  | .error e => .error e
  | .ok (ch, p') =>
    have : p'.iter.length < p.iter.length := nextChar_length h
    if ¬(ch = qch ∧ last = qch ∧ prevLast = qch) then tripleLoop qch ch last (value ++ [ch]) p'
    else .ok (value.take (value.length - 2), p')
termination_by p.iter.length

/-- The loop of a string in single quotes, with its escapes; `last` is the last character
read. -/
def quotedLoop (qch last : Char) (value : List Char) (p : TomlParser) :
    Except String (List Char × TomlParser) :=
  match h : p.nextChar false true with
  | .error e => .error e
  | .ok (ch, p') =>
    have : p'.iter.length < p.iter.length := nextChar_length h
    if ch = '\\' ∧ last ≠ '\\' then quotedLoop qch ch value p'
    else if ch = 't' ∧ last = '\\' then quotedLoop qch ch (value ++ ['\t']) p'
    else if ch = 'r' ∧ last = '\\' then quotedLoop qch ch (value ++ ['\r']) p'
    else if ch = 'n' ∧ last = '\\' then quotedLoop qch ch (value ++ ['\n']) p'
    else if ch ≠ qch ∨ last = '\\' then quotedLoop qch ch (value ++ [ch]) p'
    else .ok (value, p')
termination_by p.iter.length

theorem tripleLoop_length {qch last prevLast : Char} {value value' : List Char}
    {p p' : TomlParser} (h : tripleLoop qch last prevLast value p = .ok (value', p')) :
    p'.iter.length < p.iter.length := by
  fun_induction tripleLoop qch last prevLast value p with
  | case1 => cases h
  | case2 _ _ _ _ _ _ _ hlt _ ih => exact Nat.lt_trans (ih h) hlt
  | case3 _ _ _ _ _ _ _ hlt _ =>
    cases h
    exact hlt

theorem quotedLoop_length {qch last : Char} {value value' : List Char} {p p' : TomlParser}
    (h : quotedLoop qch last value p = .ok (value', p')) : p'.iter.length < p.iter.length := by
  fun_induction quotedLoop qch last value p with
  | case1 => cases h
  | case7 _ _ _ _ _ _ hlt _ _ _ _ _ =>
    cases h
    exact hlt
  | case2 _ _ _ _ _ _ hlt _ ih | case3 _ _ _ _ _ _ hlt _ _ ih
  | case4 _ _ _ _ _ _ hlt _ _ _ ih | case5 _ _ _ _ _ _ hlt _ _ _ _ ih
  | case6 _ _ _ _ _ _ hlt _ _ _ _ _ ih =>
    exact Nat.lt_trans (ih h) hlt

/-- The arm of `value` for a string opened by `qch`: `""` is empty, three quotes open a string
read as it is, less a line feed right after them, and one opens a string with escapes. -/
def readString (qch : Char) (p : TomlParser) : Except String (List Char × TomlParser) :=
  match p.iter with
  | ch :: rest =>
    if ch = qch then
      match rest with
      | ch' :: rest' =>
        if ch' = qch then
          let p := { p with iter := rest' }
          match rest' with
          | '\n' :: rest'' => tripleLoop qch (Char.ofNat 0) (Char.ofNat 0) []
              { p with iter := rest'', line := p.line + 1 }
          | _ => tripleLoop qch (Char.ofNat 0) (Char.ofNat 0) [] p
        else .ok ([], { p with iter := rest })
      | [] => .ok ([], { p with iter := rest })
    else quotedLoop qch (Char.ofNat 0) [] p
  | [] => quotedLoop qch (Char.ofNat 0) [] p

theorem readString_length {qch : Char} {value : List Char} {p p' : TomlParser}
    (h : p.readString qch = .ok (value, p')) : p'.iter.length ≤ p.iter.length := by
  unfold readString at h
  split at h
  · rename_i ch rest hcons
    split at h
    · -- a quote after the opening one
      split at h
      · split at h
        · split at h
          all_goals
            have := tripleLoop_length h
            simp only [hcons, List.length_cons] at this ⊢
            omega
        · cases h
          simp [hcons]
      · cases h
        simp [hcons]
    · exact Nat.le_of_lt (quotedLoop_length h)
  · exact Nat.le_of_lt (quotedLoop_length h)

/-- A character of a bare value. -/
def isBareChar (ch : Char) : Bool :=
  isAlphanumeric ch || ch ∈ ['.', '+', '-']

/-- The arm of `value` for a bare value: the characters of a bare value from the first on. Each
`next_char` there gives the character just looked at, which is neither a blank nor a line end. -/
def readBare (ch : Char) (p : TomlParser) : List Char × TomlParser :=
  (ch :: p.iter.takeWhile isBareChar, { p with iter := p.iter.dropWhile isBareChar })

theorem readBare_length (ch : Char) (p : TomlParser) :
    (p.readBare ch).2.iter.length ≤ p.iter.length := by
  simp only [readBare]
  exact (List.dropWhile_suffix isBareChar).length_le

/-- The loop at the end of `value`: past blanks, line feeds and comments, to a stop character. -/
def valueEnd (stopChars : List Char) (p : TomlParser) : Except String (Char × TomlParser) :=
  match h : p.nextChar true true with
  | .error e => .error e
  | .ok (ch, p') =>
    have : p'.iter.length < p.iter.length := nextChar_length h
    if ch = '#' then
      have := skipLine_length p'
      if '\n' ∈ stopChars then .ok ('\n', p'.skipLine) else valueEnd stopChars p'.skipLine
    else if ch ∈ stopChars then .ok (ch, p')
    else if ch = '\n' then valueEnd stopChars p'
    else
      .error ("Expected " ++ debugChars stopChars ++ " but found " ++ debugChar ch ++
        " in value at line " ++ toString p'.line ++ ".")
termination_by p.iter.length

theorem valueEnd_length {stopChars : List Char} {ch : Char} {p p' : TomlParser}
    (h : p.valueEnd stopChars = .ok (ch, p')) : p'.iter.length < p.iter.length := by
  fun_induction valueEnd stopChars p with
  | case1 | case6 => cases h
  | case2 _ _ hle _ _ hlt =>
    cases h
    exact Nat.lt_of_le_of_lt hle hlt
  | case3 _ _ hle _ _ hlt ih => exact Nat.lt_trans (Nat.lt_of_lt_of_le (ih h) hle) hlt
  | case4 _ _ _ _ hlt _ _ =>
    cases h
    exact hlt
  | case5 _ _ _ hlt _ _ ih => exact Nat.lt_trans (ih h) hlt

/-- What `value` returns: the character it stopped at, and the parser with less left to read. -/
structure Read (p : TomlParser) where
  stop : Char
  rest : TomlParser
  shorter : rest.iter.length < p.iter.length

/-- The end of `value` once its value is read into `q`. -/
def finishValue (stopChars : List Char) (p q : TomlParser)
    (hq : q.iter.length < p.iter.length) : Except String (Read p) :=
  match h : q.valueEnd stopChars with
  | .error e => .error e
  | .ok (ch, q') => .ok ⟨ch, q', Nat.lt_trans (valueEnd_length h) hq⟩

/-- The key of the entry at `arrayPos` in the array at `key`. -/
def arrayKey (key : List Char) (arrayPos : Nat) : List Char :=
  key ++ '.' :: pad4 arrayPos

mutual

/-- `value`: one value of the key `key`, up to one of `stopChars`. -/
def value (key stopChars : List Char) (nestLevel : Nat) (p : TomlParser) :
    Except String (Read p) :=
  if nestLevel = maxNestLevel then
    .error ("Too many nested structures at line " ++ toString p.line ++ ".")
  else
    match h : p.nextChar true false with
    | .error e => .error e
    | .ok (ch, p₁) =>
      have h₁ : p₁.iter.length < p.iter.length := nextChar_length h
      if ch = '[' then
        have h₂ := seekNextChar_length p₁
        match arrayLoop key nestLevel 0 p₁.seekNextChar.2 with
        | .error e => .error e
        | .ok q => finishValue stopChars p q.1 (by have := q.2; omega)
      else if ch = '{' then
        match tableLoop key (key ++ ['.']) nestLevel p₁ with
        | .error e => .error e
        | .ok q => finishValue stopChars p q.1 (by have := q.2; omega)
      else if ch = '\x27' ∨ ch = '"' then
        match h₂ : p₁.readString ch with
        | .error e => .error e
        | .ok (value, p₂) =>
          match h₃ : p₂.insertKey key value with
          | .error e => .error e
          | .ok p₃ => finishValue stopChars p p₃
              (by rw [insertKey_iter h₃]; have := readString_length h₂; omega)
      else if isBareChar ch then
        match h₃ : (p₁.readBare ch).2.insertKey key (p₁.readBare ch).1 with
        | .error e => .error e
        | .ok p₃ => finishValue stopChars p p₃
            (by rw [insertKey_iter h₃]; have := readBare_length ch p₁; omega)
      else if ch ∈ stopChars then .ok ⟨ch, p₁, h₁⟩
      else
        .error ("Expected " ++ debugChars stopChars ++ " but found " ++ debugChar ch ++
          " in value at line " ++ toString p₁.line ++ ".")
termination_by 2 * p.iter.length

/-- The loop of an array: its values, each at its index, up to `]`. -/
def arrayLoop (key : List Char) (nestLevel arrayPos : Nat) (p : TomlParser) :
    Except String {q : TomlParser // q.iter.length ≤ p.iter.length} :=
  match value (arrayKey key arrayPos) [',', ']'] (nestLevel + 1) p with
  | .error e => .error e
  | .ok r =>
    have := r.shorter
    have := seekNextChar_length r.rest
    if r.stop = ',' then
      match arrayLoop key nestLevel (arrayPos + 1) r.rest.seekNextChar.2 with
      | .error e => .error e
      | .ok q => .ok ⟨q.1, by have := q.2; omega⟩
    else if r.stop = ']' then .ok ⟨r.rest, by omega⟩
    else
      .error ("Unexpected character " ++ debugChar r.stop ++ " found in array for property " ++
        debugString (String.ofList key) ++ " at line " ++ toString r.rest.line ++ ".")
termination_by 2 * p.iter.length + 1

/-- The loop of an inline table: its keys, each with a value or, for a key alone, the empty
string, up to `}`. -/
def tableLoop (key baseKey : List Char) (nestLevel : Nat) (p : TomlParser) :
    Except String {q : TomlParser // q.iter.length ≤ p.iter.length} :=
  match h : p.key baseKey true with
  | .error e => .error e
  | .ok ((subKey, stopChar), p₁) =>
    have h₁ : p₁.iter.length < p.iter.length := key_length h
    have := seekNextChar_length p₁
    if stopChar = '=' then
      match value subKey [',', '}'] (nestLevel + 1) p₁.seekNextChar.2 with
      | .error e => .error e
      | .ok r =>
        have := r.shorter
        have := seekNextChar_length r.rest
        if r.stop = ',' then
          match tableLoop key baseKey nestLevel r.rest.seekNextChar.2 with
          | .error e => .error e
          | .ok q => .ok ⟨q.1, by have := q.2; omega⟩
        else if r.stop = '}' then .ok ⟨r.rest, by omega⟩
        else
          .error ("Unexpected character " ++ debugChar r.stop ++
            " found in inline table for property " ++ debugString (String.ofList key) ++
            " at line " ++ toString r.rest.line ++ ".")
    else
      let inserted :=
        if subKey.length > baseKey.length then p₁.insertKey subKey [] else .ok p₁
      match h₂ : inserted with
      | .error e => .error e
      | .ok p₂ =>
        have : p₂.iter.length = p₁.iter.length := by
          simp only [inserted] at h₂
          split at h₂
          · rw [insertKey_iter h₂]
          · cases h₂
            rfl
        if stopChar = ',' then
          match tableLoop key baseKey nestLevel p₂ with
          | .error e => .error e
          | .ok q => .ok ⟨q.1, by have := q.2; omega⟩
        else .ok ⟨p₂, by omega⟩
termination_by 2 * p.iter.length + 1

end

/-- The loop of a table header past its first character: the name, lower-cased outside quotes,
up to `]`. For an array of tables, the first `]` appends the next index of the name, and the
second closes the header. -/
def headerLoop (tableName : List Char) (isArray inQuote : Bool) (lastCh : Char)
    (lastArrayName : List Char) (lastArrayPos : Nat) (p : TomlParser) :
    Except String ((List Char × List Char × Nat) × TomlParser) :=
  match h : p.nextChar (!inQuote) false with
  | .error e => .error e
  | .ok (ch, p') =>
    have : p'.iter.length < p.iter.length := nextChar_length h
    if ch = '"' ∧ (inQuote = false ∨ lastCh ≠ '\\') then
      headerLoop tableName isArray (!inQuote) ch lastArrayName lastArrayPos p'
    else if ch = '\\' ∧ inQuote then
      headerLoop tableName isArray inQuote ch lastArrayName lastArrayPos p'
    else if ch = ']' ∧ inQuote = false then
      if tableName = [] then .error ("Empty table name at line " ++ toString p'.line ++ ".")
      else if isArray then
        let (lastArrayName, lastArrayPos) :=
          if tableName = lastArrayName then (lastArrayName, lastArrayPos + 1) else (tableName, 0)
        headerLoop (tableName ++ '.' :: pad4 lastArrayPos) false inQuote ch lastArrayName
          lastArrayPos p'
      else .ok ((tableName, lastArrayName, lastArrayPos), p')
    else if inQuote = false then
      if isAlphanumeric ch ∨ ch ∈ ['.', '-', '_'] then
        headerLoop (tableName ++ [ch.toLower]) isArray inQuote ch lastArrayName lastArrayPos p'
      else .error ("Unexpected character " ++ debugChar ch ++ " at line " ++ toString p'.line ++ ".")
    else headerLoop (tableName ++ [ch]) isArray inQuote ch lastArrayName lastArrayPos p'
termination_by p.iter.length

theorem headerLoop_length {tableName lastArrayName : List Char} {isArray inQuote : Bool}
    {lastCh : Char} {lastArrayPos : Nat} {p p' : TomlParser} {result : List Char × List Char × Nat}
    (h : headerLoop tableName isArray inQuote lastCh lastArrayName lastArrayPos p = .ok (result, p')) :
    p'.iter.length < p.iter.length := by
  -- each case fails, stops past the character `next_char` read, or goes on past it
  fun_induction headerLoop tableName isArray inQuote lastCh lastArrayName lastArrayPos p <;> grind

/-- The loop of `Config::parse`, in the table `tableName`, with the last array of tables and its
last index. -/
def parseLoop (tableName lastArrayName : List Char) (lastArrayPos : Nat) (p : TomlParser) :
    Except String TomlParser :=
  match hseek : p.seekNextChar with
  | (false, p₁) => .ok p₁
  | (true, p₁) =>
    have h₁ : p₁.iter.length ≤ p.iter.length := by
      have := seekNextChar_length p
      rwa [hseek] at this
    match hpeek : p₁.iter with
    | [] => .error ""
    | ch :: _ =>
      if ch = '[' then
        match h₂ : p₁.nextChar true false with
        | .error e => .error e
        | .ok (_, p₂) =>
          match h₃ : p₂.nextChar true false with
          | .error e => .error e
          | .ok (first, p₃) =>
            let (isArray, tableName) := if first = '[' then (true, []) else (false, [first])
            match h₄ : headerLoop tableName isArray false (Char.ofNat 0) lastArrayName lastArrayPos p₃ with
            | .error e => .error e
            | .ok ((tableName, lastArrayName, lastArrayPos), p₄) =>
              have := nextChar_length h₂
              have := nextChar_length h₃
              have := headerLoop_length h₄
              have := skipLine_length p₄
              parseLoop tableName lastArrayName lastArrayPos p₄.skipLine
      else if ch.isAlpha ∨ ch.isDigit ∨ ch = '"' then
        let keyPrefix := if tableName ≠ [] then tableName ++ ['.'] else []
        match h₂ : p₁.key keyPrefix false with
        | .error e => .error e
        | .ok ((key, _), p₂) =>
          match value key ['\n'] 0 p₂ with
          | .error e => .error e
          | .ok r =>
            have := key_length h₂
            have := r.shorter
            parseLoop tableName lastArrayName lastArrayPos r.rest
      else if ch = '#' then
        have := skipLine_length_lt hpeek
        parseLoop tableName lastArrayName lastArrayPos p₁.skipLine
      else .error ("Unexpected character " ++ debugChar ch ++ " at line " ++ toString p₁.line ++ ".")
termination_by p.iter.length

/-! ### What each reader does on the text in front of it -/

section Spec

variable {keys : List (List Char × List Char)} {rest : List Char} {line : Nat}

theorem nextChar_cons {skipWsp allowLf : Bool} {ch : Char} (hcr : ch ≠ '\r') (hlf : ch ≠ '\n')
    (hblank : skipWsp = true → ch ≠ ' ' ∧ ch ≠ '\t') :
    nextChar skipWsp allowLf ⟨keys, ch :: rest, line⟩ = .ok (ch, ⟨keys, rest, line⟩) := by
  rw [nextChar]
  have hskip : ¬(ch = '\r' ∨ (skipWsp = true ∧ (ch = ' ' ∨ ch = '\t'))) := by
    rintro (h | ⟨hs, h⟩)
    · exact hcr h
    · have := hblank hs
      tauto
  simp only [if_neg hskip, if_neg hlf]

theorem nextChar_lf {skipWsp : Bool} :
    nextChar skipWsp true ⟨keys, '\n' :: rest, line⟩ = .ok ('\n', ⟨keys, rest, line + 1⟩) := by
  rw [nextChar]
  simp

theorem nextChar_space {allowLf : Bool} :
    nextChar true allowLf ⟨keys, ' ' :: rest, line⟩ = nextChar true allowLf ⟨keys, rest, line⟩ := by
  rw [nextChar]
  simp

theorem seekNextChar_cons {ch : Char} (hlf : ch ≠ '\n') (hblank : ch ≠ '\r' ∧ ch ≠ ' ' ∧ ch ≠ '\t')
    (hcomment : ch ≠ '#') :
    seekNextChar ⟨keys, ch :: rest, line⟩ = (true, ⟨keys, ch :: rest, line⟩) := by
  rw [seekNextChar]
  simp only [if_neg hlf, if_neg hcomment]
  rw [if_neg (by tauto)]

theorem seekNextChar_nil : seekNextChar ⟨keys, [], line⟩ = (false, ⟨keys, [], line⟩) := by
  rw [seekNextChar]

theorem valueEnd_lf {stopChars : List Char} (hstop : '\n' ∈ stopChars) :
    valueEnd stopChars ⟨keys, '\n' :: rest, line⟩ = .ok ('\n', ⟨keys, rest, line + 1⟩) := by
  rw [valueEnd]
  split
  · rename_i e h
    rw [nextChar_lf] at h
    cases h
  · rename_i ch p' h
    rw [nextChar_lf] at h
    obtain ⟨rfl, rfl⟩ := Prod.mk.inj (Except.ok.inj h)
    simp [hstop]

theorem insertKey_fresh {key value : List Char} (hfresh : key ∉ keys.map (·.1)) :
    insertKey key value ⟨keys, rest, line⟩ = .ok ⟨keys ++ [(key, value)], rest, line⟩ := by
  simp [insertKey, hfresh]

/-- The end of `value` once the value is in: up to a stop character. -/
theorem finishValue_ok {stopChars : List Char} {p q q' : TomlParser} {ch : Char}
    {hq : q.iter.length < p.iter.length} (h : q.valueEnd stopChars = .ok (ch, q')) :
    ∃ r, finishValue stopChars p q hq = .ok r ∧ r.stop = ch ∧ r.rest = q' := by
  unfold finishValue
  split
  · rename_i e h'
    rw [h] at h'
    cases h'
  · rename_i ch' q'' h'
    rw [h] at h'
    obtain ⟨rfl, rfl⟩ := Prod.mk.inj (Except.ok.inj h')
    exact ⟨_, rfl, rfl, rfl⟩

/-- The line a reader is on once it has read `ch`. -/
def lineAfter (ch : Char) (line : Nat) : Nat :=
  if ch = '\n' then line + 1 else line

/-- Inside a string, `next_char` gives every character but a carriage return as it is. -/
theorem nextChar_raw {ch : Char} (hcr : ch ≠ '\r') :
    nextChar false true ⟨keys, ch :: rest, line⟩ = .ok (ch, ⟨keys, rest, lineAfter ch line⟩) := by
  by_cases hlf : ch = '\n'
  · subst hlf
    simp [nextChar_lf, lineAfter]
  · rw [nextChar_cons hcr hlf (by simp)]
    simp [lineAfter, hlf]

theorem quotedLoop_cons {qch last ch : Char} {value : List Char} (hcr : ch ≠ '\r') :
    quotedLoop qch last value ⟨keys, ch :: rest, line⟩ =
      let p : TomlParser := ⟨keys, rest, lineAfter ch line⟩
      if ch = '\\' ∧ last ≠ '\\' then quotedLoop qch ch value p
      else if ch = 't' ∧ last = '\\' then quotedLoop qch ch (value ++ ['\t']) p
      else if ch = 'r' ∧ last = '\\' then quotedLoop qch ch (value ++ ['\r']) p
      else if ch = 'n' ∧ last = '\\' then quotedLoop qch ch (value ++ ['\n']) p
      else if ch ≠ qch ∨ last = '\\' then quotedLoop qch ch (value ++ [ch]) p
      else .ok (value, p) := by
  rw [quotedLoop]
  split
  · rename_i e h
    rw [nextChar_raw hcr] at h
    cases h
  · rename_i ch' p' h
    rw [nextChar_raw hcr] at h
    obtain ⟨rfl, rfl⟩ := Prod.mk.inj (Except.ok.inj h)
    rfl

theorem tripleLoop_cons {qch last prevLast ch : Char} {value : List Char} (hcr : ch ≠ '\r') :
    tripleLoop qch last prevLast value ⟨keys, ch :: rest, line⟩ =
      if ¬(ch = qch ∧ last = qch ∧ prevLast = qch) then
        tripleLoop qch ch last (value ++ [ch]) ⟨keys, rest, lineAfter ch line⟩
      else .ok (value.take (value.length - 2), ⟨keys, rest, lineAfter ch line⟩) := by
  rw [tripleLoop]
  split
  · rename_i e h
    rw [nextChar_raw hcr] at h
    cases h
  · rename_i ch' p' h
    rw [nextChar_raw hcr] at h
    obtain ⟨rfl, rfl⟩ := Prod.mk.inj (Except.ok.inj h)
    rfl

/-- `value`'s arm for a string: it is read, inserted, and followed by a stop character. -/
theorem value_string {key stopChars : List Char} {nestLevel : Nat} {p p₁ p₂ p₃ p₄ : TomlParser}
    {qch ch : Char} {v : List Char} (hnest : nestLevel ≠ maxNestLevel)
    (hq : qch = '\x27' ∨ qch = '"') (h₁ : p.nextChar true false = .ok (qch, p₁))
    (h₂ : p₁.readString qch = .ok (v, p₂)) (h₃ : p₂.insertKey key v = .ok p₃)
    (h₄ : p₃.valueEnd stopChars = .ok (ch, p₄)) :
    ∃ r, value key stopChars nestLevel p = .ok r ∧ r.stop = ch ∧ r.rest = p₄ := by
  rw [value, if_neg hnest]
  split
  · rename_i e h
    rw [h₁] at h
    cases h
  · rename_i c p₁' h
    rw [h₁] at h
    obtain ⟨rfl, rfl⟩ := Prod.mk.inj (Except.ok.inj h)
    have hopen : qch ≠ '[' ∧ qch ≠ '{' := by rcases hq with rfl | rfl <;> decide
    rw [if_neg hopen.1, if_neg hopen.2, if_pos hq]
    split
    · rename_i e h
      rw [h₂] at h
      cases h
    · rename_i v' p₂' h
      rw [h₂] at h
      obtain ⟨rfl, rfl⟩ := Prod.mk.inj (Except.ok.inj h)
      split
      · rename_i e h
        rw [h₃] at h
        cases h
      · rename_i p₃' h
        rw [h₃] at h
        cases h
        exact finishValue_ok h₄

/-- `value`'s arm for a bare value: it is read, inserted, and followed by a stop character. -/
theorem value_bare {key stopChars : List Char} {nestLevel : Nat} {p p₁ p₃ p₄ : TomlParser}
    {first ch : Char} (hnest : nestLevel ≠ maxNestLevel) (hbare : isBareChar first = true)
    (h₁ : p.nextChar true false = .ok (first, p₁))
    (h₃ : (p₁.readBare first).2.insertKey key (p₁.readBare first).1 = .ok p₃)
    (h₄ : p₃.valueEnd stopChars = .ok (ch, p₄)) :
    ∃ r, value key stopChars nestLevel p = .ok r ∧ r.stop = ch ∧ r.rest = p₄ := by
  have hopen : first ≠ '[' ∧ first ≠ '{' ∧ ¬(first = '\x27' ∨ first = '"') := by
    refine ⟨?_, ?_, ?_⟩ <;> (rintro (rfl | rfl | rfl) <;> simp [isBareChar, isAlphanumeric] at hbare)
  rw [value, if_neg hnest]
  split
  · rename_i e h
    rw [h₁] at h
    cases h
  · rename_i c p₁' h
    rw [h₁] at h
    obtain ⟨rfl, rfl⟩ := Prod.mk.inj (Except.ok.inj h)
    rw [if_neg hopen.1, if_neg hopen.2.1, if_neg hopen.2.2, if_pos hbare]
    split
    · rename_i e h
      rw [h₃] at h
      cases h
    · rename_i p₃' h
      rw [h₃] at h
      cases h
      exact finishValue_ok h₄

/-- `Config::parse` stops where no character is left. -/
theorem parseLoop_done {tableName lastArrayName : List Char} {lastArrayPos : Nat}
    {p p₁ : TomlParser} (hseek : p.seekNextChar = (false, p₁)) :
    parseLoop tableName lastArrayName lastArrayPos p = .ok p₁ := by
  rw [parseLoop]
  split
  · rename_i p₁' h
    rw [hseek] at h
    cases h
    rfl
  · rename_i p₁' h
    rw [hseek] at h
    cases h

/-- A line of `Config::parse` that starts with a letter, a digit or a quote is a key and its
value. -/
theorem parseLoop_key {tableName lastArrayName key tail : List Char} {lastArrayPos : Nat}
    {p p₁ p₂ : TomlParser} {ch stop : Char} {r : Read p₂} (hseek : p.seekNextChar = (true, p₁))
    (hpeek : p₁.iter = ch :: tail) (hch : ch.isAlpha ∨ ch.isDigit ∨ ch = '"')
    (hkey : p₁.key (if tableName ≠ [] then tableName ++ ['.'] else []) false = .ok ((key, stop), p₂))
    (hvalue : value key ['\n'] 0 p₂ = .ok r) :
    parseLoop tableName lastArrayName lastArrayPos p =
      parseLoop tableName lastArrayName lastArrayPos r.rest := by
  have hbracket : ch ≠ '[' := by
    rintro rfl
    simp at hch
  rw [parseLoop]
  split
  · rename_i p₁' h
    rw [hseek] at h
    cases h
  · rename_i p₁' h
    rw [hseek] at h
    cases h
    split
    · rename_i h
      rw [hpeek] at h
      cases h
    · rename_i ch' tail' h
      rw [hpeek] at h
      obtain ⟨rfl, rfl⟩ := List.cons.inj h
      rw [if_neg hbracket, if_pos hch]
      dsimp only
      split
      · rename_i e h
        rw [hkey] at h
        cases h
      · rename_i key' stop' p₂' h
        rw [hkey] at h
        obtain ⟨⟨rfl, rfl⟩, rfl⟩ := Prod.mk.inj (Except.ok.inj h) |>.imp_left Prod.mk.inj
        split
        · rename_i e h
          rw [hvalue] at h
          cases h
        · rename_i r' h
          rw [hvalue] at h
          cases h
          rfl

/-- A character `key` takes into a key outside quotes: not `=`, a quote, a blank or a line
end. -/
def isPlainKeyChar (ch : Char) : Bool :=
  ch ∉ ['=', '"', ' ', '\t', '\r', '\n']

theorem keyLoop_plain {startKeyLen : Nat} :
    ∀ {acc k : List Char}, (∀ ch ∈ k, isPlainKeyChar ch = true) →
      keyLoop startKeyLen false acc none ⟨keys, k ++ rest, line⟩ =
        keyLoop startKeyLen false (acc ++ k) none ⟨keys, rest, line⟩
  | acc, [], _ => by simp
  | acc, ch :: k, hplain => by
    have hch : ch ∉ ['=', '"', ' ', '\t', '\r', '\n'] := by
      simpa [isPlainKeyChar] using hplain ch List.mem_cons_self
    simp only [List.mem_cons, List.not_mem_nil, or_false, not_or] at hch
    obtain ⟨heq, hquote, hspace, htab, hcr, hlf⟩ := hch
    rw [keyLoop]
    simp only [List.cons_append, heq, hquote, hspace, htab, hcr, hlf, false_or,
      Bool.false_eq_true, false_and, if_false]
    rw [keyLoop_plain (fun c hc => hplain c (List.mem_cons_of_mem ch hc)), List.append_assoc,
      List.singleton_append]

theorem keyLoop_space {startKeyLen : Nat} {acc : List Char} :
    keyLoop startKeyLen false acc none ⟨keys, ' ' :: rest, line⟩ =
      keyLoop startKeyLen false acc none ⟨keys, rest, line⟩ := by
  rw [keyLoop]
  simp

theorem keyLoop_equals {startKeyLen : Nat} {inCurly : Bool} {acc : List Char}
    (hlen : startKeyLen ≠ acc.length) :
    keyLoop startKeyLen inCurly acc none ⟨keys, '=' :: rest, line⟩ =
      .ok ((acc, '='), ⟨keys, rest, line⟩) := by
  rw [keyLoop]
  simp [hlen]

end Spec

end TomlParser

/-- `Config`, with the field `Config::parse` writes. -/
structure Config where
  keys : List (List Char × List Char)
  deriving DecidableEq

/-- `Config::parse`. -/
def Config.parse (config : Config) (toml : List Char) : Except String Config := do
  let p ← TomlParser.parseLoop [] [] 0 (TomlParser.new config.keys toml)
  return ⟨p.keys⟩

/-- `Config::new`. -/
def Config.new (toml : List Char) : Except String Config :=
  Config.parse ⟨[]⟩ toml

end Stalwart.Config
