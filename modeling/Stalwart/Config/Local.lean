import Mathlib.Data.List.Infix
import Stalwart.Config.Toml

/-!
# The local configuration file (`ConfigManager::update_local`)

`update_local` writes the local settings, a map from keys to strings, as a file that `Config::new`
reads at the next start. It writes one line `key = value` for each entry, in the order of the
keys. A value is written as it is when it is `true`, `false` or a number `f64` reads. It goes
between `'''` when it has a line feed, or when it is longer than 50 bytes and has a quote or a
backslash. It goes between double quotes otherwise, with a backslash before each quote and
backslash when it has one.

## What is proved

* A map whose keys are names and whose values are among those the parser reads back is read
  back as it was written (`new_updateLocal`). The values read back (`readsBack`) are the written
  numbers and words, and the strings with no carriage return, with:
  - between double quotes, no backslash before `t`, `r`, `n`, a backslash or a quote, and none
    last;
  - between `'''`, no line feed first, no three quotes in a row, and no quote last.
* The other values are not read back. A value with a backslash before an `n` comes back with
  a line feed, a carriage return is dropped, a line feed first is dropped, and a quote last
  makes the file fail to parse (`update_local_values_misread`).
-/

set_option autoImplicit false

namespace Stalwart.Config

open TomlParser

/-! ## The writer -/

/-- Digits only. -/
def isDigits (chars : List Char) : Bool :=
  chars.all Char.isDigit

/-- The number before the exponent that `f64` reads: digits with at most one point in them, and a
digit on one side of the point at least. -/
def isMantissa (chars : List Char) : Bool :=
  match chars.span (· ≠ '.') with
  | (int, []) => int ≠ [] && isDigits int
  | (int, _ :: frac) => isDigits int && isDigits frac && (int ≠ [] || frac ≠ [])

/-- The exponent `f64` reads after `e`: a sign, then digits. -/
def isExponent (chars : List Char) : Bool :=
  match chars with
  | '+' :: digits | '-' :: digits => digits ≠ [] && isDigits digits
  | digits => digits ≠ [] && isDigits digits

/-- A number without its sign. -/
def dropSign : List Char → List Char
  | '+' :: rest | '-' :: rest => rest
  | rest => rest

/-- A decimal number `f64` reads: a mantissa, then `e` or `E` and an exponent. -/
def isDecimal (chars : List Char) : Bool :=
  match chars.span (fun ch => ch ≠ 'e' ∧ ch ≠ 'E') with
  | (mantissa, []) => isMantissa mantissa
  | (mantissa, _ :: exponent) => isMantissa mantissa && isExponent exponent

/-- `str::parse::<f64>` succeeds: a sign, then `inf`, `infinity` or `nan` in any case, or a
decimal number. -/
def parsesAsF64 (value : List Char) : Bool :=
  let unsigned := dropSign value
  let lower := unsigned.map Char.toLower
  lower = "inf".toList || lower = "infinity".toList || lower = "nan".toList || isDecimal unsigned

/-- The scan of `update_local` over a value: whether it has a quote or a backslash, and whether it
has a line feed. It stops once it has seen both. -/
def scanValue (needsEscape hasLf : Bool) : List Char → Bool × Bool
  | [] => (needsEscape, hasLf)
  | ch :: rest =>
    if ch = '"' ∨ ch = '\\' then
      if hasLf then (true, hasLf) else scanValue true hasLf rest
    else if ch = '\n' then
      if needsEscape then (needsEscape, true) else scanValue needsEscape true rest
    else scanValue needsEscape hasLf rest

/-- `str::len`: the bytes of a value in UTF-8. -/
def utf8Len (value : List Char) : Nat :=
  (value.map Char.utf8Size).sum

/-- A character between double quotes, escaped. -/
def escapeChar (ch : Char) : List Char :=
  if ch = '\\' ∨ ch = '"' then ['\\', ch] else [ch]

/-- How `update_local` writes a value. -/
def encodeValue (value : List Char) : List Char :=
  if value = "true".toList ∨ value = "false".toList ∨ parsesAsF64 value then value
  else
    let (needsEscape, hasLf) := scanValue false false value
    if hasLf ∨ (utf8Len value > 50 ∧ needsEscape) then "'''".toList ++ value ++ "'''".toList
    else '"' :: (if needsEscape then value.flatMap escapeChar else value) ++ ['"']

/-- The line `update_local` writes for an entry. -/
def writeEntry (key value : List Char) : List Char :=
  key ++ " = ".toList ++ encodeValue value ++ ['\n']

/-- `ConfigManager::update_local`: the text it writes for a map, whose entries it takes in the
order of their keys. -/
def updateLocal (map : List (List Char × List Char)) : List Char :=
  map.flatMap fun (key, value) => writeEntry key value

/-! ## What the parser reads back -/

/-- A character `update_local` escapes between double quotes. -/
def needsEscapeChar (ch : Char) : Bool :=
  ch = '"' || ch = '\\'

/-- A value `update_local` writes as it is: `true`, `false`, or a number `f64` reads. -/
def isRawValue (value : List Char) : Bool :=
  value = "true".toList || value = "false".toList || parsesAsF64 value

/-- A value `update_local` writes between `'''`: one with a line feed, or one longer than 50 bytes
with a quote or a backslash. -/
def inTripleQuotes (value : List Char) : Bool :=
  value.any (· = '\n') || (utf8Len value > 50 && value.any needsEscapeChar)

/-- Each backslash has a character after it, and none of `t`, `r`, `n`, a backslash or a
quote. -/
def backslashesSafe : List Char → Bool
  | [] => true
  | ch :: rest =>
    if ch = '\\' then
      match rest with
      | [] => false
      | next :: rest => next ∉ ['t', 'r', 'n', '\\', '"'] && backslashesSafe rest
    else backslashesSafe rest

/-- A value that `Config::parse` reads back from what `update_local` writes for it. -/
def readsBack (value : List Char) : Bool :=
  isRawValue value ||
    ('\r' ∉ value &&
      if inTripleQuotes value then
        value.head? ≠ some '\n' && !("'''".toList <:+: value ++ ['\x27', '\x27'])
      else backslashesSafe value)

/-- A key that `Config::parse` reads back: a letter or a digit, then letters, digits, `.`, `_`
and `-`. -/
def isConfigKey : List Char → Bool
  | [] => false
  | first :: rest => first.isAlphanum && rest.all fun ch => ch.isAlphanum || ch ∈ ['.', '_', '-']

/-! ### The three forms of a value -/

theorem scanValue_eq :
    ∀ (needsEscape hasLf : Bool) (value : List Char), scanValue needsEscape hasLf value =
      (needsEscape || value.any needsEscapeChar, hasLf || value.any (· = '\n'))
  | needsEscape, hasLf, [] => by simp [scanValue]
  | needsEscape, hasLf, ch :: rest => by
    rw [scanValue]
    by_cases hesc : ch = '"' ∨ ch = '\\'
    · have hlf : ch ≠ '\n' := by rcases hesc with rfl | rfl <;> decide
      have hneeds : needsEscapeChar ch = true := by simpa [needsEscapeChar] using hesc
      rw [if_pos hesc]
      cases hasLf <;> simp [scanValue_eq, hneeds, hlf]
    · have hneeds : needsEscapeChar ch = false := by simpa [needsEscapeChar] using hesc
      rw [if_neg hesc]
      by_cases hlf : ch = '\n'
      · subst hlf
        rw [if_pos rfl]
        cases needsEscape <;> simp [scanValue_eq, hneeds]
      · rw [if_neg hlf, scanValue_eq]
        simp [hneeds, hlf]

theorem isRawValue_iff {value : List Char} : isRawValue value = true ↔
    (value = "true".toList ∨ value = "false".toList ∨ parsesAsF64 value = true) := by
  simp only [isRawValue, Bool.or_eq_true, decide_eq_true_eq, or_assoc]

theorem inTripleQuotes_iff {value : List Char} : inTripleQuotes value = true ↔
    (value.any (· = '\n') = true ∨ (utf8Len value > 50 ∧ value.any needsEscapeChar = true)) := by
  simp only [inTripleQuotes, Bool.or_eq_true, Bool.and_eq_true, decide_eq_true_eq]

theorem encodeValue_raw {value : List Char} (hraw : isRawValue value = true) :
    encodeValue value = value := by
  rw [encodeValue, if_pos (isRawValue_iff.mp hraw)]

theorem encodeValue_triple {value : List Char} (hraw : isRawValue value = false)
    (htriple : inTripleQuotes value = true) :
    encodeValue value = "'''".toList ++ value ++ "'''".toList := by
  have hnotRaw := mt isRawValue_iff.mpr (Bool.eq_false_iff.mp hraw)
  rw [encodeValue, if_neg hnotRaw, scanValue_eq]
  simp only [Bool.false_or]
  rw [if_pos (inTripleQuotes_iff.mp htriple)]

/-- Between double quotes, a value that needs no escape is its own escape. -/
theorem flatMap_escapeChar_of_any {value : List Char} (h : value.any needsEscapeChar = false) :
    value.flatMap escapeChar = value := by
  induction value with
  | nil => rfl
  | cons ch rest ih =>
    simp only [List.any_cons, Bool.or_eq_false_iff] at h
    have hch : ¬(ch = '\\' ∨ ch = '"') := by
      simpa [needsEscapeChar, or_comm] using h.1
    simp [escapeChar, hch, ih h.2]

theorem encodeValue_quoted {value : List Char} (hraw : isRawValue value = false)
    (htriple : inTripleQuotes value = false) :
    encodeValue value = '"' :: value.flatMap escapeChar ++ ['"'] := by
  have hnotRaw := mt isRawValue_iff.mpr (Bool.eq_false_iff.mp hraw)
  rw [encodeValue, if_neg hnotRaw, scanValue_eq]
  simp only [Bool.false_or]
  rw [if_neg (mt inTripleQuotes_iff.mpr (Bool.eq_false_iff.mp htriple))]
  split
  · rfl
  · rename_i hneeds
    rw [flatMap_escapeChar_of_any (Bool.eq_false_iff.mpr hneeds)]

/-! ### Reading the strings back -/

section Strings

variable {keys : List (List Char × List Char)} {rest : List Char}

/-- Between double quotes, what `update_local` escapes is read back up to the closing quote. -/
theorem quotedLoop_escaped {value : List Char} (hsafe : backslashesSafe value = true)
    (hcr : '\r' ∉ value) :
    ∀ (acc : List Char) (last : Char) (line : Nat), last ≠ '\\' →
      ∃ line', quotedLoop '"' last acc ⟨keys, value.flatMap escapeChar ++ '"' :: rest, line⟩ =
        .ok (acc ++ value, ⟨keys, rest, line'⟩) := by
  fun_induction backslashesSafe value with
  | case1 =>
    intro acc last line hlast
    refine ⟨line, ?_⟩
    simp [quotedLoop_cons, hlast, lineAfter]
  | case2 => simp at hsafe
  | case3 next value ih =>
    -- a backslash is written twice, then `next` as it is
    intro acc last line hlast
    simp only [Bool.and_eq_true, decide_eq_true_eq, List.mem_cons, List.not_mem_nil, or_false,
      not_or] at hsafe
    obtain ⟨⟨ht, hr, hn, hbackslash, hquote⟩, hsafe⟩ := hsafe
    have hnextCr : next ≠ '\r' := fun h => hcr (by simp [h])
    obtain ⟨line', hrun⟩ := ih hsafe (fun h => hcr (by simp [h])) (acc ++ ['\\', next]) next
      (lineAfter next line) hbackslash
    refine ⟨line', ?_⟩
    simp [escapeChar, quotedLoop_cons, hnextCr, hlast, ht, hr, hn, hbackslash, hquote,
      lineAfter] at hrun ⊢
    exact hrun
  | case4 ch value hch ih =>
    intro acc last line hlast
    have hchCr : ch ≠ '\r' := fun h => hcr (by simp [h])
    obtain ⟨line', hrun⟩ := ih hsafe (fun h => hcr (by simp [h])) (acc ++ [ch]) ch
      (lineAfter ch line) hch
    refine ⟨line', ?_⟩
    by_cases hquote : ch = '"'
    · -- a quote is written after a backslash
      subst hquote
      simp [escapeChar, quotedLoop_cons, hlast, lineAfter] at hrun ⊢
      exact hrun
    · have hescape : escapeChar ch = [ch] := by simp [escapeChar, hch, hquote]
      simp [hescape, quotedLoop_cons, hchCr, hch, hquote, hlast] at hrun ⊢
      exact hrun

/-- A value that has no three quotes in a row still has none with a character before it that is
not a quote. -/
theorem not_infix_cons {a : Char} {l : List Char} (ha : a ≠ '\x27')
    (h : ¬("'''".toList <:+: l)) : ¬("'''".toList <:+: a :: l) := by
  rw [List.infix_cons_iff]
  rintro (hstarts | hquotes)
  · obtain ⟨t, ht⟩ := hstarts
    simp at ht
    exact ha ht.1.symm
  · exact h hquotes

/-- Between `'''`, a value is read as it is, up to the first three quotes in a row. -/
theorem tripleLoop_raw {value : List Char} (hcr : '\r' ∉ value) :
    ∀ (acc : List Char) (last prevLast : Char) (line : Nat),
      ¬("'''".toList <:+: [prevLast, last] ++ value ++ ['\x27', '\x27']) →
      ∃ line', tripleLoop '\x27' last prevLast acc ⟨keys, value ++ "'''".toList ++ rest, line⟩ =
        .ok (acc ++ value, ⟨keys, rest, line'⟩) := by
  induction value with
  | nil =>
    -- the first two closing quotes are read into the value, and the third closes it
    intro acc last prevLast line hquotes
    have hlast : last ≠ '\x27' := by
      rintro rfl
      exact hquotes ⟨[prevLast], [], by simp⟩
    refine ⟨line, ?_⟩
    simp [tripleLoop_cons, hlast, lineAfter]
  | cons ch value ih =>
    intro acc last prevLast line hquotes
    have hstop : ¬(ch = '\x27' ∧ last = '\x27' ∧ prevLast = '\x27') := by
      rintro ⟨rfl, rfl, rfl⟩
      exact hquotes ⟨[], value ++ ['\x27', '\x27'], by simp⟩
    have hnext : ¬("'''".toList <:+: [last, ch] ++ value ++ ['\x27', '\x27']) := fun h =>
      hquotes (by simpa using List.infix_cons (a := prevLast) h)
    obtain ⟨line', hrun⟩ := ih (fun h => hcr (List.mem_cons_of_mem ch h)) (acc ++ [ch]) ch last
      (lineAfter ch line) hnext
    refine ⟨line', ?_⟩
    rw [List.cons_append, List.cons_append,
      tripleLoop_cons (fun h => hcr (h ▸ List.mem_cons_self)), if_pos hstop]
    simpa using hrun

theorem readString_triple {value : List Char} (hcr : '\r' ∉ value)
    (hhead : value.head? ≠ some '\n') (hquotes : ¬("'''".toList <:+: value ++ ['\x27', '\x27']))
    (line : Nat) :
    ∃ line', readString '\x27' ⟨keys, ['\x27', '\x27'] ++ value ++ "'''".toList ++ rest, line⟩ =
      .ok (value, ⟨keys, rest, line'⟩) := by
  have hstart : ¬("'''".toList <:+: [Char.ofNat 0, Char.ofNat 0] ++ value ++ ['\x27', '\x27']) :=
    not_infix_cons (by decide) (not_infix_cons (by decide) (by simpa using hquotes))
  obtain ⟨line', hrun⟩ : ∃ line', tripleLoop '\x27' (Char.ofNat 0) (Char.ofNat 0) []
      ⟨keys, value ++ "'''".toList ++ rest, line⟩ = .ok ([] ++ value, ⟨keys, rest, line'⟩) :=
    tripleLoop_raw hcr [] (Char.ofNat 0) (Char.ofNat 0) line hstart
  refine ⟨line', ?_⟩
  cases value with
  | nil => simpa [readString] using hrun
  | cons ch value =>
    have hch : ch ≠ '\n' := fun h => hhead (by simp [h])
    simpa [readString, hch] using hrun

theorem readString_quoted {value : List Char} (hsafe : backslashesSafe value = true)
    (hcr : '\r' ∉ value) (line : Nat) :
    ∃ line', readString '"' ⟨keys, value.flatMap escapeChar ++ '"' :: '\n' :: rest, line⟩ =
      .ok (value, ⟨keys, '\n' :: rest, line'⟩) := by
  cases value with
  | nil => exact ⟨line, by simp [readString]⟩
  | cons ch value =>
    obtain ⟨line', hrun⟩ : ∃ line', quotedLoop '"' (Char.ofNat 0) []
        ⟨keys, (ch :: value).flatMap escapeChar ++ '"' :: '\n' :: rest, line⟩ =
          .ok ([] ++ ch :: value, ⟨keys, '\n' :: rest, line'⟩) :=
      quotedLoop_escaped hsafe hcr [] (Char.ofNat 0) line (by decide)
    refine ⟨line', ?_⟩
    -- the escaped value does not start with a quote, so it is read by the loop with escapes
    by_cases hbackslash : ch = '\\'
    · subst hbackslash
      simpa [readString, escapeChar] using hrun
    · by_cases hquote : ch = '"'
      · subst hquote
        simpa [readString, escapeChar] using hrun
      · simpa [readString, escapeChar, hbackslash, hquote] using hrun

/-! ### The values written as they are -/

theorem isAlphanum_of_toLower {ch : Char} (h : ch.toLower.isAlphanum = true) :
    ch.isAlphanum = true := by
  unfold Char.toLower at h
  split at h
  · rename_i hupper
    simp only [Char.isAlphanum, Char.isAlpha, Char.isUpper, Bool.or_eq_true, decide_eq_true_eq]
    exact .inl (.inl hupper)
  · exact h

theorem digits_of_isMantissa {chars : List Char} (h : isMantissa chars = true) :
    ∀ ch ∈ chars, ch.isDigit = true ∨ ch = '.' := by
  rw [isMantissa, List.span_eq_takeWhile_dropWhile] at h
  have hsplit := List.takeWhile_append_dropWhile (p := (· ≠ '.')) (l := chars)
  intro ch hch
  rw [← hsplit, List.mem_append] at hch
  split at h
  · rename_i int heq
    obtain ⟨hint, hfrac⟩ := Prod.mk.inj heq
    simp only [Bool.and_eq_true, isDigits, List.all_eq_true] at h
    rw [hfrac] at hch
    rcases hch with hch | hch
    · exact .inl (h.2 ch (hint ▸ hch))
    · simp at hch
  · rename_i int point frac heq
    obtain ⟨hint, hfrac⟩ := Prod.mk.inj heq
    simp only [Bool.and_eq_true, isDigits, List.all_eq_true] at h
    rcases hch with hch | hch
    · exact .inl (h.1.1 ch (hint ▸ hch))
    · rw [hfrac, List.mem_cons] at hch
      rcases hch with rfl | hch
      · -- the point the integer part stops at
        have := List.head_dropWhile_not (· ≠ '.') (l := chars) (by rw [hfrac]; simp)
        simp only [hfrac, List.head_cons, decide_eq_false_iff_not, not_not] at this
        exact .inr this
      · exact .inl (h.1.2 ch hch)

theorem digits_of_isExponent {chars : List Char} (h : isExponent chars = true) :
    ∀ ch ∈ chars, ch.isDigit = true ∨ ch = '+' ∨ ch = '-' := by
  unfold isExponent at h
  split at h
  all_goals
    simp only [Bool.and_eq_true, isDigits, List.all_eq_true] at h
    intro ch hch
  · rcases List.mem_cons.mp hch with rfl | hch
    · exact .inr (.inl rfl)
    · exact .inl (h.2 ch hch)
  · rcases List.mem_cons.mp hch with rfl | hch
    · exact .inr (.inr rfl)
    · exact .inl (h.2 ch hch)
  · exact .inl (h.2 ch hch)

theorem chars_of_isDecimal {chars : List Char} (h : isDecimal chars = true) :
    ∀ ch ∈ chars, ch.isAlphanum = true ∨ ch = '.' ∨ ch = '+' ∨ ch = '-' := by
  rw [isDecimal, List.span_eq_takeWhile_dropWhile] at h
  have hsplit := List.takeWhile_append_dropWhile (p := fun ch => decide (ch ≠ 'e' ∧ ch ≠ 'E'))
    (l := chars)
  have hdigit : ∀ ch : Char, ch.isDigit = true → ch.isAlphanum = true := by
    intro ch hd
    simp [Char.isAlphanum, hd]
  intro ch hch
  rw [← hsplit, List.mem_append] at hch
  split at h
  · rename_i mantissa heq
    obtain ⟨hm, hexp⟩ := Prod.mk.inj heq
    rw [hexp] at hch
    rcases hch with hch | hch
    · rcases digits_of_isMantissa h ch (hm ▸ hch) with hd | rfl
      · exact .inl (hdigit ch hd)
      · exact .inr (.inl rfl)
    · simp at hch
  · rename_i mantissa e exponent heq
    obtain ⟨hm, hexp⟩ := Prod.mk.inj heq
    simp only [Bool.and_eq_true] at h
    rcases hch with hch | hch
    · rcases digits_of_isMantissa h.1 ch (hm ▸ hch) with hd | rfl
      · exact .inl (hdigit ch hd)
      · exact .inr (.inl rfl)
    · rw [hexp, List.mem_cons] at hch
      rcases hch with rfl | hch
      · -- the `e` or `E` the mantissa stops at
        have := List.head_dropWhile_not (fun ch => decide (ch ≠ 'e' ∧ ch ≠ 'E')) (l := chars)
          (by rw [hexp]; simp)
        simp only [hexp, List.head_cons, decide_eq_false_iff_not, not_and, not_not] at this
        by_cases he : ch = 'e'
        · exact .inl (by rw [he]; decide)
        · exact .inl (by rw [this he]; decide)
      · rcases digits_of_isExponent h.2 ch hch with hd | hd
        · exact .inl (hdigit ch hd)
        · exact .inr (.inr hd)

theorem mem_dropSign {value : List Char} {ch : Char} (h : ch ∈ value) :
    ch = '+' ∨ ch = '-' ∨ ch ∈ dropSign value := by
  unfold dropSign
  split
  · rcases List.mem_cons.mp h with rfl | h
    · exact .inl rfl
    · exact .inr (.inr h)
  · rcases List.mem_cons.mp h with rfl | h
    · exact .inr (.inl rfl)
    · exact .inr (.inr h)
  · exact .inr (.inr h)

/-- The characters of a number `f64` reads are those of a bare value. -/
theorem isBareChar_of_parsesAsF64 {value : List Char} (h : parsesAsF64 value = true) :
    ∀ ch ∈ value, isBareChar ch = true := by
  have hunsigned : ∀ ch ∈ dropSign value,
      ch.isAlphanum = true ∨ ch = '.' ∨ ch = '+' ∨ ch = '-' := by
    simp only [parsesAsF64, Bool.or_eq_true, decide_eq_true_eq] at h
    intro ch hch
    rcases h with ((hword | hword) | hword) | hdecimal
    rotate_left 3
    · exact chars_of_isDecimal hdecimal ch hch
    -- `inf`, `infinity` and `nan`, in any case
    all_goals
      have hmem : ch.toLower ∈ (dropSign value).map Char.toLower := List.mem_map_of_mem hch
      rw [hword] at hmem
      exact .inl (isAlphanum_of_toLower (List.all_eq_true.mp (by decide) _ hmem))
  intro ch hch
  simp only [isBareChar, isAlphanumeric, Bool.or_eq_true, List.mem_cons, List.not_mem_nil,
    or_false, decide_eq_true_eq]
  rcases mem_dropSign hch with hs | hs | hs
  · exact .inr (.inr (.inl hs))
  · exact .inr (.inr (.inr hs))
  · rcases hunsigned ch hs with h | h | h | h
    · exact .inl h
    · exact .inr (.inl h)
    · exact .inr (.inr (.inl h))
    · exact .inr (.inr (.inr h))

theorem isBareChar_of_isRawValue {value : List Char} (h : isRawValue value = true) :
    value ≠ [] ∧ ∀ ch ∈ value, isBareChar ch = true := by
  rcases isRawValue_iff.mp h with rfl | rfl | hf64
  · exact ⟨by decide, List.all_eq_true.mp (by decide)⟩
  · exact ⟨by decide, List.all_eq_true.mp (by decide)⟩
  · refine ⟨?_, isBareChar_of_parsesAsF64 hf64⟩
    rintro rfl
    revert hf64
    decide

theorem isBareChar_ne {ch : Char} (h : isBareChar ch = true) :
    ch ≠ '\r' ∧ ch ≠ '\n' ∧ ch ≠ ' ' ∧ ch ≠ '\t' := by
  refine ⟨?_, ?_, ?_, ?_⟩ <;> (rintro rfl; revert h; decide)

theorem readBare_of_bare {first : Char} {tail : List Char} (hbare : ∀ ch ∈ tail, isBareChar ch = true)
    (line : Nat) :
    readBare first ⟨keys, tail ++ '\n' :: rest, line⟩ = (first :: tail, ⟨keys, '\n' :: rest, line⟩) := by
  have hlf : isBareChar '\n' = false := by decide
  simp [readBare, List.takeWhile_append_of_pos hbare, List.dropWhile_append_of_pos hbare, hlf]

/-! ### A line -/

/-- **The value of a line** `update_local` writes is read back and inserted. -/
theorem value_encodeValue {key value : List Char} (hfresh : key ∉ keys.map (·.1))
    (hback : readsBack value = true) (line : Nat) :
    ∃ line', ∃ r, TomlParser.value key ['\n'] 0 ⟨keys, ' ' :: (encodeValue value ++ '\n' :: rest), line⟩ =
      .ok r ∧ r.rest = ⟨keys ++ [(key, value)], rest, line'⟩ := by
  have hnest : (0 : Nat) ≠ maxNestLevel := by decide
  have hinsert : ∀ line', insertKey key value ⟨keys, '\n' :: rest, line'⟩ =
      .ok ⟨keys ++ [(key, value)], '\n' :: rest, line'⟩ := fun _ => insertKey_fresh hfresh
  have hend : ∀ line', valueEnd ['\n'] ⟨keys ++ [(key, value)], '\n' :: rest, line'⟩ =
      .ok ('\n', ⟨keys ++ [(key, value)], rest, line' + 1⟩) := fun _ => valueEnd_lf (by simp)
  cases hraw : isRawValue value
  · -- a string: between `'''` or between double quotes
    simp only [readsBack, hraw, Bool.false_or, Bool.and_eq_true, decide_eq_true_eq] at hback
    obtain ⟨hcr, hback⟩ := hback
    cases htriple : inTripleQuotes value
    · rw [htriple, if_neg (by simp)] at hback
      have hopen : nextChar true false ⟨keys, ' ' :: (encodeValue value ++ '\n' :: rest), line⟩ =
          .ok ('"', ⟨keys, value.flatMap escapeChar ++ '"' :: '\n' :: rest, line⟩) := by
        rw [encodeValue_quoted hraw htriple, nextChar_space]
        simp [nextChar_cons]
      obtain ⟨line', hread⟩ : ∃ line', readString '"'
          ⟨keys, value.flatMap escapeChar ++ '"' :: '\n' :: rest, line⟩ =
            .ok (value, ⟨keys, '\n' :: rest, line'⟩) := readString_quoted hback hcr line
      obtain ⟨r, hr, -, hrest⟩ := value_string hnest (.inr rfl) hopen hread (hinsert line')
        (hend line')
      exact ⟨line' + 1, r, hr, hrest⟩
    · rw [htriple, if_pos rfl] at hback
      simp only [Bool.and_eq_true, decide_eq_true_eq, Bool.not_eq_eq_eq_not, Bool.not_true,
        decide_eq_false_iff_not] at hback
      obtain ⟨hhead, hquotes⟩ := hback
      have hopen : nextChar true false ⟨keys, ' ' :: (encodeValue value ++ '\n' :: rest), line⟩ =
          .ok ('\x27', ⟨keys, ['\x27', '\x27'] ++ value ++ "'''".toList ++ '\n' :: rest, line⟩) := by
        rw [encodeValue_triple hraw htriple, nextChar_space]
        simp [nextChar_cons]
      obtain ⟨line', hread⟩ : ∃ line', readString '\x27'
          ⟨keys, ['\x27', '\x27'] ++ value ++ "'''".toList ++ '\n' :: rest, line⟩ =
            .ok (value, ⟨keys, '\n' :: rest, line'⟩) := readString_triple hcr hhead hquotes line
      obtain ⟨r, hr, -, hrest⟩ := value_string hnest (.inl rfl) hopen hread (hinsert line')
        (hend line')
      exact ⟨line' + 1, r, hr, hrest⟩
  · -- a number or a word, read as a bare value
    obtain ⟨hne, hbare⟩ := isBareChar_of_isRawValue hraw
    obtain ⟨first, tail, rfl⟩ := List.exists_cons_of_ne_nil hne
    obtain ⟨hcr, hlf, hspace, htab⟩ := isBareChar_ne (hbare first List.mem_cons_self)
    have hopen : nextChar true false
        ⟨keys, ' ' :: (encodeValue (first :: tail) ++ '\n' :: rest), line⟩ =
          .ok (first, ⟨keys, tail ++ '\n' :: rest, line⟩) := by
      rw [encodeValue_raw hraw, nextChar_space, List.cons_append]
      exact nextChar_cons hcr hlf (fun _ => ⟨hspace, htab⟩)
    have hread : readBare first ⟨keys, tail ++ '\n' :: rest, line⟩ =
        (first :: tail, ⟨keys, '\n' :: rest, line⟩) :=
      readBare_of_bare (fun ch hch => hbare ch (List.mem_cons_of_mem first hch)) line
    obtain ⟨r, hr, -, hrest⟩ := value_bare hnest (hbare first List.mem_cons_self) hopen
      (by rw [hread]; exact hinsert line) (hend line)
    exact ⟨line + 1, r, hr, hrest⟩

theorem isPlainKeyChar_of_key {ch : Char} (h : ch.isAlphanum = true ∨ ch ∈ ['.', '_', '-']) :
    isPlainKeyChar ch = true := by
  simp only [isPlainKeyChar, decide_eq_true_eq]
  intro hmem
  simp only [List.mem_cons, List.not_mem_nil, or_false] at hmem
  rcases hmem with rfl | rfl | rfl | rfl | rfl | rfl <;> revert h <;> decide

/-- The key of a line `update_local` writes is read up to its `=`. -/
theorem key_writeEntry {first : Char} {tail text : List Char}
    (hkey : isConfigKey (first :: tail) = true) (line : Nat) :
    TomlParser.key [] false ⟨keys, first :: (tail ++ " = ".toList ++ text), line⟩ =
      .ok ((first :: tail, '='), ⟨keys, ' ' :: text, line⟩) := by
  have hplain : ∀ ch ∈ first :: tail, isPlainKeyChar ch = true := by
    simp only [isConfigKey, Bool.and_eq_true, List.all_eq_true, Bool.or_eq_true,
      decide_eq_true_eq] at hkey
    intro ch hch
    rcases List.mem_cons.mp hch with rfl | hch
    · exact isPlainKeyChar_of_key (.inl hkey.1)
    · exact isPlainKeyChar_of_key (hkey.2 ch hch)
  have htext : first :: (tail ++ " = ".toList ++ text) =
      (first :: tail) ++ ' ' :: '=' :: ' ' :: text := by
    simp
  rw [TomlParser.key, htext, keyLoop_plain hplain, List.nil_append, keyLoop_space,
    keyLoop_equals (by simp)]

end Strings

/-! ## The file -/

theorem ne_of_isAlphanum {ch : Char} (h : ch.isAlphanum = true) :
    ch ≠ '\n' ∧ (ch ≠ '\r' ∧ ch ≠ ' ' ∧ ch ≠ '\t') ∧ ch ≠ '#' := by
  refine ⟨?_, ⟨?_, ?_, ?_⟩, ?_⟩ <;> (rintro rfl; revert h; decide)

/-- **A line** `update_local` writes inserts its key and value. -/
theorem parseLoop_writeEntry {keys : List (List Char × List Char)} {key value rest : List Char}
    (hkey : isConfigKey key = true) (hfresh : key ∉ keys.map (·.1))
    (hback : readsBack value = true) (line : Nat) :
    ∃ line', parseLoop [] [] 0 ⟨keys, writeEntry key value ++ rest, line⟩ =
      parseLoop [] [] 0 ⟨keys ++ [(key, value)], rest, line'⟩ := by
  obtain ⟨first, tail, rfl⟩ : ∃ first tail, key = first :: tail := by
    cases key with
    | nil => simp [isConfigKey] at hkey
    | cons first tail => exact ⟨first, tail, rfl⟩
  have hfirst : first.isAlphanum = true := by
    simp only [isConfigKey, Bool.and_eq_true] at hkey
    exact hkey.1
  obtain ⟨hlf, hblank, hcomment⟩ := ne_of_isAlphanum hfirst
  have hch : first.isAlpha = true ∨ first.isDigit = true ∨ first = '"' := by
    simp only [Char.isAlphanum, Bool.or_eq_true] at hfirst
    rcases hfirst with h | h
    · exact .inl h
    · exact .inr (.inl h)
  -- the line: the key, ` = `, the value and a line feed
  set text := encodeValue value ++ '\n' :: rest
  have hline : writeEntry (first :: tail) value ++ rest =
      first :: (tail ++ " = ".toList ++ text) := by
    simp [writeEntry, text]
  have hkeyRead : TomlParser.key (if ([] : List Char) ≠ [] then [] ++ ['.'] else []) false
      ⟨keys, first :: (tail ++ " = ".toList ++ text), line⟩ =
        .ok ((first :: tail, '='), ⟨keys, ' ' :: text, line⟩) := by
    rw [if_neg (not_not_intro rfl)]
    exact key_writeEntry hkey line
  obtain ⟨line', r, hr, hrest⟩ := value_encodeValue hfresh hback line
  refine ⟨line', ?_⟩
  rw [hline, parseLoop_key (seekNextChar_cons hlf hblank hcomment) rfl hch hkeyRead hr, hrest]

/-- **The file** `update_local` writes inserts each entry in turn. -/
theorem parseLoop_updateLocal :
    ∀ (map keys : List (List Char × List Char)) (line : Nat),
      (∀ entry ∈ map, isConfigKey entry.1 = true ∧ readsBack entry.2 = true) →
      ((keys ++ map).map (·.1)).Nodup →
      ∃ line', parseLoop [] [] 0 ⟨keys, updateLocal map, line⟩ = .ok ⟨keys ++ map, [], line'⟩
  | [], keys, line, _, _ => ⟨line, by simpa [updateLocal] using parseLoop_done seekNextChar_nil⟩
  | (key, value) :: map, keys, line, hentries, hnodup => by
    have hfresh : key ∉ keys.map (·.1) := by
      simp only [List.map_append, List.map_cons, List.nodup_append, List.nodup_cons] at hnodup
      exact fun hmem => hnodup.2.2 key hmem key List.mem_cons_self rfl
    obtain ⟨hkey, hback⟩ := hentries (key, value) List.mem_cons_self
    obtain ⟨line', hline⟩ : ∃ line', parseLoop [] [] 0
        ⟨keys, writeEntry key value ++ updateLocal map, line⟩ =
          parseLoop [] [] 0 ⟨keys ++ [(key, value)], updateLocal map, line'⟩ :=
      parseLoop_writeEntry hkey hfresh hback line
    obtain ⟨line'', hrun⟩ := parseLoop_updateLocal map (keys ++ [(key, value)]) line'
      (fun entry hentry => hentries entry (List.mem_cons_of_mem _ hentry)) (by simpa using hnodup)
    refine ⟨line'', ?_⟩
    rw [show updateLocal ((key, value) :: map) = writeEntry key value ++ updateLocal map from rfl,
      hline, hrun, List.append_assoc, List.singleton_append]

/-- **What `update_local` writes is read back as it was**, for a map of keys and values the
parser reads back. -/
theorem new_updateLocal {map : List (List Char × List Char)}
    (hentries : ∀ entry ∈ map, isConfigKey entry.1 = true ∧ readsBack entry.2 = true)
    (hnodup : (map.map (·.1)).Nodup) :
    Config.new (updateLocal map) = .ok ⟨map⟩ := by
  obtain ⟨line', hrun⟩ := parseLoop_updateLocal map [] 1 hentries (by simpa using hnodup)
  simp [Config.new, Config.parse, TomlParser.new, hrun]

/-- A name, a number, a word and a string with quotes. -/
def sampleSettings : List (List Char × List Char) :=
  [("a.b".toList, "x y".toList), ("c".toList, "4".toList), ("d".toList, "true".toList),
    ("e".toList, "\"q\"".toList)]

theorem new_updateLocal_sample :
    (∀ entry ∈ sampleSettings, isConfigKey entry.1 = true ∧ readsBack entry.2 = true) ∧
      (sampleSettings.map (·.1)).Nodup ∧
      Config.new (updateLocal sampleSettings) = .ok ⟨sampleSettings⟩ := by
  have hentries : ∀ entry ∈ sampleSettings, isConfigKey entry.1 = true ∧ readsBack entry.2 = true := by
    decide +kernel
  have hnodup : (sampleSettings.map (·.1)).Nodup := by decide +kernel
  exact ⟨hentries, hnodup, new_updateLocal hentries hnodup⟩

/-! ## The values not read back -/

theorem update_local_values_misread :
    Config.new (updateLocal [("a".toList, "\\n".toList)]) = .ok ⟨[("a".toList, "\\\n".toList)]⟩ ∧
      Config.new (updateLocal [("a".toList, "x\ry".toList)]) = .ok ⟨[("a".toList, "xy".toList)]⟩ ∧
      Config.new (updateLocal [("a".toList, "\nx".toList)]) = .ok ⟨[("a".toList, "x".toList)]⟩ ∧
      Config.new (updateLocal [("a".toList, "x\ny\x27".toList)]) =
        .error ("Expected " ++ debugChars ['\n'] ++ " but found " ++ Stalwart.Expr.debugChar '\x27' ++
          " in value at line 2.") := by
  decide +kernel

end Stalwart.Config
