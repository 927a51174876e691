import Mathlib
import Stalwart.Utils.Glob

/-!
# Search snippets (`nlp::language::search_snippet`)

`generate_snippet` shows where the needles of a search are in a text: the tokens that match are
copied between `<mark>` and `</mark>`, and the text around them is escaped for HTML, with line
ends made spaces and runs of whitespace kept as their first character. The snippet is kept to 255
bytes: a mark is added only when it fits, and the text after a mark only a character at a time
while that fits.

The text before the first mark is treated apart. In a text over 240 bytes it is cut to the last
two words or 40 bytes before the mark; in a shorter text all of it is kept. Neither case checks the
length of what it writes, and escaping can make a character five or six bytes long.

The text is a list of characters and its offsets are byte offsets, as `str` has them. The Unicode
tables the tokenizer and the escaping read are parameters (`CharClasses`).

## What is proved

* Whatever the tokenizer and the needles, a snippet is at most 255 bytes or as long as the escaped
  text before the first mark, whichever is more (`generateSnippet_length_le`).
* A text of 60 `&` and ` hello`, searched for `hello`, has a snippet of 301 bytes: the escaped text
  before the mark, with no room left for the mark.
-/

set_option autoImplicit false

namespace Stalwart.Nlp

/-- The Unicode tables of `char` the tokenizer and the snippet read. -/
class CharClasses extends Utils.CaseMapping where
  /-- `char::is_alphanumeric`. -/
  isAlphanumeric : Char → Bool
  /-- `char::is_whitespace`. -/
  isWhitespace : Char → Bool

/-- The length of a text in bytes, as UTF-8. -/
def utf8Len (text : List Char) : Nat :=
  (text.map Char.utf8Size).sum

@[simp] theorem utf8Len_nil : utf8Len [] = 0 := rfl

@[simp] theorem utf8Len_cons (ch : Char) (text : List Char) :
    utf8Len (ch :: text) = ch.utf8Size + utf8Len text := by
  simp [utf8Len]

@[simp] theorem utf8Len_append (first second : List Char) :
    utf8Len (first ++ second) = utf8Len first + utf8Len second := by
  simp [utf8Len]

/-- `str::get(from..to)`, on byte offsets: `none` unless `from ≤ to` and both fall on character
boundaries of the text. -/
def dropBytes : Nat → List Char → Option (List Char)
  | 0, text => some text
  | _ + 1, [] => none
  | count + 1, ch :: text =>
    if ch.utf8Size ≤ count + 1 then dropBytes (count + 1 - ch.utf8Size) text else none

/-- The first `count` bytes of a text, when they end on a character boundary. -/
def takeBytes : Nat → List Char → Option (List Char)
  | 0, _ => some []
  | _ + 1, [] => none
  | count + 1, ch :: text =>
    if ch.utf8Size ≤ count + 1 then (takeBytes (count + 1 - ch.utf8Size) text).map (ch :: ·)
    else none

/-- `str::get(from..to)`. -/
def slice (text : List Char) (fromOffset toOffset : Nat) : Option (List Char) :=
  if fromOffset ≤ toOffset then (dropBytes fromOffset text).bind (takeBytes (toOffset - fromOffset))
  else none

/-- `str::char_indices`: each character with its byte offset, the first at `offset`. -/
def charIndices : Nat → List Char → List (Nat × Char)
  | _, [] => []
  | offset, ch :: text => (offset, ch) :: charIndices (offset + ch.utf8Size) text

/-! ## Escaping -/

/-- `escape_char`. -/
def escapeChar (ch : Char) : List Char :=
  match ch with
  | '&' => "&amp;".toList
  | '<' => "&lt;".toList
  | '>' => "&gt;".toList
  | '"' => "&quot;".toList
  | '\n' | '\r' => [' ']
  | _ => [ch]

/-- `escape_char_len`. -/
def escapeCharLen (ch : Char) : Nat :=
  match ch with
  | '&' => 5
  | '<' => 4
  | '>' => 4
  | '"' => 6
  | '\r' | '\n' => 1
  | _ => ch.utf8Size

/-- `escape_char_len` is the length of what `escape_char` writes. -/
theorem utf8Len_escapeChar (ch : Char) : utf8Len (escapeChar ch) = escapeCharLen ch := by
  unfold escapeChar escapeCharLen
  split <;> simp_all [utf8Len] <;> rfl

/-- A run of one character, escaped. -/
theorem utf8Len_flatMap_replicate (ch : Char) : ∀ count : Nat,
    utf8Len ((List.replicate count ch).flatMap escapeChar) = count * escapeCharLen ch
  | 0 => by simp
  | count + 1 => by
    rw [List.replicate_succ, List.flatMap_cons, utf8Len_append, utf8Len_escapeChar,
      utf8Len_flatMap_replicate ch count, Nat.succ_mul, Nat.add_comm]

theorem utf8Len_of_takeBytes : ∀ {count : Nat} {text taken : List Char},
    takeBytes count text = some taken → utf8Len taken = count
  | 0, _, taken, h => by
    simp only [takeBytes, Option.some.injEq] at h
    simp [← h]
  | _ + 1, [], _, h => by simp [takeBytes] at h
  | count + 1, ch :: text, taken, h => by
    rw [takeBytes] at h
    split at h
    · next hsize =>
      obtain ⟨rest, hrest, rfl⟩ := Option.map_eq_some_iff.mp h
      rw [utf8Len_cons, utf8Len_of_takeBytes hrest]
      omega
    · cases h

/-- A slice is as long as the range it was asked for. -/
theorem utf8Len_of_slice {text word : List Char} {fromOffset toOffset : Nat}
    (h : slice text fromOffset toOffset = some word) : utf8Len word = toOffset - fromOffset := by
  rw [slice] at h
  split at h
  · obtain ⟨rest, -, htake⟩ := Option.bind_eq_some_iff.mp h
    exact utf8Len_of_takeBytes htake
  · cases h

/-! ## Tokens and terms -/

/-- `Token`, with the byte offsets of the word in the text. -/
structure Token where
  word : List Char
  fromOffset : Nat
  toOffset : Nat
  deriving DecidableEq, Repr

/-- `Term`: a token to mark, by byte offset and length. -/
structure Term where
  offset : Nat
  len : Nat
  deriving DecidableEq, Repr

/-- The terms of an exact search: each run of consecutive tokens whose words are the needles, in
order. `windows` panics on an empty needle list; the callers never pass one. -/
def exactTerms (needles : List (List Char)) (tokens : List Token) : List Term :=
  ((List.range (tokens.length + 1 - needles.length)).map fun start =>
      (tokens.drop start).take needles.length).flatMap fun window =>
    if (needles.zip window).all fun (needle, token) => needle == token.word then
      window.map fun token => ⟨token.fromOffset, token.toOffset - token.fromOffset⟩
    else []

/-- Whether a token matches a needle in a search that is not exact: the same word, or a needle of
more than two bytes inside it. -/
def matchesNeedle (token : Token) (needle : List Char) : Bool :=
  needle == token.word || (decide (utf8Len needle > 2) && decide (needle <:+: token.word))

/-- The terms of a search: the windows of an exact one, or every token that matches a needle. -/
def findTerms (tokens : List Token) (needles : List (List Char)) (isExact : Bool) : List Term :=
  if isExact then exactTerms needles tokens
  else (tokens.filter fun token => needles.any (matchesNeedle token)).map fun token =>
    ⟨token.fromOffset, token.toOffset - token.fromOffset⟩

section Classes

variable [CharClasses]

open CharClasses Utils.CaseMapping

/-! ## The word tokenizer -/

/-- The token `WordTokenizer::next` returns for a run of alphanumeric characters from `start` to
`tokenEnd`, lowercased when one of them is uppercase; none when it is longer than the limit. -/
def wordToken (maxTokenLength start tokenEnd : Nat) (run : List Char) (isUppercase : Bool) :
    List Token :=
  if tokenEnd > start ∧ tokenEnd - start ≤ maxTokenLength then
    [⟨if isUppercase then strToLowercase run else run, start, tokenEnd⟩]
  else []

/-- `WordTokenizer`, a character at a time from byte `pos`: `run` is the token being read, with its
start and whether it has an uppercase character. The character that ends a token is taken with it;
it is not alphanumeric, so no token starts there. -/
def wordTokensLoop (maxTokenLength : Nat) :
    Option (Nat × List Char × Bool) → Nat → List Char → List Token
  | none, _, [] => []
  | some (start, run, upper), pos, [] => wordToken maxTokenLength start pos run upper
  | none, pos, ch :: text =>
    if isAlphanumeric ch then
      wordTokensLoop maxTokenLength (some (pos, [ch], isUppercase ch)) (pos + ch.utf8Size) text
    else wordTokensLoop maxTokenLength none (pos + ch.utf8Size) text
  | some (start, run, upper), pos, ch :: text =>
    if isAlphanumeric ch then
      wordTokensLoop maxTokenLength (some (start, run ++ [ch], upper || isUppercase ch))
        (pos + ch.utf8Size) text
    else
      wordToken maxTokenLength start pos run upper ++
        wordTokensLoop maxTokenLength none (pos + ch.utf8Size) text

/-- `WordTokenizer::new(text, max_token_length)`, the tokenizer of the indo-european languages. -/
def wordTokens (maxTokenLength : Nat) (text : List Char) : List Token :=
  wordTokensLoop maxTokenLength none 0 text

/-! ## The snippet -/

/-- The loop of the leading context over the characters before the first term, last first: the
offset it starts from. It stops at the third run of whitespace, or once it has 40 bytes. -/
def contextStart (startOffset : Nat) : Nat → Nat → Bool → List (Nat × Char) → Nat
  | _, fromOffset, _, [] => fromOffset
  | wordCount, fromOffset, lastIsSpace, (pos, ch) :: chars =>
    if isWhitespace ch ∧ ¬ lastIsSpace ∧ wordCount + 1 = 3 then fromOffset
    else
      let wordCount := if isWhitespace ch ∧ ¬ lastIsSpace then wordCount + 1 else wordCount
      if startOffset - pos ≥ 40 then pos
      else contextStart startOffset wordCount pos (isWhitespace ch) chars

/-- The escaped leading context: each run of whitespace written as its first character. -/
def collapse : Bool → List Char → List Char
  | _, [] => []
  | lastIsSpace, ch :: text =>
    if ¬ isWhitespace ch then escapeChar ch ++ collapse false text
    else if lastIsSpace then collapse true text
    else escapeChar ch ++ collapse true text

/-- The text after a mark, escaped a character at a time onto `snippet` while it fits in 255
bytes; `true` when a character did not fit (`break 'outer`). -/
def gapLoop : Bool → List Char → List Char → List Char × Bool
  | _, [], snippet => (snippet, false)
  | lastIsSpace, ch :: text, snippet =>
    if isWhitespace ch ∧ lastIsSpace then gapLoop true text snippet
    else if utf8Len snippet + escapeCharLen ch ≤ 255 then
      gapLoop (isWhitespace ch) text (snippet ++ escapeChar ch)
    else (snippet, true)

/-- The loop over the terms: a mark when it fits, then the text up to the next term. -/
def marksLoop (text : List Char) : List Term → List Char → Option (List Char)
  | [], snippet => some snippet
  | term :: terms, snippet =>
    if utf8Len snippet + 2 * 6 + term.len + 1 > 255 then some snippet
    else do
      let word ← slice text term.offset (term.offset + term.len)
      let snippet := snippet ++ "<mark>".toList ++ word ++ "</mark>".toList
      let nextOffset := match terms with
        | next :: _ => next.offset
        | [] => utf8Len text
      let gap ← slice text (term.offset + term.len) nextOffset
      match gapLoop false gap snippet with
      | (snippet, true) => some snippet
      | (snippet, false) => marksLoop text terms snippet

/-- The leading context of a snippet whose first term starts at `startOffset`. -/
def leadingContext (text : List Char) (startOffset : Nat) : Option (List Char) :=
  if startOffset > 0 then do
    let fromOffset ← if utf8Len text > 240 then
        (slice text 0 startOffset).map fun before =>
          contextStart startOffset 0 0 false (charIndices 0 before).reverse
      else some 0
    let before ← slice text fromOffset startOffset
    some (collapse false before)
  else some []

/-- `generate_snippet`, on the tokens the language's tokenizer gives for the text. -/
def generateSnippet (tokens : List Token) (text : List Char) (needles : List (List Char))
    (isExact : Bool) : Option (List Char) := do
  let terms := findTerms tokens needles isExact
  let first :: _ := terms | none
  let context ← leadingContext text first.offset
  marksLoop text terms context

/-! ## The length of a snippet -/

/-- The text after a mark keeps the snippet within 255 bytes, or as long as it was. -/
theorem utf8Len_gapLoop_le : ∀ (lastIsSpace : Bool) (text snippet : List Char),
    utf8Len (gapLoop lastIsSpace text snippet).1 ≤ max 255 (utf8Len snippet)
  | _, [], snippet => by
    simp only [gapLoop]
    exact le_max_right _ _
  | lastIsSpace, ch :: text, snippet => by
    rw [gapLoop]
    split
    · exact utf8Len_gapLoop_le true text snippet
    · split
      · next hfits =>
        have hrest := utf8Len_gapLoop_le (isWhitespace ch) text (snippet ++ escapeChar ch)
        rw [utf8Len_append, utf8Len_escapeChar] at hrest
        omega
      · exact le_max_right _ _

/-- **The marks keep a snippet within 255 bytes**: the loop over the terms ends at most 255 bytes
long, or as long as the snippet it started from. -/
theorem utf8Len_marksLoop_le (text : List Char) : ∀ {terms : List Term} {snippet result : List Char},
    marksLoop text terms snippet = some result → utf8Len result ≤ max 255 (utf8Len snippet)
  | [], snippet, result, h => by
    unfold marksLoop at h
    simp only [Option.some.injEq] at h
    rw [h]
    exact le_max_right _ _
  | term :: terms, snippet, result, h => by
    unfold marksLoop at h
    split at h
    · simp only [Option.some.injEq] at h
      rw [h]
      exact le_max_right _ _
    · next hfits =>
      obtain ⟨word, hword, h⟩ := Option.bind_eq_some_iff.mp h
      obtain ⟨gap, -, h⟩ := Option.bind_eq_some_iff.mp h
      -- the mark fits: the snippet with it is at most 255 bytes
      have hmark : utf8Len (snippet ++ "<mark>".toList ++ word ++ "</mark>".toList) ≤ 255 := by
        simp only [utf8Len_append, utf8Len_of_slice hword]
        have h6 : utf8Len "<mark>".toList = 6 := by decide
        have h7 : utf8Len "</mark>".toList = 7 := by decide
        omega
      have hgap := utf8Len_gapLoop_le false gap (snippet ++ "<mark>".toList ++ word ++ "</mark>".toList)
      split at h
      · next after hbreak =>
        simp only [Option.some.injEq] at h
        rw [hbreak] at hgap
        subst h
        simp only at hgap
        omega
      · next after hnext =>
        have hrest := utf8Len_marksLoop_le text h
        rw [hnext] at hgap
        simp only at hgap
        omega

/-- **A snippet is within 255 bytes, or no longer than its leading context.** -/
theorem generateSnippet_length_le {tokens : List Token} {text : List Char}
    {needles : List (List Char)} {isExact : Bool} {snippet : List Char}
    (h : generateSnippet tokens text needles isExact = some snippet) :
    ∃ first terms context, findTerms tokens needles isExact = first :: terms ∧
      leadingContext text first.offset = some context ∧
      utf8Len snippet ≤ max 255 (utf8Len context) := by
  rw [generateSnippet] at h
  split at h
  · next first terms hterms =>
    obtain ⟨context, hcontext, hmarks⟩ := Option.bind_eq_some_iff.mp h
    exact ⟨first, terms, context, hterms, hcontext, utf8Len_marksLoop_le text hmarks⟩
  · cases h

/-! ## A leading context too long -/

/-- Characters that are not alphanumeric start no token. -/
theorem wordTokensLoop_skip (maxTokenLength : Nat) : ∀ (run rest : List Char) (pos : Nat),
    (∀ ch ∈ run, isAlphanumeric ch = false) →
      wordTokensLoop maxTokenLength none pos (run ++ rest) =
        wordTokensLoop maxTokenLength none (pos + utf8Len run) rest
  | [], rest, pos, _ => by simp
  | ch :: run, rest, pos, h => by
    have hch : isAlphanumeric ch = false := h ch (by simp)
    rw [List.cons_append, wordTokensLoop, if_neg (by simp [hch]),
      wordTokensLoop_skip maxTokenLength run rest _ (fun c hc => h c (by simp [hc]))]
    simp [Nat.add_assoc]

/-- A run of alphanumeric characters, none uppercase, that ends the text ends the token. -/
theorem wordTokensLoop_run (maxTokenLength start : Nat) (upper : Bool) :
    ∀ (run acc : List Char) (pos : Nat),
      (∀ ch ∈ run, isAlphanumeric ch = true ∧ isUppercase ch = false) →
        wordTokensLoop maxTokenLength (some (start, acc, upper)) pos run =
          wordToken maxTokenLength start (pos + utf8Len run) (acc ++ run) upper
  | [], acc, pos, _ => by simp [wordTokensLoop]
  | ch :: run, acc, pos, h => by
    obtain ⟨halnum, hupper⟩ := h ch (by simp)
    rw [wordTokensLoop, if_pos halnum, hupper, Bool.or_false,
      wordTokensLoop_run maxTokenLength start upper run _ _ (fun c hc => h c (by simp [hc]))]
    simp [Nat.add_assoc]

/-- Characters that are not whitespace are each escaped. -/
theorem collapse_of_not_whitespace : ∀ (run rest : List Char),
    (∀ ch ∈ run, isWhitespace ch = false) →
      collapse false (run ++ rest) = run.flatMap escapeChar ++ collapse false rest
  | [], rest, _ => by simp
  | ch :: run, rest, h => by
    have hch : isWhitespace ch = false := h ch (by simp)
    rw [List.cons_append, collapse, if_pos (by simp [hch]),
      collapse_of_not_whitespace run rest (fun c hc => h c (by simp [hc]))]
    simp

/-- Sixty `&`, a space and the word `hello`. -/
def ampersandText : List Char :=
  List.replicate 60 '&' ++ [' ', 'h', 'e', 'l', 'l', 'o']

/-- The escaped sixty `&` and the space: 301 bytes. -/
def ampersandContext : List Char :=
  (List.replicate 60 '&').flatMap escapeChar ++ [' ']

theorem snippet_context_exceeds_limit
    (hclasses : isAlphanumeric '&' = false ∧ isAlphanumeric ' ' = false ∧
      isWhitespace '&' = false ∧ isWhitespace ' ' = true ∧
      ∀ ch ∈ ['h', 'e', 'l', 'l', 'o'], isAlphanumeric ch = true ∧ isUppercase ch = false) :
    (∀ (tokens : List Token) (text : List Char) (needles : List (List Char)) (isExact : Bool)
      (snippet : List Char), generateSnippet tokens text needles isExact = some snippet →
        ∃ first terms context, findTerms tokens needles isExact = first :: terms ∧
          leadingContext text first.offset = some context ∧
          utf8Len snippet ≤ max 255 (utf8Len context)) ∧
    generateSnippet (wordTokens 200 ampersandText) ampersandText [['h', 'e', 'l', 'l', 'o']] false =
      some ampersandContext ∧ utf8Len ampersandContext = 301 := by
  obtain ⟨hamp, hspace, hampWs, hspaceWs, hword⟩ := hclasses
  have hlength : utf8Len ampersandContext = 301 := by
    rw [ampersandContext, utf8Len_append, utf8Len_flatMap_replicate]
    rfl
  refine ⟨fun _ _ _ _ _ h => generateSnippet_length_le h, ?_, hlength⟩
  -- the word tokenizer finds `hello` alone, at byte 61
  have hbefore : ∀ ch ∈ List.replicate 60 '&' ++ [' '], isAlphanumeric ch = false := by
    intro ch hch
    rcases List.mem_append.mp hch with h | h
    · rw [List.eq_of_mem_replicate h]; exact hamp
    · rw [List.mem_singleton.mp h]; exact hspace
  have hh := hword 'h' (by simp)
  have htokens : wordTokens 200 ampersandText = [⟨['h', 'e', 'l', 'l', 'o'], 61, 66⟩] := by
    rw [wordTokens, show ampersandText = (List.replicate 60 '&' ++ [' ']) ++ ['h', 'e', 'l', 'l', 'o']
        from rfl, wordTokensLoop_skip 200 _ _ 0 hbefore, wordTokensLoop, if_pos hh.1, hh.2,
      wordTokensLoop_run 200 _ false ['e', 'l', 'l', 'o'] ['h'] _
        (fun ch hch => hword ch (List.mem_cons_of_mem 'h' hch))]
    rfl
  have hterms : findTerms [⟨['h', 'e', 'l', 'l', 'o'], 61, 66⟩] [['h', 'e', 'l', 'l', 'o']] false =
      [⟨61, 5⟩] := by
    decide
  -- the context is every character before it, escaped
  have hcontext : leadingContext ampersandText 61 = some ampersandContext := by
    have hslice : slice ampersandText 0 61 = some (List.replicate 60 '&' ++ [' ']) := by decide
    have hshort : ¬ utf8Len ampersandText > 240 := by decide
    have hspaceCollapse : collapse false [' '] = [' '] := by
      rw [collapse, if_neg (by simp [hspaceWs]), if_neg (by decide), collapse]
      rfl
    rw [leadingContext, if_pos (by decide), if_neg hshort]
    simp only [Option.bind_eq_bind, Option.bind_some, hslice]
    rw [collapse_of_not_whitespace _ _
      (fun ch hch => by rw [List.eq_of_mem_replicate hch]; exact hampWs), hspaceCollapse]
    rfl
  -- and leaves no room for the mark
  have hfull : utf8Len ampersandContext + 2 * 6 + 5 + 1 > 255 := by
    rw [hlength]
    decide
  rw [generateSnippet, htokens, hterms]
  simp only [Option.bind_eq_bind, hcontext, Option.bind_some]
  unfold marksLoop
  dsimp only
  rw [if_pos hfull]

end Classes

/-- The tables of `char` on ASCII characters, where Lean's character tests agree with them. -/
instance asciiClasses : CharClasses where
  isUppercase := Char.isUpper
  toLowercase ch := [ch.toLower]
  strToLowercase text := text.map Char.toLower
  isAlphanumeric := Char.isAlphanum
  isWhitespace := Char.isWhitespace

theorem snippet_context_exceeds_limit_ascii :
    (CharClasses.isAlphanumeric '&' = false ∧ CharClasses.isAlphanumeric ' ' = false ∧
      CharClasses.isWhitespace '&' = false ∧ CharClasses.isWhitespace ' ' = true ∧
      ∀ ch ∈ ['h', 'e', 'l', 'l', 'o'],
        CharClasses.isAlphanumeric ch = true ∧ Utils.CaseMapping.isUppercase ch = false) ∧
    (∀ (tokens : List Token) (text : List Char) (needles : List (List Char)) (isExact : Bool)
      (snippet : List Char), generateSnippet tokens text needles isExact = some snippet →
        ∃ first terms context, findTerms tokens needles isExact = first :: terms ∧
          leadingContext text first.offset = some context ∧
          utf8Len snippet ≤ max 255 (utf8Len context)) ∧
    generateSnippet (wordTokens 200 ampersandText) ampersandText [['h', 'e', 'l', 'l', 'o']] false =
      some ampersandContext ∧ utf8Len ampersandContext = 301 := by
  refine ⟨?classes, snippet_context_exceeds_limit ?classes⟩
  refine ⟨by decide, by decide, by decide, by decide, ?_⟩
  -- the five letters one by one, not by deciding over every `Char`
  simp only [List.forall_mem_cons, List.not_mem_nil, false_imp_iff, implies_true, and_true]
  decide

end Stalwart.Nlp
