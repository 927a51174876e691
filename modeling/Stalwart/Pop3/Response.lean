import Stalwart.Pop3.Session

/-!
# Reading POP3 messages back

`Response::serialize` (`Stalwart.Pop3.Session`) sends a message (`RETR`, `TOP`) through the
transparency procedure of RFC 1939 in one pass over its bytes: a bare LF becomes CRLF, a `.` after
an LF is doubled, and with a line limit the copy stops after that many LFs. The pass remembers one
byte, the one before, which starts at 0; a CRLF is added when the copy does not end in LF.

A client (`unstuff`) reads the lines after the status line: a line that is a `.` alone ends the
response, and a `.` that starts any other line is dropped.

## What is proved

* The client reads back what the pass copied (`unstuff_transparency`): the bytes with every bare
  LF made CRLF, from any byte before. The look-behind is what the client's state needs: after an
  LF the client is at the start of a line.
* So a message that does not start with `.` reads back whole (`unstuff_messageBody`). A message
  that does is read as the empty message when its first line is `.` alone: at the start the byte
  before is 0, not an LF, and the first `.` is not doubled.
-/

set_option autoImplicit false

namespace Stalwart.Pop3

/-- What the transparency loop writes for one byte after `lastByte`: a CR before a bare LF, a
second `.` for a `.` after an LF, then the byte. -/
def transparent (lastByte byte : UInt8) : List UInt8 :=
  (if byte == 10 && lastByte != 13 then [13] else []) ++
    (if byte == 46 && lastByte == 10 then [46] else []) ++ [byte]

/-- The part of `Response::Message` after its status line: the copy, a CRLF when it does not
end in LF, and the `.` line. -/
def messageBody (bytes : List UInt8) (lines : Nat) : List UInt8 :=
  let (body, lastByte) := transparency lines bytes 0 0
  body ++ (if lastByte ≠ 10 then [13, 10] else []) ++ [46, 13, 10]

/-! ## The client -/

/-- An RFC 1939 client reading a multi-line response after its status line. Lines end in CRLF; a
line that is `.` alone ends the response, and a `.` that starts any other line is dropped.
`prevCR`: the byte before was a CR; `atLineStart`: a line has just ended. The bytes of the lines
are returned with their CRLFs, and `none` when the response does not end. -/
def unstuff : Bool → Bool → List UInt8 → Option (List UInt8)
  | _, true, 46 :: 13 :: 10 :: _ => some []
  | _, true, 46 :: bytes => unstuff false false bytes
  | prevCR, _, byte :: bytes => (unstuff (byte == 13) (prevCR && byte == 10) bytes).map (byte :: ·)
  | _, _, [] => none

/-- Line ends made CRLF: every LF that does not follow a CR becomes CRLF. -/
def normalize : UInt8 → List UInt8 → List UInt8
  | _, [] => []
  | lastByte, byte :: bytes =>
    (if byte = 10 ∧ lastByte ≠ 13 then [13, byte] else [byte]) ++ normalize byte bytes

/-- What a message should read back as: its bytes normalised, and a CRLF when they do not end in
LF. -/
def expectedBody (bytes : List UInt8) : List UInt8 :=
  normalize 0 bytes ++ if bytes.getLast? = some 10 then [] else [13, 10]

/-! ## Reading back the copy -/

section Client

variable (prevCR : Bool) (byte : UInt8) (bytes : List UInt8)

attribute [local simp] unstuff

/-- A byte other than `.` is read as itself, wherever it stands. -/
theorem unstuff_cons_of_ne (atLineStart : Bool) (h : byte ≠ 46) :
    unstuff prevCR atLineStart (byte :: bytes) =
      (unstuff (byte == 13) (prevCR && byte == 10) bytes).map (byte :: ·) := by
  cases atLineStart <;> simp [h]

/-- Inside a line, a `.` is read as itself too. -/
theorem unstuff_cons_inside :
    unstuff prevCR false (byte :: bytes) =
      (unstuff (byte == 13) (prevCR && byte == 10) bytes).map (byte :: ·) := by
  simp

/-- A doubled `.` at the start of a line is read as one. -/
theorem unstuff_dot_dot :
    unstuff prevCR true (46 :: 46 :: bytes) = unstuff false false (46 :: bytes) := by
  simp

/-- A line that is a `.` alone ends the response. -/
theorem unstuff_dot_line : unstuff prevCR true (46 :: 13 :: 10 :: bytes) = some [] := by
  simp

/-- At the start, the client reads a response that does not start with `.` as from inside a line. -/
theorem unstuff_start {stream : List UInt8} (h : stream.head? ≠ some 46) :
    unstuff prevCR true stream = unstuff prevCR false stream := by
  cases stream with
  | nil => simp
  | cons first stream =>
    have hfirst : first ≠ 46 := fun heq => h (by simp [heq])
    rw [unstuff_cons_of_ne _ _ _ _ hfirst, unstuff_cons_inside]

end Client

/-- **One byte**: in the state the byte before leaves it in, the client reads the copy of a byte
as its normalisation, and is left in the state the byte leaves it in. -/
theorem unstuff_transparent (lastByte byte : UInt8) (rest : List UInt8) :
    unstuff (lastByte == 13) (lastByte == 10) (transparent lastByte byte ++ rest) =
      (unstuff (byte == 13) (byte == 10) rest).map
        ((if byte = 10 ∧ lastByte ≠ 13 then [13, byte] else [byte]) ++ ·) := by
  by_cases hlf : byte = 10
  · subst hlf
    by_cases hcr : lastByte = 13
    · -- an LF after a CR is copied as it is and ends the line
      subst hcr
      simp [transparent, unstuff_cons_of_ne]
    · -- a bare LF is copied after a CR
      simp [transparent, hcr, unstuff_cons_of_ne, Option.map_map, Function.comp_def]
  · by_cases hdot : byte = 46 ∧ lastByte = 10
    · -- a `.` that starts a line is doubled, and the client drops one
      obtain ⟨rfl, rfl⟩ := hdot
      simp [transparent, unstuff_dot_dot, unstuff_cons_inside]
    · have hcopy : transparent lastByte byte = [byte] := by
        have hdot' : (byte == 46 && lastByte == 10) = false := by
          simpa [Bool.and_eq_true] using hdot
        simp [transparent, hlf, hdot']
      have hlf' : (byte == 10) = false := by simpa using hlf
      rw [hcopy, List.singleton_append, if_neg (fun h => hlf h.1), hlf']
      by_cases hstart : lastByte = 10
      · -- at the start of a line, but not a `.`
        have hne : byte ≠ 46 := fun h => hdot ⟨h, hstart⟩
        simp [unstuff_cons_of_ne _ _ _ _ hne, hlf']
      · have hstart' : (lastByte == 10) = false := by simpa using hstart
        simp [hstart', unstuff_cons_inside, hlf']

/-- Without a line limit, the loop copies every byte. -/
theorem transparency_cons (lineCount : Nat) (lastByte byte : UInt8) (bytes : List UInt8) :
    transparency 0 (byte :: bytes) lineCount lastByte =
      (transparent lastByte byte ++ (transparency 0 bytes lineCount byte).1,
        (transparency 0 bytes lineCount byte).2) := by
  simp [transparency, transparent]

/-- Without a line limit, the loop ends at the last byte of the message. -/
theorem transparency_last (lineCount : Nat) :
    ∀ (lastByte : UInt8) (bytes : List UInt8),
      (transparency 0 bytes lineCount lastByte).2 = bytes.getLast?.getD lastByte
  | _, [] => rfl
  | lastByte, byte :: bytes => by
    rw [transparency_cons, transparency_last lineCount byte bytes]
    cases bytes with
    | nil => rfl
    | cons next bytes =>
      obtain ⟨last, hlast⟩ : ∃ last, (next :: bytes).getLast? = some last :=
        Option.isSome_iff_exists.mp (by simp)
      rw [List.getLast?_cons_cons, hlast]
      rfl

/-- **The client reads back the copy**: what the loop copies from a byte before, followed by
anything, is read as the normalised bytes, in the state the last byte copied leaves the client in.
The induction is on the bytes, one application of `unstuff_transparent` each. -/
theorem unstuff_transparency (lineCount : Nat) :
    ∀ (lastByte : UInt8) (bytes rest : List UInt8),
      unstuff (lastByte == 13) (lastByte == 10) ((transparency 0 bytes lineCount lastByte).1 ++ rest) =
        (unstuff ((transparency 0 bytes lineCount lastByte).2 == 13)
          ((transparency 0 bytes lineCount lastByte).2 == 10) rest).map
          (normalize lastByte bytes ++ ·)
  | _, [], rest => by simp [transparency, normalize]
  | lastByte, byte :: bytes, rest => by
    rw [transparency_cons, List.append_assoc, unstuff_transparent,
      unstuff_transparency lineCount byte bytes rest, Option.map_map]
    simp [normalize, Function.comp_def]

/-- The end of a message: the CRLF when the copy does not end in LF, then the `.` line. -/
theorem unstuff_end (lastByte : UInt8) :
    unstuff (lastByte == 13) (lastByte == 10)
        ((if lastByte ≠ 10 then [13, 10] else []) ++ [46, 13, 10]) =
      some (if lastByte ≠ 10 then [13, 10] else []) := by
  by_cases h : lastByte = 10
  · subst h
    simp [unstuff_dot_line]
  · simp [h, unstuff_cons_of_ne, unstuff_dot_line]

/-- **A message that does not start with `.` reads back whole**, normalised, with a CRLF added
when it does not end in LF. -/
theorem unstuff_messageBody {bytes : List UInt8} (hfirst : bytes.head? ≠ some 46) :
    unstuff false true (messageBody bytes 0) = some (expectedBody bytes) := by
  have hstream : (messageBody bytes 0).head? ≠ some 46 := by
    cases bytes with
    | nil => simp [messageBody, transparency]
    | cons byte bytes =>
      have hbyte : byte ≠ 46 := fun h => hfirst (by simp [h])
      rw [messageBody, transparency_cons]
      by_cases hlf : byte = 10 <;> simp [transparent, hlf, hbyte]
  have hread := unstuff_transparency 0 0 bytes
    ((if (transparency 0 bytes 0 0).2 ≠ 10 then [13, 10] else []) ++ [46, 13, 10])
  -- the byte before the first is 0: the client's state inside a line
  rw [show ((0 : UInt8) == 13) = false from rfl, show ((0 : UInt8) == 10) = false from rfl]
    at hread
  rw [unstuff_start _ hstream, messageBody]
  dsimp only
  rw [List.append_assoc, hread, unstuff_end, Option.map_some, expectedBody,
    transparency_last]
  cases hlast : bytes.getLast? with
  | none => simp
  | some last => by_cases hlf : last = 10 <;> simp [hlf]

theorem message_leading_dot_ends_response :
    (∀ bytes : List UInt8, bytes.head? ≠ some 46 →
      unstuff false true (messageBody bytes 0) = some (expectedBody bytes)) ∧
    (Response.message [46] 0).serialize = ascii "+OK 1 octets\r\n" ++ [46, 13, 10, 46, 13, 10] ∧
    unstuff false true (messageBody [46] 0) = some [] ∧
    expectedBody [46] = [46, 13, 10] :=
  ⟨fun _ hfirst => unstuff_messageBody hfirst, by decide, by decide, by decide⟩

end Stalwart.Pop3
