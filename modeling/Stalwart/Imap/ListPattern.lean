import Mathlib.Data.List.TakeWhile
import Stalwart.Lib.Wildcard
import Stalwart.Imap.Receiver

/-!
# The wildcards of IMAP LIST

`matches_pattern` decides whether a mailbox name matches one of the patterns of a LIST command,
once the reference name is put in front of each. In a pattern `*` stands for any run of bytes and
`%` for any run without the hierarchy delimiter `/`; `listToken` reads a pattern so, as a
`Wildcard` pattern.

The matcher reads a wildcard together with the literal run after it, and looks for that run in
the name in one greedy pass, counting the bytes matched so far. It never backtracks.

## What is proved

* **What it accepts is in the relaxed language** (`matchOne_sound`). Take a pattern with no two
  wildcards side by side, and read each of its wildcards as `*`. Then every name the matcher
  accepts matches that pattern: a run it finds is really in the name.
* It is not the language. `*aab` does not match `aaab`, because a mismatch resets the count
  without reading the byte again. `%b` matches `a/b`, because `%` is checked against `/` only at
  the end of a pattern (`list_wildcards_misread`).
-/

set_option autoImplicit false

namespace Stalwart.Imap

open Wildcard (accepts syms)
open Stalwart.Imap.Proto (ascii)

/-- `*` or `%`. -/
def isWildcard (b : UInt8) : Bool :=
  b = '%'.toUInt8 || b = '*'.toUInt8

/-- How the scan of a name for the literal run after a wildcard ends. -/
inductive SegmentScan where
  /-- `continue 'inner`: the run was found, and the pattern goes on after it. -/
  | resume (name : List UInt8)
  /-- `return true`: the run ends both the pattern and the name. -/
  | matched
  /-- `continue 'outer`: the name ran out. -/
  | failed

/-- The loop of `matches_pattern` that reads the name for `match_bytes`, with `match_count` of
them matched so far. -/
def scanSegment (matchBytes : List UInt8) (patternEof : Bool) : Nat → List UInt8 → SegmentScan
  | _, [] => .failed
  | matchCount, ch :: name =>
    if matchBytes[matchCount]? = some ch then
      if matchCount + 1 = matchBytes.length then
        if !patternEof then .resume name
        else if name.isEmpty then .matched
        -- the run has to end the name: count again from the next byte
        else scanSegment matchBytes patternEof 0 name
      else scanSegment matchBytes patternEof (matchCount + 1) name
    -- a mismatch drops the count, and `ch` is not compared again
    else scanSegment matchBytes patternEof 0 name

/-- `matches_pattern` on one pattern: whether it returns `true` before going on to the next. -/
def matchOne : List UInt8 → List UInt8 → Bool
  | [], name => name.isEmpty
  | ch :: pattern, name =>
    if isWildcard ch then
      -- the literal run after the wildcard, up to the next wildcard or the end
      let matchBytes := pattern.takeWhile (fun b => !isWildcard b)
      let rest := pattern.dropWhile (fun b => !isWildcard b)
      if matchBytes ≠ [] then
        match scanSegment matchBytes rest.isEmpty 0 name with
        | .resume name => matchOne rest name
        | .matched => true
        | .failed => false
      else ch = '*'.toUInt8 || !name.any (· = '/'.toUInt8)
    else
      match name with
      | mch :: name => mch = ch && matchOne pattern name
      | [] => false
termination_by pattern => pattern.length
decreasing_by
  all_goals simp only [List.length_cons]
  · exact Nat.lt_succ_of_le (List.length_dropWhile_le _ _)
  · exact Nat.lt_succ_self _

/-- `matches_pattern`. An empty list of patterns matches every name. -/
def matchesPattern (patterns : List (List UInt8)) (mailboxName : List UInt8) : Bool :=
  patterns.isEmpty || patterns.any (matchOne · mailboxName)

/-- The patterns `SessionData::list` matches with: the reference name in front of each. -/
def listPatterns (referenceName : List UInt8) (patterns : List (List UInt8)) :
    List (List UInt8) :=
  if !patterns.isEmpty && !referenceName.isEmpty then patterns.map (referenceName ++ ·)
  else patterns

/-! ## The language of a pattern -/

/-- What a byte of a pattern stands for: `*` any run, `%` any run without `/`. -/
def listToken (b : UInt8) : Wildcard.Token UInt8 :=
  if b = '*'.toUInt8 then .many fun _ => true
  else if b = '%'.toUInt8 then .many fun c => c ≠ '/'.toUInt8
  else .sym b

/-- The same, with `%` read as `*`. -/
def relaxedToken (b : UInt8) : Wildcard.Token UInt8 :=
  if isWildcard b then .many fun _ => true else .sym b

/-- No two wildcards side by side. -/
def separated : List UInt8 → Bool
  | a :: b :: rest => !(isWildcard a && isWildcard b) && separated (b :: rest)
  | _ => true

theorem separated_tail {a : UInt8} {rest : List UInt8} (h : separated (a :: rest) = true) :
    separated rest = true := by
  match rest, h with
  | [], _ => rfl
  | _ :: _, h =>
    simp only [separated, Bool.and_eq_true] at h
    exact h.2

theorem separated_append_right {xs ys : List UInt8} (h : separated (xs ++ ys) = true) :
    separated ys = true := by
  induction xs with
  | nil => exact h
  | cons x xs ih => exact ih (separated_tail h)

theorem map_relaxedToken_of_literal {seg : List UInt8} (h : ∀ b ∈ seg, isWildcard b = false) :
    seg.map relaxedToken = syms seg := by
  induction seg with
  | nil => rfl
  | cons b seg ih =>
    simp only [List.map_cons, relaxedToken, h b (List.mem_cons_self ..), Bool.false_eq_true,
      if_false, Wildcard.syms_cons, ih fun c hc => h c (List.mem_cons_of_mem b hc)]

/-! ## The scan for a run -/

/-- What the scan found in `whole`, the bytes matched before it started and the name after: the
run, followed by the rest of the name when the pattern goes on, or ending it when it does not. -/
def SegmentScan.Found (seg whole : List UInt8) (eof : Bool) : SegmentScan → Prop
  | .resume rest => eof = false ∧ ∃ pre, whole = pre ++ seg ++ rest
  | .matched => eof = true ∧ ∃ pre, whole = pre ++ seg
  | .failed => True

theorem SegmentScan.Found.prepend {seg whole : List UInt8} {eof : Bool} {s : SegmentScan}
    (h : s.Found seg whole eof) (front : List UInt8) : s.Found seg (front ++ whole) eof := by
  cases s with
  | resume rest =>
    obtain ⟨heof, pre, rfl⟩ := h
    exact ⟨heof, front ++ pre, by simp⟩
  | matched =>
    obtain ⟨heof, pre, rfl⟩ := h
    exact ⟨heof, front ++ pre, by simp⟩
  | failed => trivial

theorem take_succ_of_getElem? {seg : List UInt8} {count : Nat} {ch : UInt8}
    (h : seg[count]? = some ch) : seg.take (count + 1) = seg.take count ++ [ch] := by
  simp [List.take_add_one, h]

/-- **A run the scan reports is in the name**: the count is always the length of a prefix of the
run that the name has just shown. -/
theorem scanSegment_found (seg : List UInt8) (eof : Bool) (count : Nat) (name : List UInt8) :
    (scanSegment seg eof count name).Found seg (seg.take count ++ name) eof := by
  induction name generalizing count with
  | nil => trivial
  | cons ch name ih =>
    have hrestart := (ih 0).prepend (seg.take count ++ [ch])
    simp only [List.take_zero, List.nil_append, List.append_assoc, List.singleton_append]
      at hrestart
    unfold scanSegment
    split_ifs with hch hlen heof hempty
    · -- the run is complete and the pattern goes on
      refine ⟨by simpa using heof, [], ?_⟩
      rw [← List.singleton_append, ← List.append_assoc, ← take_succ_of_getElem? hch,
        List.take_of_length_le (by omega)]
      rfl
    · refine ⟨by simpa using heof, [], ?_⟩
      rw [List.isEmpty_iff.mp hempty, ← List.singleton_append, ← List.append_assoc,
        ← take_succ_of_getElem? hch, List.take_of_length_le (by omega)]
      simp
    · exact hrestart
    · have hnext := ih (count + 1)
      rwa [take_succ_of_getElem? hch, List.append_assoc, List.singleton_append] at hnext
    · exact hrestart

/-! ## What the matcher accepts -/

theorem takeWhile_literal (pattern : List UInt8) :
    ∀ b ∈ pattern.takeWhile (fun b => !isWildcard b), isWildcard b = false := by
  intro b hb
  simpa using List.mem_takeWhile_imp hb

/-- After a wildcard of a separated pattern, the literal run is empty only at the pattern's end. -/
theorem eq_nil_of_takeWhile_eq_nil {ch : UInt8} {pattern : List UInt8}
    (hch : isWildcard ch = true) (hsep : separated (ch :: pattern) = true)
    (h : pattern.takeWhile (fun b => !isWildcard b) = []) : pattern = [] := by
  match pattern, hsep, h with
  | [], _, _ => rfl
  | b :: rest, hsep, h =>
    simp only [separated, hch, Bool.true_and, Bool.and_eq_true, Bool.not_eq_true'] at hsep
    simp [hsep.1] at h

/-- **What the matcher accepts is in the relaxed language**, on a pattern with no two wildcards
side by side. -/
theorem matchOne_sound {pattern name : List UInt8} (hsep : separated pattern = true)
    (h : matchOne pattern name = true) : accepts (pattern.map relaxedToken) name = true := by
  fun_induction matchOne pattern name with
  | case1 name => simpa using h
  | case2 ch pattern name hch matchBytes rest hne name' hscan ih =>
    -- the run was found, and the rest of the pattern matched after it
    have hsplit : pattern = matchBytes ++ rest := List.takeWhile_append_dropWhile.symm
    have hsep' : separated ((ch :: matchBytes) ++ rest) = true := by
      rw [List.cons_append, ← hsplit]
      exact hsep
    have hfound := scanSegment_found matchBytes rest.isEmpty 0 name
    rw [hscan] at hfound
    obtain ⟨-, pre, rfl⟩ := hfound
    rw [List.map_cons, hsplit, List.map_append, map_relaxedToken_of_literal (takeWhile_literal _)]
    simp only [relaxedToken, hch, if_true, List.append_assoc]
    exact Wildcard.accepts_many_of_split _ _ (fun _ _ => rfl)
      (by rw [Wildcard.accepts_syms_append]; exact ih (separated_append_right hsep') h)
  | case3 ch pattern name hch matchBytes rest hne hscan =>
    -- the run ends the pattern and the name
    have hsplit : pattern = matchBytes ++ rest := List.takeWhile_append_dropWhile.symm
    have hfound := scanSegment_found matchBytes rest.isEmpty 0 name
    rw [hscan] at hfound
    obtain ⟨heof, pre, rfl⟩ := hfound
    rw [List.isEmpty_iff.mp heof, List.append_nil] at hsplit
    rw [List.map_cons, hsplit, map_relaxedToken_of_literal (takeWhile_literal _)]
    simp only [relaxedToken, hch, if_true]
    have hsyms : accepts (syms matchBytes) matchBytes = true := by
      have h := Wildcard.accepts_syms_append matchBytes [] []
      rw [List.append_nil, List.append_nil] at h
      rw [h]
      rfl
    exact Wildcard.accepts_many_of_split _ _ (fun _ _ => rfl) hsyms
  | case4 => simp at h
  | case5 ch pattern name hch matchBytes hnil =>
    have hempty := eq_nil_of_takeWhile_eq_nil hch hsep (not_not.mp hnil)
    subst hempty
    simp [relaxedToken, hch, Wildcard.accepts_many_iff]
  | case6 ch pattern hch mch name ih =>
    simp only [Bool.and_eq_true, decide_eq_true_eq] at h
    obtain ⟨rfl, hrest⟩ := h
    simp only [List.map_cons, relaxedToken, hch, Bool.false_eq_true, if_false,
      Wildcard.accepts_sym_cons, true_and]
    exact ih (separated_tail hsep) hrest
  | case7 => simp at h

/-- `a*c` matches `abbc`: the run `c` is found after the wildcard. -/
theorem matchOne_sound_run :
    separated (ascii "a*c") = true ∧ matchOne (ascii "a*c") (ascii "abbc") = true ∧
      accepts ((ascii "a*c").map relaxedToken) (ascii "abbc") = true := by
  have hsep : separated (ascii "a*c") = true := by decide
  have h : matchOne (ascii "a*c") (ascii "abbc") = true := by decide +kernel
  exact ⟨hsep, h, matchOne_sound hsep h⟩

/-- `*aab` does not match `aaab`, which its language holds, and `%b` matches `a/b`, which its
language does not hold. -/
theorem list_wildcards_misread :
    matchesPattern [ascii "*aab"] (ascii "aaab") = false ∧
      accepts ((ascii "*aab").map listToken) (ascii "aaab") = true ∧
      matchesPattern [ascii "%b"] (ascii "a/b") = true ∧
      accepts ((ascii "%b").map listToken) (ascii "a/b") = false := by
  decide +kernel

end Stalwart.Imap
