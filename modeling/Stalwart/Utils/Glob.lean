import Mathlib.Data.List.TakeWhile
import Stalwart.Lib.Wildcard

/-!
# Glob patterns

`GlobPattern::compile` reads a pattern text into pattern characters. An unescaped `*`, or a run
of them, becomes `WildcardMany`, an unescaped `?` becomes `WildcardSingle`, and `\` escapes the
character after it. Any other character stands for itself, or for its lowercase form when
`to_lower` is set and it is uppercase. `GlobPattern::matches` walks the pattern and the value
with one restart point, at the last `*` passed: on a mismatch it resumes there with one more
character given to the `*`.

`GlobPattern::try_compile` decides whether a text is a pattern at all. It is one when some `*` or
`?` does not come right after a backslash. Otherwise the text without its backslashes is an exact
entry of a `GlobSet` or a `GlobMap`.

The case tables of Unicode are a parameter (`CaseMapping`): `char::is_uppercase`,
`char::to_lowercase`, and `str::to_lowercase`, which lowercases a whole text and so need not map
each character as `char::to_lowercase` does. Texts are lists of characters.

## What is proved

* The matcher's loop ends: its cursors (`Cursor`) carry the bounds they keep, and a measure falls
  at every step (`Cursor.step_measure_lt`).
* With `to_lower`, a pattern without wildcards need not match its own text. The titlecase
  letter `ǅ` is not uppercase, so `compile` keeps it, while `str::to_lowercase` turns the value
  `ǅ` into `ǆ` (`titlecase_pattern_misses_own_text`).
* `try_compile` takes `\\*` (an escaped backslash, then a wildcard) for the exact entry `*`, and
  `a\\b` for the exact entry `ab`. `compile` reads these as a backslash followed by a wildcard, and
  as `a\b`. So a `GlobSet` holds `*` and `ab` and not the texts these patterns match
  (`globSet_exact_entry_mismatch`).
-/

set_option autoImplicit false

namespace Stalwart.Utils

/-- The case tables of Unicode that `compile` and `matches` read. -/
class CaseMapping where
  /-- `char::is_uppercase`. -/
  isUppercase : Char → Bool
  /-- `char::to_lowercase`. -/
  toLowercase : Char → List Char
  /-- `str::to_lowercase`. -/
  strToLowercase : List Char → List Char

/-- `PatternChar`. The `match_pos` fields are never read, and are left out. -/
inductive PatternChar where
  | wildcardMany (num : Nat)
  | wildcardSingle
  | char (c : Char)
  deriving DecidableEq, Repr

/-- `GlobPattern`. -/
structure GlobPattern where
  pattern : List PatternChar
  toLower : Bool
  deriving DecidableEq, Repr

/-! ## Compiling a pattern -/

/-- The loop of `GlobPattern::compile` over the characters of the text, `isEscaped` after an
escaping backslash. `lower ch` is what `ch` is replaced by, if anything. -/
def compileLoop (lower : Char → Option (List Char)) : Bool → List Char → List PatternChar
  | _, [] => []
  | isEscaped, ch :: rest =>
    if ch = '*' ∧ isEscaped = false then
      -- the run of `*` after it is the same wildcard
      .wildcardMany (1 + (rest.takeWhile (· = '*')).length) ::
        compileLoop lower false (rest.dropWhile (· = '*'))
    else if ch = '?' ∧ isEscaped = false then .wildcardSingle :: compileLoop lower false rest
    else if ch = '\\' ∧ isEscaped = false then compileLoop lower true rest
    else
      match lower ch with
      | some chars => chars.map .char ++ compileLoop lower false rest
      | none => .char ch :: compileLoop lower false rest
termination_by _ rest => rest.length
decreasing_by
  all_goals simp only [List.length_cons]
  · exact Nat.lt_succ_of_le (List.length_dropWhile_le _ _)
  all_goals exact Nat.lt_succ_self _

/-! ## Matching -/

section Matching

variable {pattern : List PatternChar} {value : List Char}

/-- The cursors of `GlobPattern::matches`: `px` in the pattern, `nx` in the value, and the restart
point `(next_px, next_nx)` of the last `*` passed, with the bounds they keep. -/
structure Cursor (pattern : List PatternChar) (value : List Char) where
  px : Nat
  nx : Nat
  nextPx : Nat
  nextNx : Nat
  px_le : px ≤ pattern.length
  nx_le : nx ≤ value.length
  nextPx_le : nextPx ≤ px
  nextNx_le : nextNx ≤ nx + 1
  /-- A restart point is always at a `*`. -/
  restart : 0 < nextNx → ∃ num, pattern[nextPx]? = some (.wildcardMany num)

/-- The cursors at the start. -/
def Cursor.start (pattern : List PatternChar) (value : List Char) : Cursor pattern value :=
  ⟨0, 0, 0, 0, Nat.zero_le _, Nat.zero_le _, le_refl _, Nat.zero_le _, by omega⟩

/-- Both cursors one step on, past a character or a `?` that matched. -/
def Cursor.advance (c : Cursor pattern value) (hp : c.px < pattern.length)
    (hn : c.nx < value.length) : Cursor pattern value :=
  ⟨c.px + 1, c.nx + 1, c.nextPx, c.nextNx, hp, hn, by have := c.nextPx_le; omega,
    by have := c.nextNx_le; omega, c.restart⟩

/-- Past a `*`: it becomes the restart point, with one more character for it next time. -/
def Cursor.star (c : Cursor pattern value) {num : Nat}
    (hp : pattern[c.px]? = some (.wildcardMany num)) : Cursor pattern value :=
  ⟨c.px + 1, c.nx, c.px, c.nx + 1, (List.getElem?_eq_some_iff.mp hp).1, c.nx_le,
    Nat.le_succ _, le_refl _, fun _ => ⟨num, hp⟩⟩

/-- `px = next_px; nx = next_nx`, if the restart point is set and within the value; else the
match fails. -/
def Cursor.backtrack (c : Cursor pattern value) : Option (Cursor pattern value) :=
  if h : 0 < c.nextNx ∧ c.nextNx ≤ value.length then
    some ⟨c.nextPx, c.nextNx, c.nextPx, c.nextNx,
      le_trans c.nextPx_le c.px_le, h.2, le_refl _, Nat.le_succ _, c.restart⟩
  else none

/-- One round of the loop of `matches`: the next cursors, or none when it returns `false`. -/
def Cursor.step (c : Cursor pattern value) : Option (Cursor pattern value) :=
  match hp : pattern[c.px]? with
  | some (.char ch) =>
    if hn : value[c.nx]? = some ch then
      some (c.advance (List.getElem?_eq_some_iff.mp hp).1 (List.getElem?_eq_some_iff.mp hn).1)
    else c.backtrack
  | some .wildcardSingle =>
    if hn : c.nx < value.length then some (c.advance (List.getElem?_eq_some_iff.mp hp).1 hn)
    else c.backtrack
  | some (.wildcardMany _) => some (c.star hp)
  | none => c.backtrack

/-- Whether the cursors are back at the restart point, about to give its `*` one more
character. -/
def Cursor.AtRestart (c : Cursor pattern value) : Prop :=
  c.px = c.nextPx ∧ c.nx = c.nextNx ∧ 0 < c.nextNx

instance (c : Cursor pattern value) : Decidable c.AtRestart :=
  inferInstanceAs (Decidable (_ ∧ _ ∧ _))

/-- What falls at every round: the characters not yet given to the last `*` count most, then
the characters left in the pattern and the value, and a restart is paid for ahead of it. -/
def Cursor.measure (c : Cursor pattern value) : Nat :=
  (value.length + 1 - c.nextNx) * (pattern.length + value.length + 3) +
    (pattern.length - c.px) + (value.length - c.nx) +
    if c.AtRestart then 0 else pattern.length + value.length + 1

theorem Cursor.not_atRestart_of_not_star {c : Cursor pattern value}
    (h : ∀ num, pattern[c.px]? ≠ some (.wildcardMany num)) : ¬ c.AtRestart := by
  rintro ⟨hpx, -, hpos⟩
  obtain ⟨num, hnum⟩ := c.restart hpos
  exact h num (hpx ▸ hnum)

theorem Cursor.advance_measure_lt (c : Cursor pattern value) (hp : c.px < pattern.length)
    (hn : c.nx < value.length) (hrestart : ¬ c.AtRestart) :
    (c.advance hp hn).measure < c.measure := by
  have hnot : ¬ (c.advance hp hn).AtRestart := by
    rintro ⟨hpx, -, -⟩
    have := c.nextPx_le
    simp only [Cursor.advance] at hpx
    omega
  simp only [Cursor.measure, if_neg hnot, if_neg hrestart]
  simp only [Cursor.advance]
  omega

theorem Cursor.star_measure_lt (c : Cursor pattern value) {num : Nat}
    (hp : pattern[c.px]? = some (.wildcardMany num)) : (c.star hp).measure < c.measure := by
  have hnot : ¬ (c.star hp).AtRestart := by
    rintro ⟨hpx, -, -⟩
    simp only [Cursor.star] at hpx
    omega
  have hpx := (List.getElem?_eq_some_iff.mp hp).1
  have hnx := c.nx_le
  have hnext := c.nextNx_le
  simp only [Cursor.measure, if_neg hnot]
  simp only [Cursor.star]
  by_cases hrestart : c.AtRestart
  · -- back at the restart point: the `*` takes one more character
    obtain ⟨hpx', hnx', hpos⟩ := hrestart
    have hmul : (value.length + 1 - (c.nx + 1)) * (pattern.length + value.length + 3) +
        (pattern.length + value.length + 3) =
        (value.length + 1 - c.nextNx) * (pattern.length + value.length + 3) := by
      rw [← hnx', ← Nat.succ_mul]
      congr 1
      omega
    rw [if_pos ⟨hpx', hnx', hpos⟩]
    omega
  · have hmul : (value.length + 1 - (c.nx + 1)) * (pattern.length + value.length + 3) ≤
        (value.length + 1 - c.nextNx) * (pattern.length + value.length + 3) :=
      Nat.mul_le_mul_right _ (by omega)
    rw [if_neg hrestart]
    omega

theorem Cursor.backtrack_measure_lt {c c' : Cursor pattern value} (hrestart : ¬ c.AtRestart)
    (h : c.backtrack = some c') : c'.measure < c.measure := by
  simp only [Cursor.backtrack] at h
  split_ifs at h with hback
  cases h
  have hat : (⟨c.nextPx, c.nextNx, c.nextPx, c.nextNx, le_trans c.nextPx_le c.px_le, hback.2,
      le_refl _, Nat.le_succ _, c.restart⟩ : Cursor pattern value).AtRestart :=
    ⟨rfl, rfl, hback.1⟩
  simp only [Cursor.measure, if_pos hat, if_neg hrestart]
  have := c.px_le
  have := c.nx_le
  omega

/-- **Every round of `matches` brings it closer to its end.** -/
theorem Cursor.step_measure_lt {c c' : Cursor pattern value} (h : c.step = some c') :
    c'.measure < c.measure := by
  unfold Cursor.step at h
  split at h
  · next ch hp =>
    have hrestart := c.not_atRestart_of_not_star (by simp [hp])
    split at h
    · cases h
      exact c.advance_measure_lt _ _ hrestart
    · exact c.backtrack_measure_lt hrestart h
  · next hp =>
    have hrestart := c.not_atRestart_of_not_star (by simp [hp])
    split at h
    · cases h
      exact c.advance_measure_lt _ _ hrestart
    · exact c.backtrack_measure_lt hrestart h
  · next num hp =>
    cases h
    exact c.star_measure_lt hp
  · next hp =>
    exact c.backtrack_measure_lt (c.not_atRestart_of_not_star (by simp [hp])) h

/-- The loop of `GlobPattern::matches`: it runs while either cursor has characters left. -/
def Cursor.run (c : Cursor pattern value) : Bool :=
  if c.px < pattern.length ∨ c.nx < value.length then
    match _hstep : c.step with
    | some c' => c'.run
    | none => false
  else true
termination_by c.measure
decreasing_by exact Cursor.step_measure_lt _hstep

end Matching

/-- The loop of `GlobPattern::matches`, from the start. -/
def GlobPattern.run (g : GlobPattern) (value : List Char) : Bool :=
  (Cursor.start g.pattern value).run

/-! ## Exact entries -/

/-- The scan of `GlobPattern::try_compile`, after the character `lastCh`: whether the text has a
backslash, and whether some `*` or `?` in it does not come right after one. -/
def tryCompileScan (lastCh : Char) (hasEscape isGlob : Bool) : List Char → Bool × Bool
  | [] => (hasEscape, isGlob)
  | ch :: rest =>
    if ch = '\\' then tryCompileScan ch true isGlob rest
    else if (ch = '*' ∨ ch = '?') ∧ lastCh ≠ '\\' then tryCompileScan ch hasEscape true rest
    else tryCompileScan ch hasEscape isGlob rest

section Cases

variable [CaseMapping]

/-- What `to_lower` replaces a character of the pattern by: its lowercase form, when it is
uppercase. -/
def lowercaseOf (toLower : Bool) (ch : Char) : Option (List Char) :=
  if toLower && CaseMapping.isUppercase ch then some (CaseMapping.toLowercase ch) else none

/-- `GlobPattern::compile`. -/
def GlobPattern.compile (pattern : List Char) (toLower : Bool) : GlobPattern :=
  ⟨compileLoop (lowercaseOf toLower) false pattern, toLower⟩

/-- `GlobPattern::matches`: with `to_lower`, the value is lowercased as a whole. -/
def GlobPattern.matches (g : GlobPattern) (value : List Char) : Bool :=
  g.run (if g.toLower then CaseMapping.strToLowercase value else value)

/-- `GlobPattern::try_compile`: the pattern, or the exact entry that the text stands for. -/
def GlobPattern.tryCompile (pattern : List Char) (toLower : Bool) :
    Except (List Char) GlobPattern :=
  match tryCompileScan '\x00' false false pattern with
  | (_, true) => .ok (GlobPattern.compile pattern toLower)
  | (hasEscape, false) => .error (if hasEscape then pattern.filter (· ≠ '\\') else pattern)

/-- `GlobSet`: its exact entries (a hash set; only membership is read) and its patterns. -/
structure GlobSet where
  entries : List (List Char)
  patterns : List GlobPattern

/-- `GlobSet::new`. -/
def GlobSet.new : GlobSet :=
  ⟨[], []⟩

/-- `GlobSet::insert`. -/
def GlobSet.insert (s : GlobSet) (pattern : List Char) : GlobSet :=
  match GlobPattern.tryCompile pattern false with
  | .ok glob => { s with patterns := s.patterns ++ [glob] }
  | .error entry => { s with entries := entry :: s.entries }

/-- `GlobSet::contains`. -/
def GlobSet.contains (s : GlobSet) (key : List Char) : Bool :=
  s.entries.contains key || s.patterns.any (·.matches key)

/-- `GlobMap`: its exact entries (a hash map) and its patterns, each with a value. -/
structure GlobMap (V : Type) where
  entries : List (List Char × V)
  patterns : List (GlobPattern × V)

variable {V : Type}

/-- `GlobMap::new`. -/
def GlobMap.new : GlobMap V :=
  ⟨[], []⟩

/-- `GlobMap::insert`: an exact entry replaces the one it has. -/
def GlobMap.insert (m : GlobMap V) (pattern : List Char) (value : V) : GlobMap V :=
  match GlobPattern.tryCompile pattern false with
  | .ok glob => { m with patterns := m.patterns ++ [(glob, value)] }
  | .error entry => { m with entries := (entry, value) :: m.entries.filter (·.1 ≠ entry) }

/-- `GlobMap::get`: the exact entry, else the value of the first pattern that matches. -/
def GlobMap.get (m : GlobMap V) (key : List Char) : Option V :=
  match m.entries.lookup key with
  | some v => some v
  | none => m.patterns.findSome? fun (glob, v) => if glob.matches key then some v else none

theorem lowercaseOf_false : (lowercaseOf false : Char → Option (List Char)) = fun _ => none := by
  funext ch
  simp [lowercaseOf]

/-- Without `to_lower` the case tables play no part in compiling. -/
theorem compile_false (pattern : List Char) :
    GlobPattern.compile pattern false = ⟨compileLoop (fun _ => none) false pattern, false⟩ := by
  rw [GlobPattern.compile, lowercaseOf_false]

/-- Nor in matching. -/
theorem matches_of_toLower_false (pattern : List PatternChar) (value : List Char) :
    (⟨pattern, false⟩ : GlobPattern).matches value = (⟨pattern, false⟩ : GlobPattern).run value :=
  rfl

/-- The text `\\*` is the exact entry `*` of a `GlobSet`, while its pattern is a backslash
followed by a wildcard. The set holds `*`, which the pattern does not match, and not `\x`, which
the pattern matches. -/
theorem globSet_exact_entry_mismatch :
    (GlobSet.new.insert ['\\', '\\', '*']).contains ['*'] = true ∧
      (GlobPattern.compile ['\\', '\\', '*'] false).matches ['*'] = false ∧
      (GlobSet.new.insert ['\\', '\\', '*']).contains ['\\', 'x'] = false ∧
      (GlobPattern.compile ['\\', '\\', '*'] false).matches ['\\', 'x'] = true := by
  have hinsert : GlobSet.new.insert ['\\', '\\', '*'] = ⟨[['*']], []⟩ := by
    simp [GlobSet.insert, GlobPattern.tryCompile, tryCompileScan, GlobSet.new]
  simp only [hinsert, compile_false, matches_of_toLower_false, GlobSet.contains,
    List.any_nil, Bool.or_false]
  decide +kernel

/-- **A pattern without wildcards need not match its own text with `to_lower`.** On the titlecase
letter `ǅ`, which is not uppercase and which `str::to_lowercase` turns into `ǆ`, `compile` keeps
the letter while `matches` lowercases the value. -/
theorem titlecase_pattern_misses_own_text (hupper : CaseMapping.isUppercase 'ǅ' = false)
    (hlower : CaseMapping.strToLowercase ['ǅ'] = ['ǆ']) :
    (GlobPattern.compile ['ǅ'] true).matches ['ǅ'] = false := by
  have hpattern : GlobPattern.compile ['ǅ'] true = ⟨[.char 'ǅ'], true⟩ := by
    simp [GlobPattern.compile, compileLoop, lowercaseOf, hupper]
  rw [hpattern, GlobPattern.matches, if_pos rfl, hlower]
  decide +kernel

end Cases

/-- The case tables of Unicode on `ǅ` (U+01C5), a titlecase letter: it is not uppercase, and it
lowercases to `ǆ` (U+01C6). Other characters are mapped as ASCII maps them. -/
@[reducible]
def titlecaseSample : CaseMapping where
  isUppercase c := c.isUpper
  toLowercase c := if c = 'ǅ' then ['ǆ'] else [c.toLower]
  strToLowercase s := s.flatMap fun c => if c = 'ǅ' then ['ǆ'] else [c.toLower]

theorem titlecase_pattern_misses_own_text_sample :
    @CaseMapping.isUppercase titlecaseSample 'ǅ' = false ∧
      @CaseMapping.strToLowercase titlecaseSample ['ǅ'] = ['ǆ'] ∧
      @GlobPattern.matches titlecaseSample (@GlobPattern.compile titlecaseSample ['ǅ'] true)
        ['ǅ'] = false :=
  ⟨by decide, by decide, @titlecase_pattern_misses_own_text titlecaseSample (by decide) (by decide)⟩

end Stalwart.Utils
