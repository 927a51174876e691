import Mathlib

/-!
# WebDAV state tokens

The server names its lock tokens `urn:stalwart:davlock:<id>` and its sync tokens
`urn:stalwart:davsync:<id>`, with `:<seq>` after the id when the sequence number is not zero; the
numbers are written in lowercase hexadecimal. `Urn::parse` reads both back, and
`Urn::try_extract_sync_id` takes the id part of a sync token as text.

Every token the server writes parses back to itself (`parse_urn_toString`).
-/

set_option autoImplicit false

namespace Stalwart.Dav

/-- `Urn`. -/
inductive Urn where
  | lock (id : UInt64)
  | sync (id : UInt64) (seq : UInt32)
  deriving DecidableEq, Repr

/-- `{n:x}`: lowercase hexadecimal without leading zeros. -/
def hex (n : Nat) : List Char :=
  Nat.toDigits 16 n

/-- `urn:stalwart:`. -/
def urnPrefix : List Char := "urn:stalwart:".toList

/-- The prefix of the lock tokens. -/
def lockPrefix : List Char := urnPrefix ++ "davlock:".toList

/-- The prefix of the sync tokens. -/
def syncPrefix : List Char := urnPrefix ++ "davsync:".toList

/-- `Display for Urn`. -/
def Urn.toString : Urn → List Char
  | .lock id => lockPrefix ++ hex id.toNat
  | .sync id seq =>
    if seq = 0 then syncPrefix ++ hex id.toNat else syncPrefix ++ hex id.toNat ++ ':' :: hex seq.toNat

/-- The value of a hexadecimal digit, in either case. -/
def hexDigit (c : Char) : Option Nat :=
  if '0' ≤ c ∧ c ≤ '9' then some (c.toNat - '0'.toNat)
  else if 'a' ≤ c ∧ c ≤ 'f' then some (c.toNat - 'a'.toNat + 10)
  else if 'A' ≤ c ∧ c ≤ 'F' then some (c.toNat - 'A'.toNat + 10)
  else none

/-- The value of hexadecimal digits, the most significant first. -/
def hexValue (digits : List Char) : Option Nat :=
  digits.foldlM (fun value c => (hexDigit c).map (value * 16 + ·)) 0

/-- `from_str_radix(_, 16)` for an unsigned type below `bound`: an optional `+`, then at least one
digit. The value only grows digit by digit, so the checked arithmetic fails exactly when the whole
value is out of range. -/
def fromStrRadix16 (bound : Nat) (input : List Char) : Option Nat :=
  let digits := match input with
    | '+' :: digits => digits
    | digits => digits
  if digits.isEmpty then none else (hexValue digits).filter (· < bound)

/-- `split_once`: the parts before and after the first `sep`. -/
def splitOnce (sep : Char) : List Char → Option (List Char × List Char)
  | [] => none
  | c :: rest =>
    if c = sep then some ([], rest)
    else (splitOnce sep rest).map fun (before, after) => (c :: before, after)

/-- `Urn::parse`, from the kind on. -/
def Urn.parseKind (kind id : List Char) : Option Urn :=
  if kind = "davlock".toList then
    (fromStrRadix16 (2 ^ 64) id).map (.lock ∘ UInt64.ofNat)
  else if kind = "davsync".toList then
    match splitOnce ':' id with
    | some (id, seq) => do
      let id ← fromStrRadix16 (2 ^ 64) id
      let seq ← fromStrRadix16 (2 ^ 32) seq
      return .sync (UInt64.ofNat id) (UInt32.ofNat seq)
    | none => (fromStrRadix16 (2 ^ 64) id).map fun id => .sync (UInt64.ofNat id) 0
  else none

/-- `Urn::parse`. -/
def Urn.parse (input : List Char) : Option Urn := do
  let inbox ← input.dropPrefix? urnPrefix
  let (kind, id) ← splitOnce ':' inbox
  Urn.parseKind kind id

/-- `Urn::try_unwrap_lock`. -/
def Urn.tryUnwrapLock : Urn → Option UInt64
  | .lock id => some id
  | .sync _ _ => none

/-- `Urn::try_extract_sync_id`: the text between the sync prefix and the next `:`. -/
def Urn.tryExtractSyncId (token : List Char) : Option (List Char) :=
  (token.dropPrefix? syncPrefix).map fun rest => ((splitOnce ':' rest).map (·.1)).getD rest

/-! ## Reading back what was written -/

theorem splitOnce_eq_none {sep : Char} : ∀ {s : List Char}, sep ∉ s → splitOnce sep s = none
  | [], _ => rfl
  | c :: rest, h => by
    rw [List.mem_cons, not_or] at h
    simp [splitOnce, Ne.symm h.1, splitOnce_eq_none h.2]

theorem splitOnce_append {sep : Char} {after : List Char} :
    ∀ {before : List Char}, sep ∉ before → splitOnce sep (before ++ sep :: after) = some (before, after)
  | [], _ => by simp [splitOnce]
  | c :: before, h => by
    rw [List.mem_cons, not_or] at h
    simp [splitOnce, Ne.symm h.1, splitOnce_append h.2]

theorem hexDigit_digitChar : ∀ d < 16, hexDigit (Nat.digitChar d) = some d := by
  decide

theorem hexValue_append_singleton (digits : List Char) (c : Char) :
    hexValue (digits ++ [c]) = (hexValue digits).bind fun value => (hexDigit c).map (value * 16 + ·) := by
  simp [hexValue, List.foldlM_append]

/-- The digits of `hex n` are hexadecimal digits. -/
theorem mem_hex {c : Char} : ∀ {n : Nat}, c ∈ hex n → ∃ d < 16, c = Nat.digitChar d
  | n, h => by
    unfold hex at h
    rw [Nat.toDigits_eq_if (by omega)] at h
    split at h
    · exact ⟨n, ‹_›, List.mem_singleton.mp h⟩
    · rcases List.mem_append.mp h with h | h
      · have : n / 16 < n := Nat.div_lt_self (by omega) (by omega)
        exact mem_hex h
      · exact ⟨n % 16, Nat.mod_lt _ (by omega), List.mem_singleton.mp h⟩

theorem hexValue_hex (n : Nat) : hexValue (hex n) = some n := by
  unfold hex
  rw [Nat.toDigits_eq_if (by omega)]
  split
  · next hlt =>
    simp [hexValue, hexDigit_digitChar n hlt]
  · -- the digits of `n / 16`, then the last digit
    have hhigh := hexValue_hex (n / 16)
    unfold hex at hhigh
    rw [hexValue_append_singleton, hhigh, Option.bind_some,
      hexDigit_digitChar _ (Nat.mod_lt _ (by omega))]
    simp only [Option.map_some, Option.some.injEq]
    omega
termination_by n
decreasing_by exact Nat.div_lt_self (by omega) (by omega)

theorem colon_not_mem_hex (n : Nat) : ':' ∉ hex n := by
  intro h
  obtain ⟨d, hd, hc⟩ := mem_hex h
  have : ∀ d < 16, Nat.digitChar d ≠ ':' := by decide
  exact this d hd hc.symm

theorem fromStrRadix16_hex {bound n : Nat} (h : n < bound) : fromStrRadix16 bound (hex n) = some n := by
  have hplus : ∀ rest, hex n ≠ '+' :: rest := by
    intro rest heq
    obtain ⟨d, hd, hc⟩ := mem_hex (heq ▸ List.mem_cons_self : '+' ∈ hex n)
    have : ∀ d < 16, Nat.digitChar d ≠ '+' := by decide
    exact this d hd hc.symm
  unfold fromStrRadix16
  split
  · next digits heq => exact absurd heq (hplus digits)
  · have hne : hex n ≠ [] := Nat.toDigits_ne_nil
    simp [hexValue_hex, h, hne]

theorem parse_append {kind : List Char} (hkind : ':' ∉ kind) (id : List Char) :
    Urn.parse (urnPrefix ++ kind ++ ':' :: id) = Urn.parseKind kind id := by
  unfold Urn.parse
  rw [List.append_assoc, List.dropPrefix?_append_of_beq _ (by simp)]
  simp [splitOnce_append hkind]

/-- **Every token the server writes parses back to itself.** -/
theorem parse_urn_toString (urn : Urn) : Urn.parse urn.toString = some urn := by
  cases urn with
  | lock id =>
    have htoken : (Urn.lock id).toString = urnPrefix ++ "davlock".toList ++ ':' :: hex id.toNat := by
      simp [Urn.toString, lockPrefix]
    rw [htoken, parse_append (by decide)]
    simp [Urn.parseKind, fromStrRadix16_hex (UInt64.toNat_lt id)]
  | sync id seq =>
    have htoken : ∀ rest : List Char, syncPrefix ++ rest = urnPrefix ++ "davsync".toList ++ ':' :: rest := by
      simp [syncPrefix]
    have hkind : ':' ∉ "davsync".toList := by decide
    by_cases hseq : seq = 0
    · subst hseq
      simp only [Urn.toString, if_true]
      rw [htoken, parse_append hkind]
      simp [Urn.parseKind, splitOnce_eq_none (colon_not_mem_hex _),
        fromStrRadix16_hex (UInt64.toNat_lt id)]
    · simp only [Urn.toString, hseq, if_false]
      rw [List.append_assoc, htoken, parse_append hkind]
      simp [Urn.parseKind, splitOnce_append (colon_not_mem_hex _),
        fromStrRadix16_hex (UInt64.toNat_lt id), fromStrRadix16_hex (UInt32.toNat_lt seq)]

end Stalwart.Dav
