import Stalwart.Config.IpMask

/-!
# Templates

`Template::parse` reads a text with the tags `{{v}}`, `{{!v}}`, `{{#if v}}`…`{{/if v}}` and
`{{#each v}}`…`{{/each v}}` into a flat list of items. A block start goes onto a stack of open
blocks, and its item is patched with the block's end when the end tag is read. `Template::eval`
walks the items with jumps to those ends: past an if block whose variable is not set, and past an
each block once its body has been written for every entry; inside the body a second loop jumps
past the if blocks whose variable the entry does not set.

`eval` returns an `Option` here: `none` where the source loops forever or panics on a slice, which
it does at a block end that does not lie ahead of its start.

## What is proved

* Each pass of the parse loop is one of three steps (`ParseStep`): push a text or variable item,
  push and open a block start, or close the top block. Every step keeps the ends patched so far
  nested (`ParseInv.step`): a block ends after its start and within the items, and a block inside
  another ends inside it. So the ends of every parsed template nest (`parse_nested`). On nested
  ends both loops of `eval` only jump forward, and `eval` returns on every template `parse`
  returns (`eval_parse_isSome`).
* An end tag is checked against the top of the stack, but one read while the stack is empty pops
  nothing and is skipped: `{{/if a}}` parses, to no items (`parse_accepts_stray_end`).
-/

set_option autoImplicit false

namespace Stalwart.Utils

open Stalwart.Config (trimChars)

/-- `TemplateItem`. -/
inductive TemplateItem (T : Type) where
  | static (text : List Char)
  | var (name : T) (escape : Bool)
  | ifBlock (var : T) (blockEnd : Nat)
  | forEach (var : T) (blockEnd : Nat)
  deriving DecidableEq, Repr

/-- `Template`, without `size`: the capacity `eval` reserves, which no output depends on. -/
structure Template (T : Type) where
  items : List (TemplateItem T)
  deriving DecidableEq, Repr

/-- `Variable`: a value, or the entries of a block. -/
inductive Variable (T : Type) where
  | single (value : List Char)
  | block (entries : List (List (T × List Char)))

/-- `Variables`. -/
structure Variables (T : Type) where
  items : List (T × Variable T)

variable {T : Type}

/-! ## Texts -/

/-- `str::split_once` at a non-empty text `pat`: the text before its first occurrence and the
text after it. -/
def splitOnceAt (pat : List Char) : List Char → Option (List Char × List Char)
  | [] => none
  | c :: rest =>
    if pat.isPrefixOf (c :: rest) then some ([], (c :: rest).drop pat.length)
    else (splitOnceAt pat rest).map fun (before, after) => (c :: before, after)

/-- `str::strip_prefix`. -/
def stripPrefix (pre text : List Char) : Option (List Char) :=
  if pre.isPrefixOf text then some (text.drop pre.length) else none

theorem splitOnceAt_eq {pat t before after : List Char}
    (h : splitOnceAt pat t = some (before, after)) : t = before ++ pat ++ after := by
  induction t generalizing before with
  | nil => simp [splitOnceAt] at h
  | cons c rest ih =>
    rw [splitOnceAt] at h
    split at h
    · rename_i hpre
      obtain ⟨rfl, rfl⟩ := Prod.mk.inj (Option.some.inj h)
      rw [List.isPrefixOf_iff_prefix, List.prefix_iff_eq_append] at hpre
      simpa using hpre.symm
    · obtain ⟨⟨b, a⟩, hrest, hba⟩ := Option.map_eq_some_iff.mp h
      obtain ⟨rfl, rfl⟩ := Prod.mk.inj hba
      simp [ih hrest]

theorem length_lt_of_splitOnceAt {pat t before after : List Char} (hpat : pat ≠ [])
    (h : splitOnceAt pat t = some (before, after)) : after.length < t.length := by
  have hlen : 0 < pat.length := List.length_pos_of_ne_nil hpat
  rw [splitOnceAt_eq h]
  simp only [List.length_append]
  omega

/-! ## Parsing -/

/-- The kind of a block tag and its variable: `each v` (`true`) or `if v` (`false`). -/
def blockKind (text : List Char) : Option (Bool × List Char) :=
  match stripPrefix "each ".toList text with
  | some each => some (true, each)
  | none => (stripPrefix "if ".toList text).map fun ifCond => (false, ifCond)

/-- The item of a block start with its end patched in, where the end tag is of its kind. -/
def patchEnd (isEach : Bool) (blockEnd : Nat) : TemplateItem T → Option (TemplateItem T)
  | .ifBlock v _ => if isEach then none else some (.ifBlock v blockEnd)
  | .forEach v _ => if isEach then some (.forEach v blockEnd) else none
  | _ => none

/-- The loop of `Template::parse` over the text that is left, with the items read so far and the
stack of open blocks, top first: the variable text of each and the position of its item.
`fromStr` is `T::from_str`. -/
def Template.parseLoop (fromStr : List Char → Option T) (items : List (TemplateItem T))
    (blockStack : List (List Char × Nat)) (template : List Char) : Except String (Template T) :=
  match _hsplit : splitOnceAt ['\x7b', '\x7b'] template with
  | none =>
    let items := if template.isEmpty then items else items ++ [.static template]
    match blockStack with
    | [] => .ok ⟨items⟩
    | (name, _) :: _ => .error ("Unmatched \x7b: " ++ String.ofList name)
  | some (start, finish) =>
    let items := if start.isEmpty then items else items ++ [.static start]
    match _hclose : splitOnceAt ['\x7d', '\x7d'] finish with
    | none => .error "Unmatched \x7b\x7b"
    | some (var, rest) =>
      let var := trimChars var
      match stripPrefix ['#'] var with
      | some varName =>
        let varName := trimChars varName
        match blockKind varName with
        | none => .error ("Invalid block start: " ++ String.ofList varName)
        | some (isEach, varName) =>
          match fromStr varName with
          | none => .error ("Invalid variable: " ++ String.ofList varName)
          | some v =>
            parseLoop fromStr (items ++ [if isEach then .forEach v 0 else .ifBlock v 0])
              ((varName, items.length) :: blockStack) rest
      | none =>
        match stripPrefix ['/'] var with
        | some varName =>
          let varName := trimChars varName
          match blockKind varName with
          | none => .error ("Invalid block end: " ++ String.ofList varName)
          | some (isEach, varName) =>
            match blockStack with
            -- the pop finds no open block, and the end tag is dropped
            | [] => parseLoop fromStr items [] rest
            | (expectedName, ifPos) :: blockStack =>
              if expectedName ≠ varName then
                .error ("Block end does not match start: expected " ++
                  String.ofList expectedName ++ ", got " ++ String.ofList varName)
              else
                match items[ifPos]?.bind (patchEnd isEach items.length) with
                | some item => parseLoop fromStr (items.set ifPos item) blockStack rest
                | none =>
                  .error ("Block end does not match start type for " ++ String.ofList varName)
        | none =>
          let (name, escape) :=
            match stripPrefix ['!'] var with
            | some v => (v, false)
            | none => (var, true)
          match fromStr name with
          | none => .error ("Invalid variable: " ++ String.ofList name)
          | some name => parseLoop fromStr (items ++ [.var name escape]) blockStack rest
termination_by template.length
decreasing_by
  all_goals
    have hfinish := length_lt_of_splitOnceAt (by simp) _hsplit
    have hrest := length_lt_of_splitOnceAt (by simp) _hclose
    omega

/-- `Template::parse`. -/
def Template.parse (fromStr : List Char → Option T) (template : String) :
    Except String (Template T) :=
  parseLoop fromStr [] [] template.toList

/-! ## Evaluation -/

/-- What `html_escape` writes for one character. -/
def htmlEscapeChar : Char → List Char
  | '&' => "&amp;".toList
  | '<' => "&lt;".toList
  | '>' => "&gt;".toList
  | '\x22' => "&quot;".toList
  | '\x27' => "&#39;".toList
  | c => [c]

/-- `html_escape`. -/
def htmlEscape (input : List Char) : List Char :=
  input.flatMap htmlEscapeChar

/-- What a variable tag writes for a value: the value HTML-escaped, or as it is for `{{!v}}`. -/
def render (escape : Bool) (value : List Char) : List Char :=
  if escape then htmlEscape value else value

section Eval

variable [DecidableEq T]

/-- The inner loop of `Template::eval`: the body of an each block, from `pos` up to `blockEnd`,
for one entry. -/
def Template.evalEntry (t : Template T) (entry : List (T × List Char)) (blockEnd : Nat)
    (pos : Nat) : Option (List Char) :=
  if pos < blockEnd then
    match t.items[pos]? with
    | some (.static s) => (t.evalEntry entry blockEnd (pos + 1)).map (s ++ ·)
    | some (.var name escape) =>
      (t.evalEntry entry blockEnd (pos + 1)).map ((entry.lookup name).elim [] (render escape) ++ ·)
    | some (.ifBlock v startPos) =>
      if (entry.lookup v).isSome then t.evalEntry entry blockEnd (pos + 1)
      -- the slice restarts at the if block's end; a restart that does not move forward loops
      -- forever, one past the body panics
      else if pos < startPos ∧ startPos ≤ blockEnd then t.evalEntry entry blockEnd startPos
      else none
    | some (.forEach _ _) => t.evalEntry entry blockEnd (pos + 1)
    | none => none
  else some []
termination_by blockEnd - pos

/-- The item loop of `Template::eval` from position `pos`. -/
def Template.evalFrom (t : Template T) (vars : Variables T) (pos : Nat) : Option (List Char) :=
  match hget : t.items[pos]? with
  | none => some []
  | some (.static s) => (t.evalFrom vars (pos + 1)).map (s ++ ·)
  | some (.var name escape) =>
    let value :=
      match vars.items.lookup name with
      | some (.single v) => render escape v
      | _ => []
    (t.evalFrom vars (pos + 1)).map (value ++ ·)
  | some (.ifBlock v blockEnd) =>
    if (vars.items.lookup v).isSome then t.evalFrom vars (pos + 1)
    else if pos < blockEnd ∧ blockEnd ≤ t.items.length then t.evalFrom vars blockEnd
    else none
  | some (.forEach v blockEnd) =>
    if pos < blockEnd ∧ blockEnd ≤ t.items.length then
      let body :=
        match vars.items.lookup v with
        | some (.block entries) =>
          (entries.mapM fun entry => t.evalEntry entry blockEnd (pos + 1)).map List.flatten
        | _ => some []
      body.bind fun b => (t.evalFrom vars blockEnd).map (b ++ ·)
    else none
termination_by t.items.length - pos
decreasing_by
  all_goals
    have hpos := (List.getElem?_eq_some_iff.mp hget).1
    omega

/-- `Template::eval`: `none` where the source does not return. -/
def Template.eval (t : Template T) (vars : Variables T) : Option (List Char) :=
  t.evalFrom vars 0

end Eval

/-! ## Block ends -/

/-- The end a block start records. -/
def TemplateItem.blockEnd? : TemplateItem T → Option Nat
  | .ifBlock _ e | .forEach _ e => some e
  | _ => none

/-- The end recorded at position `j` of the items, where a block starts there. -/
def blockEndAt (items : List (TemplateItem T)) (j : Nat) : Option Nat :=
  items[j]?.bind TemplateItem.blockEnd?

/-- The ends recorded in the items nest, outside the blocks still open at `openAt`: a block ends
after its start and within the items, and a block that starts inside it is closed and ends
inside it. -/
def Nested (items : List (TemplateItem T)) (openAt : List Nat) : Prop :=
  ∀ j e, blockEndAt items j = some e → j ∉ openAt →
    j < e ∧ e ≤ items.length ∧
      ∀ k e', j < k → k < e → blockEndAt items k = some e' → k ∉ openAt ∧ e' ≤ e

section Ends

variable {items : List (TemplateItem T)} {j e : Nat}

theorem lt_length_of_blockEndAt (h : blockEndAt items j = some e) : j < items.length := by
  by_contra hj
  simp [blockEndAt, List.getElem?_eq_none (Nat.le_of_not_lt hj)] at h

theorem blockEndAt_append_of_lt (item : TemplateItem T) (h : j < items.length) :
    blockEndAt (items ++ [item]) j = blockEndAt items j := by
  simp [blockEndAt, List.getElem?_append_left h]

theorem blockEndAt_append_eq_some {item : TemplateItem T} :
    blockEndAt (items ++ [item]) j = some e ↔
      (j < items.length ∧ blockEndAt items j = some e) ∨
        (j = items.length ∧ item.blockEnd? = some e) := by
  constructor
  · intro h
    have hj := lt_length_of_blockEndAt h
    rw [List.length_append, List.length_singleton] at hj
    rcases Nat.lt_succ_iff_lt_or_eq.mp hj with hlt | rfl
    · exact .inl ⟨hlt, by rwa [blockEndAt_append_of_lt item hlt] at h⟩
    · exact .inr ⟨rfl, by simpa [blockEndAt] using h⟩
  · rintro (⟨hlt, h⟩ | ⟨rfl, h⟩)
    · rwa [blockEndAt_append_of_lt item hlt]
    · simpa [blockEndAt] using h

theorem blockEndAt_set_ne {p : Nat} {item : TemplateItem T} (h : p ≠ j) :
    blockEndAt (items.set p item) j = blockEndAt items j := by
  simp [blockEndAt, List.getElem?_set_ne h]

theorem blockEndAt_set_self {p : Nat} {item : TemplateItem T} (h : p < items.length) :
    blockEndAt (items.set p item) p = item.blockEnd? := by
  simp [blockEndAt, List.getElem?_set_self h]

theorem blockEnd?_of_patchEnd {isEach : Bool} {it it' : TemplateItem T}
    (h : patchEnd isEach e it = some it') : it'.blockEnd? = some e ∧ ∃ e₀, it.blockEnd? = some e₀ := by
  cases it <;> cases isEach <;> simp [patchEnd] at h <;> subst h <;> simp [TemplateItem.blockEnd?]

end Ends

section Nesting

variable {items : List (TemplateItem T)} {openAt : List Nat}

/-- Text and variable items leave the ends as they are. -/
theorem Nested.push_plain {item : TemplateItem T} (h : Nested items openAt)
    (hitem : item.blockEnd? = none) : Nested (items ++ [item]) openAt := by
  intro j e hj hopen
  rcases blockEndAt_append_eq_some.mp hj with ⟨hjlt, hj⟩ | ⟨-, hj⟩
  · obtain ⟨hje, helen, hinner⟩ := h j e hj hopen
    refine ⟨hje, by simp; omega, fun k e' hjk hke hk => hinner k e' hjk hke ?_⟩
    rwa [blockEndAt_append_of_lt item (by omega)] at hk
  · simp [hitem] at hj

/-- A block start is pushed open, and nothing closed can contain it. -/
theorem Nested.push_start (h : Nested items openAt) (item : TemplateItem T) :
    Nested (items ++ [item]) (items.length :: openAt) := by
  intro j e hj hopen
  rw [List.mem_cons, not_or] at hopen
  obtain ⟨hjne, hopen⟩ := hopen
  rcases blockEndAt_append_eq_some.mp hj with ⟨hjlt, hj⟩ | ⟨rfl, -⟩
  · obtain ⟨hje, helen, hinner⟩ := h j e hj hopen
    refine ⟨hje, by simp; omega, fun k e' hjk hke hk => ?_⟩
    rw [blockEndAt_append_of_lt item (by omega)] at hk
    obtain ⟨hkopen, he'⟩ := hinner k e' hjk hke hk
    exact ⟨by simp only [List.mem_cons, not_or]; exact ⟨by omega, hkopen⟩, he'⟩
  · exact absurd rfl hjne

/-- Closing the top block `p` at the current end: every block after `p` is closed by then, and
nothing closed contains `p`, which was open. -/
theorem Nested.close {p : Nat} {isEach : Bool} {it it' : TemplateItem T}
    (h : Nested items (p :: openAt)) (hbelow : ∀ q ∈ openAt, q < p) (hp : p < items.length)
    (hit : items[p]? = some it) (hpatch : patchEnd isEach items.length it = some it') :
    Nested (items.set p it') openAt := by
  obtain ⟨hend, e₀, he₀⟩ := blockEnd?_of_patchEnd hpatch
  intro j e hj hopen
  by_cases hjp : j = p
  · subst hjp
    rw [blockEndAt_set_self hp, hend, Option.some.injEq] at hj
    subst hj
    refine ⟨hp, by simp, fun k e' hjk hke hk => ?_⟩
    rw [blockEndAt_set_ne (by omega)] at hk
    have hkopen : k ∉ j :: openAt := by
      simp only [List.mem_cons, not_or]
      exact ⟨by omega, fun hk' => absurd (hbelow k hk') (by omega)⟩
    obtain ⟨-, he'len, -⟩ := h k e' hk hkopen
    exact ⟨fun hk' => hkopen (List.mem_cons_of_mem _ hk'), he'len⟩
  · rw [blockEndAt_set_ne (Ne.symm hjp)] at hj
    have hjopen : j ∉ p :: openAt := by simp [hjp, hopen]
    obtain ⟨hje, helen, hinner⟩ := h j e hj hjopen
    refine ⟨hje, by simpa using helen, fun k e' hjk hke hk => ?_⟩
    by_cases hkp : k = p
    · subst hkp
      have hopenk := (hinner k e₀ hjk hke (by simp [blockEndAt, hit, he₀])).1
      simp at hopenk
    · rw [blockEndAt_set_ne (Ne.symm hkp)] at hk
      obtain ⟨hkopen, he'⟩ := hinner k e' hjk hke hk
      exact ⟨fun hk' => hkopen (List.mem_cons_of_mem _ hk'), he'⟩

end Nesting

/-! ## The parse loop -/

/-- What the text before a tag, or one tag, does to the items and the stack of open blocks: push
a text or variable item, push a block start and open it, or close the top block by patching its
end. An end tag read with no open block leaves both as they are. -/
inductive ParseStep : List (TemplateItem T) × List (List Char × Nat) →
    List (TemplateItem T) × List (List Char × Nat) → Prop
  | plain {items stack} (item : TemplateItem T) :
      item.blockEnd? = none → ParseStep (items, stack) (items ++ [item], stack)
  | start {items stack} (item : TemplateItem T) (name : List Char) {e : Nat} :
      item.blockEnd? = some e →
      ParseStep (items, stack) (items ++ [item], (name, items.length) :: stack)
  | close {items stack} (name : List Char) (p : Nat) (isEach : Bool) {it it' : TemplateItem T} :
      items[p]? = some it → patchEnd isEach items.length it = some it' →
      ParseStep (items, (name, p) :: stack) (items.set p it', stack)

/-- The invariant of the parse loop: the open blocks lie within the items, the newest on top,
and the ends patched so far nest. -/
structure ParseInv (s : List (TemplateItem T) × List (List Char × Nat)) : Prop where
  below : ∀ p ∈ s.2.map Prod.snd, p < s.1.length
  sorted : (s.2.map Prod.snd).Pairwise (· > ·)
  nested : Nested s.1 (s.2.map Prod.snd)

theorem ParseInv.step {s s' : List (TemplateItem T) × List (List Char × Nat)}
    (hstep : ParseStep s s') (h : ParseInv s) : ParseInv s' := by
  cases hstep with
  | @plain items stack item hitem =>
    refine ⟨fun p hp => ?_, h.sorted, h.nested.push_plain hitem⟩
    have hlt : p < items.length := h.below p hp
    simp only [List.length_append, List.length_singleton]
    omega
  | @start items stack item name _ hitem =>
    refine ⟨?_, ?_, by simpa using h.nested.push_start item⟩
    · simp only [List.map_cons, List.mem_cons, List.length_append, List.length_singleton]
      rintro p (rfl | hp)
      · omega
      · have hlt : p < items.length := h.below p hp
        omega
    · exact List.Pairwise.cons (fun p hp => h.below p hp) h.sorted
  | close name p isEach hit hpatch =>
    have hsorted := h.sorted
    simp only [List.map_cons, List.pairwise_cons] at hsorted
    have hp := h.below p (by simp)
    refine ⟨fun q hq => ?_, hsorted.2, h.nested.close (fun q hq => hsorted.1 q hq) hp hit hpatch⟩
    rw [List.length_set]
    exact h.below q (by simp [hq])

/-- The invariant along any run of steps. -/
theorem ParseInv.run {s s' : List (TemplateItem T) × List (List Char × Nat)}
    (hrun : Relation.ReflTransGen ParseStep s s') (h : ParseInv s) : ParseInv s' := by
  induction hrun with
  | refl => exact h
  | tail _ hstep ih => exact ih.step hstep

/-- The text before a tag is pushed as a text item, unless it is empty. -/
theorem ParseStep.pushText (text : List Char) (items : List (TemplateItem T))
    (stack : List (List Char × Nat)) :
    Relation.ReflTransGen ParseStep (items, stack)
      (if text.isEmpty then items else items ++ [.static text], stack) := by
  split
  · exact .refl
  · exact .single (.plain _ rfl)

theorem blockEnd?_start (isEach : Bool) (v : T) :
    (if isEach then TemplateItem.forEach v 0 else .ifBlock v 0).blockEnd? = some 0 := by
  cases isEach <;> rfl

/-- A template the parse loop returns is reached from the loop's start by steps, with no block
left open. -/
theorem parseLoop_reaches {fromStr : List Char → Option T} {items : List (TemplateItem T)}
    {blockStack : List (List Char × Nat)} {template : List Char} {t : Template T}
    (h : Template.parseLoop fromStr items blockStack template = .ok t) :
    Relation.ReflTransGen ParseStep (items, blockStack) (t.items, []) := by
  fun_induction Template.parseLoop fromStr items blockStack template
  case case1 =>
    cases h
    exact ParseStep.pushText _ _ _
  case case6 ih =>
    exact (ParseStep.pushText _ _ _).trans (.head (.start _ _ (blockEnd?_start _ _)) (ih h))
  case case8 ih =>
    exact (ParseStep.pushText _ _ _).trans (ih h)
  case case10 hpatch ih =>
    obtain ⟨it, hit, hpatch⟩ := Option.bind_eq_some_iff.mp hpatch
    exact (ParseStep.pushText _ _ _).trans (.head (.close _ _ _ hit hpatch) (ih h))
  case case13 ih =>
    exact (ParseStep.pushText _ _ _).trans (.head (.plain _ rfl) (ih h))
  -- the other exits are errors
  all_goals cases h

/-- **The block ends of a parsed template nest.** -/
theorem parse_nested {fromStr : List Char → Option T} {text : String} {t : Template T}
    (h : Template.parse fromStr text = .ok t) : Nested t.items [] := by
  have hstart : ParseInv (([] : List (TemplateItem T)), ([] : List (List Char × Nat))) :=
    ⟨nofun, .nil, fun _ _ hj _ => absurd (lt_length_of_blockEndAt hj) (Nat.not_lt_zero _)⟩
  simpa using (hstart.run (parseLoop_reaches h)).nested

/-! ## Evaluation on nested ends -/

theorem isSome_mapM {α β : Type} {f : α → Option β} {l : List α}
    (h : ∀ x ∈ l, (f x).isSome) : (l.mapM f).isSome := by
  induction l with
  | nil => rfl
  | cons x l ih =>
    obtain ⟨y, hy⟩ := Option.isSome_iff_exists.mp (h x (by simp))
    obtain ⟨ys, hys⟩ := Option.isSome_iff_exists.mp (ih fun x' hx' => h x' (by simp [hx']))
    simp [List.mapM_cons, hy, hys]

section Total

variable [DecidableEq T] (t : Template T)

theorem evalEntry_isSome (entry : List (T × List Char)) {blockEnd pos : Nat}
    (hlen : blockEnd ≤ t.items.length)
    (hinner : ∀ k e, pos ≤ k → k < blockEnd → blockEndAt t.items k = some e →
      k < e ∧ e ≤ blockEnd) :
    (t.evalEntry entry blockEnd pos).isSome := by
  fun_induction t.evalEntry entry blockEnd pos with
  | case1 pos _ s _ ih => simpa using ih fun k e hk => hinner k e (by omega)
  | case2 pos _ name escape _ ih => simpa using ih fun k e hk => hinner k e (by omega)
  | case3 pos _ v startPos _ _ ih => exact ih fun k e hk => hinner k e (by omega)
  | case4 pos _ v startPos _ _ hjump ih => exact ih fun k e hk => hinner k e (by omega)
  | case5 pos hpos v startPos hget _ hjump =>
    -- an if block in the body ends after it and within the body
    exact absurd (hinner pos startPos le_rfl hpos (by simp [blockEndAt, hget,
      TemplateItem.blockEnd?])) hjump
  | case6 pos _ v e _ ih => exact ih fun k e hk => hinner k e (by omega)
  | case7 pos hpos hget => exact absurd (List.getElem?_eq_none_iff.mp hget) (by omega)
  | case8 => rfl

theorem evalFrom_isSome (vars : Variables T) (hn : Nested t.items []) (pos : Nat) :
    (t.evalFrom vars pos).isSome := by
  fun_induction t.evalFrom vars pos with
  | case1 => rfl
  | case2 pos s _ ih => simpa using ih
  | case3 pos name escape _ value ih => simpa using ih
  | case4 pos v e _ _ ih => exact ih
  | case5 pos v e _ _ _ ih => exact ih
  | case6 pos v e hget _ hjump =>
    have hend : blockEndAt t.items pos = some e := by simp [blockEndAt, hget, TemplateItem.blockEnd?]
    exact absurd ⟨(hn pos e hend nofun).1, (hn pos e hend nofun).2.1⟩ hjump
  | case7 pos v e hget hjump body ih =>
    have hend : blockEndAt t.items pos = some e := by simp [blockEndAt, hget, TemplateItem.blockEnd?]
    -- the body of each entry is walked on the nested ends inside the block
    have hbody : body.isSome := by
      simp only [body]
      split
      · rw [Option.isSome_map]
        refine isSome_mapM fun entry _ => ?_
        refine evalEntry_isSome t entry hjump.2 fun k e' hk hke hk' => ?_
        exact ⟨(hn k e' hk' nofun).1, ((hn pos e hend nofun).2.2 k e' (by omega) hke hk').2⟩
      · rfl
    obtain ⟨b, hb⟩ := Option.isSome_iff_exists.mp hbody
    obtain ⟨r, hr⟩ := Option.isSome_iff_exists.mp ih
    simp [hb, hr]
  | case8 pos v e hget hjump =>
    have hend : blockEndAt t.items pos = some e := by simp [blockEndAt, hget, TemplateItem.blockEnd?]
    exact absurd ⟨(hn pos e hend nofun).1, (hn pos e hend nofun).2.1⟩ hjump

/-- **`eval` returns on every template `parse` returns**: it neither loops nor panics there. -/
theorem eval_parse_isSome {fromStr : List Char → Option T} {text : String}
    (h : Template.parse fromStr text = .ok t) (vars : Variables T) : (t.eval vars).isSome :=
  evalFrom_isSome t vars (parse_nested h) 0

/-- An if block whose variable is set: the template parses, and `eval` returns on it. -/
theorem eval_parse_isSome_ifBlock :
    Template.parse (some : List Char → Option (List Char)) "\x7b\x7b#if a\x7d\x7dx\x7b\x7b/if a\x7d\x7d" =
        .ok ⟨[.ifBlock ['a'] 2, .static ['x']]⟩ ∧
      (Template.eval ⟨[.ifBlock ['a'] 2, .static ['x']]⟩ ⟨[(['a'], .single ['1'])]⟩).isSome := by
  have hparse : Template.parse (some : List Char → Option (List Char))
      "\x7b\x7b#if a\x7d\x7dx\x7b\x7b/if a\x7d\x7d" = .ok ⟨[.ifBlock ['a'] 2, .static ['x']]⟩ := by
    decide +kernel
  exact ⟨hparse, eval_parse_isSome _ hparse _⟩

end Total

/-! ## End tags that close nothing -/

/-- An end tag read with no open block is dropped, at the start of the text and after a closed
block alike. -/
theorem parse_accepts_stray_end :
    Template.parse (some : List Char → Option (List Char)) "\x7b\x7b/if a\x7d\x7d" = .ok ⟨[]⟩ ∧
      Template.parse (some : List Char → Option (List Char))
          "\x7b\x7b#if a\x7d\x7dx\x7b\x7b/if a\x7d\x7d\x7b\x7b/each b\x7d\x7d" =
        .ok ⟨[.ifBlock ['a'] 2, .static ['x']]⟩ := by
  decide +kernel

end Stalwart.Utils
