import Stalwart.Store.Search
import Stalwart.Lib.ExceptBind

/-!
# Parsing IMAP search programs

`parse_filters` reads the criteria of a `SEARCH` command. There `OR` and `NOT` are prefix
operators, and parentheses group a list of keys. It flattens them into the filter list the store's
evaluators read, where `And`, `Or` and `Not` open a group and `End` closes it. The loop keeps the
group it is filling (its filters, its operator and how many operands it holds) and a stack of the
groups around it:

* a key joins the group;
* `OR`, `NOT` and an opening parenthesis push the group and start a new one;
* a group is complete at its closing parenthesis, or once an `Or` holds two operands or a `Not`
  one. The loop then pops the stack, adding the group to the one around it, and keeps popping
  while that one is complete too.

A complete `And` group, a parenthesised list, is spliced into the group around it, unless that is
an `Or` and the list holds more than one operand.

## What is proved

A program as RFC 9051 writes it (`SearchProgram`) stands in a group for a list of trees
(`SearchProgram.emit`). A parenthesised list stands as its items' trees in every group but an
`Or`. **The parsing law** (`parseFilters_renderList`): the parser reads the words of every list of
programs nested at most eleven deep as the filters of those trees. The proof is a simulation: the
words of one program take the parser from a group that expects an operand to that group with the
program's trees added (`run_render`).
-/

set_option autoImplicit false

namespace Stalwart.Imap.Search

open Stalwart.Store.Search (GroupOp)

/-- `Filter`: a search key, or a logical operator of the flat form. The keys are left abstract
here; `Stalwart.Imap.Search.SearchKey` lists them. -/
inductive Filter (Key : Type) where
  | key (key : Key)
  | and
  | or
  | not
  | «end»
  deriving DecidableEq, Repr

/-- The operator filter that opens a group. -/
def Filter.ofGroupOp {Key : Type} : GroupOp → Filter Key
  | .and => .and
  | .or => .or
  | .not => .not

/-- A token of the criteria as `parse_filters` reads it: an argument naming a search key, read
with its own arguments; the keys `OR` and `NOT`; or a parenthesis. -/
inductive Word (Key : Type) where
  | key (key : Key)
  | or
  | not
  | parenthesisOpen
  | parenthesisClose
  deriving DecidableEq, Repr

/-- An entry of `filters_stack`: an enclosing group's filters, operator and operand count. The
operator, a `Filter` in the source, is only ever `And`, `Or` or `Not`. -/
structure Frame (Key : Type) where
  filters : List (Filter Key)
  operator : GroupOp
  filtersLen : Nat

/-- The variables of the loop of `parse_filters`: the group being filled, and the stack of the
groups around it, innermost first. -/
structure Parser (Key : Type) where
  filters : List (Filter Key)
  filtersLen : Nat
  filtersStack : List (Frame Key)
  operator : GroupOp

section Parsing

variable {Key : Type}

namespace Parser

/-- The state before the first token: an empty `And` group and an empty stack. -/
def init : Parser Key := ⟨[], 0, [], .and⟩

/-- How a complete group joins the group on top of the stack. An `And` group is spliced in,
unless the enclosing group is an `Or` and it holds more than one operand. Any other group is
bracketed by its operator and `End`, and counts as one operand. -/
def combine (filters : List (Filter Key)) (filtersLen : Nat) (operator : GroupOp)
    (prev : Frame Key) : List (Filter Key) × Nat :=
  if operator = .and ∧ (prev.operator ≠ .or ∨ filtersLen = 1) then
    (prev.filters ++ filters, filtersLen + prev.filtersLen)
  else (prev.filters ++ Filter.ofGroupOp operator :: filters ++ [.end], prev.filtersLen + 1)

/-- The pop loop. The complete group joins the one on top of the stack, and the loop goes on while
that one is complete too: a `Not`, or an `Or` with two operands. -/
def collapse (filters : List (Filter Key)) (filtersLen : Nat) (operator : GroupOp) :
    List (Frame Key) → Parser Key
  | [] => ⟨filters, filtersLen, [], operator⟩
  | prev :: stack =>
    let joined := combine filters filtersLen operator prev
    if prev.operator = .and ∨ (prev.operator = .or ∧ joined.2 < 2) then
      ⟨joined.1, joined.2, stack, prev.operator⟩
    else collapse joined.1 joined.2 prev.operator stack

/-- `OR`, `NOT` and an opening parenthesis: the group goes on the stack and a new one starts,
unless more than ten are there already. -/
def push (parser : Parser Key) (operator : GroupOp) : Except String (Parser Key) :=
  if parser.filtersStack.length > 10 then .error "Too many nested filters"
  else .ok ⟨[], 0, ⟨parser.filters, parser.operator, parser.filtersLen⟩ :: parser.filtersStack,
    operator⟩

/-- The test at the end of the loop's body. After a closing parenthesis, or once an `Or` holds two
operands or a `Not` one, the group is complete and the stack is popped. -/
def settle (foundParenthesis : Bool) (parser : Parser Key) : Parser Key :=
  if parser.filtersStack ≠ [] ∧ (foundParenthesis = true ∨
      (parser.operator = .or ∧ parser.filtersLen = 2) ∨
      (parser.operator = .not ∧ parser.filtersLen = 1)) then
    collapse parser.filters parser.filtersLen parser.operator parser.filtersStack
  else parser

/-- One token of the loop. -/
def step (parser : Parser Key) : Word Key → Except String (Parser Key)
  | .key key =>
    .ok (settle false
      { parser with filters := parser.filters ++ [.key key], filtersLen := parser.filtersLen + 1 })
  | .or => parser.push .or
  | .not => parser.push .not
  | .parenthesisOpen => parser.push .and
  | .parenthesisClose =>
    if parser.filtersStack = [] then .error "Unexpected parenthesis."
    else .ok (settle true parser)

/-- The loop over the tokens. -/
def run (parser : Parser Key) : List (Word Key) → Except String (Parser Key)
  | [] => .ok parser
  | word :: words => parser.step word >>= fun parser => parser.run words

end Parser

/-- `parse_filters`: the filters of the group being filled once the tokens are read. Groups still
open at the end are dropped with the stack. -/
def parseFilters (words : List (Word Key)) : Except String (List (Filter Key)) :=
  (Parser.init.run words).map Parser.filters

end Parsing

/-! ## Programs and their trees -/

/-- A tree of filters: keys at the leaves, groups inside. -/
inductive KeyTree (Key : Type) where
  | key (key : Key)
  | group (op : GroupOp) (children : List (KeyTree Key))

mutual

/-- The filters of a tree, in order. -/
def KeyTree.toFilters {Key : Type} : KeyTree Key → List (Filter Key)
  | .key k => [.key k]
  | .group op children => Filter.ofGroupOp op :: KeyTree.toFiltersList children ++ [.end]

/-- The filters of a list of trees. -/
def KeyTree.toFiltersList {Key : Type} : List (KeyTree Key) → List (Filter Key)
  | [] => []
  | tree :: trees => tree.toFilters ++ KeyTree.toFiltersList trees

end

theorem KeyTree.toFiltersList_append {Key : Type} :
    ∀ (trees trees' : List (KeyTree Key)),
      KeyTree.toFiltersList (trees ++ trees') =
        KeyTree.toFiltersList trees ++ KeyTree.toFiltersList trees'
  | [], _ => by simp [KeyTree.toFiltersList]
  | tree :: trees, trees' => by
    simp [KeyTree.toFiltersList, KeyTree.toFiltersList_append trees trees']

/-- A search program as RFC 9051 writes it: a key, `OR` of two programs, `NOT` of one, or a
parenthesised list of programs. -/
inductive SearchProgram (Key : Type) where
  | key (key : Key)
  | or (left right : SearchProgram Key)
  | not (operand : SearchProgram Key)
  | list (items : List (SearchProgram Key))

namespace SearchProgram

variable {Key : Type}

mutual

/-- The words of a program. -/
def render : SearchProgram Key → List (Word Key)
  | .key k => [.key k]
  | .or left right => .or :: left.render ++ right.render
  | .not operand => .not :: operand.render
  | .list items => .parenthesisOpen :: renderList items ++ [.parenthesisClose]

/-- The words of a list of programs, one after another. -/
def renderList : List (SearchProgram Key) → List (Word Key)
  | [] => []
  | item :: items => item.render ++ renderList items

end

mutual

/-- How deep `OR`, `NOT` and parentheses nest in a program. -/
def depth : SearchProgram Key → Nat
  | .key _ => 0
  | .or left right => max left.depth right.depth + 1
  | .not operand => operand.depth + 1
  | .list items => depthList items + 1

/-- The deepest nesting in a list of programs. -/
def depthList : List (SearchProgram Key) → Nat
  | [] => 0
  | item :: items => max item.depth (depthList items)

end

mutual

/-- The trees a program adds to a group with operation `parent`. A key is a leaf; `OR` and `NOT`
are groups of their operands' trees. A parenthesised list is the `And` group of its items'
trees, spliced into the enclosing group unless that is an `Or` and the list gives more than one
tree. -/
def emit (parent : GroupOp) : SearchProgram Key → List (KeyTree Key)
  | .key k => [.key k]
  | .or left right => [.group .or (left.emit .or ++ right.emit .or)]
  | .not operand => [.group .not (operand.emit .not)]
  | .list items =>
    if parent ≠ .or ∨ (emitList items).length = 1 then emitList items
    else [.group .and (emitList items)]

/-- The trees of a list of programs in an `And` group. -/
def emitList : List (SearchProgram Key) → List (KeyTree Key)
  | [] => []
  | item :: items => item.emit .and ++ emitList items

end

/-- In an `Or` group every program is one operand. -/
theorem length_emit_or (program : SearchProgram Key) : (program.emit .or).length = 1 := by
  cases program with
  | key k => rfl
  | or left right => rfl
  | not operand => rfl
  | list items =>
    rw [emit]
    split_ifs with h
    · simpa using h
    · rfl

end SearchProgram

/-! ## The parsing law -/

section Law

variable {Key : Type}

namespace Parser

/-- The state after the group takes the trees `trees`: they join it, and the stack is popped if
that completes it. -/
def absorb (parser : Parser Key) (trees : List (KeyTree Key)) : Parser Key :=
  let filters := parser.filters ++ KeyTree.toFiltersList trees
  let filtersLen := parser.filtersLen + trees.length
  if parser.operator = .and ∨ (parser.operator = .or ∧ filtersLen < 2) then
    { parser with filters := filters, filtersLen := filtersLen }
  else collapse filters filtersLen parser.operator parser.filtersStack

/-- A group that takes another operand: an `And`, an `Or` with fewer than two, a `Not` with none;
with an empty stack, the outermost group, an `And`. -/
def Open (parser : Parser Key) : Prop :=
  (parser.operator = .and ∨ (parser.operator = .or ∧ parser.filtersLen < 2) ∨
    (parser.operator = .not ∧ parser.filtersLen = 0)) ∧
  (parser.filtersStack = [] → parser.operator = .and)

/-- The group of a stack frame, with the stack below it. -/
def resume (prev : Frame Key) (stack : List (Frame Key)) : Parser Key :=
  ⟨prev.filters, prev.filtersLen, stack, prev.operator⟩

/-- A group that has just opened on top of `parser`. -/
def opened (parser : Parser Key) (operator : GroupOp) : Parser Key :=
  ⟨[], 0, ⟨parser.filters, parser.operator, parser.filtersLen⟩ :: parser.filtersStack, operator⟩

variable {parser : Parser Key}

theorem run_cons (word : Word Key) (words : List (Word Key)) :
    parser.run (word :: words) = parser.step word >>= fun parser => parser.run words := rfl

/-- In an `And` group the trees just join. -/
theorem absorb_of_and (hand : parser.operator = .and) (trees : List (KeyTree Key)) :
    parser.absorb trees = { parser with
      filters := parser.filters ++ KeyTree.toFiltersList trees
      filtersLen := parser.filtersLen + trees.length } := by
  simp [absorb, hand]

/-- A group that the trees complete is popped. -/
theorem absorb_of_complete {trees : List (KeyTree Key)}
    (hcomplete : ¬ (parser.operator = .and ∨
      (parser.operator = .or ∧ parser.filtersLen + trees.length < 2))) :
    parser.absorb trees = collapse (parser.filters ++ KeyTree.toFiltersList trees)
      (parser.filtersLen + trees.length) parser.operator parser.filtersStack := by
  unfold absorb
  exact if_neg hcomplete

theorem absorb_absorb_of_and (hand : parser.operator = .and) (trees trees' : List (KeyTree Key)) :
    (parser.absorb trees).absorb trees' = parser.absorb (trees ++ trees') := by
  have hand' : (parser.absorb trees).operator = .and := by rw [absorb_of_and hand]; exact hand
  rw [absorb_of_and hand', absorb_of_and hand, absorb_of_and hand, KeyTree.toFiltersList_append]
  simp [Nat.add_assoc]

/-- A key joins an open group as one tree. -/
theorem step_key (hopen : parser.Open) (key : Key) :
    parser.step (.key key) = .ok (parser.absorb [.key key]) := by
  obtain ⟨hop, htop⟩ := hopen
  have hfilters : KeyTree.toFiltersList [KeyTree.key key] = [Filter.key key] := by
    simp [KeyTree.toFiltersList, KeyTree.toFilters]
  simp only [step, settle, absorb, hfilters, List.length_singleton, Except.ok.injEq]
  rcases hop with hand | ⟨hor, hlen⟩ | ⟨hnot, hlen⟩
  · -- an `And` group is complete only at its parenthesis
    simp [hand]
  · -- an `Or` group is complete at its second operand, and is not the outermost group
    have hstack : parser.filtersStack ≠ [] := fun h => by simp [hor] at htop; exact htop h
    rcases Nat.lt_succ_iff_lt_or_eq.mp hlen with h0 | h1
    · have h0 : parser.filtersLen = 0 := by omega
      simp [hor, h0]
    · simp [hor, h1, hstack]
  · -- a `Not` group is complete at its operand
    have hstack : parser.filtersStack ≠ [] := fun h => by simp [hnot] at htop; exact htop h
    simp [hnot, hlen, hstack]

/-- A complete `Or` or `Not` group joins the group below it as one bracketed tree. -/
theorem collapse_group {op : GroupOp} (hop : op ≠ .and) (children : List (KeyTree Key)) (n : Nat)
    (prev : Frame Key) (stack : List (Frame Key)) :
    collapse (KeyTree.toFiltersList children) n op (prev :: stack) =
      (resume prev stack).absorb [.group op children] := by
  simp [collapse, combine, hop, absorb, resume, KeyTree.toFiltersList, KeyTree.toFilters]

/-- A complete parenthesised list joins the group below it: spliced, or bracketed in an `Or`
when it holds more than one tree. -/
theorem collapse_list (children : List (KeyTree Key)) (prev : Frame Key)
    (stack : List (Frame Key)) :
    collapse (KeyTree.toFiltersList children) children.length .and (prev :: stack) =
      (resume prev stack).absorb
        (if prev.operator ≠ .or ∨ children.length = 1 then children
        else [.group .and children]) := by
  by_cases hsplice : prev.operator ≠ .or ∨ children.length = 1
  · rw [if_pos hsplice]
    simp only [collapse, combine, true_and, if_pos hsplice, absorb, resume]
    rw [Nat.add_comm children.length]
    rfl
  · rw [if_neg hsplice]
    simp only [collapse, combine, true_and, if_neg hsplice, absorb, resume]
    simp [KeyTree.toFiltersList, KeyTree.toFilters, Filter.ofGroupOp]

/-- Opening a group within the depth limit. -/
theorem push_of_length_le (hlen : parser.filtersStack.length ≤ 10) (operator : GroupOp) :
    parser.push operator = .ok (parser.opened operator) := by
  simp [push, opened, Nat.not_lt.mpr hlen]

/-- A group that has just opened takes an operand. -/
theorem opened_open (op : GroupOp) : (parser.opened op).Open := by
  refine ⟨?_, fun h => by simp [opened] at h⟩
  cases op
  · exact Or.inl rfl
  · exact Or.inr (Or.inl ⟨rfl, by simp [opened]⟩)
  · exact Or.inr (Or.inr ⟨rfl, rfl⟩)

/-- The first operand of an `Or` group leaves it open. -/
theorem absorb_opened_or (program : SearchProgram Key) :
    (parser.opened .or).absorb (program.emit .or) =
      ⟨KeyTree.toFiltersList (program.emit .or), 1,
        ⟨parser.filters, parser.operator, parser.filtersLen⟩ :: parser.filtersStack, .or⟩ := by
  simp [absorb, opened, SearchProgram.length_emit_or]

end Parser

open SearchProgram

mutual

/-- **The simulation step.** The words of a program nested within the depth limit take a group
that expects an operand to that group with the program's trees added. -/
theorem run_render :
    ∀ (program : SearchProgram Key) (parser : Parser Key) (parent : GroupOp),
      parser.operator = parent → parser.Open →
      program.depth + parser.filtersStack.length ≤ 11 → ∀ rest : List (Word Key),
        parser.run (program.render ++ rest) = (parser.absorb (program.emit parent)).run rest
  | .key k, parser, parent, _, hopen, _, rest => by
    rw [render, List.singleton_append, Parser.run_cons, Parser.step_key hopen, Except.ok_bind_eq,
      emit]
  | .or left right, parser, parent, hparent, _, hdepth, rest => by
    simp only [depth] at hdepth
    have hlen : parser.filtersStack.length ≤ 10 := by omega
    -- the `Or` group takes its left operand, then its right one, which completes it
    have hleft := run_render left (parser.opened .or) .or rfl (Parser.opened_open .or)
      (by simp [Parser.opened]; omega) (right.render ++ rest)
    have hright := run_render right ⟨KeyTree.toFiltersList (left.emit .or), 1,
        ⟨parser.filters, parser.operator, parser.filtersLen⟩ :: parser.filtersStack, .or⟩ .or rfl
      ⟨Or.inr (Or.inl ⟨rfl, by simp⟩), by simp⟩ (by simp; omega) rest
    have hlast : (Parser.mk (KeyTree.toFiltersList (left.emit .or)) 1
        (⟨parser.filters, parser.operator, parser.filtersLen⟩ :: parser.filtersStack) .or).absorb
          (right.emit .or) =
        parser.absorb [.group .or (left.emit .or ++ right.emit .or)] := by
      rw [Parser.absorb_of_complete (by simp [length_emit_or]), length_emit_or,
        ← KeyTree.toFiltersList_append]
      exact Parser.collapse_group (show GroupOp.or ≠ .and by decide) _ _ _ _
    simp only [render, List.cons_append, List.append_assoc, Parser.run_cons, Parser.step,
      Parser.push_of_length_le hlen, Except.ok_bind_eq]
    rw [hleft, Parser.absorb_opened_or, hright, hlast, emit]
  | .not operand, parser, parent, hparent, _, hdepth, rest => by
    simp only [depth] at hdepth
    have hlen : parser.filtersStack.length ≤ 10 := by omega
    -- the `Not` group takes its operand, which completes it
    have hoperand := run_render operand (parser.opened .not) .not rfl (Parser.opened_open .not)
      (by simp [Parser.opened]; omega) rest
    have hlast : (parser.opened .not).absorb (operand.emit .not) =
        parser.absorb [.group .not (operand.emit .not)] := by
      rw [Parser.absorb_of_complete (by simp [Parser.opened])]
      simp only [Parser.opened, List.nil_append]
      exact Parser.collapse_group (show GroupOp.not ≠ .and by decide) _ _ _ _
    simp only [render, List.cons_append, Parser.run_cons, Parser.step,
      Parser.push_of_length_le hlen, Except.ok_bind_eq]
    rw [hoperand, hlast, emit]
  | .list items, parser, parent, hparent, _, hdepth, rest => by
    simp only [depth] at hdepth
    have hlen : parser.filtersStack.length ≤ 10 := by omega
    -- the items fill an `And` group, and the closing parenthesis completes it
    have hitems := run_renderList items (parser.opened .and) rfl
      (by simp [Parser.opened]; omega) (.parenthesisClose :: rest)
    have hclose : ((parser.opened .and).absorb (emitList items)).run (.parenthesisClose :: rest) =
        (parser.absorb ((SearchProgram.list items).emit parent)).run rest := by
      rw [Parser.absorb_of_and rfl, Parser.run_cons]
      simp only [Parser.step, Parser.opened, Parser.settle, List.nil_append, Nat.zero_add]
      rw [if_neg (by simp), Except.ok_bind_eq, if_pos (by simp), Parser.collapse_list, emit]
      subst hparent
      rfl
    simp only [render, List.cons_append, List.append_assoc, List.nil_append, Parser.run_cons,
      Parser.step, Parser.push_of_length_le hlen, Except.ok_bind_eq]
    rw [hitems, hclose]

/-- The words of a list of programs nested within the depth limit add their trees to an `And`
group. -/
theorem run_renderList :
    ∀ (items : List (SearchProgram Key)) (parser : Parser Key), parser.operator = .and →
      depthList items + parser.filtersStack.length ≤ 11 → ∀ rest : List (Word Key),
        parser.run (renderList items ++ rest) = (parser.absorb (emitList items)).run rest
  | [], parser, hand, _, rest => by
    rw [renderList, List.nil_append, emitList, Parser.absorb_of_and hand]
    simp [KeyTree.toFiltersList]
  | item :: items, parser, hand, hdepth, rest => by
    simp only [depthList] at hdepth
    have hitem := run_render item parser .and hand ⟨Or.inl hand, fun _ => hand⟩ (by omega)
      (renderList items ++ rest)
    have hitems := run_renderList items (parser.absorb (item.emit .and))
      (by simp [Parser.absorb_of_and hand, hand]) (by simp [Parser.absorb_of_and hand]; omega)
      rest
    rw [renderList, List.append_assoc, hitem, hitems, Parser.absorb_absorb_of_and hand, emitList]

end

/-- **The parsing law.** `parse_filters` reads the words of a list of programs nested at most
eleven deep as the filters of their trees. -/
theorem parseFilters_renderList {programs : List (SearchProgram Key)}
    (hdepth : depthList programs ≤ 11) :
    parseFilters (renderList programs) = .ok (KeyTree.toFiltersList (emitList programs)) := by
  have h := run_renderList programs Parser.init rfl (by simpa [Parser.init] using hdepth) []
  rw [List.append_nil] at h
  rw [parseFilters, h, Parser.absorb_of_and rfl]
  simp [Parser.run, Parser.init, Except.map]

/-- `OR 1 NOT 2 (3 4)`: an `Or` of a key and a negation, then a parenthesised list, whose items
join the search's own group. -/
theorem parseFilters_renderList_mixed :
    depthList [SearchProgram.or (.key 1) (.not (.key 2)), .list [.key 3, .key 4]] ≤ 11 ∧
      parseFilters (renderList [SearchProgram.or (.key (1 : Nat)) (.not (.key 2)),
          .list [.key 3, .key 4]]) =
        .ok (KeyTree.toFiltersList (emitList [SearchProgram.or (.key 1) (.not (.key 2)),
          .list [.key 3, .key 4]])) := by
  have hdepth : depthList [SearchProgram.or (.key (1 : Nat)) (.not (.key 2)), .list [.key 3, .key 4]]
      ≤ 11 := by decide
  exact ⟨hdepth, parseFilters_renderList hdepth⟩

end Law

end Stalwart.Imap.Search
