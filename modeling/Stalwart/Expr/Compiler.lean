import Stalwart.Expr.Eval

/-!
# What the compiler of expressions means

A configuration expression is a tree (`Tree`): variables, constants, captures, unary and binary
operators, calls, array literals and indexing. `Tree.print` writes it with parentheses only where
precedence requires them, and `Tree.reference` gives its value by applying `Variable::op_*` to
the values of the operands.

`Formula` is the part of the language without calls, arrays or indexing. `Formula.tokens` is the
token stream of its fully parenthesised printing, and `Formula.code` its postfix program.

## What is proved

* On every formula the shunting yard writes the formula's postfix program
  (`parseTokens_tokens`). The jump of each `&` and `|` lands right after its operator. Every
  tokenizer that hands out the formula's tokens then compiles it (`compile_formula`).
* The program's value is `Formula.value` (`eval_code`): `&` and `|` keep the left operand as the
  value when it decides, and apply `op_and` and `op_or` otherwise. So the value is the reference
  value on formulas without `&` and `|` (`value_eq_reference`). With them it is not: `2 | 0` is
  `2`, where the reference gives `op_or(2, 0) = 1`.
* An array literal whose element starts with `!`, `-` or `(` is refused. The element is counted in
  `arg_count`, but `inc_arg_count` does not see the literal's `Function` entry below the operator
  on top, so the literal's declared size stays `0`. Compiling `[!1]`, the printing of the literal
  `[!1]`, fails with `Expression function "array" expected 0 arguments, got 1`.
-/

set_option autoImplicit false

namespace Stalwart.Expr

open Stalwart.Imap.Proto (ascii)

variable {F R : Type}

/-! ## Trees, their printing and their reference value -/

/-- The expressions of the configuration language. A call names a function of `FUNCTIONS` by its
id. -/
inductive Tree (F : Type) where
  | var (id : Nat)
  | constant (c : Constant F)
  | capture (index : Nat)
  | unary (op : UnaryOperator) (e : Tree F)
  | binary (op : BinaryOperator) (a b : Tree F)
  | call (id : Nat) (args : List (Tree F))
  | array (items : List (Tree F))
  | index (a i : Tree F)

/-- The text of a binary operator. -/
def BinaryOperator.symbol : BinaryOperator → String
  | .add => "+" | .subtract => "-" | .multiply => "*" | .divide => "/"
  | .and => "&" | .or => "|" | .xor => "^"
  | .eq => "==" | .ne => "!=" | .lt => "<" | .le => "<=" | .gt => ">" | .ge => ">="

/-- The text of a unary operator. -/
def UnaryOperator.symbol : UnaryOperator → String
  | .not => "!"
  | .minus => "-"

/-- How tightly a tree binds when printed: a binary operator by its precedence, a unary operator
above every binary one, and an operand above that. -/
def Tree.precedence : Tree F → Int
  | .binary op _ _ => op.precedence
  | .unary _ _ => 8
  | _ => 9

/-- A text in parentheses when `wrap` holds. -/
def parenthesize (wrap : Bool) (text : String) : String :=
  if wrap then "(" ++ text ++ ")" else text

/-! ## Formulas -/

/-- The expressions without calls, arrays or indexing. -/
inductive Formula (F : Type) where
  | var (id : Nat)
  | constant (c : Constant F)
  | capture (index : Nat)
  | unary (op : UnaryOperator) (e : Formula F)
  | binary (op : BinaryOperator) (a b : Formula F)

/-- The tokens of a formula printed with every operator in parentheses. -/
def Formula.tokens : Formula F → List (Token F R)
  | .var v => [.variable v]
  | .constant c => [.constant c]
  | .capture i => [.capture i]
  | .unary op e => [.openParen, .unaryOperator op] ++ e.tokens ++ [.closeParen]
  | .binary op a b => [.openParen] ++ a.tokens ++ [.binaryOperator op] ++ b.tokens ++ [.closeParen]

/-- Whether a formula's tokens end a variable (or a parenthesis), after which `[` would index. -/
def Formula.endsVarOrFnc : Formula F → Bool
  | .var _ => true
  | .constant _ | .capture _ => false
  | .unary _ _ | .binary _ _ _ => true

/-- The jump `&` and `|` put before their right operand: over it and over the operator. -/
def shortCircuit (op : BinaryOperator) (right : List (ExpressionItem F R)) :
    List (ExpressionItem F R) :=
  match op with
  | .and => [.jmpIf false (right.length + 1)]
  | .or => [.jmpIf true (right.length + 1)]
  | _ => []

/-- The postfix program of a formula. -/
def Formula.code : Formula F → List (ExpressionItem F R)
  | .var v => [.variable v]
  | .constant c => [.constant c]
  | .capture i => [.capture i]
  | .unary op e => e.code ++ [.unaryOperator op]
  | .binary op a b => a.code ++ shortCircuit op b.code ++ b.code ++ [.binaryOperator op]

/-! ## The shunting yard writes a formula's program -/

/-- The loop of `parse` over tokens, without what it does at the end. -/
def ExpressionParser.steps : List (Token F R) → ExpressionParser F R → Bool →
    Except String (ExpressionParser F R × Bool)
  | [], p, last => .ok (p, last)
  | token :: tokens, p, last =>
    match p.step last token with
    | .error e => .error e
    | .ok (p, isVarOrFnc) => ExpressionParser.steps tokens p isVarOrFnc

theorem steps_append_of_ok {xs : List (Token F R)} {p p' : ExpressionParser F R}
    {last last' : Bool} (h : ExpressionParser.steps xs p last = .ok (p', last'))
    (ys : List (Token F R)) :
    ExpressionParser.steps (xs ++ ys) p last = ExpressionParser.steps ys p' last' := by
  induction xs generalizing p last with
  | nil =>
    cases h
    rfl
  | cons token xs ih =>
    simp only [ExpressionParser.steps, List.cons_append] at h ⊢
    split at h
    · cases h
    · exact ih h

theorem parseTokens_eq_drain {ts : List (Token F R)} {p p' : ExpressionParser F R}
    {last last' : Bool} (h : ExpressionParser.steps ts p last = .ok (p', last')) :
    ExpressionParser.parseTokens ts p last = drain p'.output p'.operatorStack := by
  induction ts generalizing p last with
  | nil =>
    cases h
    rfl
  | cons token ts ih =>
    simp only [ExpressionParser.steps] at h
    simp only [ExpressionParser.parseTokens]
    -- both loops take the same step on the first token
    cases hstep : p.step last token with
    | error e => simp [hstep] at h
    | ok step =>
      obtain ⟨p₁, last₁⟩ := step
      simp only [hstep] at h ⊢
      exact ih h

/-- A call, a regex or a setting: what a closing parenthesis completes when it is on top. -/
def Token.isCall : Token F R → Bool
  | .function .. | .regex _ | .setting _ => true
  | _ => false

/-- An operator stack that a formula's tokens can start on: no call on top, which the formula's
closing parenthesis would complete, and no array literal, whose size an operand would count. -/
structure Quiet (stack : List (Token F R × Option Nat)) : Prop where
  top : ∀ entry ∈ stack.head?, entry.1.isCall = false
  noArray : ∀ entry ∈ stack, bumpArrayBuild entry = entry

/-- An operator or a parenthesis pushed on a quiet stack. -/
theorem Quiet.push {stack : List (Token F R × Option Nat)} (hq : Quiet stack)
    {token : Token F R} (jmpPos : Option Nat) (hcall : token.isCall = false)
    (hbump : bumpArrayBuild (token, jmpPos) = (token, jmpPos)) :
    Quiet ((token, jmpPos) :: stack) where
  top := by simpa using hcall
  noArray := by
    intro entry hmem
    rcases List.mem_cons.mp hmem with rfl | hmem
    · exact hbump
    · exact hq.noArray entry hmem

theorem countElement_of_forall {stack : List (Token F R × Option Nat)}
    (h : ∀ entry ∈ stack, bumpArrayBuild entry = entry) : countElement stack = stack := by
  match stack, h with
  | [], _ => rfl
  | [entry], h => simp [countElement, h entry (by simp)]
  | top :: entry :: rest, h => simp [countElement, h entry (by simp)]

/-- An argument counted on the count on top, if there is one. -/
def countUp : List Int → List Int
  | [] => []
  | x :: counts => (x + 1) :: counts

/-- An argument taken back from the count on top. -/
def countDown : List Int → List Int
  | [] => []
  | x :: counts => (x - 1) :: counts

theorem countDown_countUp (counts : List Int) : countDown (countUp counts) = counts := by
  cases counts with
  | nil => rfl
  | cons x counts => simp [countUp, countDown]

theorem incArgCount_of_quiet {p : ExpressionParser F R} (hq : Quiet p.operatorStack) :
    p.incArgCount = { p with argCount := countUp p.argCount } := by
  obtain ⟨output, stack, counts⟩ := p
  cases counts with
  | nil => rfl
  | cons x counts => simp [ExpressionParser.incArgCount, countUp, countElement_of_forall hq.noArray]

theorem decArgCount_eq (p : ExpressionParser F R) :
    p.decArgCount = { p with argCount := countDown p.argCount } := by
  obtain ⟨output, stack, counts⟩ := p
  cases counts <;> rfl

theorem closeCall_of_quiet {stack : List (Token F R × Option Nat)} (hq : Quiet stack)
    (output : List (ExpressionItem F R)) (counts : List Int) :
    (⟨output, stack, counts⟩ : ExpressionParser F R).closeCall =
      .ok ⟨output, stack, counts⟩ := by
  match stack, hq with
  | [], _ => rfl
  | (token, jmpPos) :: rest, hq =>
    -- a call, a regex or a setting on top is not quiet
    have hcall : token.isCall = false := hq.top _ rfl
    cases token <;> simp_all [Token.isCall, ExpressionParser.closeCall]

/-- The slot a binary operator writes for its jump: one for `&` and `|`, none for the others. -/
def jumpSlot (op : BinaryOperator) : List (ExpressionItem F R) :=
  match op with
  | .and => [.jmpIf false 0]
  | .or => [.jmpIf true 0]
  | _ => []

/-- Where that slot is, for an output of length `n`. -/
def jumpPos (op : BinaryOperator) (n : Nat) : Option Nat :=
  match op with
  | .and | .or => some n
  | _ => none

/-- A binary operator right after an open parenthesis moves nothing to the output. -/
theorem binary_of_open {p : ExpressionParser F R} (op : BinaryOperator)
    {stack : List (Token F R × Option Nat)}
    (hstack : p.operatorStack = (.openParen, none) :: stack) :
    p.binary op = ⟨p.output ++ jumpSlot op,
      (.binaryOperator op, jumpPos op p.output.length) :: p.operatorStack,
      countDown p.argCount⟩ := by
  simp only [ExpressionParser.binary, decArgCount_eq, hstack, popOperators]
  cases op <;> simp [jumpSlot, jumpPos]

/-- **The jump is patched to skip the right operand and the operator.** -/
theorem emitBinary_jumpSlot (xs ys : List (ExpressionItem F R)) (op : BinaryOperator) :
    emitBinary (xs ++ jumpSlot op ++ ys) op (jumpPos op xs.length) =
      xs ++ shortCircuit op ys ++ ys ++ [.binaryOperator op] := by
  cases op <;> simp [emitBinary, jumpSlot, jumpPos, shortCircuit, updateJmpPos,
    List.set_append_right]

/-- **The shunting yard on a formula's tokens**: on a quiet operator stack, the tokens of a
formula append its program to the output, leave the stack as it was, and count one argument. -/
theorem steps_tokens (e : Formula F) :
    ∀ (p : ExpressionParser F R) (last : Bool), Quiet p.operatorStack →
      ExpressionParser.steps e.tokens p last =
        .ok (⟨p.output ++ e.code, p.operatorStack, countUp p.argCount⟩, e.endsVarOrFnc) := by
  induction e with
  | var v =>
    intro p last hq
    simp [Formula.tokens, ExpressionParser.steps, ExpressionParser.step, incArgCount_of_quiet hq,
      ExpressionParser.emit, Formula.code, Formula.endsVarOrFnc]
  | constant c =>
    intro p last hq
    simp [Formula.tokens, ExpressionParser.steps, ExpressionParser.step, incArgCount_of_quiet hq,
      ExpressionParser.emit, Formula.code, Formula.endsVarOrFnc]
  | capture i =>
    intro p last hq
    simp [Formula.tokens, ExpressionParser.steps, ExpressionParser.step, incArgCount_of_quiet hq,
      ExpressionParser.emit, Formula.code, Formula.endsVarOrFnc]
  | unary op e ih =>
    intro p last hq
    -- `(` and the operator wait on the stack while the operand is read
    let p₁ := (p.pushOperator .openParen none).pushOperator (.unaryOperator op) none
    have hq₁ : Quiet p₁.operatorStack := (hq.push none rfl rfl).push none rfl rfl
    have hopen :
        ExpressionParser.steps [.openParen, .unaryOperator op] p last = .ok (p₁, false) :=
      rfl
    -- `)` writes the operator and drops `(`
    have hclose : ExpressionParser.steps [.closeParen]
        ⟨p₁.output ++ e.code, p₁.operatorStack, countUp p₁.argCount⟩ e.endsVarOrFnc =
          .ok (⟨p.output ++ e.code ++ [.unaryOperator op], p.operatorStack, countUp p.argCount⟩,
            true) := by
      simp [ExpressionParser.steps, ExpressionParser.step, ExpressionParser.close, closeGroup,
        Token.opens, p₁, ExpressionParser.pushOperator, closeCall_of_quiet hq, Except.map]
    rw [Formula.tokens, List.append_assoc, steps_append_of_ok hopen,
      steps_append_of_ok (ih p₁ false hq₁),
      hclose]
    simp [Formula.code, Formula.endsVarOrFnc]
  | binary op a b iha ihb =>
    intro p last hq
    -- `(` waits on the stack while the left operand is read
    let p₁ := p.pushOperator .openParen none
    have hq₁ : Quiet p₁.operatorStack := hq.push none rfl rfl
    have hopen : ExpressionParser.steps [.openParen] p last = .ok (p₁, false) := rfl
    let p₂ : ExpressionParser F R :=
      ⟨p₁.output ++ a.code, p₁.operatorStack, countUp p₁.argCount⟩
    -- the operator finds `(` on top: it writes its jump slot and waits
    let p₃ : ExpressionParser F R := ⟨p.output ++ a.code ++ jumpSlot op,
      (.binaryOperator op, jumpPos op (p.output ++ a.code).length) :: p₁.operatorStack,
      p.argCount⟩
    have hoperator : ExpressionParser.steps [.binaryOperator op] p₂ a.endsVarOrFnc =
        .ok (p₃, false) := by
      simp only [ExpressionParser.steps, ExpressionParser.step]
      rw [binary_of_open op (rfl : p₂.operatorStack = (.openParen, none) :: p.operatorStack)]
      simp [p₂, p₃, p₁, ExpressionParser.pushOperator, countDown_countUp]
    have hq₃ : Quiet p₃.operatorStack := hq₁.push _ rfl rfl
    -- `)` writes the operator, patches its jump, and drops `(`
    have hclose : ExpressionParser.steps [.closeParen]
        ⟨p₃.output ++ b.code, p₃.operatorStack, countUp p₃.argCount⟩ b.endsVarOrFnc =
          .ok (⟨p.output ++ a.code ++ shortCircuit op b.code ++ b.code ++ [.binaryOperator op],
            p.operatorStack, countUp p.argCount⟩, true) := by
      simp only [ExpressionParser.steps, ExpressionParser.step, ExpressionParser.close, p₃, p₁,
        ExpressionParser.pushOperator, closeGroup, Token.opens]
      simp [closeCall_of_quiet hq, Except.map]
      rw [← List.length_append, ← List.append_assoc, ← List.append_assoc, emitBinary_jumpSlot]
      simp
    rw [Formula.tokens, List.append_assoc, List.append_assoc, List.append_assoc,
      steps_append_of_ok hopen, steps_append_of_ok (iha p₁ false hq₁),
      steps_append_of_ok hoperator, steps_append_of_ok (ihb p₃ false hq₃), hclose]
    simp [Formula.code, Formula.endsVarOrFnc]

/-- **The shunting yard compiles every formula**: from a fresh parser, a formula's tokens give
its postfix program. -/
theorem parseTokens_tokens (e : Formula F) :
    ExpressionParser.parseTokens (e.tokens : List (Token F R)) .new false = .ok e.code := by
  -- a fresh parser has an empty operator stack, which `drain` leaves as it is
  have hquiet : Quiet ([] : List (Token F R × Option Nat)) := ⟨nofun, nofun⟩
  rw [parseTokens_eq_drain (steps_tokens e .new false hquiet)]
  simp [ExpressionParser.new, drain]

section Compile

variable [FloatOrder F] [RegexEngine R] (tokenMap : String → Option (Token F R))

/-- Every tokenizer that hands out a formula's tokens compiles it to the formula's program. -/
theorem compile_formula {t : Tokenizer F R} (e : Formula F)
    (h : Tokenizer.Yields tokenMap t e.tokens) :
    ExpressionParser.parse tokenMap t = .ok e.code := by
  rw [parse_eq_parseTokens tokenMap h, parseTokens_tokens]

end Compile

/-- Regular expressions play no part in the formulas and the literal below: the engine that compiles none. -/
instance noRegex : RegexEngine Empty where
  new _ := .error "no regular expressions"
  captures r _ := nomatch r

/-- `(1+2)`, the printing of `1 + 2`, hands out the formula's tokens and compiles to its
program. -/
theorem compile_formula_sum :
    Tokenizer.Yields (fun _ => none) (Tokenizer.new (ascii "(1+2)") : Tokenizer Float Empty)
        (Formula.binary .add (.constant (.integer 1)) (.constant (.integer 2))).tokens ∧
      ExpressionParser.parse (fun _ => none) (Tokenizer.new (ascii "(1+2)") : Tokenizer Float Empty) =
        .ok (Formula.binary .add (.constant (.integer 1)) (.constant (.integer 2))).code := by
  -- one step of `next` for each of the five tokens, then the end
  have h : Tokenizer.Yields (fun _ => none) (Tokenizer.new (ascii "(1+2)") : Tokenizer Float Empty)
      (Formula.binary .add (.constant (.integer 1)) (.constant (.integer 2))).tokens :=
    .more rfl (.more rfl (.more rfl (.more rfl (.more rfl (.done rfl)))))
  exact ⟨h, compile_formula _ _ h⟩

/-! ## Printing and values -/

variable [FloatArith F]

/-- The text of a constant: a decimal integer, `Display` of a float, a quoted string. -/
def Constant.print : Constant F → String
  | .integer n => toString n.toInt
  | .float x => FloatArith.toText x
  | .string s => debugString s

mutual

/-- The canonical printing of a tree, with `name` for variables: a left operand in parentheses
when it binds less tightly than its operator, a right one when it binds no more tightly (the
operators are left-associative). -/
def Tree.print (name : Nat → String) : Tree F → String
  | .var v => name v
  | .constant c => c.print
  | .capture i => "$" ++ toString i
  | .unary op e => op.symbol ++ parenthesize (e.precedence < 8) (e.print name)
  | .binary op a b =>
    parenthesize (a.precedence < op.precedence) (a.print name) ++ " " ++ op.symbol ++ " " ++
      parenthesize (b.precedence ≤ op.precedence) (b.print name)
  | .call id args => (functions.getD id ("", 0)).1 ++ "(" ++ Tree.printList name args ++ ")"
  | .array items => "[" ++ Tree.printList name items ++ "]"
  | .index a i => parenthesize (a.precedence < 9) (a.print name) ++ "[" ++ i.print name ++ "]"

/-- Trees separated by commas. -/
def Tree.printList (name : Nat → String) : List (Tree F) → String
  | [] => ""
  | [e] => e.print name
  | e :: es => e.print name ++ ", " ++ Tree.printList name es

end

mutual

/-- The reference value of a tree: `Variable::op_*` on the values of the operands, the function
on the values of the arguments, and an array's item at the index (the empty string past its
end). -/
def Tree.reference (ctx : EvalContext F) (captures : List String) : Tree F → Variable F
  | .var v => ctx.resolveVariable v
  | .constant c => .ofConstant c
  | .capture i => .string (captures.getD i "")
  | .unary op e => (e.reference ctx captures).unary op
  | .binary op a b => (a.reference ctx captures).binary op (b.reference ctx captures)
  | .call id args => ctx.callFunction id (Tree.referenceList ctx captures args)
  | .array items => .array (Tree.referenceList ctx captures items)
  | .index a i =>
    (a.reference ctx captures).intoArray[((i.reference ctx captures).toUsize).getD 0]?.getD default

/-- The reference values of trees. -/
def Tree.referenceList (ctx : EvalContext F) (captures : List String) :
    List (Tree F) → List (Variable F)
  | [] => []
  | e :: es => e.reference ctx captures :: Tree.referenceList ctx captures es

end

/-- Whether the left operand's value decides the operator: false for `&`, true for `|`. -/
def BinaryOperator.decidedBy (op : BinaryOperator) (left : Variable F) : Bool :=
  match op with
  | .and => !left.toBool
  | .or => left.toBool
  | _ => false

/-- The value the program of a formula computes: as the reference, except that a deciding left
operand of `&` or `|` is the value itself. -/
def Formula.value (ctx : EvalContext F) (captures : List String) : Formula F → Variable F
  | .var v => ctx.resolveVariable v
  | .constant c => .ofConstant c
  | .capture i => .string (captures.getD i "")
  | .unary op e => (e.value ctx captures).unary op
  | .binary op a b =>
    if op.decidedBy (a.value ctx captures) then a.value ctx captures
    else (a.value ctx captures).binary op (b.value ctx captures)

section Machine

variable [RegexEngine R] (ctx : EvalContext F)

-- the lemmas of this section each take one arm of the machine's loop
attribute [local simp] EvalContext.run

/-- A jump skips whole items, whatever they are. -/
theorem run_skip (xs rest : List (ExpressionItem F R)) (k : Nat) (m : Machine F) :
    ctx.run (xs ++ rest) (xs.length + k) m = ctx.run rest k m := by
  induction xs with
  | nil => simp
  | cons x xs ih =>
    rw [List.cons_append, List.length_cons, show xs.length + 1 + k = (xs.length + k) + 1 by omega]
    simp only [EvalContext.run]
    exact ih

/-- An item that `exec` runs, followed by the rest. -/
theorem run_of_exec {item : ExpressionItem F R} (items : List (ExpressionItem F R))
    {m m' : Machine F} (hjump : ∀ val pos, item ≠ .jmpIf val pos)
    (h : ctx.exec m item = .ok m') :
    ctx.run (item :: items) 0 m = ctx.run items 0 m' := by
  cases item with
  | jmpIf val pos => exact absurd rfl (hjump val pos)
  | _ => simp only [EvalContext.run, h]

/-- A jump after the value `v`: taken when `v` is `val` as a boolean. -/
theorem run_jmpIf (val : Bool) (pos : Nat) (items : List (ExpressionItem F R)) (m : Machine F)
    (v : Variable F) :
    ctx.run (.jmpIf val pos :: items) 0 (m.push v) =
      if v.toBool = val then ctx.run items pos (m.push v) else ctx.run items 0 (m.push v) := by
  by_cases hval : v.toBool = val <;> simp [Machine.push, hval]

/-- **The program of a formula pushes the formula's value**, whatever comes after it, and keeps
the captures. -/
theorem run_code_append (e : Formula F) (rest : List (ExpressionItem F R)) (m : Machine F) :
    ctx.run (e.code ++ rest) 0 m = ctx.run rest 0 (m.push (e.value ctx m.captures)) := by
  induction e generalizing rest m with
  | var v => exact run_of_exec ctx rest nofun rfl
  | constant c => exact run_of_exec ctx rest nofun rfl
  | capture i => exact run_of_exec ctx rest nofun rfl
  | unary op e ih =>
    rw [Formula.code, List.append_assoc, ih]
    -- the operator pops the operand's value
    exact run_of_exec ctx rest nofun rfl
  | binary op a b iha ihb =>
    rw [Formula.code, List.append_assoc, List.append_assoc, List.append_assoc, iha,
      List.singleton_append]
    -- after both operands, the operator pops them and pushes its result
    have hoperator : ∀ (left right : Variable F),
        ctx.run (.binaryOperator op :: rest) 0 ((m.push left).push right) =
          ctx.run rest 0 (m.push (left.binary op right)) :=
      fun left right => run_of_exec ctx rest nofun rfl
    have hright : ∀ left : Variable F,
        ctx.run (b.code ++ .binaryOperator op :: rest) 0 (m.push left) =
          ctx.run rest 0 (m.push (left.binary op (b.value ctx m.captures))) := by
      intro left
      rw [ihb]
      exact hoperator left _
    -- the jump of `&` and `|`, taken when the left operand decides
    have hjump : ∀ (val : Bool) (left : Variable F),
        ctx.run (.jmpIf val ((b.code : List (ExpressionItem F R)).length + 1) ::
            (b.code ++ .binaryOperator op :: rest)) 0 (m.push left) =
          if left.toBool = val then ctx.run rest 0 (m.push left)
          else ctx.run rest 0 (m.push (left.binary op (b.value ctx m.captures))) := by
      intro val left
      have hskip := run_skip ctx (b.code ++ [ExpressionItem.binaryOperator op]) rest 0 (m.push left)
      rw [List.length_append, List.length_singleton, Nat.add_zero, List.append_assoc,
        List.singleton_append] at hskip
      rw [run_jmpIf, hskip, hright]
    cases op with
    | and =>
      simp only [shortCircuit, List.singleton_append, Formula.value, BinaryOperator.decidedBy]
      rw [hjump]
      by_cases hleft : (a.value ctx m.captures).toBool <;> simp [hleft]
    | or =>
      simp only [shortCircuit, List.singleton_append, Formula.value, BinaryOperator.decidedBy]
      rw [hjump]
      by_cases hleft : (a.value ctx m.captures).toBool <;> simp [hleft]
    | _ =>
      simp only [shortCircuit, List.nil_append, Formula.value, BinaryOperator.decidedBy]
      exact hright _

/-- **A formula's program evaluates to the formula's value.** -/
theorem eval_code (e : Formula F) (captures : List String) :
    ctx.eval (e.code : List (ExpressionItem F R)) captures =
      .ok (e.value ctx captures, captures) := by
  have hrun := run_code_append ctx e ([] : List (ExpressionItem F R)) ⟨[], captures⟩
  rw [List.append_nil] at hrun
  simp only [EvalContext.eval, hrun, EvalContext.run, Machine.push]
  rfl

end Machine

/-! ## An array literal the parser refuses -/

/-- **`[!1]` does not compile**, though it is the printing of an array literal of the language.
The `!` on top of the operator stack hides the literal's `Function` entry from `inc_arg_count`, so
the literal is built with size `0` and the counted element is one too many. -/
theorem array_not_refused (name : Nat → String) :
    (Tree.array [.unary .not (.constant (.integer 1))] : Tree Float).print name = "[!1]" ∧
      ExpressionParser.parse (fun _ => none)
          (Tokenizer.new (ascii "[!1]") : Tokenizer Float Empty) =
        .error "Expression function \"array\" expected 0 arguments, got 1" := by
  constructor
  · rfl
  · -- `Float` has no decidable equality: decide the error's text, then read the result off it
    have htext : (match ExpressionParser.parse (fun _ => none)
        (Tokenizer.new (ascii "[!1]") : Tokenizer Float Empty) with
          | .error e => some e
          | .ok _ => none) = some "Expression function \"array\" expected 0 arguments, got 1" := by
      decide
    split at htext
    · next e hparse =>
      rw [hparse, Option.some_inj.mp htext]
    · cases htext

end Stalwart.Expr
