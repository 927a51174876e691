import Stalwart.Expr.Tokenizer

/-!
# The parser of configuration expressions (`common::expr::parser`)

`ExpressionParser::parse` turns the tokens into a postfix program with a shunting yard. Operands
go to the output. Operators wait on the operator stack until an operator of lower precedence, a
comma, a closing parenthesis or the end of the expression moves them to the output. Unary
operators bind tightest. A `&` or `|` writes a `JmpIf` before its right operand; the jump's length
is patched in when the operator itself reaches the output, so that at run time the right operand
and the operator are skipped when the left operand decides.

Calls, regexes, settings and array literals count their arguments on a second stack
(`arg_count`). An operand adds one to the count on top, and a binary operator takes one away.
`inc_arg_count` also adds one to the declared size of an array literal, but only when the
literal's `Function` entry is second from the top of the operator stack, that is, right below its
own `[`.

Both stacks are lists here with the top first (the `Vec`'s last element first).

## What is proved

* The loop over `Tokenizer::next` never runs out of rounds: each token lowers the tokenizer's
  measure (`Tokenizer.next_measure_lt`), and `parse` allows more rounds than that. So a tokenizer
  that hands out the tokens `ts` and then ends gives what the token loop `parseTokens` gives on
  `ts` (`parse_eq_parseTokens`).
-/

set_option autoImplicit false

namespace Stalwart.Expr

/-- `ExpressionItem`: the instructions of a compiled expression. -/
inductive ExpressionItem (F R : Type) where
  | variable (id : Nat)
  | global (name : String)
  | setting (s : Setting)
  | capture (index : Nat)
  | constant (c : Constant F)
  | binaryOperator (op : BinaryOperator)
  | unaryOperator (op : UnaryOperator)
  | regex (r : R)
  | jmpIf (val : Bool) (pos : Nat)
  | function (id : Nat) (numArgs : Nat)
  | arrayAccess
  | arrayBuild (numItems : Nat)

/-- `ID_ARRAY_ACCESS`: `u32::MAX`. -/
def idArrayAccess : Nat := 2 ^ 32 - 1

/-- `ID_ARRAY_BUILD`: `u32::MAX - 1`. -/
def idArrayBuild : Nat := 2 ^ 32 - 2

/-- `BinaryOperator::precedence`. -/
def BinaryOperator.precedence : BinaryOperator → Int
  | .multiply | .divide => 7
  | .add | .subtract => 6
  | .gt | .ge | .lt | .le => 5
  | .eq | .ne => 4
  | .xor => 3
  | .and => 2
  | .or => 1

variable {F R : Type}

/-- `ExpressionParser` without its tokenizer: the output, the operator stack with the position of
each `&` and `|`'s jump, and the argument counts. -/
structure ExpressionParser (F R : Type) where
  output : List (ExpressionItem F R)
  operatorStack : List (Token F R × Option Nat)
  argCount : List Int

/-- `ExpressionParser::new`. -/
def ExpressionParser.new : ExpressionParser F R :=
  ⟨[], [], []⟩

/-- `output.push`. -/
def ExpressionParser.emit (p : ExpressionParser F R) (item : ExpressionItem F R) :
    ExpressionParser F R :=
  { p with output := p.output ++ [item] }

/-- `operator_stack.push`. -/
def ExpressionParser.pushOperator (p : ExpressionParser F R) (token : Token F R)
    (jmpPos : Option Nat) : ExpressionParser F R :=
  { p with operatorStack := (token, jmpPos) :: p.operatorStack }

/-- The `num_args += 1` of `inc_arg_count`, on an entry that is the `Function` of an array
literal. -/
def bumpArrayBuild : Token F R × Option Nat → Token F R × Option Nat
  | (.function name id numArgs, jmpPos) =>
    if id = idArrayBuild then (.function name id (numArgs + 1), jmpPos)
    else (.function name id numArgs, jmpPos)
  | entry => entry

/-- The entry `inc_arg_count` looks at: `operator_stack[len.saturating_sub(2)]`, second from the
top, or the only one. -/
def countElement : List (Token F R × Option Nat) → List (Token F R × Option Nat)
  | top :: entry :: rest => top :: bumpArrayBuild entry :: rest
  | [entry] => [bumpArrayBuild entry]
  | [] => []

/-- `ExpressionParser::inc_arg_count`. -/
def ExpressionParser.incArgCount (p : ExpressionParser F R) : ExpressionParser F R :=
  match p.argCount with
  | [] => p
  | x :: counts =>
    { p with argCount := (x + 1) :: counts, operatorStack := countElement p.operatorStack }

/-- `ExpressionParser::dec_arg_count`. -/
def ExpressionParser.decArgCount (p : ExpressionParser F R) : ExpressionParser F R :=
  match p.argCount with
  | [] => p
  | x :: counts => { p with argCount := (x - 1) :: counts }

/-- `ExpressionParser::update_jmp_pos`: the jump at `jmp_pos` skips what the output holds past it,
and the operator about to be written. -/
def updateJmpPos (output : List (ExpressionItem F R)) : Option Nat → List (ExpressionItem F R)
  | none => output
  | some jmpPos =>
    match output[jmpPos]? with
    | some (.jmpIf val _) => output.set jmpPos (.jmpIf val (output.length - jmpPos))
    | _ => output

/-- A binary operator leaving the operator stack for the output, with its jump patched. -/
def emitBinary (output : List (ExpressionItem F R)) (op : BinaryOperator) (jmpPos : Option Nat) :
    List (ExpressionItem F R) :=
  updateJmpPos output jmpPos ++ [.binaryOperator op]

/-- The loops of a binary operator and of `,`: unary operators, and binary operators of at least
`minPrecedence`, go to the output until anything else is on top. A binary operator passes its own
precedence; a comma passes `0`, below every operator. -/
def popOperators (minPrecedence : Int) (output : List (ExpressionItem F R)) :
    List (Token F R × Option Nat) → List (ExpressionItem F R) × List (Token F R × Option Nat)
  | [] => (output, [])
  | (.binaryOperator top, jmpPos) :: rest =>
    if minPrecedence ≤ top.precedence then
      popOperators minPrecedence (emitBinary output top jmpPos) rest
    else (output, (.binaryOperator top, jmpPos) :: rest)
  | (.unaryOperator uop, _) :: rest =>
    popOperators minPrecedence (output ++ [.unaryOperator uop]) rest
  | entry :: rest => (output, entry :: rest)

/-- Whether a token is the opening one that `)` (`paren`) or `]` looks for. -/
def Token.opens : Token F R → Bool → Bool
  | .openParen, true | .openBracket, false => true
  | _, _ => false

/-- The loop of `)` and `]`: operators go to the output until the opening token, which is
dropped; anything else, or an empty stack, is an error. -/
def closeGroup (paren : Bool) (output : List (ExpressionItem F R)) :
    List (Token F R × Option Nat) →
      Except String (List (ExpressionItem F R) × List (Token F R × Option Nat))
  | [] => .error "Mismatched parentheses"
  | (token, jmpPos) :: rest =>
    if token.opens paren then .ok (output, rest)
    else match token with
      | .binaryOperator bop => closeGroup paren (emitBinary output bop jmpPos) rest
      | .unaryOperator uop => closeGroup paren (output ++ [.unaryOperator uop]) rest
      | _ => .error "Mismatched parentheses"

/-- After `)` or `]`: the call, regex or setting on top whose arguments closed, checked against
its count. A call on the stack always has its count (`arg_count.pop().unwrap()`). -/
def ExpressionParser.closeCall (p : ExpressionParser F R) : Except String (ExpressionParser F R) :=
  match p.operatorStack with
  | (.function name id numArgs, _) :: stack =>
    let gotArgs := p.argCount.headD 0
    if gotArgs ≠ numArgs then
      .error (if id ≠ idArrayAccess then
        "Expression function " ++ debugString name ++ " expected " ++ toString numArgs ++
          " arguments, got " ++ toString gotArgs
        else "Missing array index")
    else
      let item : ExpressionItem F R :=
        if id = idArrayAccess then .arrayAccess
        else if id = idArrayBuild then .arrayBuild numArgs
        else .function id numArgs
      .ok ⟨p.output ++ [item], stack, p.argCount.tail⟩
  | (.regex r, _) :: stack =>
    if p.argCount.headD 0 ≠ 1 then .error "Expression function \"matches\" expected 2 arguments"
    else .ok ⟨p.output ++ [.regex r], stack, p.argCount.tail⟩
  | (.setting s, _) :: stack =>
    if p.argCount.headD 0 ≠ 0 then .error "Expression function \"config_get\" expected 1 argument"
    else .ok ⟨p.output ++ [.setting s], stack, p.argCount.tail⟩
  | _ => .ok p

/-- The arm of `)` (`paren`) and `]`. -/
def ExpressionParser.close (p : ExpressionParser F R) (paren : Bool) :
    Except String (ExpressionParser F R) := do
  let (output, stack) ← closeGroup paren p.output p.operatorStack
  ExpressionParser.closeCall { p with output, operatorStack := stack }

/-- The arm of a binary operator: one argument fewer, the operators it outranks to the output,
and for `&` and `|` a jump over the right operand. -/
def ExpressionParser.binary (p : ExpressionParser F R) (bop : BinaryOperator) :
    ExpressionParser F R :=
  let p := p.decArgCount
  let (output, stack) := popOperators bop.precedence p.output p.operatorStack
  let (output, jmpPos) : List (ExpressionItem F R) × Option Nat :=
    match bop with
    | .and => (output ++ [.jmpIf false 0], some output.length)
    | .or => (output ++ [.jmpIf true 0], some output.length)
    | _ => (output, none)
  { p with output, operatorStack := (.binaryOperator bop, jmpPos) :: stack }

/-- The arm of a call, a regex or a setting: one more argument for the enclosing call, and a count
of its own. -/
def ExpressionParser.openCall (p : ExpressionParser F R) (token : Token F R) :
    ExpressionParser F R :=
  let p := p.incArgCount
  { p with argCount := 0 :: p.argCount, operatorStack := (token, none) :: p.operatorStack }

/-- The arm of `[`: an index when it follows a variable or a call (`last_is_var_or_fnc`), an array
literal otherwise. -/
def ExpressionParser.openBracket (p : ExpressionParser F R) (lastIsVarOrFnc : Bool) :
    ExpressionParser F R :=
  let (p, id, numArgs, count) : ExpressionParser F R × Nat × Nat × Int :=
    if lastIsVarOrFnc then (p, idArrayAccess, 2, 1) else (p.incArgCount, idArrayBuild, 0, 0)
  { p with
    argCount := count :: p.argCount
    operatorStack :=
      (.openBracket, none) :: (.function "array" id numArgs, none) :: p.operatorStack }

/-- The arm of `,`. -/
def ExpressionParser.comma (p : ExpressionParser F R) : ExpressionParser F R :=
  let (output, stack) := popOperators 0 p.output p.operatorStack
  { p with output, operatorStack := stack }

/-- The body of the loop of `ExpressionParser::parse` for one token, and whether the token ends a
variable or a call (`is_var_or_fnc`), which `[` then indexes. -/
def ExpressionParser.step (p : ExpressionParser F R) (lastIsVarOrFnc : Bool) :
    Token F R → Except String (ExpressionParser F R × Bool)
  | .variable v => .ok (p.incArgCount.emit (.variable v), true)
  | .constant c => .ok (p.incArgCount.emit (.constant c), false)
  | .global g => .ok (p.incArgCount.emit (.global g), false)
  | .capture c => .ok (p.incArgCount.emit (.capture c), false)
  | .unaryOperator uop => .ok (p.pushOperator (.unaryOperator uop) none, false)
  | .openParen => .ok (p.pushOperator .openParen none, false)
  | .closeParen => (p.close true).map fun p => (p, true)
  | .closeBracket => (p.close false).map fun p => (p, true)
  | .binaryOperator bop => .ok (p.binary bop, false)
  | .function name id numArgs => .ok (p.openCall (.function name id numArgs), false)
  | .regex r => .ok (p.openCall (.regex r), false)
  | .setting s => .ok (p.openCall (.setting s), false)
  | .openBracket => .ok (p.openBracket lastIsVarOrFnc, false)
  | .comma => .ok (p.comma, false)

/-- The loop after the last token: every operator left goes to the output; anything else left is
an error. (The stack is empty after it, so `Invalid expression` is never returned.) -/
def drain (output : List (ExpressionItem F R)) :
    List (Token F R × Option Nat) → Except String (List (ExpressionItem F R))
  | [] => .ok output
  | (.binaryOperator bop, jmpPos) :: rest => drain (emitBinary output bop jmpPos) rest
  | (.unaryOperator uop, _) :: rest => drain (output ++ [.unaryOperator uop]) rest
  | _ :: _ => .error "Invalid token on the operator stack"

/-! ## The loop over the tokenizer -/

section Loop

variable [FloatOrder F] [RegexEngine R] (tokenMap : String → Option (Token F R))

/-- The loop of `ExpressionParser::parse`, for at most `fuel` calls of `next`;
`parseLoop_eq_parseTokens` shows the count given by `parse` is never reached. -/
def ExpressionParser.parseLoop : Nat → Tokenizer F R → ExpressionParser F R → Bool →
    Except String (List (ExpressionItem F R))
  | 0, _, _, _ => .error "Invalid expression"
  | fuel + 1, t, p, last =>
    match t.next tokenMap with
    | .error e => .error e
    | .ok (none, _) => drain p.output p.operatorStack
    | .ok (some token, t) =>
      match p.step last token with
      | .error e => .error e
      | .ok (p, isVarOrFnc) => ExpressionParser.parseLoop fuel t p isVarOrFnc

/-- `ExpressionParser::parse`, on the tokenizer it was built with. -/
def ExpressionParser.parse (t : Tokenizer F R) : Except String (List (ExpressionItem F R)) :=
  ExpressionParser.parseLoop tokenMap (t.measure + 1) t .new false

/-! ## The loop over a list of tokens -/

/-- The loop of `parse` over the tokens `ts` instead of a tokenizer. -/
def ExpressionParser.parseTokens : List (Token F R) → ExpressionParser F R → Bool →
    Except String (List (ExpressionItem F R))
  | [], p, _ => drain p.output p.operatorStack
  | token :: tokens, p, last =>
    match p.step last token with
    | .error e => .error e
    | .ok (p, isVarOrFnc) => ExpressionParser.parseTokens tokens p isVarOrFnc

/-- A tokenizer that hands out the tokens `ts`, one a call, and then `None`. -/
inductive Tokenizer.Yields : Tokenizer F R → List (Token F R) → Prop
  | done {t t' : Tokenizer F R} : t.next tokenMap = .ok (none, t') → Tokenizer.Yields t []
  | more {t t' : Tokenizer F R} {token : Token F R} {ts : List (Token F R)} :
      t.next tokenMap = .ok (some token, t') → Tokenizer.Yields t' ts →
        Tokenizer.Yields t (token :: ts)

theorem parseLoop_eq_parseTokens {t : Tokenizer F R} {ts : List (Token F R)}
    (h : Tokenizer.Yields tokenMap t ts) {fuel : Nat} (hfuel : t.measure < fuel)
    (p : ExpressionParser F R) (last : Bool) :
    ExpressionParser.parseLoop tokenMap fuel t p last = ExpressionParser.parseTokens ts p last := by
  induction h generalizing fuel p last with
  | done hnext =>
    obtain ⟨fuel, rfl⟩ : ∃ n, fuel = n + 1 := ⟨fuel - 1, by omega⟩
    simp only [ExpressionParser.parseLoop, hnext, ExpressionParser.parseTokens]
  | more hnext _ ih =>
    obtain ⟨fuel, rfl⟩ : ∃ n, fuel = n + 1 := ⟨fuel - 1, by omega⟩
    have hlt := Tokenizer.next_measure_lt hnext
    simp only [ExpressionParser.parseLoop, hnext, ExpressionParser.parseTokens]
    split
    · rfl
    · exact ih (by omega) _ _

/-- **`parse` is the token loop on what the tokenizer hands out.** -/
theorem parse_eq_parseTokens {t : Tokenizer F R} {ts : List (Token F R)}
    (h : Tokenizer.Yields tokenMap t ts) :
    ExpressionParser.parse tokenMap t = ExpressionParser.parseTokens ts .new false :=
  parseLoop_eq_parseTokens tokenMap h (Nat.lt_succ_self _) _ _

end Loop

end Stalwart.Expr
