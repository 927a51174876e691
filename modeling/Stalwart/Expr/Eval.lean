import Stalwart.Expr.Parser

/-!
# Evaluating compiled expressions (`common::expr::eval`)

`EvalContext::eval` runs the postfix program of an expression on a stack of `Variable`s. An operand
pushes its value, an operator pops its operands and pushes what `Variable::op_*` makes of them, a
call pops its arguments. A `JmpIf { val, pos }` skips the next `pos` items when the value on top
of the stack is `val` as a boolean, and leaves that value where it is. Popping an empty stack gives
the empty string. A regex replaces the captures that later `$n` read.

`f64`'s arithmetic is `FloatArith`, which extends the order of `FloatOrder`; `Float`, Lean's IEEE
double, is an instance. What the evaluation reads from outside (variables, globals, settings,
functions) is an `EvalContext`.
-/

set_option autoImplicit false

namespace Stalwart.Expr

/-- What the operators of expressions use of `f64` besides its order: the arithmetic, the
saturating `as usize` and `Display`. -/
class FloatArith (F : Type) extends FloatOrder F where
  add : F → F → F
  sub : F → F → F
  mul : F → F → F
  div : F → F → F
  neg : F → F
  toUsize : F → Nat
  toText : F → String

/-! ## `f64` as `Float` -/

/-- The digits of a decimal number and the power of ten to scale them by: `digits ('.' digits)?`
or `'.' digits`, then an optional exponent `e` or `E` with a sign. -/
def decimalParts (body : List Char) : Option (Nat × Int) :=
  let (mantissa, exponent) := body.span fun ch => ch ≠ 'e' ∧ ch ≠ 'E'
  let (whole, fraction) := mantissa.span (· ≠ '.')
  let fraction := fraction.drop 1
  let exp : Option Int := match exponent with
    | [] => some 0
    | _ :: e =>
      match e with
      | '-' :: ds => (parseUnsigned 64 ds).map fun n => -(n : Int)
      | '+' :: ds => (parseUnsigned 64 ds).map fun n => (n : Int)
      | ds => (parseUnsigned 64 ds).map fun n => (n : Int)
  if (whole ++ fraction).isEmpty ∨ ¬ (whole ++ fraction).all Char.isDigit then none
  else exp.map fun e => (digitsValue (whole ++ fraction), e - fraction.length)

/-- `str::parse::<f64>`: a sign, then `inf`, `infinity` or `nan` in any case, or a decimal
number, rounded to the nearest double. -/
def parseFloat (s : String) : Option Float :=
  let (negative, body) : Bool × List Char := match s.toList with
    | '-' :: rest => (true, rest)
    | '+' :: rest => (false, rest)
    | cs => (false, cs)
  let lower := body.map Char.toLower
  let magnitude : Option Float :=
    if lower = "inf".toList ∨ lower = "infinity".toList then some (1 / 0)
    else if lower = "nan".toList then some (0 / 0)
    else (decimalParts body).map fun (m, e) =>
      if 0 ≤ e then OfScientific.ofScientific m false e.toNat
      else OfScientific.ofScientific m true (-e).toNat
  magnitude.map fun x => if negative then -x else x

/-- `f64` is `Float`: IEEE comparisons (none against NaN), `as f64`, the saturating `as usize`. -/
instance : FloatArith Float where
  partialCmp x y :=
    if x < y then some .lt else if x == y then some .eq else if y < x then some .gt else none
  zero := 0
  ofInt64 n := Float.ofInt n.toInt
  parse := parseFloat
  add := (· + ·)
  sub := (· - ·)
  mul := (· * ·)
  div := (· / ·)
  neg x := -x
  toUsize x := x.toUInt64.toNat
  toText := Float.toString

variable {F R : Type} [FloatArith F]

/-! ## The operators -/

/-- `i64::saturating_*`: the exact result, clamped to the range of `i64`. -/
def saturate (v : Int) : Int64 :=
  if v < -2 ^ 63 then Int64.ofInt (-2 ^ 63)
  else if 2 ^ 63 ≤ v then Int64.ofInt (2 ^ 63 - 1)
  else Int64.ofInt v

/-- `i64::from(bool)`. -/
def Variable.ofBool (b : Bool) : Variable F :=
  .integer (if b then 1 else 0)

/-- `From<&Constant> for Variable`. -/
def Variable.ofConstant : Constant F → Variable F
  | .integer n => .integer n
  | .float x => .float x
  | .string s => .string s

/-- `Display for Variable`: the items of an array one a line. -/
def Variable.display : Variable F → String
  | .string s => s
  | .integer n => toString n.toInt
  | .float x => FloatArith.toText x
  | .array items => "\n".intercalate (items.attach.map fun ⟨v, _⟩ => v.display)

/-- The text `into_string` gives an item of an array: an array inside one gives nothing. -/
def Variable.itemText : Variable F → String
  | .string s => s
  | .integer n => toString n.toInt
  | .float x => FloatArith.toText x
  | .array _ => ""

/-- `Variable::into_string`: an array's items joined by CRLF, the separator written before each
item once the text is not empty. -/
def Variable.intoString : Variable F → String
  | .array items =>
    items.foldl (fun acc item => (if acc.isEmpty then acc else acc ++ "\r\n") ++ item.itemText) ""
  | v => v.itemText

/-- `usize::from_str`: an optional `+`, then decimal digits below `2^64`. -/
def parseUsize (s : String) : Option Nat :=
  match s.toList with
  | '+' :: digits => parseUnsigned 64 digits
  | digits => parseUnsigned 64 digits

/-- `Variable::to_usize`: `as usize` of a number, the parse of a non-empty string. -/
def Variable.toUsize : Variable F → Option Nat
  | .integer n => some n.toUInt64.toNat
  | .float x => some (FloatArith.toUsize x)
  | .string s => if s.isEmpty then none else parseUsize s
  | .array _ => none

/-- `f64 == f64`, by `partial_cmp`. -/
def floatEq (x y : F) : Bool :=
  FloatOrder.partialCmp x y == some .eq

/-- The arms of `PartialEq for Variable` on two numbers, which is what `parse_number` makes of a
string. -/
def numberEq : Variable F → Variable F → Bool
  | .integer a, .integer b => a == b
  | .float a, .float b => floatEq a b
  | .integer a, .float b => floatEq (FloatOrder.ofInt64 a) b
  | .float b, .integer a => floatEq (FloatOrder.ofInt64 a) b
  | _, _ => false

mutual

/-- `PartialEq for Variable`. -/
def Variable.beq : Variable F → Variable F → Bool
  | .integer a, .integer b => a == b
  | .float a, .float b => floatEq a b
  | .integer a, .float b => floatEq (FloatOrder.ofInt64 a) b
  | .float b, .integer a => floatEq (FloatOrder.ofInt64 a) b
  | .string a, .string b => a == b
  -- a string against a number is read as a number
  | .string s, .integer n => numberEq (Variable.string s : Variable F).parseNumber (.integer n)
  | .string s, .float x => numberEq (Variable.string s : Variable F).parseNumber (.float x)
  | .integer n, .string s => numberEq (.integer n) (Variable.string s : Variable F).parseNumber
  | .float x, .string s => numberEq (.float x) (Variable.string s : Variable F).parseNumber
  | .array a, .array b => Variable.listBeq a b
  | _, _ => false

/-- `PartialEq for Vec<Variable>`. -/
def Variable.listBeq : List (Variable F) → List (Variable F) → Bool
  | [], [] => true
  | x :: xs, y :: ys => x.beq y && Variable.listBeq xs ys
  | _, _ => false

end

/-- The number arms of `op_subtract`; `none` unless both sides are numbers. -/
def numberSubtract : Variable F → Variable F → Option (Variable F)
  | .integer a, .integer b => some (.integer (saturate (a.toInt - b.toInt)))
  | .float a, .float b => some (.float (FloatArith.sub a b))
  | .integer a, .float b => some (.float (FloatArith.sub (FloatOrder.ofInt64 a) b))
  | .float a, .integer b => some (.float (FloatArith.sub a (FloatOrder.ofInt64 b)))
  | _, _ => none

/-- The number arms of `op_multiply`. -/
def numberMultiply : Variable F → Variable F → Option (Variable F)
  | .integer a, .integer b => some (.integer (saturate (a.toInt * b.toInt)))
  | .float a, .float b => some (.float (FloatArith.mul a b))
  | .integer i, .float f | .float f, .integer i =>
    some (.float (FloatArith.mul (FloatOrder.ofInt64 i) f))
  | _, _ => none

/-- `x / y`, or `0.0` when `y` is zero. -/
def divideOrZero (x y : F) : F :=
  if FloatOrder.partialCmp y FloatOrder.zero ≠ some .eq then FloatArith.div x y
  else FloatOrder.zero

/-- The number arms of `op_divide`: always a float, `0.0` for a zero divisor. -/
def numberDivide : Variable F → Variable F → Option (Variable F)
  | .integer a, .integer b =>
    some (.float (if b ≠ 0 then FloatArith.div (FloatOrder.ofInt64 a) (FloatOrder.ofInt64 b)
      else FloatOrder.zero))
  | .float a, .float b => some (.float (divideOrZero a b))
  | .integer a, .float b => some (.float (divideOrZero (FloatOrder.ofInt64 a) b))
  | .float a, .integer b =>
    some (.float (if b ≠ 0 then FloatArith.div a (FloatOrder.ofInt64 b) else FloatOrder.zero))
  | _, _ => none

/-- `Variable::op_add`: numbers add, arrays concatenate or take the other side in, and a
non-empty string is concatenated with the other side's text. -/
def Variable.opAdd : Variable F → Variable F → Variable F
  | .integer a, .integer b => .integer (saturate (a.toInt + b.toInt))
  | .float a, .float b => .float (FloatArith.add a b)
  | .integer i, .float f | .float f, .integer i => .float (FloatArith.add (FloatOrder.ofInt64 i) f)
  | .array a, .array b => .array (a ++ b)
  | .array a, b => .array (a ++ [b])
  | a, .array b => .array (a :: b)
  | .string a, b => if !a.isEmpty then .string (a ++ b.display) else b
  | a, .string b => if !b.isEmpty then .string (a.display ++ b) else a

/-- `Variable::op_subtract`: numbers subtract, an array loses the elements equal to the other side
(on either side), and anything else is read as numbers. -/
def Variable.opSubtract (a b : Variable F) : Variable F :=
  match numberSubtract a b with
  | some v => v
  | none =>
    match a, b with
    | .array items, b | b, .array items => .array (items.filter fun v => !v.beq b)
    | a, b => (numberSubtract a.parseNumber b.parseNumber).getD default

/-- `Variable::op_multiply`. -/
def Variable.opMultiply (a b : Variable F) : Variable F :=
  match numberMultiply a b with
  | some v => v
  | none => (numberMultiply a.parseNumber b.parseNumber).getD default

/-- `Variable::op_divide`. -/
def Variable.opDivide (a b : Variable F) : Variable F :=
  match numberDivide a b with
  | some v => v
  | none => (numberDivide a.parseNumber b.parseNumber).getD default

/-- `Variable::op_minus`: `-n` wraps at `i64::MIN`. -/
def Variable.opMinus : Variable F → Variable F
  | .integer n => .integer (-n)
  | .float x => .float (FloatArith.neg x)
  | v =>
    match v.parseNumber with
    | .integer n => .integer (-n)
    | .float x => .float (FloatArith.neg x)
    | other => other

/-- The unary operators of `eval`. -/
def Variable.unary (v : Variable F) : UnaryOperator → Variable F
  | .not => .ofBool !v.toBool
  | .minus => v.opMinus

/-- The binary operators of `eval`: `left.op_*(right)`. The comparisons are those of
`partial_cmp`, false where it has no answer. -/
def Variable.binary (left : Variable F) (op : BinaryOperator) (right : Variable F) : Variable F :=
  match op with
  | .add => left.opAdd right
  | .subtract => left.opSubtract right
  | .multiply => left.opMultiply right
  | .divide => left.opDivide right
  | .and => .ofBool (left.toBool && right.toBool)
  | .or => .ofBool (left.toBool || right.toBool)
  | .xor => .ofBool (left.toBool ^^ right.toBool)
  | .eq => .ofBool (left.beq right)
  | .ne => .ofBool !(left.beq right)
  | .lt => .ofBool (left.partialCmp right == some .lt)
  | .le => .ofBool (left.partialCmp right == some .lt || left.partialCmp right == some .eq)
  | .gt => .ofBool (left.partialCmp right == some .gt)
  | .ge => .ofBool (left.partialCmp right == some .gt || left.partialCmp right == some .eq)

/-! ## The machine -/

/-- What `eval` reads from outside the expression: the resolver's variables and globals, the
settings of the server and its configuration store, the functions of `FUNCTIONS` (pure), and
`eval_fnc` for the asynchronous ones. -/
structure EvalContext (F : Type) where
  resolveVariable : Nat → Variable F
  resolveGlobal : String → Variable F
  serverName : String
  reportDomain : String
  nodeId : UInt64
  configGet : String → Except String (Option String)
  callFunction : Nat → List (Variable F) → Variable F
  evalFnc : Nat → List (Variable F) → Except String (Variable F)

/-- The state of `eval`: the stack, top first, and the captures of the last regex. -/
structure Machine (F : Type) where
  stack : List (Variable F)
  captures : List String

/-- `stack.push`. -/
def Machine.push (m : Machine F) (v : Variable F) : Machine F :=
  { m with stack := v :: m.stack }

/-- `stack.pop().unwrap_or_default()`. -/
def Machine.pop (m : Machine F) : Variable F × Machine F :=
  (m.stack.headD default, { m with stack := m.stack.tail })

/-- The arguments of a call or the items of an array: `n` pops, the first popped last. -/
def Machine.popArgs : Nat → Machine F → List (Variable F) × Machine F
  | 0, m => ([], m)
  | n + 1, m =>
    let (v, m) := m.pop
    let (vs, m) := Machine.popArgs n m
    (vs ++ [v], m)

/-- The value of a setting. -/
def EvalContext.setting (ctx : EvalContext F) : Setting → Except String (Variable F)
  | .hostname => .ok (.string ctx.serverName)
  | .reportDomain => .ok (.string ctx.reportDomain)
  | .nodeId => .ok (.integer ctx.nodeId.toInt64)
  | .other key => (ctx.configGet key).map fun value => .string (value.getD "")

/-- A call: a function of `FUNCTIONS` by its id, an asynchronous one past them. -/
def EvalContext.call (ctx : EvalContext F) (id : Nat) (args : List (Variable F)) :
    Except String (Variable F) :=
  if id < functions.length then .ok (ctx.callFunction id args)
  else ctx.evalFnc (id - functions.length) args

variable [RegexEngine R]

/-- One item of `eval` other than a jump. -/
def EvalContext.exec (ctx : EvalContext F) (m : Machine F) :
    ExpressionItem F R → Except String (Machine F)
  | .variable v => .ok (m.push (ctx.resolveVariable v))
  | .global g => .ok (m.push (ctx.resolveGlobal g))
  | .constant c => .ok (m.push (.ofConstant c))
  | .capture i => .ok (m.push (.string (m.captures.getD i "")))
  | .setting s => (ctx.setting s).map m.push
  | .unaryOperator op =>
    let (v, m) := m.pop
    .ok (m.push (v.unary op))
  | .binaryOperator op =>
    let (right, m) := m.pop
    let (left, m) := m.pop
    .ok (m.push (left.binary op right))
  | .function id numArgs =>
    let (args, m) := m.popArgs numArgs
    (ctx.call id args).map m.push
  | .jmpIf _ _ => .ok m
  | .arrayAccess =>
    let (index, m) := m.pop
    let (array, m) := m.pop
    .ok (m.push (array.intoArray[(index.toUsize).getD 0]?.getD default))
  | .arrayBuild numItems =>
    let (items, m) := m.popArgs numItems
    .ok (m.push (.array items))
  | .regex r =>
    -- the captures are cleared, then hold every group of the first match
    let (value, m) := m.pop
    let captures := match RegexEngine.captures r value.intoString with
      | some groups => groups.map (·.getD "")
      | none => []
    .ok { stack := Variable.ofBool (!captures.isEmpty) :: m.stack, captures }

/-- The loop of `EvalContext::eval`, with the number of items a jump still skips. -/
def EvalContext.run (ctx : EvalContext F) :
    List (ExpressionItem F R) → Nat → Machine F → Except String (Machine F)
  | [], _, m => .ok m
  | _ :: items, skip + 1, m => ctx.run items skip m
  | .jmpIf val pos :: items, 0, m =>
    if (m.stack.head?.any Variable.toBool) = val then ctx.run items pos m
    else ctx.run items 0 m
  | item :: items, 0, m =>
    match ctx.exec m item with
    | .error e => .error e
    | .ok m => ctx.run items 0 m

/-- `EvalContext::eval`: the value on top at the end, and the captures left. -/
def EvalContext.eval (ctx : EvalContext F) (items : List (ExpressionItem F R))
    (captures : List String) : Except String (Variable F × List String) :=
  (ctx.run items 0 ⟨[], captures⟩).map fun m => (m.stack.headD default, m.captures)

end Stalwart.Expr
