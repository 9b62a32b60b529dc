import TemplatedSql.Error
import TemplatedSql.Text.Search
import TemplatedSql.Value

/-!
# Operators on values

A combination of kinds that an operator does not list is a type mismatch. Looking something up never
fails for being absent: a missing key, an index outside its list and whatever is read from an undefined
value are undefined.
-/

namespace TemplatedSql.Value

/-- The kinds of two operands do not suit the operator. -/
def mismatch (op : BinaryOp) (left right : Value) : Cause :=
  .typeMismatch s!"unsupported operand types for `{op.symbol}`: {left.kind} and {right.kind}"

/-- The order of two numbers or two strings. Numbers that are none have no order, and strings are
ordered by their code points. -/
def order (op : BinaryOp) : Value → Value → Except Cause Ordering
  | number a, number b =>
    if a < b then .ok .lt
    else if a == b then .ok .eq
    else if b < a then .ok .gt
    else .error (.typeMismatch "cannot order NaN")
  | string a, string b => .ok (if a < b then .lt else if a = b then .eq else .gt)
  | left, right => .error (mismatch op left right)

/-- Whether a string has a part, a list an item, or a mapping a key. -/
def contains : Value → Value → Except Cause Bool
  | string s, string part => .ok (Text.contains part.toList s.toList)
  | list items, v => .ok (items.any fun item => item.same v)
  | mapping entries, string key => .ok (entries.lookup key).isSome
  | mapping _, _ => .ok false
  | whole, part => .error (mismatch .isIn part whole)

/-- The sum of numbers, or two strings or lists one after the other. -/
def add : Value → Value → Except Cause Value
  | number a, number b => .ok (number (a + b))
  | string a, string b => .ok (string (a ++ b))
  | list a, list b => .ok (list (a ++ b))
  | left, right => .error (mismatch .add left right)

/-- The result of an operation on two numbers. -/
def arithmetic (op : BinaryOp) (f : Float → Float → Float) : Value → Value → Except Cause Value
  | number a, number b => .ok (number (f a b))
  | left, right => .error (mismatch op left right)

/-- The same for an operation that a zero on the right does not suit. -/
def division (op : BinaryOp) (f : Float → Float → Float) : Value → Value → Except Cause Value
  | number a, number b =>
    if b == 0.0 then .error (.runtime s!"division by zero in `{op.symbol}`") else .ok (number (f a b))
  | left, right => .error (mismatch op left right)

/-- The result of a binary operator on two values. -/
def binary (op : BinaryOp) (left right : Value) : Except Cause Value :=
  let ordered (test : Ordering → Bool) := (order op left right).map fun o => boolean (test o)
  match op with
  | .or => .ok (if left.truthy then left else right)
  | .and => .ok (if left.truthy then right else left)
  | .eq => .ok (boolean (left.same right))
  | .notEq => .ok (boolean !(left.same right))
  | .lt => ordered Ordering.isLT
  | .ltEq => ordered Ordering.isLE
  | .gt => ordered Ordering.isGT
  | .gtEq => ordered Ordering.isGE
  | .isIn => (contains right left).map boolean
  | .notIn => (contains right left).map fun b => boolean !b
  | .add => add left right
  | .sub => arithmetic op (· - ·) left right
  | .mul => arithmetic op (· * ·) left right
  | .div => division op (· / ·) left right
  | .mod => division op Number.modulo left right

/-- The negative of a number. -/
def negate : Value → Except Cause Value
  | number n => .ok (number (-n))
  | v => .error (.typeMismatch s!"cannot negate {v.kind}")

/-- The item at a place; a negative place counts from the end. -/
def itemAt {α : Type} (items : List α) (n : Float) : Except Cause (Option α) :=
  match Number.integer? n with
  | none => .error (.typeMismatch s!"index must be an integer, got {Number.plainText n}")
  | some i =>
    let i := if i < 0 then items.length + i else i
    .ok (if i < 0 then none else items[i.toNat]?)

/-- What stands at an index of a list or a string, or under a key of a mapping. -/
def index : Value → Value → Except Cause Value
  | undefined, _ | _, undefined => .ok undefined
  | list items, number n => (itemAt items n).map (·.getD undefined)
  | string s, number n => (itemAt s.toList n).map fun c => c.elim undefined fun c => string (.ofList [c])
  | mapping entries, string key => .ok ((entries.lookup key).getD undefined)
  | target, i => .error (.typeMismatch s!"cannot index {target.kind} with {i.kind}")

/-- What an attribute of a value is: the value under that key of a mapping, or else the method of that
name. The serial number tells this access from others. -/
def member (serial : Nat) (name : String) : Value → Value
  | string s =>
    (StringMethod.all.find? (·.name == name)).elim undefined fun m => function (.stringMethod serial s m)
  | mapping entries =>
    match entries.lookup name with
    | some v => v
    | none =>
      (MappingMethod.all.find? (·.name == name)).elim undefined fun m =>
        function (.mappingMethod serial entries m)
  | _ => undefined

end TemplatedSql.Value
