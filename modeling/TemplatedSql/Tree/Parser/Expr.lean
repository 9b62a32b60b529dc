import TemplatedSql.Number.Decimal
import TemplatedSql.Tree.Parser.Step

/-!
# Parsing expressions

From loosest to tightest an expression is built of `or`, `and`, the prefix `not`, comparisons and
membership, sums, products, the prefix signs, and postfix calls, indexes and attributes on a primary
expression. All binary operators group to the left. A prefix plus leaves no trace in the tree, and
neither do parentheses.
-/

namespace TemplatedSql.Parser

/-- The levels of an expression, loosest first. -/
inductive Level
  | or
  | and
  | not
  | comparison
  | sum
  | product
  | sign
  | operand
deriving DecidableEq

namespace Level

/-- How many levels are at least as tight. -/
def rank : Level → Nat
  | or => 8
  | and => 7
  | not => 6
  | comparison => 5
  | sum => 4
  | product => 3
  | sign => 2
  | operand => 1

/-- The next tighter level. -/
def next : Level → Level
  | or => and
  | and => not
  | not => comparison
  | comparison => sum
  | sum => product
  | product => sign
  | sign | operand => operand

theorem rank_pos (l : Level) : 0 < l.rank := by
  cases l <;> decide

theorem rank_next_lt {l : Level} (h : l ≠ operand) : l.next.rank < l.rank := by
  cases l <;> first | contradiction | decide

/-- The operator that a token spells before an operand of the level. -/
inductive Sign
  | keep
  | apply (op : UnaryOp)

/-- The prefix operators of a level. -/
def sign? : Level → TokenKind → Option Sign
  | not, .notWord => some (.apply .not)
  | sign, .minus => some (.apply .neg)
  | sign, .plus => some .keep
  | _, _ => none

/-- The binary operators of a level that a single token spells. -/
def operator? : Level → TokenKind → Option BinaryOp
  | or, .orWord => some .or
  | and, .andWord => some .and
  | comparison, .eq => some .eq
  | comparison, .notEq => some .notEq
  | comparison, .lt => some .lt
  | comparison, .ltEq => some .ltEq
  | comparison, .gt => some .gt
  | comparison, .gtEq => some .gtEq
  | comparison, .inWord => some .isIn
  | sum, .plus => some .add
  | sum, .minus => some .sub
  | product, .star => some .mul
  | product, .slash => some .div
  | product, .percent => some .mod
  | _, _ => none

end Level

/-- Reads a binary operator of a level, if one comes next: one token, or `not in`. It stands at the place
of its last token. -/
def operator? (l : Level) : (ts : List Token) → Option (Parsed (BinaryOp × Position) ts.length)
  | [] => none
  | t :: ts =>
    match l.operator? t.kind with
    | some op => some ⟨(op, t.start), ts, length_lt_cons t ts⟩
    | none =>
      match ts with
      | u :: us =>
        if l = .comparison ∧ t.kind = .notWord ∧ u.kind = .inWord then
          some ⟨(.notIn, u.start), us, length_lt_cons_cons t u us⟩
        else none
      | [] => none

/-- The number that a token spells. -/
def readNumber (t : Token) : Except TemplateError Float :=
  match Number.ofString? t.text with
  | some n => .ok n
  | none => .error ⟨t.start, .parse "number" t.describe⟩

/-- Reads the name of a named argument with its equal sign, if they come next. -/
def argumentName? : (ts : List Token) → Option (Parsed Token ts.length)
  | t :: u :: ts =>
    if t.kind = .identifier ∧ u.kind = .assign then some ⟨t, ts, length_lt_cons_cons t u ts⟩ else none
  | _ => none

variable (stop : Position)

mutual

/-- Reads an expression of a level: its prefix operators, then an operand. -/
def level (l : Level) (ts : List Token) : Except TemplateError (Parsed Expr ts.length) :=
  match ts with
  | [] => operation l []
  | t :: rest =>
    match l.sign? t.kind with
    | some (.apply op) => do
      let inner ← level l rest
      .ok (inner.as (.unary t.start op inner.value)).skip
    | some .keep => do
      let inner ← level l rest
      .ok inner.skip
    | none => operation l (t :: rest)
termination_by (ts.length, 2 * l.rank + 1)

/-- Reads operands of the next tighter level, joined by the binary operators of this one. -/
def operation (l : Level) (ts : List Token) : Except TemplateError (Parsed Expr ts.length) :=
  if h : l = .operand then do
    have := l.rank_pos
    let target ← primary ts
    have := target.shorter
    let result ← postfixes target.value target.rest
    .ok (target.along result)
  else do
    have := Level.rank_next_lt h
    let left ← level l.next ts
    have := left.shorter
    let result ← chain l left.value left.rest
    .ok (left.along result)
termination_by (ts.length, 2 * l.rank)

/-- Reads the operators of a level and their right operands, after the left operand. -/
def chain (l : Level) (left : Expr) (ts : List Token) :
    Except TemplateError (Parsed Expr (ts.length + 1)) :=
  match operator? l ts with
  | none => .ok (.nothing left ts)
  | some operator => do
    have := operator.shorter
    let right ← level l.next operator.rest
    have := right.shorter
    let (op, position) := operator.value
    let result ← chain l (.binary position op left right.value) right.rest
    .ok ((operator.after right).along result).skip
termination_by (ts.length, 0)

/-- Reads the calls, indexes and attributes after a primary expression. -/
def postfixes (target : Expr) (ts : List Token) : Except TemplateError (Parsed Expr (ts.length + 1)) :=
  match ts with
  | [] => .ok (.nothing target [])
  | t :: rest =>
    match t.kind with
    | .leftParen => do
      let arguments ← callArguments [] rest
      have := arguments.shorter
      let result ← postfixes (.call target.position target arguments.value) arguments.rest
      .ok (arguments.along result).skip.skip
    | .leftBracket => do
      let index ← level .or rest
      have := index.shorter
      let close ← expect stop .rightBracket index.rest
      have := close.shorter
      let result ← postfixes (.index t.start target index.value) close.rest
      .ok ((index.after close).along result).skip.skip
    | .dot => do
      let name ← expect stop .identifier rest
      have := name.shorter
      let result ← postfixes (.member name.value.start target name.value.text) name.rest
      .ok (name.along result).skip.skip
    | _ => .ok (.nothing target (t :: rest))
termination_by (ts.length, 0)

/-- Reads the arguments of a call through its closing parenthesis. No name comes twice. -/
def callArguments (seen : List String) (ts : List Token) :
    Except TemplateError (Parsed (List CallArgument) ts.length) :=
  match ts with
  | [] => .error (mismatch stop "expression" [])
  | t :: rest =>
    if t.kind = .rightParen then .ok (.nothing [] rest)
    else
      match argumentName? (t :: rest) with
      | some name =>
        if seen.contains name.value.text then
          .error ⟨name.value.start, .parse "a unique argument name" name.value.describe⟩
        else do
          have : name.rest.length < rest.length + 1 := name.shorter
          let value ← level .or name.rest
          have := value.shorter
          let more ← moreArguments (name.value.text :: seen) value.rest
          .ok (((name.after value).after more).as (⟨some name.value.text, value.value⟩ :: more.value))
      | none => do
        let value ← level .or (t :: rest)
        have : value.rest.length < rest.length + 1 := value.shorter
        let more ← moreArguments seen value.rest
        .ok ((value.after more).as (⟨none, value.value⟩ :: more.value))
termination_by (ts.length, 2 * Level.or.rank + 2)

/-- Reads what follows an argument: a comma and perhaps further arguments, or the closing
parenthesis. -/
def moreArguments (seen : List String) (ts : List Token) :
    Except TemplateError (Parsed (List CallArgument) ts.length) :=
  match ts with
  | [] => .error (mismatch stop TokenKind.rightParen.describe [])
  | t :: rest =>
    if t.kind = .comma then do
      let arguments ← callArguments seen rest
      .ok arguments.skip
    else do
      let close ← expect stop .rightParen (t :: rest)
      .ok (close.as [])
termination_by (ts.length, 0)

/-- Reads the items of a list through its closing bracket. -/
def listItems (ts : List Token) : Except TemplateError (Parsed (List Expr) ts.length) :=
  match ts with
  | [] => .error (mismatch stop "expression" [])
  | t :: rest =>
    if t.kind = .rightBracket then .ok (.nothing [] rest)
    else do
      let value ← level .or (t :: rest)
      have : value.rest.length < rest.length + 1 := value.shorter
      let more ← moreItems value.rest
      .ok ((value.after more).as (value.value :: more.value))
termination_by (ts.length, 2 * Level.or.rank + 2)

/-- Reads what follows an item: a comma and perhaps further items, or the closing bracket. -/
def moreItems (ts : List Token) : Except TemplateError (Parsed (List Expr) ts.length) :=
  match ts with
  | [] => .error (mismatch stop TokenKind.rightBracket.describe [])
  | t :: rest =>
    if t.kind = .comma then do
      let items ← listItems rest
      .ok items.skip
    else do
      let close ← expect stop .rightBracket (t :: rest)
      .ok (close.as [])
termination_by (ts.length, 0)

/-- Reads a literal, a name, a list, or an expression in parentheses. -/
def primary (ts : List Token) : Except TemplateError (Parsed Expr ts.length) :=
  match ts with
  | [] => .error (mismatch stop "expression" [])
  | t :: rest =>
    let single (e : Expr) : Except TemplateError (Parsed Expr (rest.length + 1)) :=
      .ok (.nothing e rest)
    match t.kind with
    | .number => do single (.literal t.start (.number (← readNumber t)))
    | .string => single (.literal t.start (.string t.text))
    | .trueWord => single (.literal t.start (.boolean true))
    | .falseWord => single (.literal t.start (.boolean false))
    | .identifier => single (.name t.start t.text)
    | .leftParen => do
      let expr ← level .or rest
      have := expr.shorter
      let close ← expect stop .rightParen expr.rest
      .ok ((expr.after close).as expr.value).skip
    | .leftBracket => do
      let items ← listItems rest
      .ok (items.as (.list t.start items.value)).skip
    | _ => .error (mismatch stop "expression" (t :: rest))
termination_by (ts.length, 1)

end

/-- Reads an expression. -/
def expression : Step Expr :=
  level stop .or

end TemplatedSql.Parser
