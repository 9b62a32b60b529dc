import TemplatedSql.Position

/-!
# Template trees

A template is a body: a sequence of text, expressions to show, and statements. A statement may hold
further bodies, an expression holds none. Every node keeps the place of the token it was made from:
a binary operation that of its operator, a call that of its callee, an index that of its bracket and
an attribute that of its name.
-/

namespace TemplatedSql

/-- The operators between two expressions. -/
inductive BinaryOp
  | or
  | and
  | eq
  | notEq
  | lt
  | ltEq
  | gt
  | gtEq
  | isIn
  | notIn
  | add
  | sub
  | mul
  | div
  | mod
deriving DecidableEq

/-- How an operator is written. -/
def BinaryOp.symbol : BinaryOp → String
  | or => "or"
  | and => "and"
  | eq => "=="
  | notEq => "!="
  | lt => "<"
  | ltEq => "<="
  | gt => ">"
  | gtEq => ">="
  | isIn => "in"
  | notIn => "not in"
  | add => "+"
  | sub => "-"
  | mul => "*"
  | div => "/"
  | mod => "%"

/-- The operators before one expression. -/
inductive UnaryOp
  | not
  | neg
deriving DecidableEq

/-- A value written out in a template. -/
inductive Literal
  | boolean (value : Bool)
  | number (value : Float)
  | string (value : String)

mutual

/-- An expression. -/
inductive Expr
  | literal (position : Position) (value : Literal)
  | list (position : Position) (items : List Expr)
  | name (position : Position) (name : String)
  | member (position : Position) (target : Expr) (name : String)
  | index (position : Position) (target index : Expr)
  | binary (position : Position) (op : BinaryOp) (left right : Expr)
  | unary (position : Position) (op : UnaryOp) (operand : Expr)
  | call (position : Position) (callee : Expr) (arguments : List CallArgument)

/-- An argument of a call; a positional one has no name. -/
structure CallArgument where
  name : Option String
  value : Expr

end

/-- A parameter of a macro, with the value it takes when a call gives none. -/
structure Parameter where
  name : String
  default : Option Literal

/-- The names that a loop binds: one for each item, or two for the parts of each item. -/
inductive Targets
  | one (name : String)
  | two (first second : String)

/-- The names in order. -/
def Targets.names : Targets → List String
  | one name => [name]
  | two first second => [first, second]

mutual

/-- A part of a body. -/
inductive Node
  | text (position : Position) (text : String)
  | output (position : Position) (expr : Expr)
  | branch (position : Position) (condition : Expr) (body : Body) (rest : Alternative)
  | loop (position : Position) (targets : Targets) (iterable : Expr) (body : Body)
  | macroDef (definition : MacroDef)
  | assign (position : Position) (name : String) (value : Expr)

/-- What follows the body of a condition: nothing, a last body, or a further condition. -/
inductive Alternative
  | nothing
  | otherwise (body : Body)
  | elseIf (condition : Expr) (body : Body) (rest : Alternative)

/-- A macro. -/
structure MacroDef where
  position : Position
  name : String
  parameters : List Parameter
  body : Body

/-- A sequence of nodes. -/
structure Body where
  position : Position
  nodes : List Node

end

/-- The place of an expression. -/
def Expr.position : Expr → Position
  | literal p _ | list p _ | name p _ | member p .. | index p .. | binary p .. | unary p .. | call p .. => p

/-- The place of a node. -/
def Node.position : Node → Position
  | text p _ | output p _ | branch p .. | loop p .. | assign p .. => p
  | macroDef d => d.position

end TemplatedSql
