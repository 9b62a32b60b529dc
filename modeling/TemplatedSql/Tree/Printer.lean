import TemplatedSql.Number.Decimal
import TemplatedSql.Text.Quoted
import TemplatedSql.Tree

/-!
# Writing trees as source text

Every operation is written in parentheses, so the text shows the tree without knowledge of the
precedences. Comments, dropped blanks and the parentheses of the source are not part of a tree and do
not come back.
-/

namespace TemplatedSql

/-- The source text of a literal. -/
def Literal.source : Literal → String
  | boolean b => if b then "true" else "false"
  | number n => Number.text n
  | string s => Text.quote s

mutual

/-- The source text of an expression. -/
def Expr.source : Expr → String
  | .literal _ v => v.source
  | .list _ items => "[" ++ ", ".intercalate (Expr.sources items) ++ "]"
  | .name _ name => name
  | .member _ target name => target.source ++ "." ++ name
  | .index _ target index => target.source ++ "[" ++ index.source ++ "]"
  | .binary _ op left right => "(" ++ left.source ++ " " ++ op.symbol ++ " " ++ right.source ++ ")"
  | .unary _ .not operand => "(not " ++ operand.source ++ ")"
  | .unary _ .neg operand => "(-" ++ operand.source ++ ")"
  | .call _ callee arguments => callee.source ++ "(" ++ ", ".intercalate (CallArgument.sources arguments) ++ ")"

/-- The source texts of a list of expressions. -/
def Expr.sources : List Expr → List String
  | [] => []
  | e :: es => e.source :: Expr.sources es

/-- The source text of an argument. -/
def CallArgument.source : CallArgument → String
  | ⟨none, value⟩ => value.source
  | ⟨some name, value⟩ => name ++ "=" ++ value.source

/-- The source texts of a list of arguments. -/
def CallArgument.sources : List CallArgument → List String
  | [] => []
  | a :: as => a.source :: CallArgument.sources as

end

/-- The source text of a parameter. -/
def Parameter.source (p : Parameter) : String :=
  match p.default with
  | none => p.name
  | some v => p.name ++ "=" ++ v.source

/-- A statement tag. -/
def statementTag (body : String) : String :=
  "\x7b% " ++ body ++ " %\x7d"

mutual

/-- The source text of a node. -/
def Node.source : Node → String
  | .text _ text => text
  | .output _ expr => "\x7b\x7b " ++ expr.source ++ " \x7d\x7d"
  | .branch _ condition body rest =>
    statementTag ("if " ++ condition.source) ++ body.source ++ rest.source ++ statementTag "endif"
  | .loop _ targets iterable body =>
    statementTag ("for " ++ ", ".intercalate targets.names ++ " in " ++ iterable.source) ++ body.source
      ++ statementTag "endfor"
  | .macroDef definition => definition.source
  | .assign _ name value => statementTag ("set " ++ name ++ " = " ++ value.source)

/-- The source text of what follows the body of a condition. -/
def Alternative.source : Alternative → String
  | .nothing => ""
  | .otherwise body => statementTag "else" ++ body.source
  | .elseIf condition body rest =>
    statementTag ("elif " ++ condition.source) ++ body.source ++ rest.source

/-- The source text of a macro. -/
def MacroDef.source : MacroDef → String
  | ⟨_, name, parameters, body⟩ =>
    statementTag ("macro " ++ name ++ "(" ++ ", ".intercalate (parameters.map Parameter.source) ++ ")")
      ++ body.source ++ statementTag "endmacro"

/-- The source text of a body. -/
def Body.source : Body → String
  | ⟨_, nodes⟩ => Node.sources nodes

/-- The source texts of a list of nodes, joined. -/
def Node.sources : List Node → String
  | [] => ""
  | n :: ns => n.source ++ Node.sources ns

end

end TemplatedSql
