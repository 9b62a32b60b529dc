import TemplatedSql.Token.Scan
import TemplatedSql.Tree.Parser.Expr

/-!
# Parsing bodies

A body goes on to the end of the tokens, or, inside a block statement, to the tag that goes on with
the statement or ends it. Comments and dropped blanks leave no trace. The names of a macro's
parameters are distinct, and their defaults are literals, a number perhaps with a minus sign.
-/

namespace TemplatedSql.Parser

/-- How messages name the tags that may end a block. -/
def describeEnds (ends : List TokenKind) : String :=
  let tags := ends.map fun k => "\x7b% " ++ k.spelling?.getD "" ++ " %\x7d"
  "`" ++ "` or `".intercalate tags ++ "`"

variable (stop : Position)

/-- Reads a literal. -/
def literal : Step Literal
  | [] => .error (mismatch stop "literal default value (string, number or boolean)" [])
  | t :: rest =>
    let done (v : Literal) : Except TemplateError (Parsed Literal (rest.length + 1)) :=
      .ok (.nothing v rest)
    match t.kind with
    | .minus => do
      let number ← expect stop .number rest
      .ok (number.as (.number (-(← readNumber number.value)))).skip
    | .number => do done (.number (← readNumber t))
    | .string => done (.string t.text)
    | .trueWord => done (.boolean true)
    | .falseWord => done (.boolean false)
    | _ => .error (mismatch stop "literal default value (string, number or boolean)" (t :: rest))

/-- Reads the default of a parameter, if an equal sign announces one. -/
def default? (ts : List Token) : Except TemplateError (Parsed (Option Literal) (ts.length + 1)) :=
  match accept? .assign ts with
  | none => .ok (.nothing none ts)
  | some sign => do
    let value ← literal stop sign.rest
    .ok ((sign.after value).as (some value.value)).skip

/-- Reads the parameters of a macro through the closing parenthesis; `seen` holds the names so far. -/
def parameters (seen : List String) (ts : List Token) :
    Except TemplateError (Parsed (List Parameter) ts.length) :=
  match ts with
  | [] => .error (mismatch stop TokenKind.identifier.describe [])
  | t :: rest =>
    if t.kind = .rightParen then .ok (.nothing [] rest)
    else if t.kind ≠ .identifier then .error (mismatch stop TokenKind.identifier.describe (t :: rest))
    else if seen.contains t.text then .error ⟨t.start, .parse "a unique parameter name" t.describe⟩
    else do
      let value ← default? stop rest
      have := value.shorter
      let parameter : Parameter := ⟨t.text, value.value⟩
      match accept? .comma value.rest with
      | some comma => do
        have := comma.shorter
        let more ← parameters (t.text :: seen) comma.rest
        .ok ((value.after (comma.after more)).as (parameter :: more.value))
      | none => do
        let close ← expect stop .rightParen value.rest
        .ok ((value.after close).as [parameter])
termination_by ts.length

/-- Reads the names that a loop binds. -/
def targets : Step Targets := fun ts => do
  let first ← expect stop .identifier ts
  match accept? .comma first.rest with
  | none => .ok (first.as (.one first.value.text))
  | some comma => do
    let second ← expect stop .identifier comma.rest
    .ok (((first.after comma).after second).as (.two first.value.text second.value.text))

/-- Reads an expression and the closing of its statement tag. -/
def closedExpression : Step Expr := fun ts => do
  let expr ← expression stop ts
  let close ← expect stop .stmtClose expr.rest
  .ok ((expr.after close).as expr.value)

/-- The start of a block: what its opening tag says, and the tokens after it. -/
inductive Header
  | branch (condition : Expr)
  | loop (targets : Targets) (iterable : Expr)
  | macroDef (name : String) (parameters : List Parameter)
  | assign (name : String) (value : Expr)

/-- Reads a statement tag after its opening. -/
def header (keyword : Token) (ts : List Token) : Except TemplateError (Parsed Header ts.length) :=
  match keyword.kind with
  | .ifWord => do
    let condition ← closedExpression stop ts
    .ok (condition.as (.branch condition.value))
  | .forWord => do
    let names ← targets stop ts
    let word ← expect stop .inWord names.rest
    let iterable ← closedExpression stop word.rest
    .ok ((names.after (word.after iterable)).as (.loop names.value iterable.value))
  | .macroWord => do
    let name ← expect stop .identifier ts
    let paren ← expect stop .leftParen name.rest
    let parameters ← parameters stop [] paren.rest
    let close ← expect stop .stmtClose parameters.rest
    .ok ((name.after (paren.after (parameters.after close))).as
      (.macroDef name.value.text parameters.value))
  | .setWord => do
    let name ← expect stop .identifier ts
    let sign ← expect stop .assign name.rest
    let value ← closedExpression stop sign.rest
    .ok ((name.after (sign.after value)).as (.assign name.value.text value.value))
  | _ => .error (mismatch stop "statement keyword (`if`, `for`, `macro` or `set`)" (keyword :: ts))

mutual

/-- Reads nodes up to one of the tags in `ends`, through its word; with no such tags, up to the end of
the tokens. Gives the kind of the word with the nodes. -/
def nodes (ends : List TokenKind) (ts : List Token) :
    Except TemplateError (Parsed (List Node × TokenKind) (ts.length + 1)) :=
  match ts with
  | [] =>
    if ends.isEmpty then .ok (.nothing ([], .eof) []) else .error (mismatch stop (describeEnds ends) [])
  | t :: rest =>
    match t.kind with
    | .text => do
      let more ← nodes ends rest
      .ok (more.as (.text t.start t.text :: more.value.1, more.value.2)).skip
    | .trimmedWhitespace => do
      let more ← nodes ends rest
      .ok more.skip
    | .comment => do
      let more ← nodes ends rest
      .ok more.skip
    | .exprOpen => do
      let expr ← expression stop rest
      have := expr.shorter
      let close ← expect stop .exprClose expr.rest
      have := close.shorter
      let more ← nodes ends close.rest
      let nodes := (.output t.start expr.value :: more.value.1, more.value.2)
      .ok (((expr.after close).along more).as nodes).skip.skip
    | .stmtOpen =>
      match rest with
      | [] => .error (mismatch stop "statement keyword (`if`, `for`, `macro` or `set`)" [])
      | keyword :: after =>
        if ends.contains keyword.kind then .ok (Parsed.nothing ([], keyword.kind) after).skip.skip
        else do
          let node ← statement keyword after
          have := node.shorter
          let more ← nodes ends node.rest
          .ok ((node.along more).as (node.value :: more.value.1, more.value.2)).skip.skip
    | _ => .error (mismatch stop "template text or a tag" (t :: rest))
termination_by (ts.length, 0)

/-- Reads a statement after its keyword, through the tag that ends it. -/
def statement (keyword : Token) (ts : List Token) : Except TemplateError (Parsed Node (ts.length + 1)) :=
  do
    let head ← header stop keyword ts
    have := head.shorter
    match head.value with
    | .branch condition => do
      let body ← block [.elifWord, .elseWord, .endifWord] head.rest
      have := body.shorter
      let rest ← alternative body.value.2 body.rest
      let node := .branch keyword.start condition body.value.1 rest.value
      .ok (((head.along body).along rest).as node).skip
    | .loop targets iterable => do
      let body ← block [.endforWord] head.rest
      let close ← expect stop .stmtClose body.rest
      let node := .loop keyword.start targets iterable body.value.1
      .ok (((head.along body).after close).as node).skip
    | .macroDef name parameters => do
      let body ← block [.endmacroWord] head.rest
      let close ← expect stop .stmtClose body.rest
      let node := .macroDef ⟨keyword.start, name, parameters, body.value.1⟩
      .ok (((head.along body).after close).as node).skip
    | .assign name value => .ok (head.as (.assign keyword.start name value)).skip
termination_by (ts.length, 0)

/-- Reads the body of a block through the word of the tag that ends it. -/
def block (ends : List TokenKind) (ts : List Token) :
    Except TemplateError (Parsed (Body × TokenKind) (ts.length + 1)) := do
  let body ← nodes ends ts
  .ok (body.as (⟨place stop ts, body.value.1⟩, body.value.2))
termination_by (ts.length, 1)

/-- Reads what follows the body of a condition, from the word of the tag that ended it. -/
def alternative (word : TokenKind) (ts : List Token) :
    Except TemplateError (Parsed Alternative (ts.length + 1)) :=
  match word with
  | .elifWord => do
    let condition ← closedExpression stop ts
    have := condition.shorter
    let body ← block [.elifWord, .elseWord, .endifWord] condition.rest
    have := body.shorter
    let rest ← alternative body.value.2 body.rest
    let branch := .elseIf condition.value body.value.1 rest.value
    .ok (((condition.along body).along rest).as branch).skip
  | .elseWord => do
    let close ← expect stop .stmtClose ts
    have := close.shorter
    let body ← block [.endifWord] close.rest
    let last ← expect stop .stmtClose body.rest
    .ok (((close.along body).after last).as (.otherwise body.value.1)).skip
  | _ => do
    let close ← expect stop .stmtClose ts
    .ok (close.as .nothing).skip
termination_by (ts.length, 0)

end

end Parser

/-- Parses the tokens up to the first end token. If there is none, the end is reported at the place of
the last token. -/
def Body.ofTokens (tokens : List Token) : Except TemplateError Body := do
  let front := tokens.takeWhile (·.kind != .eof)
  let stop := (tokens.find? (·.kind == .eof) <|> tokens.getLast?).elim ⟨0, 0⟩ Token.start
  let body ← Parser.nodes stop [] front
  .ok ⟨Parser.place stop front, body.value.1⟩

/-- Parses the source text of a template. -/
def Body.ofSource (source : String) : Except TemplateError Body := do
  Body.ofTokens (← Token.scan source)

end TemplatedSql
