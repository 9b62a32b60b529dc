import TemplatedSql.Tree.Parser.Body

/-! # The grammar of templates

A derivation has the tokens it derives as its leaves, so its constructors are the productions of the grammar. It
stands for one tree. Operators of a level group to the left, a plus sign and parentheses leave no trace, and
arguments and parameters have distinct names, since each list is derived after the names before it. -/

namespace TemplatedSql.Grammar

open TemplatedSql.Parser (Level)

/-- A token of a kind. -/
abbrev Word (kind : TokenKind) : Type :=
  { t : Token // t.kind = kind }

/-- The operators that are spelled by one token, with the level they belong to. -/
def operators : List (TokenKind × Level × BinaryOp) :=
  [(.orWord, .or, .or), (.andWord, .and, .and), (.eq, .comparison, .eq), (.notEq, .comparison, .notEq),
    (.lt, .comparison, .lt), (.ltEq, .comparison, .ltEq), (.gt, .comparison, .gt), (.gtEq, .comparison, .gtEq),
    (.inWord, .comparison, .isIn), (.plus, .sum, .add), (.minus, .sum, .sub), (.star, .product, .mul),
    (.slash, .product, .div), (.percent, .product, .mod)]

/-- An operator between two expressions. -/
inductive Operator (l : Level) : Type
  | word (t : Token) (op : BinaryOp) (h : (t.kind, l, op) ∈ operators)
  | notIn (sign : Word .notWord) (last : Word .inWord) (h : l = .comparison)

/-- A token that spells a number. -/
structure Numeral where
  token : Word .number
  value : Float
  reads : Number.ofString? token.val.text = some value

mutual

/-- An expression of a level. -/
inductive Expression : Level → Type
  | not (sign : Word .notWord) (operand : Expression .not) : Expression .not
  | minus (sign : Word .minus) (operand : Expression .sign) : Expression .sign
  | plus (sign : Word .plus) (operand : Expression .sign) : Expression .sign
  | chain {l} (hl : l ≠ .operand) (first : Expression l.next) (more : Chain l) : Expression l
  | applied (target : Primary) (postfixes : Postfixes) : Expression .operand

/-- The operators of a level with their right operands. -/
inductive Chain : Level → Type
  | nil {l} : Chain l
  | cons {l} (operator : Operator l) (right : Expression l.next) (more : Chain l) : Chain l

/-- An expression that nothing binds tighter than. -/
inductive Primary : Type
  | number (numeral : Numeral)
  | string (t : Word .string)
  | trueWord (t : Word .trueWord)
  | falseWord (t : Word .falseWord)
  | name (t : Word .identifier)
  | paren (opening : Word .leftParen) (inner : Expression .or) (closing : Word .rightParen)
  | list (opening : Word .leftBracket) (items : Items)

/-- Calls, indexes and attributes. -/
inductive Postfixes : Type
  | nil
  | call (opening : Word .leftParen) (arguments : Arguments []) (more : Postfixes)
  | index (opening : Word .leftBracket) (index : Expression .or) (closing : Word .rightBracket) (more : Postfixes)
  | member (dot : Word .dot) (name : Word .identifier) (more : Postfixes)

/-- The arguments of a call through its closing parenthesis, after arguments with the names given. -/
inductive Arguments : List String → Type
  | close {seen} (closing : Word .rightParen) : Arguments seen
  | positional {seen} (value : Expression .or) (more : MoreArguments seen) : Arguments seen
  | named {seen} (name : Word .identifier) (sign : Word .assign) (hname : name.val.text ∉ seen)
    (value : Expression .or) (more : MoreArguments (name.val.text :: seen)) : Arguments seen

/-- What follows an argument. -/
inductive MoreArguments : List String → Type
  | close {seen} (closing : Word .rightParen) : MoreArguments seen
  | comma {seen} (comma : Word .comma) (arguments : Arguments seen) : MoreArguments seen

/-- The items of a list through its closing bracket. -/
inductive Items : Type
  | close (closing : Word .rightBracket)
  | item (value : Expression .or) (more : MoreItems)

/-- What follows an item. -/
inductive MoreItems : Type
  | close (closing : Word .rightBracket)
  | comma (comma : Word .comma) (items : Items)

end

/-- The value of a parameter that gets none. -/
inductive Default : Type
  | negative (sign : Word .minus) (numeral : Numeral)
  | number (numeral : Numeral)
  | string (t : Word .string)
  | trueWord (t : Word .trueWord)
  | falseWord (t : Word .falseWord)

/-- A default and the sign that announces it, or nothing. -/
inductive DefaultClause : Type
  | nothing
  | default (sign : Word .assign) (value : Default)

/-- The parameters of a macro through the closing parenthesis, after parameters with the names given. -/
inductive Parameters : List String → Type
  | close {seen} (closing : Word .rightParen) : Parameters seen
  | last {seen} (name : Word .identifier) (hname : name.val.text ∉ seen) (default : DefaultClause)
    (closing : Word .rightParen) : Parameters seen
  | cons {seen} (name : Word .identifier) (hname : name.val.text ∉ seen) (default : DefaultClause)
    (comma : Word .comma) (more : Parameters (name.val.text :: seen)) : Parameters seen

/-- The names that a loop binds. -/
inductive LoopNames : Type
  | one (name : Word .identifier)
  | two (first : Word .identifier) (comma : Word .comma) (second : Word .identifier)

/-- A tag that holds a single word. -/
structure WordTag (kind : TokenKind) where
  opening : Word .stmtOpen
  word : Word kind
  closing : Word .stmtClose

mutual

/-- The parts of a body. -/
inductive Nodes : Type
  | nil
  | text (t : Word .text) (more : Nodes)
  | blank (t : Word .trimmedWhitespace) (more : Nodes)
  | comment (t : Word .comment) (more : Nodes)
  | output (opening : Word .exprOpen) (expr : Expression .or) (closing : Word .exprClose) (more : Nodes)
  | statement (opening : Word .stmtOpen) (statement : Statement) (more : Nodes)

/-- A statement after the opening of its first tag. -/
inductive Statement : Type
  | branch (word : Word .ifWord) (condition : Expression .or) (closing : Word .stmtClose) (body : Nodes)
    (rest : Alternative)
  | loop (word : Word .forWord) (names : LoopNames) (sign : Word .inWord) (iterable : Expression .or)
    (closing : Word .stmtClose) (body : Nodes) (last : WordTag .endforWord)
  | macroDef (word : Word .macroWord) (name : Word .identifier) (paren : Word .leftParen)
    (parameters : Parameters []) (closing : Word .stmtClose) (body : Nodes) (last : WordTag .endmacroWord)
  | assign (word : Word .setWord) (name : Word .identifier) (sign : Word .assign) (value : Expression .or)
    (closing : Word .stmtClose)

/-- What follows the body of a condition: its end, a last body and the end, or a further condition. -/
inductive Alternative : Type
  | nothing (last : WordTag .endifWord)
  | otherwise (tag : WordTag .elseWord) (body : Nodes) (last : WordTag .endifWord)
  | elseIf (opening : Word .stmtOpen) (word : Word .elifWord) (condition : Expression .or)
    (closing : Word .stmtClose) (body : Nodes) (rest : Alternative)

end

/-! ### What is derived -/

namespace Operator

def tokens {l : Level} : Operator l → List Token
  | word t _ _ => [t]
  | notIn sign last _ => [sign.val, last.val]

def op {l : Level} : Operator l → BinaryOp
  | word _ op _ => op
  | notIn .. => .notIn

/-- The place of an operator is that of its last token. -/
def position {l : Level} : Operator l → Position
  | word t _ _ => t.start
  | notIn _ last _ => last.val.start

end Operator

mutual

def Expression.tokens : {l : Level} → Expression l → List Token
  | _, .not sign operand => sign.val :: operand.tokens
  | _, .minus sign operand => sign.val :: operand.tokens
  | _, .plus sign operand => sign.val :: operand.tokens
  | _, .chain _ first more => first.tokens ++ more.tokens
  | _, .applied target postfixes => target.tokens ++ postfixes.tokens

def Chain.tokens : {l : Level} → Chain l → List Token
  | _, .nil => []
  | _, .cons operator right more => operator.tokens ++ (right.tokens ++ more.tokens)

def Primary.tokens : Primary → List Token
  | .number numeral => [numeral.token.val]
  | .string t => [t.val]
  | .trueWord t => [t.val]
  | .falseWord t => [t.val]
  | .name t => [t.val]
  | .paren opening inner closing => opening.val :: (inner.tokens ++ [closing.val])
  | .list opening items => opening.val :: items.tokens

def Postfixes.tokens : Postfixes → List Token
  | .nil => []
  | .call opening arguments more => opening.val :: (arguments.tokens ++ more.tokens)
  | .index opening index closing more => opening.val :: (index.tokens ++ closing.val :: more.tokens)
  | .member dot name more => dot.val :: name.val :: more.tokens

def Arguments.tokens : {seen : List String} → Arguments seen → List Token
  | _, .close closing => [closing.val]
  | _, .positional value more => value.tokens ++ more.tokens
  | _, .named name sign _ value more => name.val :: sign.val :: (value.tokens ++ more.tokens)

def MoreArguments.tokens : {seen : List String} → MoreArguments seen → List Token
  | _, .close closing => [closing.val]
  | _, .comma comma arguments => comma.val :: arguments.tokens

def Items.tokens : Items → List Token
  | .close closing => [closing.val]
  | .item value more => value.tokens ++ more.tokens

def MoreItems.tokens : MoreItems → List Token
  | .close closing => [closing.val]
  | .comma comma items => comma.val :: items.tokens

end

namespace Default

def tokens : Default → List Token
  | negative sign numeral => [sign.val, numeral.token.val]
  | number numeral => [numeral.token.val]
  | string t => [t.val]
  | trueWord t => [t.val]
  | falseWord t => [t.val]

end Default

namespace DefaultClause

def tokens : DefaultClause → List Token
  | nothing => []
  | default sign value => sign.val :: value.tokens

end DefaultClause

def Parameters.tokens : {seen : List String} → Parameters seen → List Token
  | _, .close closing => [closing.val]
  | _, .last name _ default closing => name.val :: (default.tokens ++ [closing.val])
  | _, .cons name _ default comma more => name.val :: (default.tokens ++ comma.val :: more.tokens)

def WordTag.tokens {kind : TokenKind} (tag : WordTag kind) : List Token :=
  [tag.opening.val, tag.word.val, tag.closing.val]

def LoopNames.tokens : LoopNames → List Token
  | .one name => [name.val]
  | .two first comma second => [first.val, comma.val, second.val]

mutual

def Nodes.tokens : Nodes → List Token
  | .nil => []
  | .text t more => t.val :: more.tokens
  | .blank t more => t.val :: more.tokens
  | .comment t more => t.val :: more.tokens
  | .output opening expr closing more => opening.val :: (expr.tokens ++ closing.val :: more.tokens)
  | .statement opening statement more => opening.val :: (statement.tokens ++ more.tokens)

def Statement.tokens : Statement → List Token
  | .branch word condition closing body rest =>
    word.val :: (condition.tokens ++ closing.val :: (body.tokens ++ rest.tokens))
  | .loop word names sign iterable closing body last =>
    word.val :: (names.tokens ++ sign.val :: (iterable.tokens ++ closing.val :: (body.tokens ++ last.tokens)))
  | .macroDef word name paren parameters closing body last =>
    word.val :: name.val :: paren.val :: (parameters.tokens ++ closing.val :: (body.tokens ++ last.tokens))
  | .assign word name sign value closing => word.val :: name.val :: sign.val :: (value.tokens ++ [closing.val])

def Alternative.tokens : Alternative → List Token
  | .nothing last => last.tokens
  | .otherwise tag body last => tag.tokens ++ (body.tokens ++ last.tokens)
  | .elseIf opening word condition closing body rest =>
    opening.val :: word.val :: (condition.tokens ++ closing.val :: (body.tokens ++ rest.tokens))

end

/-! ### The tree of a derivation -/

mutual

def Expression.tree : {l : Level} → Expression l → Expr
  | _, .not sign operand => .unary sign.val.start .not operand.tree
  | _, .minus sign operand => .unary sign.val.start .neg operand.tree
  | _, .plus _ operand => operand.tree
  | _, .chain _ first more => more.tree first.tree
  | _, .applied target postfixes => postfixes.tree target.tree

/-- The tree that grows from a left operand. -/
def Chain.tree : {l : Level} → Chain l → Expr → Expr
  | _, .nil, left => left
  | _, .cons operator right more, left => more.tree (.binary operator.position operator.op left right.tree)

def Primary.tree : Primary → Expr
  | .number numeral => .literal numeral.token.val.start (.number numeral.value)
  | .string t => .literal t.val.start (.string t.val.text)
  | .trueWord t => .literal t.val.start (.boolean true)
  | .falseWord t => .literal t.val.start (.boolean false)
  | .name t => .name t.val.start t.val.text
  | .paren _ inner _ => inner.tree
  | .list opening items => .list opening.val.start items.trees

/-- The tree that grows from the expression in front. -/
def Postfixes.tree : Postfixes → Expr → Expr
  | .nil, target => target
  | .call _ arguments more, target => more.tree (.call target.position target arguments.trees)
  | .index opening index _ more, target => more.tree (.index opening.val.start target index.tree)
  | .member _ name more, target => more.tree (.member name.val.start target name.val.text)

def Arguments.trees : {seen : List String} → Arguments seen → List CallArgument
  | _, .close _ => []
  | _, .positional value more => ⟨none, value.tree⟩ :: more.trees
  | _, .named name _ _ value more => ⟨some name.val.text, value.tree⟩ :: more.trees

def MoreArguments.trees : {seen : List String} → MoreArguments seen → List CallArgument
  | _, .close _ => []
  | _, .comma _ arguments => arguments.trees

def Items.trees : Items → List Expr
  | .close _ => []
  | .item value more => value.tree :: more.trees

def MoreItems.trees : MoreItems → List Expr
  | .close _ => []
  | .comma _ items => items.trees

end

def Default.literal : Default → Literal
  | .negative _ numeral => .number (-numeral.value)
  | .number numeral => .number numeral.value
  | .string t => .string t.val.text
  | .trueWord _ => .boolean true
  | .falseWord _ => .boolean false

def DefaultClause.literal? : DefaultClause → Option Literal
  | .nothing => none
  | .default _ value => some value.literal

def Parameters.parameters : {seen : List String} → Parameters seen → List Parameter
  | _, .close _ => []
  | _, .last name _ default _ => [⟨name.val.text, default.literal?⟩]
  | _, .cons name _ default _ more => ⟨name.val.text, default.literal?⟩ :: more.parameters

def LoopNames.targets : LoopNames → Targets
  | .one name => .one name.val.text
  | .two first _ second => .two first.val.text second.val.text

/-- The token that a body ends at when an alternative follows it. -/
def Alternative.opening : Alternative → Token
  | .nothing last => last.opening
  | .otherwise tag .. => tag.opening
  | .elseIf opening .. => opening

mutual

def Nodes.trees : Nodes → List Node
  | .nil => []
  | .text t more => .text t.val.start t.val.text :: more.trees
  | .blank _ more => more.trees
  | .comment _ more => more.trees
  | .output opening expr _ more => .output opening.val.start expr.tree :: more.trees
  | .statement _ statement more => statement.tree :: more.trees

/-- A body with the place of its first token, which is `next` if it has none. -/
def Nodes.body (nodes : Nodes) (next : Token) : Body :=
  ⟨(nodes.tokens.head?.getD next).start, nodes.trees⟩

def Statement.tree : Statement → Node
  | .branch word condition _ body rest => .branch word.val.start condition.tree (body.body rest.opening) rest.tree
  | .loop word names _ iterable _ body last =>
    .loop word.val.start names.targets iterable.tree (body.body last.opening)
  | .macroDef word name _ parameters _ body last =>
    .macroDef ⟨word.val.start, name.val.text, parameters.parameters, body.body last.opening⟩
  | .assign word name _ value _ => .assign word.val.start name.val.text value.tree

def Alternative.tree : Alternative → TemplatedSql.Alternative
  | .nothing _ => .nothing
  | .otherwise _ body last => .otherwise (body.body last.opening)
  | .elseIf _ _ condition _ body rest => .elseIf condition.tree (body.body rest.opening) rest.tree

end

end TemplatedSql.Grammar
