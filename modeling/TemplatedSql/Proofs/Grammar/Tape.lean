import TemplatedSql.Proofs.Grammar.Shape

/-! # A parser with a cursor

The parser again, as a machine that moves a cursor over all tokens, an end token included. On the last token the cursor
stays where it is, so nothing in the machine itself makes it end: calls inside one another are limited, and so are the
turns of each loop. The machine remembers the tokens that it took and every turn of a loop. -/

namespace TemplatedSql

/-- The loops of the parser. -/
inductive Tape.Loop
  | nodes
  | branches
  | parameters
  | operators (l : Parser.Level)
  | postfixes
  | arguments
  | items

/-- A turn of a loop: how many tokens the cursor had before the last one when the turn began and when it ended, and whether
the loop goes on. -/
structure Tape.Turn where
  loop : Tape.Loop
  before : Nat
  after : Nat
  again : Bool

/-- A list of tokens with a cursor on it. The last token, which the cursor cannot leave, is kept apart. -/
structure Tape where
  /-- The tokens from the cursor on, without the last one. -/
  left : List Token
  /-- The tokens that were taken, the latest first. -/
  taken : List Token := []
  /-- The turns that were made, the latest first. -/
  turns : List Tape.Turn := []

end TemplatedSql

namespace TemplatedSql.Tape

/-- How a run ends: with a value or an error, or because a limit is reached. -/
inductive Outcome (α : Type)
  | gives (value : α) (c : Tape)
  | fails (e : TemplateError) (c : Tape)
  | stuck

/-- The tape at the end of a run. -/
def Outcome.tape? {α : Type} : Outcome α → Option Tape
  | .gives _ c | .fails _ c => some c
  | .stuck => none

/-- A run that gives an `α`. -/
def Run (α : Type) := Tape → Outcome α

namespace Run

variable {α β : Type}

instance : Monad Run where
  pure a c := .gives a c
  bind x f c :=
    match x c with
    | .gives a c => f a c
    | .fails e c => .fails e c
    | .stuck => .stuck

theorem bind_gives {x : Run α} {f : α → Run β} {a : α} {c c' : Tape} (h : x c = .gives a c') :
    (x >>= f) c = f a c' := by
  simp only [bind, h]

theorem bind_fails {x : Run α} {f : α → Run β} {e : TemplateError} {c c' : Tape} (h : x c = .fails e c') :
    (x >>= f) c = .fails e c' := by
  simp only [bind, h]

theorem bind_stuck {x : Run α} {f : α → Run β} {c : Tape} (h : x c = .stuck) : (x >>= f) c = .stuck := by
  simp only [bind, h]

/-- Reaches the limit. -/
def stuck : Run α :=
  fun _ => .stuck

/-- Fails. -/
def fail (e : TemplateError) : Run α :=
  fun c => .fails e c

/-- Fails at a token. -/
def refuse (t : Token) (expected : String) : Run α :=
  fail ⟨t.start, .parse expected t.describe⟩

end Run

/-- The cursor after a turn that began at `start`. -/
def turned (loop : Loop) (start c : Tape) (again : Bool) : Tape :=
  { c with turns := ⟨loop, start.left.length, c.left.length, again⟩ :: c.turns }

/-- Makes turns of a loop until one of them leaves it, no more than a limit. -/
def repeatTurns {α σ : Type} (loop : Loop) (turn : σ → Run (σ ⊕ α)) : Nat → σ → Run α
  | 0, _, _ => .stuck
  | limit + 1, s, c =>
    match turn s c with
    | .gives (.inl s) c' => repeatTurns loop turn limit s (turned loop c c' true)
    | .gives (.inr a) c' => .gives a (turned loop c c' false)
    | .fails e c' => .fails e (turned loop c c' false)
    | .stuck => .stuck

/-- The turns that a loop makes from a state, the first one first. -/
def laps {α σ : Type} (loop : Loop) (turn : σ → Run (σ ⊕ α)) : Nat → σ → Tape → List Turn
  | 0, _, _ => []
  | limit + 1, s, c =>
    match turn s c with
    | .gives (.inl s) c' =>
      ⟨loop, c.left.length, c'.left.length, true⟩ :: laps loop turn limit s (turned loop c c' true)
    | .gives (.inr _) c' | .fails _ c' => [⟨loop, c.left.length, c'.left.length, false⟩]
    | .stuck => []

/-- A loop that comes to its end has every turn that it made on the tape, apart from the turns that were there before. -/
def Remembers {α σ : Type} (loop : Loop) (turn : σ → Run (σ ⊕ α)) (limit : Nat) (s : σ) (c : Tape) : Prop :=
  ∀ e, (repeatTurns loop turn limit s c).tape? = some e →
    ((laps loop turn limit s c).reverse ++ c.turns).Sublist e.turns

/-! ### Tokens -/

variable (last : Token)

/-- The token at the cursor. -/
def token (c : Tape) : Token :=
  c.left.head?.getD last

/-- The cursor one token further, or where it is on the last token. -/
def next (c : Tape) : Tape :=
  { c with left := c.left.tail, taken := c.token last :: c.taken }

/-- Looks at the token at the cursor. -/
def peek : Run Token :=
  fun c => .gives (c.token last) c

/-- Looks at the token behind the cursor. -/
def peekSecond : Run Token :=
  fun c => .gives (c.left.tail.head?.getD last) c

/-- Takes the token at the cursor. -/
def advance : Run Token :=
  fun c => .gives (c.token last) (c.next last)

/-- Fails at the cursor. -/
def unexpected {α : Type} (expected : String) : Run α := do
  Run.refuse (← peek last) expected

/-- Takes a token of a kind, if it comes next. -/
def eat (kind : TokenKind) : Run (Option Token) := do
  if (← peek last).kind = kind then
    let t ← advance last
    return some t
  else
    return none

/-- Takes a token of a kind. -/
def expect (kind : TokenKind) : Run Token := do
  if (← peek last).kind = kind then advance last else unexpected last kind.describe

/-- Takes the token at the cursor, which stands for a value. -/
def single {α : Type} (a : α) : Run α := do
  let _ ← advance last
  return a

/-- Goes on with a list after a comma, and otherwise leaves it. -/
def separated {α : Type} (list : List α) : Run (List α ⊕ List α) := do
  match ← eat last .comma with
  | some _ => return .inl list
  | none => return .inr list

/-- The number that a token spells. -/
def number (t : Token) : Run Float :=
  match Parser.readNumber t with
  | .ok n => pure n
  | .error e => Run.fail e

/-! ### Expressions -/

/-- The levels with binary operators. -/
def joins : Parser.Level → Bool
  | .or | .and | .comparison | .sum | .product => true
  | .not | .sign | .operand => false

/-- Takes a binary operator of a level, if one comes next. -/
def operator? (l : Parser.Level) : Run (Option (BinaryOp × Position)) := do
  match l.operator? (← peek last).kind with
  | some op => do
    let sign ← advance last
    return some (op, sign.start)
  | none =>
    if l = .comparison ∧ (← peek last).kind = .notWord ∧ (← peekSecond last).kind = .inWord then
      let _ ← advance last
      let sign ← advance last
      return some (.notIn, sign.start)
    else return none

/-- One turn of the loop over the operators of a level. -/
def operatorTurn (l : Parser.Level) (operand : Run Expr) (left : Expr) : Run (Expr ⊕ Expr) := do
  match ← operator? last l with
  | some (op, position) => do
    let right ← operand
    return .inl (.binary position op left right)
  | none => return .inr left

/-- Reads operands that are joined by the operators of a level. -/
def joined (limit : Nat) (l : Parser.Level) (operand : Run Expr) : Run Expr := do
  let left ← operand
  if joins l then repeatTurns (.operators l) (operatorTurn last l operand) limit left else return left

/-- One turn of the loop over calls, indexes and attributes. -/
def postfixTurn (expression : Run Expr) (arguments : Run (List CallArgument)) (target : Expr) : Run (Expr ⊕ Expr) := do
  match (← peek last).kind with
  | .leftParen => do
    let _ ← advance last
    let given ← arguments
    return .inl (.call target.position target given)
  | .leftBracket => do
    let bracket ← advance last
    let index ← expression
    let _ ← expect last .rightBracket
    return .inl (.index bracket.start target index)
  | .dot => do
    let _ ← advance last
    let name ← expect last .identifier
    return .inl (.member name.start target name.text)
  | _ => return .inr target

/-- Reads a primary expression and what is applied to it. -/
def applied (limit : Nat) (primary expression : Run Expr) (arguments : Run (List CallArgument)) : Run Expr := do
  let target ← primary
  repeatTurns .postfixes (postfixTurn last expression arguments) limit target

/-- The name of an argument, if it has one. -/
def argumentName? (arguments : List CallArgument) : Run (Option String) := do
  if (← peek last).kind = .identifier ∧ (← peekSecond last).kind = .assign then
    let name ← advance last
    if arguments.any (·.name == some name.text) then Run.refuse name "a unique argument name"
    else
      let _ ← advance last
      return some name.text
  else return none

/-- One turn of the loop over arguments. -/
def argumentTurn (expression : Run Expr) (arguments : List CallArgument) :
    Run (List CallArgument ⊕ List CallArgument) := do
  if (← peek last).kind = .rightParen then return .inr arguments
  else
    let name ← argumentName? last arguments
    let value ← expression
    separated last (arguments ++ [⟨name, value⟩])

/-- One turn of the loop over the items of a list. -/
def itemTurn (expression : Run Expr) (items : List Expr) : Run (List Expr ⊕ List Expr) := do
  if (← peek last).kind = .rightBracket then return .inr items
  else
    let item ← expression
    separated last (items ++ [item])

/-- The expression that a prefix operator makes. -/
def signed (sign : Parser.Level.Sign) (position : Position) (inner : Expr) : Expr :=
  match sign with
  | .apply op => .unary position op inner
  | .keep => inner

mutual

/-- Reads an expression. -/
def expression : Nat → Run Expr
  | 0 => Run.stuck
  | limit + 1 => level limit .or

/-- Reads an expression of a level. -/
def level : Nat → Parser.Level → Run Expr
  | 0, _ => Run.stuck
  | limit + 1, l => do
    let t ← peek last
    match l.sign? t.kind with
    | some sign => do
      let _ ← advance last
      let inner ← level limit l
      return signed sign t.start inner
    | none =>
      if l = .operand then applied last limit (primary limit) (expression limit) (arguments limit)
      else joined last limit l (level limit l.next)

/-- Reads the arguments of a call through its closing parenthesis. -/
def arguments : Nat → Run (List CallArgument)
  | 0 => Run.stuck
  | limit + 1 => do
    let given ← repeatTurns .arguments (argumentTurn last (expression limit)) limit []
    let _ ← expect last .rightParen
    return given

/-- Reads a literal, a name, a list, or an expression in parentheses. -/
def primary : Nat → Run Expr
  | 0 => Run.stuck
  | limit + 1 => do
    let t ← peek last
    match t.kind with
    | .number => do
      let n ← number t
      single last (.literal t.start (.number n))
    | .string => single last (.literal t.start (.string t.text))
    | .trueWord => single last (.literal t.start (.boolean true))
    | .falseWord => single last (.literal t.start (.boolean false))
    | .identifier => single last (.name t.start t.text)
    | .leftParen => do
      let _ ← advance last
      let e ← expression limit
      let _ ← expect last .rightParen
      return e
    | .leftBracket => do
      let _ ← advance last
      let items ← repeatTurns .items (itemTurn last (expression limit)) limit []
      let _ ← expect last .rightBracket
      return .list t.start items
    | _ => unexpected last "expression"

end

/-! ### Statements -/

/-- Reads a literal. -/
def literal : Run Literal := do
  let negative := (← eat last .minus).isSome
  let t ← peek last
  match t.kind, negative with
  | .number, _ => do
    let n ← number t
    single last (.number (if negative then -n else n))
  | _, true => unexpected last TokenKind.number.describe
  | .string, false => single last (.string t.text)
  | .trueWord, false => single last (.boolean true)
  | .falseWord, false => single last (.boolean false)
  | _, false => unexpected last "literal default value (string, number or boolean)"

/-- Reads the default of a parameter, if it has one. -/
def default? : Run (Option Literal) := do
  match ← eat last .assign with
  | some _ => do
    let v ← literal last
    return some v
  | none => return none

/-- One turn of the loop over the parameters of a macro. -/
def parameterTurn (parameters : List Parameter) : Run (List Parameter ⊕ List Parameter) := do
  if (← peek last).kind = .rightParen then return .inr parameters
  else
    let name ← expect last .identifier
    if parameters.any (·.name == name.text) then Run.refuse name "a unique parameter name"
    else
      let value ← default? last
      separated last (parameters ++ [⟨name.text, value⟩])

/-- Reads the parameters of a macro through the closing parenthesis. -/
def parameters (limit : Nat) : Run (List Parameter) := do
  let given ← repeatTurns .parameters (parameterTurn last) limit []
  let _ ← expect last .rightParen
  return given

/-- Reads the names that a loop binds. -/
def targets : Run Targets := do
  let first ← expect last .identifier
  match ← eat last .comma with
  | some _ => do
    let second ← expect last .identifier
    return .two first.text second.text
  | none => return .one first.text

/-- Reads an assignment after its keyword. -/
def assignment : Nat → Position → Run Node
  | 0, _ => Run.stuck
  | limit + 1, position => do
    let name ← expect last .identifier
    let _ ← expect last .assign
    let value ← expression last limit
    let _ ← expect last .stmtClose
    return .assign position name.text value

/-- One turn of the loop over the nodes of a body, which ends with the tokens or with one of the tags in `ends`. -/
def nodeTurn (ends : List TokenKind) (expression : Run Expr) (statement : Run Node) (nodes : List Node) :
    Run (List Node ⊕ (List Node × Option TokenKind)) := do
  let t ← peek last
  match t.kind with
  | .eof => if ends.isEmpty then return .inr (nodes, none) else unexpected last (Parser.describeEnds ends)
  | .text => do
    let _ ← advance last
    return .inl (nodes ++ [.text t.start t.text])
  | .trimmedWhitespace | .comment => do
    let _ ← advance last
    return .inl nodes
  | .exprOpen => do
    let _ ← advance last
    let e ← expression
    let _ ← expect last .exprClose
    return .inl (nodes ++ [.output t.start e])
  | .stmtOpen => do
    if ends.contains (← peekSecond last).kind then
      let _ ← advance last
      let keyword ← advance last
      return .inr (nodes, some keyword.kind)
    else
      let _ ← advance last
      let node ← statement
      return .inl (nodes ++ [node])
  | _ => unexpected last "template text or a tag"

/-- What was read after the first body of a condition: further conditions with their bodies, and perhaps a last body. -/
structure Arms where
  further : List (Expr × Body) := []
  otherwise : Option Body := none

/-- The arms as a tree, where `rest` comes after them unless they have a last body. -/
def Arms.before (arms : Arms) (rest : Alternative) : Alternative :=
  arms.further.foldr (fun arm rest => .elseIf arm.1 arm.2 rest) (arms.otherwise.elim rest .otherwise)

/-- One turn of the loop over the arms of a condition, after the word of a tag. -/
def branchTurn (expression : Run Expr) (block : List TokenKind → Run (Body × TokenKind)) :
    Arms × TokenKind → Run (Arms × TokenKind ⊕ Arms)
  | (arms, .elifWord) => do
    let condition ← expression
    let _ ← expect last .stmtClose
    let (body, word) ← block [.elifWord, .elseWord, .endifWord]
    return .inl ({ arms with further := arms.further ++ [(condition, body)] }, word)
  | (arms, .elseWord) => do
    let _ ← expect last .stmtClose
    let (body, word) ← block [.endifWord]
    return .inl ({ arms with otherwise := some body }, word)
  | (arms, _) => do
    let _ ← expect last .stmtClose
    return .inr arms

/-- Reads the arms of a condition from the word of the tag that ended its body. -/
def alternatives (limit : Nat) (expression : Run Expr) (block : List TokenKind → Run (Body × TokenKind))
    (word : TokenKind) : Run Alternative := do
  let arms ← repeatTurns .branches (branchTurn last expression block) limit ({}, word)
  return arms.before .nothing

mutual

/-- Reads nodes up to the end of the tokens, or through the word of a tag in `ends`. -/
def nodes : Nat → List TokenKind → Run (List Node × Option TokenKind)
  | 0, _ => Run.stuck
  | limit + 1, ends => repeatTurns .nodes (nodeTurn last ends (expression last limit) (statement limit)) limit []

/-- Reads the body of a block through the word of the tag that ends it. -/
def block : Nat → List TokenKind → Run (Body × TokenKind)
  | 0, _ => Run.stuck
  | limit + 1, ends => do
    let position := (← peek last).start
    match ← nodes limit ends with
    | (body, some word) => return (⟨position, body⟩, word)
    | (_, none) => unexpected last (Parser.describeEnds ends)

/-- Reads a statement through the tag that ends it. -/
def statement : Nat → Run Node
  | 0 => Run.stuck
  | limit + 1 => do
    let keyword ← advance last
    match keyword.kind with
    | .ifWord => branch limit keyword.start
    | .forWord => forLoop limit keyword.start
    | .macroWord => macroDef limit keyword.start
    | .setWord => assignment last limit keyword.start
    | _ => Run.refuse keyword "statement keyword (`if`, `for`, `macro` or `set`)"

/-- Reads a condition after its keyword. -/
def branch : Nat → Position → Run Node
  | 0, _ => Run.stuck
  | limit + 1, position => do
    let condition ← expression last limit
    let _ ← expect last .stmtClose
    let (body, word) ← block limit [.elifWord, .elseWord, .endifWord]
    let rest ← alternatives last limit (expression last limit) (block limit) word
    return .branch position condition body rest

/-- Reads a loop after its keyword. -/
def forLoop : Nat → Position → Run Node
  | 0, _ => Run.stuck
  | limit + 1, position => do
    let names ← targets last
    let _ ← expect last .inWord
    let iterable ← expression last limit
    let _ ← expect last .stmtClose
    let (body, _) ← block limit [.endforWord]
    let _ ← expect last .stmtClose
    return .loop position names iterable body

/-- Reads a macro after its keyword. -/
def macroDef : Nat → Position → Run Node
  | 0, _ => Run.stuck
  | limit + 1, position => do
    let name ← expect last .identifier
    let _ ← expect last .leftParen
    let given ← parameters last limit
    let _ ← expect last .stmtClose
    let (body, _) ← block limit [.endmacroWord]
    let _ ← expect last .stmtClose
    return .macroDef ⟨position, name.text, given, body⟩

end

/-- Reads the body of a template. -/
def body (limit : Nat) : Run Body := do
  let position := (← peek last).start
  let (nodes, _) ← nodes last limit []
  return ⟨position, nodes⟩

/-- The end token that the cursor cannot leave. -/
def final (tokens : List Token) : Token :=
  (Token.terminated tokens).getLast?.getD ⟨.eof, "", ⟨0, 0⟩⟩

/-- Parses tokens within a limit, after an end token has been put behind tokens that do not end in one. -/
def parse (limit : Nat) (tokens : List Token) : Outcome Body :=
  body (final tokens) limit { left := (Token.terminated tokens).dropLast }

end TemplatedSql.Tape
