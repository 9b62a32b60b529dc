import TemplatedSql.Number.Decimal
import TemplatedSql.Text.Quoted
import TemplatedSql.Token

/-!
# The tokens inside a tag

Inside a tag the token taken is the longest one that starts at the place: a word, a number, a quoted
string or a symbol. The symbols are a table with the longer ones first, so its first entry that fits
is the longest. A word is a keyword only as a whole.
-/

namespace TemplatedSql

/-- Why a text cannot be cut into tokens. -/
inductive LexFault
  | unexpected (c : Char)
  | unterminatedString
  | invalidNumber (text : String)
  | unterminatedComment
  | unterminatedTag (close : TokenKind)
  | wrongClose (close : TokenKind) (opened : Position) (found : String)
deriving DecidableEq

/-- The wording of a fault. -/
def LexFault.reason : LexFault → String
  | unexpected c => s!"unexpected character `{c}`"
  | unterminatedString => "unterminated string literal"
  | invalidNumber text => s!"invalid numeric literal `{text}`"
  | unterminatedComment => "unterminated comment, expected `#\x7d`"
  | unterminatedTag close => s!"unterminated tag, expected {close.describe}"
  | wrongClose close opened found =>
    s!"expected {close.describe} to close the tag opened at {opened.text}, found `{found}`"

/-- The symbols, longer ones first. -/
def symbols : List (List Char × TokenKind) :=
  [ (['-', '}', '}'], .exprClose), (['-', '%', '}'], .stmtClose),
    (['}', '}'], .exprClose), (['%', '}'], .stmtClose),
    (['=', '='], .eq), (['!', '='], .notEq), (['<', '='], .ltEq), (['>', '='], .gtEq),
    (['<'], .lt), (['>'], .gt), (['+'], .plus), (['-'], .minus), (['*'], .star), (['/'], .slash),
    (['%'], .percent), (['('], .leftParen), ([')'], .rightParen), (['['], .leftBracket),
    ([']'], .rightBracket), ([','], .comma), (['='], .assign), (['.'], .dot) ]

/-- The words with a meaning of their own. -/
def keywords : List (String × TokenKind) :=
  [ ("if", .ifWord), ("elif", .elifWord), ("else", .elseWord), ("endif", .endifWord),
    ("for", .forWord), ("endfor", .endforWord), ("macro", .macroWord), ("endmacro", .endmacroWord),
    ("set", .setWord), ("and", .andWord), ("or", .orWord), ("not", .notWord), ("in", .inWord),
    ("true", .trueWord), ("True", .trueWord), ("false", .falseWord), ("False", .falseWord) ]

/-- The kind of a word: its own if it is a keyword. -/
def wordKind (word : String) : TokenKind :=
  (keywords.lookup word).getD .identifier

/-- Whether a word can start with `c`. Words are ASCII. -/
def isWordStart (c : Char) : Bool :=
  c.isAlpha || c == '_'

/-- Whether a word can go on with `c`. -/
def isWordPart (c : Char) : Bool :=
  c.isAlphanum || c == '_'

/-- Whether a number can go on with `c`: letters too, so that a bad number is reported whole. -/
def isNumberPart (c : Char) : Bool :=
  isWordPart c || c == '.'

/-- Whether `c` separates the tokens of a tag. -/
def isGap (c : Char) : Bool :=
  c == ' ' || c == '\t' || c == '\r' || c == '\n' || c == '\x0c'

/-- A token found inside a tag: its kind, its text, and how many characters it has after its first. -/
structure Lexeme where
  kind : TokenKind
  text : String
  extra : Nat
deriving DecidableEq

/-- The longest token that starts with `c` and goes on into `cs`. -/
def lexeme (c : Char) (cs : List Char) : Except LexFault Lexeme :=
  if isWordStart c then
    let part := cs.takeWhile isWordPart
    let word := String.ofList (c :: part)
    .ok ⟨wordKind word, word, part.length⟩
  else if c.isDigit then
    let part := cs.takeWhile isNumberPart
    let number := String.ofList (c :: part)
    if (Number.ofString? number).isSome then .ok ⟨.number, number, part.length⟩
    else .error (.invalidNumber number)
  else if c = '"' ∨ c = '\'' then
    match Text.readQuoted c cs with
    | some (body, size) => .ok ⟨.string, String.ofList body, size⟩
    | none => .error .unterminatedString
  else
    match symbols.find? fun s => s.1.isPrefixOf (c :: cs) with
    | some (symbol, kind) => .ok ⟨kind, String.ofList symbol, symbol.length - 1⟩
    | none => .error (.unexpected c)

end TemplatedSql
