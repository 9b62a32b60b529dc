import TemplatedSql.Position

/-!
# Tokens

A template is cut into tokens of two sorts: what stands outside tags (text, white space that a tag
asks to drop, comments) and what stands inside them (delimiters, words, literals and operators).
-/

namespace TemplatedSql

/-- The kinds of token. -/
inductive TokenKind
  | text
  | trimmedWhitespace
  | comment
  | exprOpen
  | exprClose
  | stmtOpen
  | stmtClose
  | identifier
  | string
  | number
  | trueWord
  | falseWord
  | ifWord
  | elifWord
  | elseWord
  | endifWord
  | forWord
  | endforWord
  | macroWord
  | endmacroWord
  | setWord
  | andWord
  | orWord
  | notWord
  | inWord
  | eq
  | notEq
  | lt
  | ltEq
  | gt
  | gtEq
  | plus
  | minus
  | star
  | slash
  | percent
  | leftParen
  | rightParen
  | leftBracket
  | rightBracket
  | comma
  | assign
  | dot
  | eof
deriving DecidableEq

namespace TokenKind

/-- The one text that every token of the kind has, where the kind has one. -/
def spelling? : TokenKind → Option String
  | text | trimmedWhitespace | comment | identifier | string | number | eof => none
  | exprOpen => "\x7b\x7b"
  | exprClose => "\x7d\x7d"
  | stmtOpen => "\x7b%"
  | stmtClose => "%\x7d"
  | trueWord => "true"
  | falseWord => "false"
  | ifWord => "if"
  | elifWord => "elif"
  | elseWord => "else"
  | endifWord => "endif"
  | forWord => "for"
  | endforWord => "endfor"
  | macroWord => "macro"
  | endmacroWord => "endmacro"
  | setWord => "set"
  | andWord => "and"
  | orWord => "or"
  | notWord => "not"
  | inWord => "in"
  | eq => "=="
  | notEq => "!="
  | lt => "<"
  | ltEq => "<="
  | gt => ">"
  | gtEq => ">="
  | plus => "+"
  | minus => "-"
  | star => "*"
  | slash => "/"
  | percent => "%"
  | leftParen => "("
  | rightParen => ")"
  | leftBracket => "["
  | rightBracket => "]"
  | comma => ","
  | assign => "="
  | dot => "."

/-- How messages name the kind: its spelling between backquotes, or a description. -/
def describe (k : TokenKind) : String :=
  match k.spelling? with
  | some s => s!"`{s}`"
  | none =>
    match k with
    | text => "template text"
    | trimmedWhitespace => "whitespace"
    | comment => "comment"
    | identifier => "identifier"
    | string => "string"
    | number => "number"
    | _ => "end of input"

end TokenKind

/-- A token: its kind, its text as written (for a string, the text it stands for) and the place of its
first character. -/
structure Token where
  kind : TokenKind
  text : String
  start : Position
deriving DecidableEq

namespace Token

/-- How messages name the token: kinds with many spellings show theirs. -/
def describe (t : Token) : String :=
  match t.kind with
  | .identifier => s!"identifier `{t.text}`"
  | .string => s!"string '{t.text}'"
  | .number => s!"number `{t.text}`"
  | k => k.describe

end Token

end TemplatedSql
