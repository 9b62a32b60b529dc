/-!
# Strings and keys of TOML

A basic string has escapes and a literal one has none; either may span several lines between three
quotes, where a first line end is dropped and a line end is always a line feed. Control characters
other than the tab are refused. A key is a run of plain characters or a string on one line.
-/

namespace TemplatedSql.Toml

/-- Whether `c` may stand in a string or a comment. -/
def isPlain (c : Char) : Bool :=
  c == '\t' || (0x20 ≤ c.toNat && c.toNat != 0x7f)

/-- Takes a line end off. -/
def newline? : List Char → Option (List Char)
  | '\n' :: cs => some cs
  | '\r' :: '\n' :: cs => some cs
  | _ => none

/-- Whether `c` separates words on a line. -/
def isSpace (c : Char) : Bool :=
  c == ' ' || c == '\t'

/-- The text without the spaces at its start. -/
def skipSpaces (cs : List Char) : List Char :=
  cs.dropWhile isSpace

/-- The value of a run of hexadecimal digits. -/
def hexValue? (cs : List Char) : Option Nat :=
  cs.foldlM (fun n c =>
    if c.isDigit then some (16 * n + (c.toNat - 48))
    else if 'a' ≤ c.toLower && c.toLower ≤ 'f' then some (16 * n + (c.toLower.toNat - 87))
    else none) 0

/-- The character of a code point written in `size` hexadecimal digits. -/
def codePoint? (size : Nat) (cs : List Char) : Option (Char × List Char) := do
  if cs.length < size then none
  else
    let n ← hexValue? (cs.take size)
    if n.isValidChar then some (.ofNat n, cs.drop size) else none

/-- The character that an escape stands for, from the character after its backslash on. -/
def escape? : List Char → Option (Char × List Char)
  | 'b' :: cs => some ('\x08', cs)
  | 't' :: cs => some ('\t', cs)
  | 'n' :: cs => some ('\n', cs)
  | 'f' :: cs => some ('\x0c', cs)
  | 'r' :: cs => some ('\r', cs)
  | '"' :: cs => some ('"', cs)
  | '\\' :: cs => some ('\\', cs)
  | 'u' :: cs => codePoint? 4 cs
  | 'U' :: cs => codePoint? 8 cs
  | _ => none

/-- Whether a backslash ends the line, so that all blanks and line ends after it are skipped. -/
def skipLineEnd? (cs : List Char) : Option (List Char) := do
  let rest ← newline? (skipSpaces cs)
  some (rest.dropWhile fun c => isSpace c || c == '\n' || c == '\r')

/-- Reads the rest of a string on one line: `quote` ends it, and `escapes` says whether a backslash is
special. -/
def lineString? (quote : Char) (escapes : Bool) : Nat → List Char → Option (List Char × List Char)
  | 0, _ => none
  | _, [] => none
  | fuel + 1, c :: cs =>
    if c = quote then some ([], cs)
    else if escapes && c == '\\' then do
      let (d, rest) ← escape? cs
      let (text, rest) ← lineString? quote escapes fuel rest
      some (d :: text, rest)
    else if isPlain c then do
      let (text, rest) ← lineString? quote escapes fuel cs
      some (c :: text, rest)
    else none

/-- Reads the rest of a string that may span lines. Up to two quotes may stand in it, also right before
its end. -/
def linesString? (quote : Char) (escapes : Bool) : Nat → List Char → Option (List Char × List Char)
  | 0, _ => none
  | _, [] => none
  | fuel + 1, c :: cs =>
    if c = quote then
      let run := (c :: cs).takeWhile (· == quote)
      let rest := (c :: cs).drop run.length
      if run.length < 3 then do
        let (text, rest) ← linesString? quote escapes fuel rest
        some (run ++ text, rest)
      else if run.length ≤ 5 then some (run.drop 3, rest)
      else none
    else if escapes && c == '\\' then
      match skipLineEnd? cs with
      | some rest => linesString? quote escapes fuel rest
      | none => do
        let (d, rest) ← escape? cs
        let (text, rest) ← linesString? quote escapes fuel rest
        some (d :: text, rest)
    else
      match newline? (c :: cs) with
      | some rest => do
        let (text, rest) ← linesString? quote escapes fuel rest
        some ('\n' :: text, rest)
      | none =>
        if isPlain c then do
          let (text, rest) ← linesString? quote escapes fuel cs
          some (c :: text, rest)
        else none

/-- Reads a string of any form. -/
def string? (cs : List Char) : Option (String × List Char) := do
  let lines (quote : Char) (body : List Char) : Option (List Char × List Char) :=
    linesString? quote (quote == '"') (body.length + 1) ((newline? body).getD body)
  let (text, rest) ←
    match cs with
    | '"' :: '"' :: '"' :: body => lines '"' body
    | '\'' :: '\'' :: '\'' :: body => lines '\'' body
    | '"' :: body => lineString? '"' true (body.length + 1) body
    | '\'' :: body => lineString? '\'' false (body.length + 1) body
    | _ => none
  some (.ofList text, rest)

/-- Whether `c` may stand in a key without quotes. -/
def isKeyPart (c : Char) : Bool :=
  c.isAlphanum || c == '_' || c == '-'

/-- Reads one part of a key. -/
def keyPart? (cs : List Char) : Option (String × List Char) := do
  let (text, rest) ←
    match cs with
    | '"' :: body => lineString? '"' true (body.length + 1) body
    | '\'' :: body => lineString? '\'' false (body.length + 1) body
    | _ =>
      let run := cs.takeWhile isKeyPart
      if run.isEmpty then none else some (run, cs.drop run.length)
  some (.ofList text, rest)

/-- Reads the parts of a key, at most `fuel`, with points and perhaps spaces between them. -/
def key? : Nat → List Char → Option (List String × List Char)
  | 0, _ => none
  | fuel + 1, cs => do
    let (part, rest) ← keyPart? (skipSpaces cs)
    match skipSpaces rest with
    | '.' :: rest => do
      let (parts, rest) ← key? fuel rest
      some (part :: parts, rest)
    | rest => some ([part], rest)

/-- The text after a comment, if one starts it. -/
def skipComment? : List Char → Option (List Char)
  | '#' :: cs => some (cs.dropWhile isPlain)
  | _ => none

/-- The text without the spaces and the comment at its start. -/
def skipTrailing (cs : List Char) : List Char :=
  let rest := skipSpaces cs
  (skipComment? rest).getD rest

end TemplatedSql.Toml
