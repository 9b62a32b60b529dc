import TemplatedSql.Toml.Scalar
import TemplatedSql.Toml.Text
import TemplatedSql.Toml.Tree

/-!
# TOML statements

A document is a list of statements: the header of a table, the header of one more table of an array,
and a value given to a key. Each has a line of its own, perhaps with a comment after it; only arrays and
long strings go over line ends. Arrays and inline tables nest to a limit.
-/

namespace TemplatedSql.Toml

/-- A line of a document. -/
inductive Statement
  | header (path : List String)
  | arrayHeader (path : List String)
  | assign (path : List String) (value : Value)

/-- How many arrays and inline tables may be open at once. -/
def maxNesting : Nat := 79

/-- How many parts a key may have. -/
def maxKeyParts : Nat := 79

/-- The text without the spaces, line ends and comments at its start. -/
def skipLines : List Char → List Char
  | [] => []
  | '\r' :: '\n' :: cs => skipLines cs
  | c :: cs =>
    if isSpace c || c == '\n' then skipLines cs
    else if c = '#' then skipLines (cs.dropWhile isPlain)
    else c :: cs
termination_by cs => cs.length
decreasing_by
  all_goals have := (List.dropWhile_sublist (l := cs) isPlain).length_le
  all_goals simp only [List.length_cons]; omega

/-- Reads a key and the sign after it. -/
def keyBefore? (sign : Char) (cs : List Char) : Option (List String × List Char) := do
  let (path, rest) ← key? maxKeyParts cs
  if rest.head? = some sign then some (path, rest.tail) else none

mutual

/-- Reads a value. `room` more arrays and inline tables may be opened in it. -/
def value? (room : Nat) : Nat → List Char → Option (Value × List Char)
  | 0, _ => none
  | fuel + 1, cs =>
    match cs with
    | '"' :: _ | '\'' :: _ => (string? cs).map fun (s, rest) => (.string s, rest)
    | 't' :: 'r' :: 'u' :: 'e' :: rest => some (.boolean true, rest)
    | 'f' :: 'a' :: 'l' :: 's' :: 'e' :: rest => some (.boolean false, rest)
    | '[' :: rest =>
      if room = 0 then none
      else (items? (room - 1) fuel (skipLines rest)).map fun (vs, rest) => (.array vs, rest)
    | '{' :: rest =>
      if room = 0 then none
      else do
        let (pairs, rest) ←
          match skipSpaces rest with
          | '}' :: rest => some ([], rest)
          | rest => pairs? (room - 1) fuel rest
        let entries ← pairs.foldlM (fun entries (path, v) => Entries.assign path v entries) []
        some (.table (Entries.close entries), rest)
    | _ => scalar? cs

/-- Reads the items of an array up to its end. -/
def items? (room : Nat) : Nat → List Char → Option (List Value × List Char)
  | 0, _ => none
  | fuel + 1, cs =>
    match cs with
    | ']' :: rest => some ([], rest)
    | _ => do
      let (v, rest) ← value? room fuel cs
      match skipLines rest with
      | ']' :: rest => some ([v], rest)
      | ',' :: rest => do
        let (vs, rest) ← items? room fuel (skipLines rest)
        some (v :: vs, rest)
      | _ => none

/-- Reads the entries of an inline table up to its end. -/
def pairs? (room : Nat) : Nat → List Char → Option (List (List String × Value) × List Char)
  | 0, _ => none
  | fuel + 1, cs => do
    let (path, rest) ← keyBefore? '=' cs
    let (v, rest) ← value? room fuel (skipSpaces rest)
    match skipSpaces rest with
    | '}' :: rest => some ([(path, v)], rest)
    | ',' :: rest => do
      let (pairs, rest) ← pairs? room fuel rest
      some ((path, v) :: pairs, rest)
    | _ => none

end

namespace Statement

/-- Reads a statement. -/
def read? (cs : List Char) : Option (Statement × List Char) := do
  match cs with
  | '[' :: '[' :: rest =>
    let (path, rest) ← keyBefore? ']' rest
    if rest.head? = some ']' then some (arrayHeader path, rest.tail) else none
  | '[' :: rest =>
    let (path, rest) ← keyBefore? ']' rest
    some (header path, rest)
  | _ =>
    let (path, rest) ← keyBefore? '=' cs
    let (v, rest) ← value? maxNesting (rest.length + 1) (skipSpaces rest)
    some (assign path v, rest)

/-- Reads the statements of a text, line by line. -/
def readAll? : Nat → List Char → Option (List Statement)
  | 0, _ => none
  | fuel + 1, cs => do
    let cs := skipSpaces cs
    let (statements, rest) ←
      match cs with
      | [] | '\n' :: _ | '\r' :: _ | '#' :: _ => some ([], cs)
      | _ => (read? cs).map fun (s, rest) => ([s], rest)
    match skipTrailing rest with
    | [] => some statements
    | rest =>
      let following ← readAll? fuel (← newline? rest)
      some (statements ++ following)

/-- The statements of a document, which may start with a byte order mark. -/
def ofSource? (source : String) : Option (List Statement) :=
  let cs :=
    match source.toList with
    | '\uFEFF' :: cs => cs
    | cs => cs
  readAll? (cs.length + 1) cs

end Statement

end TemplatedSql.Toml
