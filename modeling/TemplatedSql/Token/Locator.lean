import TemplatedSql.Position

/-!
# Finding places in a source

A place in a source is asked for by its offset, which is how many bytes stand before it. Questions mostly
go forward through a source, so the locator keeps the last answer and the text from there on, and reads
only what lies between. A question about a place before that is answered from the start of its line.
-/

namespace TemplatedSql

namespace Text

/-- How many bytes a text takes up in UTF-8. -/
def byteCount : List Char → Nat
  | [] => 0
  | c :: cs => c.utf8Size + byteCount cs

/-- The characters in the first bytes of a text. -/
def takeBytes : Nat → List Char → List Char
  | _, [] => []
  | n, c :: cs => if n = 0 then [] else c :: takeBytes (n - c.utf8Size) cs

/-- The characters after the first bytes of a text. -/
def dropBytes : Nat → List Char → List Char
  | _, [] => []
  | n, c :: cs => if n = 0 then c :: cs else dropBytes (n - c.utf8Size) cs

/-- The characters after the last line feed of a text. -/
def lastLine (cs : List Char) : List Char :=
  (cs.reverse.takeWhile (· != '\n')).reverse

end Text

/-- The place reached from `p` over a text, by counting in the text as a whole. -/
def Position.skip (p : Position) (text : List Char) : Position :=
  if text.contains '\n' then ⟨p.line + text.count '\n', (Text.lastLine text).length + 1⟩
  else ⟨p.line, p.column + text.length⟩

/-- A place that was asked for, and the text from there on. -/
structure Cursor where
  offset : Nat
  position : Position
  rest : List Char

/-- What answers questions about the places in a source. -/
structure Locator where
  source : List Char
  /-- The offsets at which the lines start. -/
  lineStarts : List Nat
  cursor : Cursor

namespace Locator

/-- The offsets right after the line feeds of a text that starts at an offset. -/
def lineStartsFrom (offset : Nat) : List Char → List Nat
  | [] => []
  | c :: cs =>
    let next := offset + c.utf8Size
    if c = '\n' then next :: lineStartsFrom next cs else lineStartsFrom next cs

/-- The locator of a source, before the first question. -/
def ofSource (source : List Char) : Locator where
  source := source
  lineStarts := 0 :: lineStartsFrom 0 source
  cursor := ⟨0, .start, source⟩

/-- The position of an offset, counted from the start of its line. -/
def recount (l : Locator) (offset : Nat) : Position :=
  let line := (l.lineStarts.takeWhile (· ≤ offset)).length
  let lineStart := l.lineStarts.getD (line - 1) 0
  ⟨line, (Text.takeBytes (offset - lineStart) (Text.dropBytes lineStart l.source)).length + 1⟩

/-- The position of an offset, and the locator after the question. -/
def locate (l : Locator) (offset : Nat) : Position × Locator :=
  if offset < l.cursor.offset then (l.recount offset, l)
  else
    let ahead := offset - l.cursor.offset
    let position := l.cursor.position.skip (Text.takeBytes ahead l.cursor.rest)
    (position, { l with cursor := ⟨offset, position, Text.dropBytes ahead l.cursor.rest⟩ })

end Locator

end TemplatedSql
