/-!
# Finding one text in another

Occurrences of a text are looked for from the left and do not overlap. A text cut at the occurrences
of a separator, and joined by it again, is the text.
-/

namespace TemplatedSql.Text

/-- Whether `part` occurs in a text. -/
def contains (part : List Char) : List Char → Bool
  | [] => part.isEmpty
  | c :: cs => part.isPrefixOf (c :: cs) || contains part cs

/-- Cuts a text at each occurrence of `sep`. `skip` characters still belong to the occurrence found
last, and `part` is what was read since, last character first. -/
def splitFrom (sep : List Char) : Nat → List Char → List Char → List (List Char)
  | _, part, [] => [part.reverse]
  | skip + 1, part, _ :: cs => splitFrom sep skip part cs
  | 0, part, c :: cs =>
    if sep.isPrefixOf (c :: cs) then part.reverse :: splitFrom sep (sep.length - 1) [] cs
    else splitFrom sep 0 (c :: part) cs

/-- The parts of a text between the occurrences of a non-empty separator. -/
def split (sep cs : List Char) : List (List Char) :=
  splitFrom sep 0 [] cs

/-- The parts with the separator between them. -/
def join (sep : List Char) (parts : List (List Char)) : List Char :=
  sep.intercalate parts

/-- The text with `new` in place of each occurrence of `old`. The empty text occurs before every
character and at the end. -/
def replace (old new cs : List Char) : List Char :=
  if old.isEmpty then new ++ cs.flatMap fun c => c :: new else join new (split old cs)

/-- The text without the characters of `drop` at either end. -/
def stripAny (drop cs : List Char) : List Char :=
  ((cs.dropWhile drop.contains).reverse.dropWhile drop.contains).reverse

end TemplatedSql.Text
