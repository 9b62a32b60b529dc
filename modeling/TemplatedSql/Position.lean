/-!
# Positions in a source text

A position is a line and a column, both counted from one. A line ends at a line feed and at nothing
else, and a column counts characters, so a position is found by reading the text before it once.
-/

namespace TemplatedSql

/-- The place of a character in a text. -/
structure Position where
  line : Nat
  column : Nat
deriving DecidableEq

namespace Position

/-- The place of the first character. -/
def start : Position := ⟨1, 1⟩

/-- The place of the character that follows `c` at `p`. -/
def next (p : Position) (c : Char) : Position :=
  if c = '\n' then ⟨p.line + 1, 1⟩ else ⟨p.line, p.column + 1⟩

/-- The place reached from `p` by reading `cs`. -/
def after (p : Position) (cs : List Char) : Position :=
  cs.foldl next p

/-- Written as line, colon, column. -/
def text (p : Position) : String :=
  s!"{p.line}:{p.column}"

@[simp] theorem after_nil (p : Position) : p.after [] = p := rfl

@[simp] theorem after_cons (p : Position) (c : Char) (cs : List Char) :
    p.after (c :: cs) = (p.next c).after cs := rfl

/-- Reading two texts one after the other reads their concatenation. -/
theorem after_append (p : Position) (cs ds : List Char) :
    p.after (cs ++ ds) = (p.after cs).after ds :=
  List.foldl_append

end Position

end TemplatedSql
