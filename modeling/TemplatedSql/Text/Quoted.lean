/-!
# Quoted text

A string literal stands between two equal quotes, and a backslash gives the character after it:
`\n` is a line feed, `\t` a tab, and any other character stands for itself. Reading ends at the first
quote that no backslash precedes. A backslash directly before a line feed is no escape, so a literal
that holds one cannot be closed. Writing always uses the single quote.
-/

namespace TemplatedSql.Text

/-- The character that a backslash and `c` stand for. -/
def unescape (c : Char) : Char :=
  if c = 'n' then '\n' else if c = 't' then '\t' else c

/-- Reads the body of a literal through its closing quote `q`: the text it stands for and the number
of characters read, or nothing if the literal is not closed. -/
def readQuoted (q : Char) : List Char → Option (List Char × Nat)
  | [] => none
  | ['\\'] => none
  | '\\' :: d :: cs =>
    if d = '\n' then none else (readQuoted q cs).map fun r => (unescape d :: r.1, r.2 + 2)
  | c :: cs =>
    if c = q then some ([], 1) else (readQuoted q cs).map fun r => (c :: r.1, r.2 + 1)

/-- How `c` is written between single quotes. -/
def escape (c : Char) : List Char :=
  if c = '\\' then ['\\', '\\']
  else if c = '\'' then ['\\', '\'']
  else if c = '\n' then ['\\', 'n']
  else if c = '\t' then ['\\', 't']
  else [c]

/-- A text between single quotes, with its special characters escaped. -/
def quoted (cs : List Char) : List Char :=
  '\'' :: (cs.flatMap escape ++ ['\''])

/-- A text written between single quotes. -/
def quote (s : String) : String :=
  String.ofList (quoted s.toList)

/-- Reading gives back the text that was written, and stops right after its closing quote. -/
theorem readQuoted_escape (cs rest : List Char) :
    readQuoted '\'' (cs.flatMap escape ++ '\'' :: rest) =
      some (cs, (cs.flatMap escape).length + 1) := by
  induction cs with
  | nil => simp [readQuoted]
  | cons c cs ih =>
    simp only [List.flatMap_cons, List.append_assoc, List.length_append]
    by_cases h₁ : c = '\\'
    · subst h₁; simp [escape, readQuoted, ih, unescape, Nat.add_comm, Nat.add_left_comm]
    by_cases h₂ : c = '\''
    · subst h₂; simp [escape, readQuoted, ih, unescape, Nat.add_comm, Nat.add_left_comm]
    by_cases h₃ : c = '\n'
    · subst h₃; simp [escape, readQuoted, ih, unescape, Nat.add_comm, Nat.add_left_comm]
    by_cases h₄ : c = '\t'
    · subst h₄; simp [escape, readQuoted, ih, unescape, Nat.add_comm, Nat.add_left_comm]
    · simp [escape, readQuoted, h₁, h₂, h₃, h₄, ih, Nat.add_comm]

end TemplatedSql.Text
