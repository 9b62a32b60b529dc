import TemplatedSql.Text.CaseTable

/-!
# Upper and lower case

Every character has its own upper-case and lower-case text, of one or more characters. The one
mapping that looks at its surroundings is that of the capital sigma: it ends a word in lower case as a
final sigma, and is a plain sigma elsewhere.
-/

namespace TemplatedSql.Text

/-- The code point that a table of runs maps `n` to. -/
def CaseRun.find? (runs : List CaseRun) (n : Nat) : Option Nat :=
  runs.findSome? fun r =>
    if r.first ≤ n ∧ n ≤ r.last ∧ (n - r.first) % r.step = 0 then some ((n : Int) + r.shift).toNat else none

/-- The text that the tables map `c` to; a character that they do not hold stays. -/
def mapCase (expansions : List (Nat × List Nat)) (runs : List CaseRun) (c : Char) : List Char :=
  match expansions.lookup c.toNat with
  | some ns => ns.map Char.ofNat
  | none => [((CaseRun.find? runs c.toNat).map Char.ofNat).getD c]

/-- The upper-case text of a character. -/
def upperChar (c : Char) : List Char :=
  if c.toNat < 128 then [c.toUpper] else mapCase upperExpansions upperRuns c

/-- The lower-case text of a character. -/
def lowerChar (c : Char) : List Char :=
  if c.toNat < 128 then [c.toLower] else mapCase lowerExpansions lowerRuns c

/-- Whether a code point lies in one of the ranges. -/
def inRanges (ranges : List (Nat × Nat)) (c : Char) : Bool :=
  ranges.any fun r => r.1 ≤ c.toNat && c.toNat ≤ r.2

/-- Whether the first character that is not skipped is a letter with case. -/
def startsCased (cs : List Char) : Bool :=
  match cs.dropWhile (inRanges caseIgnorableRanges) with
  | [] => false
  | c :: _ => inRanges casedRanges c

/-- The upper-case text of a text. -/
def upper (cs : List Char) : List Char :=
  cs.flatMap upperChar

/-- The lower-case text of what follows `before`, which is given last character first. -/
def lowerAfter (before : List Char) : List Char → List Char
  | [] => []
  | c :: cs =>
    let final := c == 'Σ' && startsCased before && !startsCased cs
    (if final then ['ς'] else lowerChar c) ++ lowerAfter (c :: before) cs

/-- The lower-case text of a text. -/
def lower (cs : List Char) : List Char :=
  lowerAfter [] cs

end TemplatedSql.Text
