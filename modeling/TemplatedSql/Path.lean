import TemplatedSql.Text.Search

/-!
# Paths

A path is a text cut at its slashes. Empty pieces and points say nothing, except that a slash or a point
at the very start does; what is left are the components. Paths are compared by their components and shown
as they were given. A file is looked up by the names in its path, the last one without its extension.
-/

namespace TemplatedSql

/-- A step of a path. -/
inductive Component
  | root
  | current
  | parent
  | name (text : String)
deriving DecidableEq

namespace Component

/-- The order of the kinds of components. -/
def rank : Component → Nat
  | root => 0
  | current => 1
  | parent => 2
  | name _ => 3

/-- Compares components: by their kinds, and names by their characters. -/
def order : Component → Component → Ordering
  | name a, name b => compare a b
  | a, b => compare a.rank b.rank

/-- The name that a component is. -/
def name? : Component → Option String
  | name text => some text
  | _ => none

end Component

/-- A path as it was given. -/
structure Path where
  text : String

/-- A file name without its extension, and the extension after the last point. A point at the start does
not count. -/
def splitExtension (name : String) : String × Option String :=
  let cs := name.toList
  let ending := (cs.reverse.takeWhile (· != '.')).reverse
  let stem := cs.take (cs.length - ending.length - 1)
  if stem.isEmpty || ending.length = cs.length then (name, none) else (.ofList stem, some (.ofList ending))

namespace Path

/-- The texts between the slashes. -/
def pieces (p : Path) : List String :=
  (Text.split ['/'] p.text.toList).map .ofList

/-- Whether a piece leads nowhere. -/
def isVoid (piece : String) : Bool :=
  piece.isEmpty || piece == "."

/-- Whether a path starts at the root of the file system. -/
def isAbsolute (p : Path) : Bool :=
  p.text.startsWith '/'

/-- The component that a piece is. -/
def component? (piece : String) : Option Component :=
  if isVoid piece then none else if piece = ".." then some .parent else some (.name piece)

/-- The components of a path. -/
def components (p : Path) : List Component :=
  let start :=
    if p.isAbsolute then [.root] else if p.pieces.head? = some "." then [.current] else []
  start ++ p.pieces.filterMap component?

/-- Compares paths by their components. -/
def order (p q : Path) : Ordering :=
  List.compareLex Component.order p.components q.components

/-- The last component, if it is a name. -/
def fileName? (p : Path) : Option String :=
  p.components.getLast?.bind Component.name?

/-- The file name without its extension. -/
def stem (p : Path) : String :=
  p.fileName?.elim "" fun n => (splitExtension n).1

/-- The extension of the file name. -/
def extension? (p : Path) : Option String :=
  p.fileName?.bind fun n => (splitExtension n).2

/-- The names that a file is looked up by: those in its path, where the stem stands for the file name. A
stem of one or two points is no name. -/
def lookup (p : Path) : List String :=
  let names := p.components.filterMap Component.name?
  if p.fileName?.isSome then names.dropLast ++ [p.stem].filter fun s => s != "." && s != ".." else names

/-- The names that a file is looked up by, with slashes between them. -/
def lookupText (p : Path) : String :=
  "/".intercalate p.lookup

/-- A path inside another. -/
def join (p q : Path) : Path :=
  if q.isAbsolute || p.text.isEmpty then q
  else if p.text.endsWith '/' then ⟨p.text ++ q.text⟩
  else ⟨p.text ++ "/" ++ q.text⟩

/-- The pieces without the first so many that lead somewhere. -/
def dropPieces : Nat → List String → List String
  | 0, ps => ps
  | n + 1, ps => dropPieces n (ps.dropWhile isVoid).tail

/-- The pieces of a path after those of another that it starts with. -/
def below? (p base : Path) : Option (List String) :=
  if base.components.isPrefixOf p.components then
    some (dropPieces (base.pieces.filterMap component?).length p.pieces)
  else none

/-- A path as seen from another: without the other, if it starts with it. -/
def relativeTo (p base : Path) : Path :=
  if base.components.isEmpty then p
  else
    match p.below? base with
    | none => p
    | some rest => ⟨"/".intercalate (rest.dropWhile isVoid)⟩

/-- The path of the directory that a file stands in. -/
def directory (p : Path) : Path :=
  let ending (ps : List String) : List String := (ps.reverse.dropWhile isVoid).reverse
  let kept := ending (ending p.pieces).dropLast
  if kept.isEmpty then ⟨if p.isAbsolute then "/" else if p.pieces.head? = some "." then "." else ""⟩
  else ⟨"/".intercalate kept⟩

end Path

end TemplatedSql
