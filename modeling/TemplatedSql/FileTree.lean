import TemplatedSql.Path

/-!
# File trees

The files below a working directory. A path is followed piece by piece from the working directory; a
path that leaves it leads nowhere. The files of a directory are listed in the order of their names.
-/

namespace TemplatedSql

/-- Why a file cannot be read. -/
inductive ReadError
  | missing
  | notDirectory
  | isDirectory
  | notText
deriving DecidableEq

/-- The wording of an error. -/
def ReadError.message : ReadError → String
  | missing => "No such file or directory (os error 2)"
  | notDirectory => "Not a directory (os error 20)"
  | isDirectory => "Is a directory (os error 21)"
  | notText => "stream did not contain valid UTF-8"

/-- A file, with its text if it is one, or a directory. -/
inductive FileTree
  | file (text : Option String)
  | directory (entries : List (String × FileTree))

namespace FileTree

/-- What a directory holds under a name. -/
def entry? (name : String) : FileTree → Option FileTree
  | file _ => none
  | directory entries => entries.lookup name

/-- Whether this is a directory. -/
def isDirectory : FileTree → Bool
  | file _ => false
  | directory _ => true

/-- Follows the pieces of a path. `above` are the directories that were gone through, the last one
first. -/
def follow (above : List FileTree) (t : FileTree) : List String → Except ReadError FileTree
  | [] => .ok t
  | piece :: pieces =>
    if !t.isDirectory then .error .notDirectory
    else if Path.isVoid piece then follow above t pieces
    else if piece = ".." then
      match above with
      | [] => .error .missing
      | t :: above => follow above t pieces
    else
      match t.entry? piece with
      | none => .error .missing
      | some u => follow (t :: above) u pieces

/-- The tree in which something stands at the end of the names, with the directories on the way. -/
def insert (new : FileTree) : List String → FileTree → FileTree
  | [], _ => new
  | name :: names, t =>
    let entries :=
      match t with
      | file _ => []
      | directory entries => entries
    let inner := insert new names ((entries.lookup name).getD (directory []))
    directory ((name, inner) :: entries.filter fun e => e.1 != name)

mutual

/-- The files of a tree that stands at a path, directory by directory. -/
def files (path : Path) : FileTree → List (Path × Option String)
  | file text => [(path, text)]
  | directory entries =>
    ((entryFiles path entries).mergeSort fun a b => a.1 ≤ b.1).flatMap (·.2)

/-- The files of each entry of a directory. -/
def entryFiles (path : Path) : List (String × FileTree) → List (String × List (Path × Option String))
  | [] => []
  | (name, t) :: entries => (name, t.files (path.join ⟨name⟩)) :: entryFiles path entries

end

end FileTree

/-- A working directory with the files below it. -/
structure WorkingDirectory where
  path : Path
  tree : FileTree

namespace WorkingDirectory

/-- What stands at a path, which is relative to the working directory or starts with it. -/
def find (d : WorkingDirectory) (p : Path) : Except ReadError FileTree :=
  match p.below? d.path with
  | some pieces => d.tree.follow [] pieces
  | none => if p.isAbsolute || p.text.isEmpty then .error .missing else d.tree.follow [] p.pieces

/-- The text of the file at a path. -/
def read (d : WorkingDirectory) (p : Path) : Except ReadError String := do
  match ← d.find p with
  | .file (some text) => .ok text
  | .file none => .error .notText
  | .directory _ => .error .isDirectory

end WorkingDirectory

end TemplatedSql
