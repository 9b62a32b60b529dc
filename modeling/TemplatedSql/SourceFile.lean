import TemplatedSql.Eval.Context
import TemplatedSql.Path
import TemplatedSql.Tree.Parser.Body

/-!
# Source files

A file of a project has a path, a kind that its directory gives it, and a source.
-/

namespace TemplatedSql

/-- What a file is for. -/
inductive FileKind
  | macroFile
  | model
  | test
  | other
deriving DecidableEq

/-- What a kind of file is called. -/
def FileKind.text : FileKind → String
  | macroFile => "macro"
  | model => "model"
  | test => "test"
  | other => "file"

/-- A file of a project. -/
structure SourceFile where
  path : Path
  kind : FileKind
  source : String

/-- An error in the template of a file. -/
structure CompileError where
  path : Path
  error : TemplateError

/-- The path, then the error. -/
def CompileError.text (e : CompileError) : String :=
  s!"{e.path.text}:{e.error.text}"

namespace SourceFile

/-- The name of a file: its file name without the extension. -/
def name (f : SourceFile) : String :=
  f.path.stem

/-- The names that a model goes by: every ending of its lookup path that starts with a name. -/
def names (f : SourceFile) : List String :=
  match f.path.lookup with
  | [] => [""]
  | parts => (List.range parts.length).map fun i => "/".intercalate (parts.drop i)

/-- The template of a file. -/
def template (f : SourceFile) : Except CompileError Template :=
  match Body.ofSource f.source with
  | .ok body => .ok ⟨f.path.lookupText, body⟩
  | .error e => .error ⟨f.path, e⟩

end SourceFile

end TemplatedSql
