import TemplatedSql.Config
import TemplatedSql.Diagnostic
import TemplatedSql.FileTree
import TemplatedSql.SourceFile

/-!
# The catalog of a project

A catalog holds the files of a project in the order of their paths, and two indexes: of the macro files
by name, and of the models by every name that they go by. No two macro files and no two models may have
the same name. A file recorded under the path of another takes its place among the files.
-/

namespace TemplatedSql

/-- Why a catalog cannot be made. -/
inductive CatalogError
  /-- Two files of a kind have a name in common. -/
  | duplicate (kind : FileKind) (name : String) (first second : Path)
  /-- A file does not hold text. -/
  | unreadable (path : Path)

/-- The wording of an error. -/
def CatalogError.message : CatalogError → String
  | duplicate kind name first second =>
    s!"{kind.text} `{name}` is defined by both {first.text} and {second.text}"
  | unreadable path => s!"failed to read {path.text}: {ReadError.notText.message}"

/-- The diagnostic of an error, at the file that came second or cannot be read. -/
def CatalogError.diagnostic (e : CatalogError) : Diagnostic :=
  match e with
  | duplicate _ _ _ second => ⟨.duplicateDefinition, .error, e.message, some { file := second.text }⟩
  | unreadable path => ⟨.ioError, .error, e.message, some { file := path.text }⟩

/-- The files of a project, found by path or by name. -/
structure Catalog where
  files : List SourceFile := []
  macros : Table SourceFile := []
  models : Table SourceFile := []

namespace Catalog

/-- The files with one more, in the order of their paths. -/
def insertFile (f : SourceFile) : List SourceFile → List SourceFile
  | [] => [f]
  | g :: files =>
    match f.path.order g.path with
    | .lt => f :: g :: files
    | .eq => f :: files
    | .gt => g :: insertFile f files

/-- The index with a file under a name, if it holds no other file under that name. -/
def register (f : SourceFile) (index : Table SourceFile) (name : String) :
    Except CatalogError (Table SourceFile) :=
  match index.get? name with
  | some first => .error (.duplicate f.kind name first.path f.path)
  | none => .ok (index.set name f)

/-- The catalog with one more file. -/
def record (c : Catalog) (f : SourceFile) : Except CatalogError Catalog := do
  let files := insertFile f c.files
  match f.kind with
  | .macroFile => return { c with files, macros := ← register f c.macros f.name }
  | .model => return { c with files, models := ← f.names.foldlM (register f) c.models }
  | .test | .other => return { c with files }

/-- The files of a kind, in the order of their paths. -/
def ofKind (c : Catalog) (kind : FileKind) : List SourceFile :=
  c.files.filter fun f => f.kind = kind

/-- A name without the extensions `.sql` at its end. -/
def trimExtension (name : String) : String :=
  .ofList (go name.toList.reverse).reverse
where
  go : List Char → List Char
    | 'l' :: 'q' :: 's' :: '.' :: cs => go cs
    | cs => cs

/-- The model that goes by a name, with or without extension. -/
def model? (c : Catalog) (name : String) : Option SourceFile :=
  c.models.get? (trimExtension name)

/-- The macro file of a name. -/
def macro? (c : Catalog) (name : String) : Option SourceFile :=
  c.macros.get? name

/-- The templates that can be imported: those of the macro files that can be parsed. -/
def library (c : Catalog) : Table Template :=
  c.macros.filterMap fun (name, f) => f.template.toOption.map fun t => (name, t)

/-- The kind of a file among the default directories: that of the one it stands in. -/
def classify (path : Path) : FileKind :=
  let paths : SourcePaths := {}
  let under (directories : List String) : Bool :=
    match path.lookup with
    | first :: _ :: _ => directories.contains first
    | _ => false
  if under paths.macros then .macroFile
  else if under paths.models then .model
  else if under paths.tests then .test
  else .other

/-- The catalog of given files. -/
def ofFiles (files : List (Path × String)) : Except CatalogError Catalog :=
  files.foldlM (fun c (path, source) => c.record ⟨path, classify path, source⟩) {}

/-- Records a file that was found under a path, unless it is no SQL file or left out. `root` is the path
of the project. -/
def recordFound (paths : SourcePaths) (root : Path) (kind : FileKind) (c : Catalog)
    (found : Path × Option String) : Except CatalogError Catalog :=
  let (path, text) := found
  let shown := path.relativeTo root
  if path.extension? ≠ some "sql" || paths.excludes (shown.lookupText ++ ".sql") then .ok c
  else
    match text with
    | some source => c.record ⟨shown, kind, source⟩
    | none => .error (.unreadable path)

/-- The catalog of the files in the directories of a project. A directory that is not there has no
files. -/
def discover (paths : SourcePaths) (root : Path) (here : WorkingDirectory) :
    Except CatalogError Catalog :=
  let directories :=
    paths.macros.map (FileKind.macroFile, ·) ++ paths.models.map (FileKind.model, ·) ++
      paths.tests.map (FileKind.test, ·)
  directories.foldlM (fun c (kind, directory) =>
    let start := root.join ⟨directory⟩
    match here.find start with
    | .error _ => .ok c
    | .ok t => (t.files start).foldlM (recordFound paths root kind) c) {}

end Catalog

end TemplatedSql
