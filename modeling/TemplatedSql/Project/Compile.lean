import TemplatedSql.Project
import TemplatedSql.WorkPool

/-!
# Compiling a project

Every model and every test of a project is rendered to plain SQL in a context of its own. All files are
parsed before any is rendered, so that a file that cannot be parsed is reported first. Before a single
model is rendered, only the macro files are parsed.
-/

namespace TemplatedSql

/-- Why a command on a project fails. -/
inductive ProjectError
  | catalog (error : CatalogError)
  | compile (error : CompileError)
  | modelNotFound (name : String)

/-- The diagnostic of an error in a file. -/
def CompileError.diagnostic (e : CompileError) : Diagnostic :=
  e.error.diagnostic e.path.text

namespace ProjectError

/-- The wording of an error. -/
def message : ProjectError → String
  | catalog e => e.message
  | compile e => e.text
  | modelNotFound name => s!"model `{name}` not found"

/-- The diagnostic of an error. -/
def diagnostic (e : ProjectError) : Diagnostic :=
  match e with
  | catalog e => e.diagnostic
  | compile e => e.diagnostic
  | modelNotFound _ => ⟨.modelNotFound, .error, e.message, none⟩

end ProjectError

/-- A result, and what templates logged on the way to it. -/
structure Logged (α : Type) where
  result : α
  logs : List (Position × String) := []

/-- The SQL of a project. -/
structure CompiledProject where
  /-- The SQL of each model and test, in the order of their paths. -/
  files : List (Path × String)
  warnings : List Diagnostic

namespace CompiledProject

/-- The files with one more, in the order of their paths. -/
def insertFile (path : Path) (sql : String) : List (Path × String) → List (Path × String)
  | [] => [(path, sql)]
  | (other, text) :: files =>
    match path.order other with
    | .lt => (path, sql) :: (other, text) :: files
    | .eq => (other, sql) :: files
    | .gt => (other, text) :: insertFile path sql files

/-- The compiled project of the SQL of each file, with a warning at each file whose SQL is blank. -/
def ofFiles (files : List (Path × String)) : CompiledProject :=
  let sorted := files.foldl (fun fs f => insertFile f.1 f.2 fs) []
  let isBlank (f : Path × String) : Bool := Text.allBlank f.2.toList
  let warning (f : Path × String) : Diagnostic :=
    ⟨.emptyOutput, .warn, "compiled to empty SQL", some { file := f.1.text }⟩
  ⟨sorted, (sorted.filter isBlank).map warning⟩

end CompiledProject

namespace Project

variable (p : Project)

/-- Parses files: their number, or the error of one that cannot be parsed. -/
def parseFiles (schedule : Nat → Nat) (files : List SourceFile) : Except CompileError Nat :=
  (WorkPool.run SourceFile.template WorkPool.failure (p.config.threads.getD 1) schedule files).result

/-- Parses every file. -/
def parseAll (schedule : Nat → Nat) : Except CompileError Nat :=
  p.parseFiles schedule p.catalog.files

/-- Renders a file. -/
def compileFile (f : SourceFile) : Logged (Except CompileError String) :=
  match f.template with
  | .error e => ⟨.error e, []⟩
  | .ok t =>
    match Session.render (p.environment f) t.body .initial with
    | .done sql c => ⟨.ok sql, c.logs.toList⟩
    | .failed e c => ⟨.error ⟨f.path, e⟩, c.logs.toList⟩
    | .exhausted => ⟨.error ⟨f.path, .start, .recursionLimit maxCallDepth⟩, []⟩

/-- Renders the model that goes by a name. -/
def compileModel (schedule : Nat → Nat) (name : String) : Logged (Except ProjectError String) :=
  match p.catalog.model? name with
  | none => ⟨.error (.modelNotFound name), []⟩
  | some f =>
    match p.parseFiles schedule (p.catalog.ofKind .macroFile) with
    | .error e => ⟨.error (.compile e), []⟩
    | .ok _ =>
      let compiled := p.compileFile f
      { compiled with result := compiled.result.mapError .compile }

/-- The files that are rendered: every model, then every test. -/
def targets : List SourceFile :=
  p.catalog.ofKind .model ++ p.catalog.ofKind .test

/-- Parses every file under one schedule of the workers, then renders every model and every test under
another. The schedules decide which of several errors is reported, and nothing else. -/
def compileWith (render : SourceFile → Logged (Except CompileError String)) (parsing rendering : Nat → Nat) :
    Logged (Except CompileError CompiledProject) :=
  match p.parseAll parsing with
  | .error e => ⟨.error e, []⟩
  | .ok _ =>
    let outcome :=
      WorkPool.run render (fun r => WorkPool.failure r.result) (p.config.threads.getD 1) rendering p.targets
    let logs := outcome.executed.flatMap fun e => e.2.logs
    match outcome.error with
    | some e => ⟨.error e, logs⟩
    | none =>
      let files := outcome.executed.filterMap fun (f, r) => r.result.toOption.map fun sql => (f.path, sql)
      ⟨.ok (.ofFiles files), logs⟩

/-- Renders every model and every test of the project. -/
def compileAll (schedule : Nat → Nat) : Logged (Except CompileError CompiledProject) :=
  p.compileWith p.compileFile schedule schedule

end Project

end TemplatedSql
