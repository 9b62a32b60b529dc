import TemplatedSql.CommandLine.Help
import TemplatedSql.Project.Compile

/-!
# The command

A run of the command depends on its arguments, the files below the working directory, the variables of
the process and the number of threads of the machine. It answers with an exit code and two texts, one for
results and one for messages. The code is 1 after an error in the project and 2 after one in the
arguments.
-/

namespace TemplatedSql.CommandLine

/-- What a run answers. -/
structure Report where
  exit : Nat := 0
  stdout : String := ""
  stderr : String := ""

/-- What a run depends on besides its arguments. -/
structure Surroundings where
  here : WorkingDirectory
  processVariables : Table String
  machineThreads : Nat

/-- The variables that lines of the form `NAME=value` define. A line that is blank or starts with a
number sign defines none. -/
def definedVariables (text : String) : Table String :=
  (Text.split ['\n'] text.toList).filterMap fun line =>
    let line := Text.trim line
    let name := line.takeWhile (· != '=')
    match line.drop name.length with
    | [] => none
    | _ :: value =>
      if line.head? = some '#' then none
      else some (.ofList (Text.trim name), .ofList (Text.trim value))

/-- The variables of the process, and those of the file `.env` that it does not have. -/
def Surroundings.allVariables (s : Surroundings) : Table String :=
  match s.here.read ⟨".env"⟩ with
  | .ok text => s.processVariables ++ definedVariables text
  | .error _ => s.processVariables

/-- The configuration file that is read where none is given. -/
def defaultConfig : Path := ⟨"jinsql.toml"⟩

/-- The path of the project and its configuration, or the text of an error. A file that is not given
need not be there. -/
def loadConfig (s : Surroundings) (given : Option String) : Except String (Path × Option Config) :=
  match given with
  | some text =>
    match Config.load s.here ⟨text⟩ with
    | .ok c => .ok ((Path.mk text).directory, some c)
    | .error e => .error s!"Error: failed to load config from {text}\n\nCaused by:\n    {e.message}\n"
  | none =>
    match s.here.find defaultConfig with
    | .error _ => .ok (s.here.path, none)
    | .ok _ =>
      match Config.load s.here defaultConfig with
      | .ok c => .ok (defaultConfig.directory, some c)
      | .error e => .error s!"Error: {e.message}\n"

/-- A text on a line of its own. -/
def line (text : String) : String := text ++ "\n"

/-- What is said about a project of which every file was compiled. -/
def summary (c : Catalog) (compiled : CompiledProject) : String :=
  let rule := line (.ofList (List.replicate 60 '='))
  let size (kind : FileKind) : Nat := (c.ofKind kind).length
  let warnings := compiled.warnings.length
  "\n" ++ rule ++ line "Compilation Summary" ++ rule ++ "\n" ++
    line s!"  Macros: {size .macroFile}" ++ line s!"  Models: {size .model}" ++
    line s!"  Tests:  {size .test}" ++ (if warnings = 0 then "" else line s!"  Warnings: {warnings}") ++
    "\n" ++ line s!"✓ Compiled {compiled.files.length} files"

/-- The files of a kind, one on a line. -/
def listing (title : String) (files : List SourceFile) : String :=
  line s!"{title} ({files.length})" ++
    String.join (files.map fun f => line s!"  {f.name} {f.path.text}") ++ "\n"

/-- One worker after the other makes all the steps that it can. -/
def inOrder : Nat → Nat := fun _ => 0

/-- Does what a command says with a project. -/
def Command.run (command : Command) (p : Project) : Report :=
  let failed (e : ProjectError) : Report := { exit := 1, stderr := line e.diagnostic.text }
  match command with
  | compile =>
    match (p.compileAll inOrder).result with
    | .error e => failed (.compile e)
    | .ok compiled =>
      { stdout := summary p.catalog compiled
        stderr := String.join (compiled.warnings.map fun d => line d.text) }
  | showModel name =>
    match (p.compileModel inOrder name).result with
    | .error e => failed e
    | .ok sql => { stdout := line sql }
  | list =>
    let files (title : String) (kind : FileKind) : String := listing title (p.catalog.ofKind kind)
    { stdout := files "Macros" .macroFile ++ files "Models" .model ++ files "Tests" .test }

/-- Runs a command with its options. -/
def runCommand (s : Surroundings) (options : Options) (command : Command) : Report :=
  match loadConfig s options.config with
  | .error text => { exit := 1, stderr := text }
  | .ok (root, found) =>
    let config := found.getD {}
    let threads := ((options.threads.map (max 1 ·)) <|> config.threads).getD s.machineThreads
    let config := { config with threads := some threads }
    let noted := if found.isNone then line "No config file found, using defaults" else ""
    let introduced :=
      if options.verbose then
        noted ++ line s!"Project: {config.name} ({threads} threads, target {config.target.name})"
      else ""
    let report : Report :=
      match Catalog.discover config.paths root s.here with
      | .error e => { exit := 1, stderr := line e.diagnostic.text }
      | .ok catalog => command.run { config, catalog, processVariables := s.allVariables }
    { report with stderr := introduced ++ report.stderr }

/-- Runs the command with its arguments. -/
def run (s : Surroundings) (arguments : List String) : Report :=
  match Request.ofArguments? arguments with
  | none => { exit := 2, stderr := usageText }
  | some (.help topic) => { stdout := topic.text }
  | some .version => { stdout := versionText }
  | some (.run options command) => runCommand s options command

end TemplatedSql.CommandLine
