import TemplatedSql.Catalog
import TemplatedSql.Session
import TemplatedSql.Value.Action

/-!
# Projects

A project is a configuration, a catalog and the variables of the process. The templates of a project
see, besides the built-in functions, functions that name relations, read variables and take settings,
and the target. A model also sees its own relation under the name `this`.
-/

namespace TemplatedSql

mutual

/-- The value that a template sees of a configured variable. -/
def Value.ofToml : Toml.Value → Value
  | .string s => .string s
  | .integer i => .number (.ofInt i)
  | .float x => .number x
  | .boolean b => .boolean b
  | .datetime text => .string text
  | .array items => .list (Value.ofTomlItems items)
  | .table entries => .ofEntries (Value.ofTomlEntries entries)

/-- The values of the items of an array. -/
def Value.ofTomlItems : List Toml.Value → List Value
  | [] => []
  | v :: vs => Value.ofToml v :: Value.ofTomlItems vs

/-- The values of the entries of a table. -/
def Value.ofTomlEntries : List (String × Toml.Value) → List (String × Value)
  | [] => []
  | (key, v) :: es => (key, Value.ofToml v) :: Value.ofTomlEntries es

end

/-- The target as templates see it. -/
def Target.value (target : Target) : Value :=
  .ofEntries ([("name", .string target.name), ("schema", .string target.schema)] ++
    (target.database.map fun d => ("database", .string d)).toList)

/-- What compiling needs to know. -/
structure Project where
  config : Config
  catalog : Catalog
  /-- The variables of the process. -/
  processVariables : Table String := []

namespace Project

variable (p : Project)

/-- The value that was found, or else the argument `default`, or else a failure. -/
def orDefault (found : Option Value) (arguments : List Argument) (missing : String) :
    Except Cause Value :=
  match found <|> Argument.find? arguments 1 "default" with
  | some v => .ok v
  | none => .error (.runtime missing)

/-- The relation of another model. -/
def refFunction (arguments : List Argument) : Except Cause Value := do
  let name ← Argument.string arguments 0 "name" "ref"
  match p.catalog.model? name with
  | some f => .ok (.string (p.config.target.relation f.name))
  | none => .error (.runtime s!"ref() to unknown model `{name}`")

/-- The relation of a table that the project does not build. -/
def sourceFunction (arguments : List Argument) : Except Cause Value := do
  let source ← Argument.string arguments 0 "source_name" "source"
  let table ← Argument.string arguments 1 "table_name" "source"
  let target : Target := { p.config.target with schema := source }
  .ok (.string (target.relation table))

/-- A variable of the configuration. -/
def varFunction (arguments : List Argument) : Except Cause Value := do
  let name ← Argument.string arguments 0 "name" "var"
  orDefault ((p.config.vars.lookup name).map .ofToml) arguments s!"var `{name}` is not defined"

/-- A variable of the process. -/
def envVarFunction (arguments : List Argument) : Except Cause Value := do
  let name ← Argument.string arguments 0 "name" "env_var"
  orDefault ((p.processVariables.get? name).map .string) arguments s!"environment variable `{name}` is not set"

/-- The functions that a project adds. The last takes the settings of a model and gives nothing. -/
def functions : Table (List Argument → Except Cause Value) :=
  [ ("ref", p.refFunction), ("source", p.sourceFunction), ("var", p.varFunction),
    ("env_var", p.envVarFunction), ("config", fun _ => .ok .undefined) ]

/-- The names that every template of a project sees. -/
def globals : Table Value :=
  let functions := p.functions.zipIdx.map fun (f, i) => (f.1, Value.function (.host i f.1))
  (Environment.builtins.setAll functions).set "target" p.config.target.value

/-- What a file of a project is rendered in. -/
def environment (f : SourceFile) : Environment where
  globals := p.globals
  overlay := if f.kind = .model then [("this", .string (p.config.target.relation f.name))] else []
  library := p.catalog.library
  hosts := p.functions.map fun (name, act) => ⟨name, fun _ arguments => .ofExcept (act arguments)⟩

end Project

end TemplatedSql
